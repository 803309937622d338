import Taps.Tcp.Lemmas.Records
import Taps.Udp.Lemmas.Exchange

/-!
# Sending a Message behind a header

What a `send()` on a Connection of any of the three kinds puts on the wire, and what it returns.
-/

namespace Taps

variable {σ : Type}

/-- An operation of a socket completes with `ec`, or with `n` bytes. -/
def outcome (ec : Option ErrorCode) (n : Nat) : Except ErrorCode Nat :=
  match ec with
  | some ec => .error ec
  | none => .ok n

/-- A `send()` that came to its socket: `written` is what the socket has sent of the header and the Message,
`ec` the error that it reported, and the last argument the result. Without an error a stream, and a datagram
of a Listener, has been sent whole. -/
inductive Sends (framer : MessageFramer σ) (mem : Memory) (m : Message) :
    List Byte → Option ErrorCode → Result Unit → Prop
  | tcp {c c' : TCPConnection σ} {seq : ConstBufferSequence} {ec : Option ErrorCode} {n : Nat}
      (hf : c.framer = some framer) (h : c.sendBegin mem m = (c', .ok seq))
      (hn : ec = none → n = (seq.buffers mem).flatten.length) :
      Sends framer mem m ((seq.buffers mem).flatten.take n) ec (c'.sendEnd ec).2
  | active {E : Type} {c c' : ActiveUDPConnection σ E} {seq : ConstBufferSequence}
      {ec : Option ErrorCode} {n : Nat} (hf : c.framer = some framer)
      (h : c.sendBegin mem m = (c', .ok seq)) :
      Sends framer mem m ((seq.buffers mem).flatten.take n) ec
        (c'.sendEnd (seq.header.length + m.size) (outcome ec n))
  | passive {c : PassiveUDPConnection} {framerState framerState' : σ} {seq : ConstBufferSequence}
      {ec : Option ErrorCode} {n : Nat}
      (h : c.sendBegin (some framer) framerState mem m = .ok (seq, framerState'))
      (hn : ec = none → n = (seq.buffers mem).flatten.length) :
      Sends framer mem m ((seq.buffers mem).flatten.take n) ec (c.sendEnd (outcome ec n))

/-- What a `send()` with a length-prefixed framer has to do: if it succeeds, the header that was written is
decoded as the size of the Message on every host, and a Message whose size has no place in the header is
refused and nothing is written. -/
def LengthPrefixedFramer.Announces (f : LengthPrefixedFramer) (m : Message) (written : List Byte)
    (r : Result Unit) : Prop :=
  (r = .ok () → ∀ native, (decodeLength native (written.take f.lengthFieldSize) f.lengthFieldSize
    f.byteOrder).toNat = m.size) ∧
  (256 ^ f.lengthFieldSize ≤ m.size →
    (∃ err, r = .error err ∧ err.reason = .messageTooLarge) ∧ written = [])

/-! ## The three kinds -/

variable {framer : MessageFramer σ} {mem : Memory} {m : Message} {written : List Byte}
  {ec : Option ErrorCode} {r : Result Unit}

theorem reasonFrom_eq_messageTooLarge {ec : ErrorCode} :
    reasonFrom ec = .messageTooLarge ↔ ec = .messageSize := by
  cases ec <;> simp [reasonFrom]

/-- What the socket reports is the result: success, or an error of the same kind. -/
def Reports (ec : Option ErrorCode) (r : Result Unit) : Prop :=
  (r = .ok () → ec = none) ∧
    ∀ err, r = .error err → (err.reason = .messageTooLarge ↔ ec = some .messageSize)

theorem reports_ok : Reports none (.ok ()) := ⟨fun _ => rfl, by simp⟩

theorem reports_ioError (event : ErrorEvent) (ec : ErrorCode) :
    Reports (some ec) (.error (ioError event ec)) := by
  refine ⟨by simp, fun err he => ?_⟩
  cases he
  simp [ioError, reasonFrom_eq_messageTooLarge]

theorem reports_other {err : TAPSError} (hec : ec ≠ some .messageSize)
    (herr : err.reason ≠ .messageTooLarge) : Reports ec (.error err) := by
  refine ⟨by simp, fun err' he => ?_⟩
  cases he
  exact iff_of_false herr hec

theorem reports_udpFailure (ec : ErrorCode) (aborted : Bool) :
    Reports (some ec) (.error (udpFailure .sendError ec aborted)) := by
  unfold udpFailure
  split
  · rename_i h
    subst h
    apply reports_other (by simp)
    unfold cancelled
    split <;> simp
  · exact reports_ioError .sendError ec

theorem reports_tcp (c : TCPConnection σ) (ec : Option ErrorCode) : Reports ec (c.sendEnd ec).2 := by
  unfold TCPConnection.sendEnd
  cases ec with
  | none => exact reports_ok
  | some ec =>
      simp only
      split
      · rename_i h
        rw [h.1]
        exact reports_other (by simp) (by simp)
      · exact reports_ioError .connectionError ec

theorem reports_active {E : Type} (c : ActiveUDPConnection σ E) (size : Nat) (ec : Option ErrorCode)
    (n : Nat) : Reports ec (c.sendEnd size (outcome ec n)) := by
  cases ec with
  | none =>
      simp only [outcome, ActiveUDPConnection.sendEnd]
      split
      · exact reports_other (by simp) (by simp)
      · exact reports_ok
  | some ec => exact reports_udpFailure ec c.aborted

theorem reports_passive (c : PassiveUDPConnection) (ec : Option ErrorCode) (n : Nat) :
    Reports ec (c.sendEnd (outcome ec n)) := by
  cases ec with
  | none => exact reports_ok
  | some ec => exact reports_udpFailure ec c.aborted

theorem Sends.reports (h : Sends framer mem m written ec r) : Reports ec r := by
  cases h with
  | tcp => exact reports_tcp _ ec
  | active => exact reports_active _ _ ec _
  | passive => exact reports_passive _ ec _

/-- A `send()` that succeeds has written the header and the Message, both whole. -/
theorem Sends.whole (h : Sends framer mem m written ec (.ok ())) :
    ∃ framerState, written = (framer.writeHeader framerState mem m).1 ++ m.payload mem := by
  have hec : ec = none := h.reports.1 rfl
  generalize hr : (.ok () : Result Unit) = r at h
  cases h with
  | @tcp c c' seq _ n hf hb hn =>
      rw [hn hec, List.take_length]
      unfold TCPConnection.sendBegin at hb
      split at hb
      · cases hb
      · rw [hf] at hb
        cases hb
        exact ⟨_, ConstBufferSequence.flatten_buffers_ofMessage ..⟩
  | @active E c c' seq _ n hf hb =>
      obtain ⟨framerState, hheader, hflat⟩ : ∃ framerState,
          seq.header = (framer.writeHeader framerState mem m).1 ∧
          (seq.buffers mem).flatten = (framer.writeHeader framerState mem m).1 ++ m.payload mem := by
        unfold ActiveUDPConnection.sendBegin at hb
        split at hb
        · cases hb
        · rw [hf] at hb
          cases hb
          exact ⟨c.framerState, ConstBufferSequence.header_ofMessage .., flatten_udpBuffers c.framerState⟩
      have hsize : n = seq.header.length + m.size := by
        rw [hec] at hr
        simp only [outcome, ActiveUDPConnection.sendEnd] at hr
        split at hr
        · cases hr
        · rename_i hn
          exact not_not.mp hn
      refine ⟨framerState, ?_⟩
      rw [hflat, hsize, hheader, List.take_of_length_le]
      rw [List.length_append, Message.length_payload]
  | @passive c framerState framerState' seq _ n hb hn =>
      rw [hn hec, List.take_length]
      unfold PassiveUDPConnection.sendBegin at hb
      split at hb
      · cases hb
      · cases hb
        exact ⟨_, flatten_udpBuffers framerState⟩

/-! ## The header -/

theorem length_writeHeader (native : Endian) (f : LengthPrefixedFramer) (m : Message) :
    (f.writeHeader native m).length = f.lengthFieldSize := by
  rw [LengthPrefixedFramer.writeHeader, encodeLength_eq f.le, length_fieldBytes]

theorem decode_writeHeader {f : LengthPrefixedFramer} (h : m.size < 256 ^ f.lengthFieldSize)
    (native native' : Endian) :
    (decodeLength native' (f.writeHeader native m) f.lengthFieldSize f.byteOrder).toNat = m.size := by
  have hsize : m.size < 2 ^ 64 :=
    Nat.lt_of_lt_of_le h (Nat.pow_le_pow_right (by decide : 0 < 256) f.le)
  rw [toNat_decodeLength (length_writeHeader native f m) f.le, LengthPrefixedFramer.writeHeader,
    encodeLength_eq f.le, fieldValue_fieldBytes, UInt64.toNat_ofNat', Nat.mod_eq_of_lt hsize,
    Nat.mod_eq_of_lt h]

end Taps
