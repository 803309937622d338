import Taps.Tcp.Lemmas.Deframing
import Taps.Tcp.Lemmas.Gathered
import Taps.Tcp.Lemmas.Transmission
import Taps.Tcp.Theorems

/-!
# What receives return, whatever happens to the connection

The results of the receives are what the rule of the framer says of the stream, over every run: reads that
fail, receives that are refused at the cap of live blocks, and closes do not change what the Messages are.
-/

namespace Taps

open Lib (Deframer)

namespace Session

variable {σ : Type} {s s' : Session σ} {d : Deframer Byte} {f : MessageFramer σ}

/-! ## Any framer that follows a rule -/

theorem run_deframes (hf : f.Follows d) {mem : Memory} {state : ConnectionState} {framerState : σ}
    {pool : MessageBlockPool} {es : List (SessionEvent σ)}
    (hrun : (fixedFramer σ).Run (create mem (.create state (some f) framerState pool)) es s)
    (hlen : s.history.read.length < 2 ^ 64) : Deframes d s := by
  have hinv : Inv s ∧ Accounting s ∧ (s.history.read.length < 2 ^ 64 → Deframes d s) := by
    refine hrun.preserves
      (I := fun s => Inv s ∧ Accounting s ∧ (s.history.read.length < 2 ^ 64 → Deframes d s)) ?_ ?_
    · rintro s e s' ⟨hi, ha, hd⟩ ⟨hst, he⟩
      refine ⟨step_inv hi hst, step_accounting hi ha hst he, fun hlen => ?_⟩
      refine step_deframes (hd ?_) hi ha hst he hlen
      rw [read_step hi ha hst he, List.length_append] at hlen
      omega
    · exact ⟨create_inv .., create_accounting .., fun _ => create_deframes hf ..⟩
  exact hinv.2.2 hlen

/-- The Messages and deframing errors that the receives have returned are a prefix of what the rule says of
the bytes read, less than `2 ^ 64`, and any that may still follow. Once the receives have ended they are all of it,
unless a TLS stream was cut off. A receive waits for no byte while the next result is already in the chain. -/
theorem replies_follow_rule (hf : f.Follows d) {mem : Memory} {state : ConnectionState} {framerState : σ}
    {pool : MessageBlockPool} {es : List (SessionEvent σ)}
    (hrun : (fixedFramer σ).Run (create mem (.create state (some f) framerState pool)) es s)
    (hlen : s.history.read.length < 2 ^ 64) :
    (∀ rest, (s.conn.receiveEof = true → rest = []) →
      s.history.streamReplies <+: expectedReplies d false (s.history.read ++ rest)) ∧
    (s.conn.receiveEnded = true → .truncated ∉ s.history.replies →
      s.history.streamReplies = expectedReplies d false s.history.read) ∧
    ∀ fresh s', s.step (.receive fresh) = some s' → s.conn.canReceive = true →
      (s.conn.receiveEof = true ∨ d.decide s.unparsed false ≠ .more) →
      ∃ r, r.ofStream = true ∧ s'.history.replies = s.history.replies ++ [r] ∧ s'.pending = none := by
  have h := run_deframes hf hrun hlen
  have ha := (reachable_accounting ⟨_, es, ⟨_, _, _, _, _, rfl⟩, hrun⟩).2
  refine ⟨fun rest hrest => h.isPrefix hrest, fun hend hcut => ?_, fun fresh s' hst hcan hhere => ?_⟩
  · exact (h.done hend).resolve_right fun htr => hcut htr.1
  · exact step_receive_prompt h ha hlen hst hcan hhere

/-- Records with one byte of length on a pool that is capped. -/
def recordsStart : Session Unit :=
  create (fun _ _ => 0) (.create .established
    (some ((LengthPrefixedFramer.create 1 .big).toFramer .little)) () { tinyPool with maxLiveBlocks := 1 })

/-- One read brings three records and the header of a fourth; the fourth receive is refused at the cap. -/
def recordsEvents : List (SessionEvent Unit) :=
  [.receive ⟨1, fun _ => 0⟩, .readDone (.data [1, 7, 0, 2, 3, 4, 9]) ⟨2, fun _ => 0⟩, .receive ⟨2, fun _ => 0⟩,
    .receive ⟨2, fun _ => 0⟩, .receive ⟨2, fun _ => 0⟩]

theorem replies_follow_rule_capped : ∃ s, recordsEvents.foldlM step recordsStart = some s ∧
    s.history.streamReplies = [.message [7] true, .message [] true, .message [3, 4] true] ∧
    ∀ rest, s.history.streamReplies
      <+: expectedReplies (LengthPrefixedFramer.create 1 .big).deframer false (s.history.read ++ rest) := by
  have hsome : (recordsEvents.foldlM step recordsStart).isSome := rfl
  obtain ⟨s, hs⟩ := Option.isSome_iff_exists.mp hsome
  have hsteps : ∀ e ∈ recordsEvents, ∀ s s', step s e = some s' → (fixedFramer Unit).step s e s' := by
    simp only [recordsEvents, List.forall_mem_cons]
    exact ⟨fun _ _ h => ⟨h, trivial⟩, fun _ _ h => ⟨h, trivial⟩, fun _ _ h => ⟨h, trivial⟩,
      fun _ _ h => ⟨h, trivial⟩, fun _ _ h => ⟨h, trivial⟩, by simp⟩
  have hread : s.history.read = [1, 7, 0, 2, 3, 4, 9] := by
    cases hs
    rfl
  have heof : s.conn.receiveEof = false := by
    cases hs
    rfl
  obtain ⟨hpre, -⟩ := replies_follow_rule (LengthPrefixedFramer.follows .little (by decide))
    (.of_foldlM hsteps hs) (by rw [hread]; decide)
  refine ⟨s, hs, ?_, fun rest => hpre rest fun h => by cases heof.symm.trans h⟩
  cases hs
  rfl

/-! ## The whole stream as one Message -/

/-- What the receives have to return for the stream `s` with the framer that does not frame. -/
def wholeStream (s : List Byte) : List Reply :=
  (if s = [] then [] else [.message s true]) ++ [.message [] true]

theorem expectedReplies_passthrough (s : List Byte) :
    expectedReplies PassthroughFramer.deframer false s = wholeStream s := by
  have hnil : PassthroughFramer.deframer.decide [] true = .more := rfl
  by_cases hs : s = []
  · subst hs
    rw [expectedReplies_more hnil]
    rfl
  · have hdecide : PassthroughFramer.deframer.decide s true = .record 0 s.length true := by
      simp [PassthroughFramer.deframer, hs]
    have hall := expectedReplies_arrived false hdecide [] fun _ => rfl
    rw [List.append_nil, List.append_nil, List.drop_zero, List.take_length, Nat.zero_add, List.drop_length,
      Bool.not_true, expectedReplies_more hnil] at hall
    rw [hall, wholeStream, if_neg hs]
    rfl

/-- Before the peer has ended its side, no receive returns a Message. The first that returns one has the
whole stream in it, of less than `2 ^ 64` bytes, and the next one ends it. With `gather`, `as_bytes()` of a Message
that the application keeps is those bytes already, and builds nothing. -/
theorem passthrough_whole_stream (f : PassthroughFramer) {mem : Memory} {state : ConnectionState}
    {pool : MessageBlockPool} {es : List (SessionEvent Unit)} {s : Session Unit}
    (hrun : (fixedFramer Unit).Run (create mem (.create state (some f.toFramer) () pool)) es s)
    (hlen : s.history.read.length < 2 ^ 64) :
    (s.conn.receiveEof = false → s.history.streamReplies = []) ∧
    s.history.streamReplies <+: wholeStream s.history.read ∧
    (s.conn.receiveEnded = true → .truncated ∉ s.history.replies →
      s.history.streamReplies = wholeStream s.history.read) ∧
    (f.gather = true → ∀ m ∈ s.kept, m.asBytes s.mem = (m.payload s.mem, m)) := by
  obtain ⟨hpre, hall, -⟩ := replies_follow_rule f.follows hrun hlen
  simp only [expectedReplies_passthrough] at hpre hall
  refine ⟨fun heof => ?_, ?_, hall, fun hgather m hm => ?_⟩
  · -- two streams that go on in different ways have no first Message in common
    have hzero := hpre [0] fun h => by cases heof.symm.trans h
    have hone := hpre [1] fun h => by cases heof.symm.trans h
    cases hreplies : s.history.streamReplies with
    | nil => rfl
    | cons r rs =>
        simp only [hreplies, wholeStream, List.append_eq_nil_iff, List.cons_ne_nil, and_false, if_false,
          List.cons_append, List.cons_prefix_cons] at hzero hone
        have hsame := hzero.1.symm.trans hone.1
        simp at hsame
  · simpa using hpre [] fun _ => rfl
  · obtain ⟨hsettled, hcoherent⟩ := (run_keepsGathered (PassthroughFramer.gathers hgather) hrun).kept m hm
    exact Prod.ext (Message.asBytes_of_coherent hcoherent) (Message.asBytes_of_settled hsettled s.mem)

/-- Reads into two blocks, and then the end of the stream. -/
def wholeEvents : List (SessionEvent Unit) :=
  [.receive ⟨1, fun _ => 0⟩, .readDone (.data [1, 2, 3, 4, 5, 6, 7]) ⟨2, fun _ => 0⟩, .readDone (.data [8, 9]) ⟨3, fun _ => 0⟩,
    .readDone (.failed .eof) ⟨3, fun _ => 0⟩, .receive ⟨3, fun _ => 0⟩]

theorem passthrough_whole_stream_two :
    ∃ s, wholeEvents.foldlM step (create (fun _ _ => 0)
        (.create .established (some (PassthroughFramer.toFramer {})) () tinyPool)) = some s ∧
      s.history.streamReplies = [.message [1, 2, 3, 4, 5, 6, 7, 8, 9] true, .message [] true] ∧
      s.kept.map Message.gathered = [some [1, 2, 3, 4, 5, 6, 7, 8, 9]] ∧
      s.history.streamReplies <+: wholeStream s.history.read := by
  have hsteps : ∀ e ∈ wholeEvents, ∀ s s', step s e = some s' → (fixedFramer Unit).step s e s' := by
    simp only [wholeEvents, List.forall_mem_cons]
    exact ⟨fun _ _ h => ⟨h, trivial⟩, fun _ _ h => ⟨h, trivial⟩, fun _ _ h => ⟨h, trivial⟩,
      fun _ _ h => ⟨h, trivial⟩, fun _ _ h => ⟨h, trivial⟩, by simp⟩
  have hsome : (wholeEvents.foldlM step (create (fun _ _ => 0)
      (.create .established (some (PassthroughFramer.toFramer {})) () tinyPool))).isSome := rfl
  obtain ⟨s, hs⟩ := Option.isSome_iff_exists.mp hsome
  have hread : s.history.read = [1, 2, 3, 4, 5, 6, 7, 8, 9] := by
    cases hs
    rfl
  obtain ⟨-, hpre, -, -⟩ := passthrough_whole_stream {} (.of_foldlM hsteps hs) (by rw [hread]; decide)
  refine ⟨s, hs, ?_, ?_, hpre⟩
  · cases hs
    rfl
  · cases hs
    rfl

end Session

namespace Transmission

variable {native native' : Endian} {f : LengthPrefixedFramer} {t : Transmission}

/-! ## From sender to receiver -/

theorem prefix_of_prefix_concat {α : Type} {l a : List α} {x y : α} {ys : List α} (h : l <+: a ++ [x])
    (h' : l <+: a ++ y :: ys) (hne : x ≠ y) : l <+: a := by
  rcases List.prefix_concat_iff.mp h with rfl | h
  · rw [List.prefix_append_right_inj, List.cons_prefix_cons] at h'
    exact absurd h'.1 hne
  · exact h

/-- With one send at a time and Messages whose sizes fit the length field, however the writes are cut and the sends and
receives fail, and whenever either side closes or aborts: the receiver gets the Messages in order, each once and whole,
and no other bytes. What it gets of a Message that was not written to its end is marked as a part and followed by an
error. If no send has failed and the sender has closed, the receiver gets all of them. Less than `2 ^ 64` bytes are
written. -/
theorem transmission_delivers (h : (system native native' f).Reachable t) (hw : f.lengthFieldSize < 8)
    (hencodes : ∀ m ∈ t.sent, f.Encodes m) (hlen : t.written.length < 2 ^ 64) :
    Delivers t.payloads t.receiver.history.streamReplies ∧
    (t.receiver.conn.receiveEof = false →
      t.receiver.history.streamReplies <+: t.payloads.map (.message · true)) ∧
    (t.sending = none → t.failed = false → t.receiver.conn.receiveEnded = true →
      .truncated ∉ t.receiver.history.replies →
      t.receiver.history.streamReplies = t.payloads.map (.message · true) ++ [.message [] true]) := by
  obtain ⟨-, ⟨left, hwire, -, hdone⟩, -, -, hread, ⟨-, mem, pool, es, hrun⟩, hended⟩ := reachable_inv h hencodes
  have hshort : t.receiver.history.read.length < 2 ^ 64 := Nat.lt_of_le_of_lt hread.length_le hlen
  obtain ⟨hpre, hall, -⟩ := Session.replies_follow_rule (LengthPrefixedFramer.follows native' hw) hrun hshort
  simp only [LengthPrefixedFramer.expectedReplies_deframer] at hpre hall
  have hfront : t.receiver.history.read <+: t.sent.flatMap (f.record t.mem) :=
    hread.trans ⟨left, hwire⟩
  have hscan : f.scan (t.sent.flatMap (f.record t.mem))
      = t.sent.map (fun m => .message (m.payload t.mem) true) ++ [.message [] true] :=
    LengthPrefixedFramer.scan_records hencodes
  have hmap : t.payloads.map (Reply.message · true)
      = t.sent.map fun m => Reply.message (m.payload t.mem) true := by
    rw [payloads, List.map_map]
    rfl
  refine ⟨?_, fun heof => ?_, fun hidle hgood hend hcut => ?_⟩
  · have hnow := hpre [] fun _ => rfl
    rw [List.append_nil] at hnow
    exact (delivers_of_isPrefix hencodes hfront).of_isPrefix hnow
  · -- the stream may end behind these Messages, or go on with one more
    obtain ⟨rest, hrest⟩ := hfront
    have hone : f.Encodes (.ofVector [0]) := by
      have hpow : 256 ^ 1 ≤ 256 ^ f.lengthFieldSize := Nat.pow_le_pow_right (by decide) f.pos
      constructor
      · show 1 < 256 ^ f.lengthFieldSize
        omega
      · show f.lengthFieldSize + 1 < 2 ^ 64
        omega
    have hopen : ∀ rest : List Byte, t.receiver.conn.receiveEof = true → rest = [] := fun _ he => by
      cases heof.symm.trans he
    have hends := hpre rest (hopen rest)
    have hgoes := hpre (rest ++ f.record t.mem (.ofVector [0])) (hopen _)
    have hmore : t.receiver.history.read ++ (rest ++ f.record t.mem (.ofVector [0]))
        = (t.sent ++ [Message.ofVector [0]]).flatMap (f.record t.mem) := by
      rw [← List.append_assoc, hrest, List.flatMap_append, List.flatMap_singleton]
    rw [hrest, hscan] at hends
    rw [hmore, LengthPrefixedFramer.scan_records (by simpa [or_imp, forall_and] using ⟨hencodes, hone⟩),
      List.map_append, List.append_assoc] at hgoes
    rw [hmap]
    have hpayload : (Message.ofVector [0]).payload t.mem = [0] := rfl
    exact prefix_of_prefix_concat hends hgoes (by simp [hpayload])
  · have heof := (Session.run_deframes (LengthPrefixedFramer.follows native' hw) hrun hshort).ended hend
    obtain ⟨-, hlast⟩ := (hended heof).resolve_right hcut
    rw [hdone hidle hgood, List.append_nil] at hwire
    rw [hall hend hcut, hlast, hwire, hscan, hmap]

/-- Two bytes in one Message, of which the network takes the header and one byte first, and then the close. -/
def sendEvents : List TransmissionEvent :=
  [.receiver (.receive ⟨1, fun _ => 0⟩), .send (.ofVector [5, 6]), .write 2,
    .receiver (.readDone (.data [2, 5]) ⟨2, fun _ => 0⟩), .write 1, .sendDone,
    .receiver (.readDone (.data [6]) ⟨2, fun _ => 0⟩), .close, .finish, .receiver (.receive ⟨2, fun _ => 0⟩),
    .receiver (.readDone (.failed .eof) ⟨3, fun _ => 0⟩)]

theorem transmission_delivers_one : ∃ t, sendEvents.foldlM step
      (create .little .big (.create 1 .big) (fun _ _ => 0) (fun _ _ => 0) tinyPool tinyPool) = some t ∧
    t.payloads = [[5, 6]] ∧ t.receiver.history.streamReplies = [.message [5, 6] true, .message [] true] := by
  have hsome : (sendEvents.foldlM step
      (create .little .big (.create 1 .big) (fun _ _ => 0) (fun _ _ => 0) tinyPool tinyPool)).isSome := rfl
  obtain ⟨t, ht⟩ := Option.isSome_iff_exists.mp hsome
  have hreach : (system .little .big (.create 1 .big)).Reachable t :=
    ⟨_, sendEvents, ⟨_, _, _, _, rfl⟩, .of_foldlM (fun _ _ _ _ hst => hst) ht⟩
  obtain ⟨hsent, hwritten, hlast, hpayloads⟩ : t.sent = [.ofVector [5, 6]] ∧ t.written = [2, 5, 6] ∧
      (t.sending = none ∧ t.failed = false ∧ t.receiver.conn.receiveEnded = true ∧
        .truncated ∉ t.receiver.history.replies) ∧ t.payloads = [[5, 6]] := by
    cases ht
    exact ⟨rfl, rfl, ⟨rfl, rfl, rfl, by decide⟩, rfl⟩
  obtain ⟨-, -, hall⟩ := transmission_delivers hreach (by decide)
    (by simp [hsent, LengthPrefixedFramer.Encodes]; decide) (by simp [hwritten])
  refine ⟨t, ht, hpayloads, ?_⟩
  rw [hall hlast.1 hlast.2.1 hlast.2.2.1 hlast.2.2.2, hpayloads]
  rfl

end Transmission

end Taps
