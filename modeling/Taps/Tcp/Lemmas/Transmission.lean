import Taps.Tcp.Lemmas.Deframing
import Taps.Tcp.Lemmas.Link
import Taps.Tcp.Lemmas.Records
import Taps.Tcp.Theorems
import Taps.Tcp.Transmission

/-!
# The bytes between two connections

What has been written is at every step the front of the records of the Messages sent, and what has been read is
the front of what has been written. What the rule of the framer says of such a front is a front of the Messages.
-/

namespace Taps

open Lib (Deframer Item)

/-! ## The rule and the scan -/

namespace LengthPrefixedFramer

variable {f : LengthPrefixedFramer} {s : List Byte}

/-- The rule says of a whole stream what the scan says. -/
theorem expectedReplies_deframer (f : LengthPrefixedFramer) (s : List Byte) :
    expectedReplies f.deframer false s = f.scan s := by
  induction hn : s.length using Nat.strongRecOn generalizing s with
  | ind n ih =>
      have hpos := f.pos
      by_cases hnil : s = []
      · subst hnil
        have hmore : f.deframer.decide [] true = .more := if_pos f.pos
        rw [Session.expectedReplies_more hmore, scan, if_pos rfl]
        rfl
      rw [scan, if_neg hnil]
      by_cases hw : s.length < f.lengthFieldSize
      · have hmore : f.deframer.decide s true = .more := if_pos hw
        rw [Session.expectedReplies_more hmore, if_pos hw, if_pos (.inr hnil)]
      rw [if_neg hw]
      by_cases hrec : s.length < f.lengthFieldSize + f.headerLength s
      · rw [if_pos hrec]
        by_cases hbody : s.length = f.lengthFieldSize
        · have hmore : f.deframer.decide s true = .more := by
            simp only [deframer, if_neg hw, if_pos hrec]
            rw [if_neg (by omega)]
          rw [Session.expectedReplies_more hmore, if_pos hbody, if_pos (.inr hnil)]
        · have hpart : f.deframer.decide s true
              = .record f.lengthFieldSize (s.length - f.lengthFieldSize) false := by
            simp only [deframer, if_neg hw, if_pos hrec]
            rw [if_pos ⟨trivial, by omega⟩]
          have hmore : f.deframer.decide [] true = .more := if_pos f.pos
          have hall := Session.expectedReplies_arrived false hpart [] fun _ => rfl
          rw [List.append_nil, List.append_nil, Nat.add_sub_cancel' (by omega), List.drop_length,
            Session.expectedReplies_more hmore, List.take_of_length_le (by simp)] at hall
          rw [if_neg hbody, hall]
          rfl
      · have hwhole : f.deframer.decide s true = .record f.lengthFieldSize (f.headerLength s) true := by
          simp only [deframer, if_neg hw, if_neg hrec]
        have hlen : (s.drop (f.lengthFieldSize + f.headerLength s)).length < n := by
          rw [List.length_drop]
          omega
        have hall := Session.expectedReplies_arrived false hwhole [] fun _ => rfl
        rw [List.append_nil, List.append_nil, Bool.not_true, ih _ hlen _ rfl] at hall
        rw [if_neg hrec, hall]

theorem headerLength_of_isPrefix {u : List Byte} (hu : u <+: s) (hw : f.lengthFieldSize ≤ u.length) :
    f.headerLength u = f.headerLength s := by
  obtain ⟨rest, rfl⟩ := hu
  exact (headerLength_append hw rest).symm

end LengthPrefixedFramer

/-! ## What a front of the records delivers -/

namespace Transmission

open LengthPrefixedFramer

variable {f : LengthPrefixedFramer} {mem : Memory} {m : Message} {ms : List Message} {u : List Byte}

theorem Delivers.of_isPrefix {payloads : List (List Byte)} {replies replies' : List Reply}
    (h : Delivers payloads replies) (hp : replies' <+: replies) : Delivers payloads replies' := by
  induction h generalizing replies' with
  | nothing payloads =>
      rw [List.prefix_nil.mp hp]
      exact .nothing _
  | ended payloads =>
      rcases List.prefix_cons_iff.mp hp with rfl | ⟨rs, rfl, hrs⟩
      · exact .nothing _
      · rw [List.prefix_nil.mp hrs]
        exact .ended _
  | broken p payloads =>
      rcases List.prefix_cons_iff.mp hp with rfl | ⟨rs, rfl, hrs⟩
      · exact .nothing _
      · rw [List.prefix_nil.mp hrs]
        exact .broken _ _
  | part payloads h hne =>
      rcases List.prefix_cons_iff.mp hp with rfl | ⟨rs, rfl, hrs⟩
      · exact .nothing _
      · rw [List.prefix_nil.mp hrs]
        exact .part _ h hne
  | cut payloads h hne =>
      rcases List.prefix_cons_iff.mp hp with rfl | ⟨rs, rfl, hrs⟩
      · exact .nothing _
      · rcases List.prefix_cons_iff.mp hrs with rfl | ⟨rs', rfl, hrs'⟩
        · exact .part _ h hne
        · rw [List.prefix_nil.mp hrs']
          exact .cut _ h hne
  | next p _ ih =>
      rcases List.prefix_cons_iff.mp hp with rfl | ⟨rs, rfl, hrs⟩
      · exact .nothing _
      · exact .next _ (ih hrs)

/-- The front of one record and no more. -/
theorem delivers_of_short (h : f.Encodes m) (hu : u <+: f.record mem m)
    (hshort : u.length < (f.record mem m).length) (payloads : List (List Byte)) :
    Delivers (m.payload mem :: payloads) (f.scan u) := by
  have hlen := length_record f mem m
  have hhead := headerLength_record mem h []
  rw [List.append_nil] at hhead
  rw [scan]
  split
  · exact .ended _
  split
  · exact .broken _ _
  rename_i hw
  have heq := headerLength_of_isPrefix hu (Nat.not_lt.mp hw)
  rw [hhead] at heq
  rw [heq, if_pos (by omega)]
  split
  · exact .broken _ _
  have hbody : u.drop f.lengthFieldSize <+: m.payload mem := by
    obtain ⟨rest, hrest⟩ := hu
    refine ⟨rest, ?_⟩
    rw [← List.drop_append_of_le_length (Nat.not_lt.mp hw), hrest, record, List.drop_left' (length_fieldBytes ..)]
  refine .cut _ hbody fun hall => ?_
  have := congrArg List.length hall
  rw [List.length_drop, Message.length_payload] at this
  omega

/-- The induction is on the Messages whose records the bytes are a front of. -/
theorem delivers_of_isPrefix (h : ∀ m ∈ ms, f.Encodes m) (hu : u <+: ms.flatMap (f.record mem)) :
    Delivers (ms.map (Message.payload mem)) (f.scan u) := by
  induction ms generalizing u with
  | nil =>
      rw [List.prefix_nil.mp hu, scan, if_pos rfl]
      exact .ended _
  | cons m ms ih =>
      rw [List.forall_mem_cons] at h
      rw [List.flatMap_cons] at hu
      rw [List.map_cons]
      by_cases hshort : u.length < (f.record mem m).length
      · exact delivers_of_short h.1 (List.prefix_of_prefix_length_le hu (List.prefix_append ..) hshort.le) hshort _
      · obtain ⟨v, rfl⟩ := List.prefix_of_prefix_length_le (List.prefix_append ..) hu (Nat.not_lt.mp hshort)
        rw [(scan_record_append h.1 v).1]
        exact .next _ (ih h.2 ((List.prefix_append_right_inj _).mp hu))

end Transmission

/-! ## When the stream has ended -/

namespace TCPConnection

variable {σ : Type} {mem : Memory} {outside : List Addr} {fresh : Addr} {c c' : TCPConnection σ} {p : Progress}

theorem receiveEof_fail (c : TCPConnection σ) (e : TAPSError) : (c.fail e).1.receiveEof = c.receiveEof := by
  obtain ⟨state, ended, h⟩ := receiveFailure_fst c e
  simp [fail, h]

theorem receiveEof_act (c : TCPConnection σ) (pr : ParseResult) :
    (c.act mem outside fresh pr).1.receiveEof = c.receiveEof := by
  unfold act
  split
  · unfold emitRecord
    split
    · exact receiveEof_fail ..
    · rfl
  · split
    · unfold endOfStream
      split
      · obtain ⟨state, ended, h⟩ := receiveFailure_fst c.discardUnparsed c.incompleteError
        have heof := congrArg TCPConnection.receiveEof h
        exact heof
      · rfl
    · cases hr : c.readBlock outside fresh with
      | some r => rw [issueRead_of_some hr]
      | none =>
          rw [issueRead_of_none hr]
          exact receiveEof_fail ..

theorem receiveEof_receive {f : MessageFramer σ} (hframer : c.framer = some f) :
    (c.receive mem outside fresh).1.receiveEof = c.receiveEof := by
  unfold receive
  split
  · rfl
  · rw [hframer]
    exact receiveEof_act ..

theorem receiveEof_resume {f : MessageFramer σ} (hframer : c.framer = some f) {ec : Option ErrorCode} {n : Nat}
    (hec : ec ≠ some .eof) (htr : ec ≠ some .streamTruncated)
    (h : c.resume mem outside fresh ec n = some (c', p)) : c'.receiveEof = c.receiveEof := by
  cases ec with
  | none =>
      cases hr : c.currentBlock with
      | none => simp [resume, finishRead, hr] at h
      | some r =>
          have hturn := Option.some.inj ((resume_chunk hframer hr n).symm.trans h)
          exact (congrArg (fun t => t.1.receiveEof) hturn).symm.trans (receiveEof_act ..)
  | some code =>
      have heq := resume_connectionError mem outside fresh (fun hc => hec (congrArg some hc)) (fun hc => htr (congrArg some hc)) c n
      rw [heq] at h
      exact (congrArg (fun t => t.1.receiveEof) (Option.some.inj h)).symm.trans (receiveEof_fail ..)

end TCPConnection

namespace Session

variable {σ : Type} {s s' : Session σ} {f : MessageFramer σ} {e : SessionEvent σ}

/-- The stream ends with a read that says so, or with one that says that it was cut off. -/
theorem step_receiveEof (hframer : s.conn.framer = some f) (hst : s.step e = some s') (he : e.KeepsFramer) :
    s'.conn.receiveEof = s.conn.receiveEof ∨ (∃ fresh, e = .readDone (.failed .eof) fresh) ∨
      .truncated ∈ s'.history.replies := by
  cases e with
  | receive fresh =>
      obtain ⟨-, -, c, p, heq, rfl⟩ := step_receive hst
      left
      exact (congrArg (fun t => t.1.receiveEof) heq).symm.trans (TCPConnection.receiveEof_receive hframer)
  | readDone outcome fresh =>
      obtain ⟨b, c, p, -, -, -, heq, rfl⟩ := step_readDone hst
      by_cases hec : outcome.code = some .eof
      · right
        left
        cases outcome with
        | data bs => cases hec
        | failed ec =>
            cases hec
            exact ⟨fresh, rfl⟩
      by_cases htr : outcome.code = some .streamTruncated
      · right
        right
        rw [htr, TCPConnection.resume_truncated] at heq
        cases heq
        rw [settle_history, History.record_replies]
        exact List.mem_append_right _ (List.mem_singleton.mpr rfl)
      · left
        exact TCPConnection.receiveEof_resume hframer hec htr heq
  | drop i =>
      cases hst
      exact .inl rfl
  | others state aborted =>
      cases hst
      exact .inl rfl
  | setFramer framer framerState => exact he.elim

end Session

/-! ## Transmissions -/

namespace Transmission

variable {native native' : Endian} {f : LengthPrefixedFramer} {t t' : Transmission} {m : Message}

theorem sendBegin_established {c : TCPConnection Unit} (hstate : c.state = .established)
    (hframer : c.framer = some (f.toFramer native)) (mem : Memory) (m : Message) :
    c.sendBegin mem m = (c, .ok (.ofMessage mem (f.writeHeader native m) m)) := by
  rw [TCPConnection.sendBegin, if_neg (not_not.mpr hstate)]
  split
  · rename_i hf
    cases hframer.symm.trans hf
  · rename_i hf
    cases hframer.symm.trans hf
    rfl

theorem flatten_buffers_record (mem : Memory) (h : f.Encodes m) :
    ((ConstBufferSequence.ofMessage mem (f.writeHeader native m) m).buffers mem).flatten = f.record mem m := by
  rw [ConstBufferSequence.flatten_buffers_ofMessage, LengthPrefixedFramer.writeHeader_eq h]
  rfl

theorem sendBegin_refused {c : TCPConnection Unit} (hstate : c.state ≠ .established) (mem : Memory) (m : Message) :
    ∃ e, c.sendBegin mem m = (c, .error e) := by
  rw [TCPConnection.sendBegin, if_pos hstate]
  exact ⟨_, rfl⟩

/-- `left` is what has yet to be handed to the network of the records of the Messages sent. -/
structure Inv (native native' : Endian) (f : LengthPrefixedFramer) (t : Transmission) : Prop where
  framer : t.sender.framer = some (f.toFramer native)
  wire : ∃ left, t.written ++ left = t.sent.flatMap (f.record t.mem) ∧
    (∀ bs, t.sending = some bs → left = bs) ∧ (t.sending = none → t.failed = false → left = [])
  failed : t.failed = true → t.sender.state ≠ .established
  finished : t.finished = true → t.sender.state ≠ .established
  read : t.receiver.history.read <+: t.written
  receiver : t.receiver.conn.framer = some (f.toFramer native') ∧
    ∃ mem pool es, (Session.fixedFramer Unit).Run
      (.create mem (.create .established (some (f.toFramer native')) () pool)) es t.receiver
  ended : t.receiver.conn.receiveEof = true →
    t.finished = true ∧ t.receiver.history.read = t.written ∨ .truncated ∈ t.receiver.history.replies

theorem create_inv (native native' : Endian) (f : LengthPrefixedFramer) (mem mem' : Memory)
    (pool pool' : MessageBlockPool) : Inv native native' f (create native native' f mem mem' pool pool') :=
  { framer := rfl
    wire := ⟨[], rfl, by simp [create], fun _ _ => rfl⟩
    failed := by simp [create]
    finished := by simp [create]
    read := List.prefix_rfl
    receiver := ⟨rfl, mem', pool', [], .refl⟩
    ended := fun h => by cases h }

/-- The sender is where it was, but for its state. -/
theorem Inv.of_sender (h : Inv native native' f t) {c : TCPConnection Unit} (hframer : c.framer = t.sender.framer)
    (hstate : t.sender.state ≠ .established → c.state ≠ .established) :
    Inv native native' f { t with sender := c } :=
  { h with
    framer := hframer.trans h.framer
    failed := fun hf => hstate (h.failed hf)
    finished := fun hf => hstate (h.finished hf) }

theorem send_inv (h : Inv native native' f t) (hst : t.step (.send m) = some t')
    (hencodes : ∀ m ∈ t'.sent, f.Encodes m) : Inv native native' f t' := by
  simp only [step] at hst
  split at hst
  · rename_i hidle
    by_cases hstate : t.sender.state = .established
    · rw [sendBegin_established hstate h.framer] at hst
      cases hst
      have hgood : t.failed = false := by
        by_contra hf
        exact h.failed (by simpa using hf) hstate
      obtain ⟨left, hwire, -, hdone⟩ := h.wire
      rw [hdone hidle hgood, List.append_nil] at hwire
      refine { h with wire := ⟨f.record t.mem m, ?_, ?_, ?_⟩ }
      · simp [hwire]
      · intro bs hbs
        rw [← Option.some.inj hbs, flatten_buffers_record t.mem (hencodes m (by simp))]
      · intro hsending
        cases hsending
    · obtain ⟨e, hbegin⟩ := sendBegin_refused hstate t.mem m
      rw [hbegin] at hst
      cases hst
      exact h
  · cases hst

theorem write_inv {n : Nat} (h : Inv native native' f t) (hst : t.step (.write n) = some t') :
    Inv native native' f t' := by
  simp only [step] at hst
  split at hst
  · rename_i bs hsending
    split at hst
    · rename_i hn
      cases hst
      obtain ⟨left, hwire, hleft, -⟩ := h.wire
      have hl := hleft bs hsending
      subst hl
      refine
        { h with
          wire := ⟨left.drop n, ?_, ?_, ?_⟩
          read := h.read.trans (List.prefix_append ..)
          ended := ?_ }
      · rw [List.append_assoc, List.take_append_drop, hwire]
      · intro bs hbs
        exact Option.some.inj hbs
      · intro hnone
        cases hnone
      · intro heof
        refine (h.ended heof).imp (fun hfin => ?_) id
        rw [hn.2] at hfin
        exact absurd hfin.1 Bool.false_ne_true
    · cases hst
  · cases hst

theorem sendDone_inv (h : Inv native native' f t) (hst : t.step .sendDone = some t') : Inv native native' f t' := by
  simp only [step] at hst
  split at hst
  · rename_i hsending
    cases hst
    obtain ⟨left, hwire, hleft, -⟩ := h.wire
    have hl := hleft [] hsending
    refine { h with wire := ⟨left, hwire, ?_, fun _ _ => hl⟩ }
    intro bs hbs
    cases hbs
  · cases hst

theorem sendFailed_inv {ec : ErrorCode} (h : Inv native native' f t) (hst : t.step (.sendFailed ec) = some t') :
    Inv native native' f t' := by
  simp only [step] at hst
  split at hst
  · rename_i hguard
    cases hst
    have hend : (t.sender.sendEnd (some ec)).1.framer = t.sender.framer ∧
        (t.sender.sendEnd (some ec)).1.state ≠ .established := by
      unfold TCPConnection.sendEnd
      split
      · rename_i hec
        cases hec
      · rename_i code hec
        cases hec
        split
        · rename_i habort
          exact ⟨rfl, hguard.2 habort.1⟩
        · exact ⟨rfl, nofun⟩
    obtain ⟨left, hwire, -, -⟩ := h.wire
    refine
      { h with
        framer := hend.1.trans h.framer
        wire := ⟨left, hwire, ?_, ?_⟩
        failed := fun _ => hend.2
        finished := fun _ => hend.2 }
    · intro bs hbs
      cases hbs
    · intro _ hf
      cases hf
  · cases hst

theorem keepsFramer_of_carries {e : SessionEvent Unit} (h : t.carries e = true) : e.KeepsFramer := by
  cases e with
  | setFramer framer framerState => cases h
  | receive fresh | readDone outcome fresh | drop i | others state aborted => exact trivial

/-- What a read brings is on its way. -/
theorem received_of_carries {e : SessionEvent Unit} (h : t.carries e = true)
    (hread : t.receiver.history.read <+: t.written) :
    t.receiver.history.read ++ e.received <+: t.written := by
  cases e with
  | readDone outcome fresh =>
      cases outcome with
      | data bs => exact of_decide_eq_true h
      | failed ec => simpa [SessionEvent.received, ReadOutcome.bytes] using hread
  | receive fresh | drop i | others state aborted => simpa [SessionEvent.received] using hread
  | setFramer framer framerState => cases h

theorem receiver_inv {e : SessionEvent Unit} (h : Inv native native' f t) (hst : t.step (.receiver e) = some t') :
    Inv native native' f t' := by
  simp only [step] at hst
  split at hst
  · rename_i hcarries
    obtain ⟨r, hr, rfl⟩ := Option.map_eq_some_iff.mp hst
    have hkeeps := keepsFramer_of_carries hcarries
    obtain ⟨hframer, mem, pool, es, hrun⟩ := h.receiver
    obtain ⟨hi, ha⟩ := Session.reachable_accounting ⟨_, es, ⟨_, _, _, _, _, rfl⟩, hrun⟩
    have hread := Session.read_step hi ha hr hkeeps
    have hfront : r.history.read <+: t.written := hread ▸ received_of_carries hcarries h.read
    refine
      { h with
        read := hfront
        receiver := ⟨(Session.step_framer hr hkeeps).trans hframer, mem, pool, _,
          hrun.append (.step ⟨hr, hkeeps⟩ .refl)⟩
        ended := ?_ }
    intro heof
    show t.finished = true ∧ r.history.read = t.written ∨ .truncated ∈ r.history.replies
    rcases Session.step_receiveEof hframer hr hkeeps with hsame | ⟨fresh, rfl⟩ | htr
    · rcases h.ended (hsame ▸ heof) with ⟨hfin, hall⟩ | htr
      · left
        refine ⟨hfin, hfront.eq_of_length_le ?_⟩
        rw [hread, ← hall, List.length_append]
        omega
      · exact .inr ((Session.step_replies hi ha hr hkeeps).subset htr)
    · simp only [carries, Bool.and_eq_true, decide_eq_true_eq] at hcarries
      rw [hread, SessionEvent.received, ReadOutcome.bytes, List.append_nil]
      exact .inl hcarries
    · exact .inr htr
  · cases hst

theorem step_inv {e : TransmissionEvent} (h : Inv native native' f t) (hst : t.step e = some t')
    (hencodes : ∀ m ∈ t'.sent, f.Encodes m) : Inv native native' f t' := by
  cases e with
  | send m => exact send_inv h hst hencodes
  | write n => exact write_inv h hst
  | sendDone => exact sendDone_inv h hst
  | sendFailed ec => exact sendFailed_inv h hst
  | close =>
      obtain ⟨c, hc, rfl⟩ := Option.map_eq_some_iff.mp hst
      obtain ⟨-, rfl⟩ := Link.closeBegin_eq_some hc
      exact h.of_sender rfl fun _ => nofun
  | abort =>
      cases hst
      exact h.of_sender rfl fun _ => nofun
  | lost =>
      cases hst
      exact h.of_sender rfl fun _ => nofun
  | finish =>
      simp only [step] at hst
      split at hst
      · rename_i hstate
        cases hst
        exact
          { h with
            finished := fun _ => hstate
            ended := fun heof => (h.ended heof).imp (fun hfin => ⟨rfl, hfin.2⟩) id }
      · cases hst
  | receiver e => exact receiver_inv h hst

theorem step_sent {e : TransmissionEvent} (hst : t.step e = some t') : t.sent <+: t'.sent := by
  cases e with
  | send m =>
      simp only [step] at hst
      split at hst
      · split at hst
        · cases hst
          exact List.prefix_append ..
        · cases hst
          exact List.prefix_rfl
      · cases hst
  | write n =>
      simp only [step] at hst
      split at hst
      · split at hst <;> cases hst
        exact List.prefix_rfl
      · cases hst
  | sendDone | sendFailed ec | finish =>
      simp only [step] at hst
      split at hst <;> cases hst
      exact List.prefix_rfl
  | close =>
      obtain ⟨c, -, rfl⟩ := Option.map_eq_some_iff.mp hst
      exact List.prefix_rfl
  | abort | lost =>
      cases hst
      exact List.prefix_rfl
  | receiver e =>
      simp only [step] at hst
      split at hst
      · obtain ⟨r, -, rfl⟩ := Option.map_eq_some_iff.mp hst
        exact List.prefix_rfl
      · cases hst

theorem reachable_inv (h : (system native native' f).Reachable t) (hencodes : ∀ m ∈ t.sent, f.Encodes m) :
    Inv native native' f t := by
  refine h.invariant (I := fun t => (∀ m ∈ t.sent, f.Encodes m) → Inv native native' f t) ?_ ?_ hencodes
  · rintro _ ⟨mem, mem', pool, pool', rfl⟩ _
    exact create_inv ..
  · intro t e t' hi hst hencodes
    exact step_inv (hi fun m hm => hencodes m ((step_sent hst).subset hm)) hst hencodes

end Transmission

end Taps
