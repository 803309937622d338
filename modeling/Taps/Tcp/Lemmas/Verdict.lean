import Taps.Tcp.Link

/-!
# What a stretch of a receive makes of the state

A stretch ends the connection with a `CONNECTION_ERROR` and leaves its state alone otherwise, and once the
peer's stream has ended it leaves no receive after the one that reports it.
-/

namespace Taps

/-- The state once an operation has returned with the error, if any. -/
def ConnectionState.after (s : ConnectionState) : Option TAPSError → ConnectionState
  | some e => if e.event = .connectionError then .closed else s
  | none => s

theorem ConnectionState.after_of_ne {e : TAPSError} (s : ConnectionState)
    (h : e.event ≠ .connectionError) : s.after (some e) = s := if_neg h

theorem ConnectionState.after_of_eq {e : TAPSError} (s : ConnectionState)
    (h : e.event = .connectionError) : s.after (some e) = .closed := if_pos h

/-- No error of the stretch looks like that of a receive which `close()` or `abort()` has ended. -/
def Progress.Genuine (p : Progress) : Prop :=
  ∀ e, p.error = some e → e.reason ≠ .invalidState ∧ e.reason ≠ .localAbort

namespace TCPConnection

variable {σ : Type} {mem : Memory} {outside : List Addr} {fresh : Addr} {c c₁ c' : TCPConnection σ}
  {p : Progress}

/-- What a stretch from `c` to `c'` that ends in `p` makes of the state and of the end of the stream. -/
structure Verdict (c c' : TCPConnection σ) (p : Progress) : Prop where
  state : c'.state = c.state.after p.error
  aborted : c'.aborted = c.aborted
  localAbort : ∀ e, p.error = some e → e.reason = .localAbort → c.aborted = true
  ended : c.receiveEnded = true → c'.receiveEnded = true
  eof : c.receiveEof = true → c'.receiveEof = true
  last : ∀ m, p = .ended m → c'.receiveEnded = true
  failed : ∀ e, p.error = some e → e.event = .receiveError → c'.receiveEof = true →
    c'.canReceive = false

theorem Verdict.of_eq (h : Verdict c₁ c' p) (hstate : c₁.state = c.state)
    (haborted : c₁.aborted = c.aborted) (hended : c₁.receiveEnded = c.receiveEnded)
    (heof : c.receiveEof = true → c₁.receiveEof = true) : Verdict c c' p where
  state := hstate ▸ h.state
  aborted := h.aborted.trans haborted
  localAbort e he hr := haborted ▸ h.localAbort e he hr
  ended he := h.ended (hended.trans he)
  eof he := h.eof (heof he)
  last := h.last
  failed := h.failed

theorem canReceive_of_ended (h : c.receiveEnded = true) : c.canReceive = false := by
  simp [canReceive, h]

theorem Verdict.of_same (hp : p.error = none) (hlast : ∀ m, p ≠ .ended m) (hstate : c'.state = c.state)
    (haborted : c'.aborted = c.aborted) (hended : c'.receiveEnded = c.receiveEnded)
    (heof : c'.receiveEof = c.receiveEof) : Verdict c c' p where
  state := by rw [hstate, hp]; rfl
  aborted := haborted
  localAbort e he := by rw [hp] at he; cases he
  ended he := hended.trans he
  eof he := heof.trans he
  last m hm := absurd hm (hlast m)
  failed e he := by rw [hp] at he; cases he

/-! ## Failures -/

theorem reason_reclassify {e : TAPSError} (h : (c.reclassify e).reason = .localAbort) :
    c.aborted = true := by
  unfold reclassify at h
  split at h
  · cases h
  · rename_i hne
    by_contra ha
    exact hne ⟨h, ha⟩

theorem receiveFailure_verdict (c : TCPConnection σ) (e : TAPSError) (hp : p.error = some (c.reclassify e))
    (hlast : ∀ m, p ≠ .ended m) : Verdict c (c.receiveFailure e).1 p := by
  have hreason : ∀ e', p.error = some e' → e'.reason = .localAbort → c.aborted = true := by
    intro e' he' hr
    rw [hp] at he'
    cases he'
    exact reason_reclassify hr
  unfold receiveFailure
  split
  · rename_i hevent
    refine
      { state := by rw [hp, ConnectionState.after_of_eq _ hevent]
        aborted := rfl, localAbort := hreason, ended := id, eof := id
        last := fun m hm => absurd hm (hlast m), failed := ?_ }
    intro e' _ _ _
    simp [canReceive]
  · rename_i hevent
    split
    · rename_i heof
      exact
        { state := by rw [hp, ConnectionState.after_of_ne _ hevent]
          aborted := rfl, localAbort := hreason, ended := fun _ => rfl, eof := id
          last := fun m hm => absurd hm (hlast m)
          failed := fun _ _ _ _ => canReceive_of_ended rfl }
    · rename_i heof
      exact
        { state := by rw [hp, ConnectionState.after_of_ne _ hevent]
          aborted := rfl, localAbort := hreason, ended := id, eof := id
          last := fun m hm => absurd hm (hlast m)
          failed := fun _ _ _ he => absurd he heof }

theorem fail_verdict (c : TCPConnection σ) (e : TAPSError) : Verdict c (c.fail e).1 (c.fail e).2 := by
  refine receiveFailure_verdict c e ?_ nofun
  rw [← receiveFailure_snd]
  rfl

theorem ended_verdict (c : TCPConnection σ) (m : Message) :
    Verdict c { c with receiveEnded := true } (.ended m) where
  state := rfl
  aborted := rfl
  localAbort := fun e he => by cases he
  ended _ := rfl
  eof := id
  last _ _ := rfl
  failed := fun e he => by cases he

/-! ## A turn of the loop -/

theorem emitRecord_verdict (mem : Memory) (c : TCPConnection σ) (pr : ParseResult) :
    Verdict c (c.emitRecord mem pr).1 (c.emitRecord mem pr).2 := by
  unfold emitRecord
  split
  · exact fail_verdict c _
  · exact .of_same rfl nofun rfl rfl rfl rfl

theorem endOfStream_verdict (c : TCPConnection σ) :
    Verdict c c.endOfStream.1 c.endOfStream.2 := by
  unfold endOfStream
  split
  · have hp : (Progress.incomplete c.receiveChain.size
        (c.discardUnparsed.receiveFailure c.incompleteError).2).error
        = some (c.discardUnparsed.reclassify c.incompleteError) := by
      rw [receiveFailure_snd]
      rfl
    exact (receiveFailure_verdict c.discardUnparsed c.incompleteError hp nofun).of_eq rfl rfl rfl id
  · exact ended_verdict c _

theorem issueRead_verdict (outside : List Addr) (fresh : Addr) (c : TCPConnection σ) :
    Verdict c (c.issueRead outside fresh).1 (c.issueRead outside fresh).2 := by
  unfold issueRead startRead
  cases hb : c.readBlock outside fresh with
  | some r => exact .of_same rfl nofun rfl rfl rfl rfl
  | none => exact (fail_verdict { c with currentBlock := none } _).of_eq rfl rfl rfl id

theorem framedTurn_verdict (f : MessageFramer σ) (mem : Memory) (outside : List Addr) (fresh : Addr)
    (c : TCPConnection σ) :
    Verdict c (c.framedTurn f mem outside fresh).1 (c.framedTurn f mem outside fresh).2 := by
  unfold framedTurn
  obtain ⟨pr, framerState⟩ := f.parse c.framerState ⟨mem, c.receiveChain⟩ c.receiveEof
  have h : Verdict { c with framerState } ({ c with framerState }.act mem outside fresh pr).1
      ({ c with framerState }.act mem outside fresh pr).2 := by
    unfold act
    split
    · exact emitRecord_verdict mem _ pr
    · split
      · exact endOfStream_verdict _
      · exact issueRead_verdict outside fresh _
  exact h.of_eq rfl rfl rfl id

theorem refused_verdict {e : TAPSError} (h : c.receiveRefused = some e) : Verdict c c (.failed e) := by
  unfold receiveRefused at h
  split at h
  · cases h
  · rename_i hc
    cases h
    exact
      { state := rfl, aborted := rfl, localAbort := fun _ he hr => by cases he; cases hr
        ended := id, eof := id, last := nofun
        failed := fun _ _ _ _ => by simpa using hc }

theorem receive_verdict (mem : Memory) (outside : List Addr) (fresh : Addr) (c : TCPConnection σ) :
    Verdict c (c.receive mem outside fresh).1 (c.receive mem outside fresh).2 := by
  unfold receive
  cases hr : c.receiveRefused with
  | some e => exact refused_verdict hr
  | none =>
      cases c.framer with
      | none => exact issueRead_verdict outside fresh c
      | some f => exact framedTurn_verdict f mem outside fresh c

/-! ## From a read on -/

/-- `finish_read` leaves the state alone; where it fails, the stream has ended if that is a
`RECEIVE_ERROR`. -/
theorem finishRead_cases {ec : Option ErrorCode} {n : Nat} {r : Result (Option BlockRef)}
    (h : c.finishRead ec n = some (c₁, r)) :
    c₁.state = c.state ∧ c₁.aborted = c.aborted ∧ c₁.receiveEnded = c.receiveEnded ∧
      (c.receiveEof = true → c₁.receiveEof = true) := by
  unfold finishRead at h
  split at h
  · cases h
    exact ⟨rfl, rfl, rfl, fun _ => rfl⟩
  · split at h
    · cases h
      exact ⟨rfl, rfl, rfl, fun _ => rfl⟩
    · cases h
      exact ⟨rfl, rfl, rfl, id⟩
  · split at h
    · cases h
    · cases h
      exact ⟨rfl, rfl, rfl, id⟩

theorem unframedChunk_verdict (c : TCPConnection σ) (chunk : Option BlockRef) :
    Verdict c (c.unframedChunk chunk).1 (c.unframedChunk chunk).2 := by
  cases chunk with
  | none => exact ended_verdict c _
  | some r => exact .of_same rfl nofun rfl rfl rfl rfl

theorem framedChunk_verdict (f : MessageFramer σ) (mem : Memory) (outside : List Addr) (fresh : Addr)
    (c : TCPConnection σ) (chunk : Option BlockRef) :
    Verdict c (c.framedChunk f mem outside fresh chunk).1 (c.framedChunk f mem outside fresh chunk).2 := by
  cases chunk with
  | none => exact framedTurn_verdict f mem outside fresh c
  | some r =>
      exact (framedTurn_verdict f mem outside fresh
        { c with receiveChain := c.receiveChain.append r }).of_eq rfl rfl rfl id

/-- The stretch goes on from what `finish_read` leaves. -/
theorem resume_finishRead {ec : Option ErrorCode} {n : Nat}
    (h : c.resume mem outside fresh ec n = some (c', p)) :
    ∃ c₁ r, c.finishRead ec n = some (c₁, r) ∧ Verdict c₁ c' p := by
  obtain ⟨⟨c₁, r⟩, hf, heq⟩ := Option.map_eq_some_iff.mp h
  refine ⟨c₁, r, hf, ?_⟩
  cases r with
  | error e =>
      have hv := fail_verdict c₁ e
      simp only at heq
      rwa [heq] at hv
  | ok chunk =>
      cases hfr : c₁.framer with
      | none =>
          have hv := unframedChunk_verdict c₁ chunk
          simp only [hfr] at heq
          rwa [heq] at hv
      | some f =>
          have hv := framedChunk_verdict f mem outside fresh c₁ chunk
          simp only [hfr] at heq
          rwa [heq] at hv

theorem resume_verdict {ec : Option ErrorCode} {n : Nat}
    (h : c.resume mem outside fresh ec n = some (c', p)) : Verdict c c' p := by
  obtain ⟨c₁, r, hf, hv⟩ := resume_finishRead h
  obtain ⟨hstate, haborted, hended, heof⟩ := finishRead_cases hf
  exact hv.of_eq hstate haborted hended heof

theorem resume_peerEnded {code : ErrorCode} {n : Nat} (hcode : code = .eof ∨ code = .streamTruncated)
    (h : c.resume mem outside fresh (some code) n = some (c', p)) : c'.receiveEof = true := by
  obtain ⟨c₁, r, hf, hv⟩ := resume_finishRead h
  rcases hcode with rfl | rfl
  · cases hf
    exact hv.eof rfl
  · cases hf
    exact hv.eof rfl

/-! ## Errors of a read that this side has not cancelled -/

theorem genuine_of_none (h : p.error = none) : p.Genuine := by
  intro e he
  rw [h] at he
  cases he

theorem reclassify_of_ne {e : TAPSError} (h : e.reason ≠ .localAbort) : c.reclassify e = e :=
  if_neg fun h' => h h'.1

theorem genuine_of_error {e : TAPSError} (hp : p.error = some (c.reclassify e))
    (h : e.reason ≠ .invalidState ∧ e.reason ≠ .localAbort) : p.Genuine := by
  intro e' he'
  rw [hp, reclassify_of_ne h.2] at he'
  cases he'
  exact h

theorem fail_genuine (c : TCPConnection σ) {e : TAPSError}
    (h : e.reason ≠ .invalidState ∧ e.reason ≠ .localAbort) : (c.fail e).2.Genuine := by
  refine genuine_of_error (c := c) (e := e) ?_ h
  rw [← receiveFailure_snd]
  rfl

theorem issueRead_genuine (outside : List Addr) (fresh : Addr) (c : TCPConnection σ) :
    (c.issueRead outside fresh).2.Genuine := by
  unfold issueRead startRead
  cases hb : c.readBlock outside fresh with
  | some r => exact genuine_of_none rfl
  | none => exact fail_genuine _ ⟨nofun, nofun⟩

theorem framedTurn_genuine (f : MessageFramer σ) (mem : Memory) (outside : List Addr) (fresh : Addr)
    (c : TCPConnection σ) : (c.framedTurn f mem outside fresh).2.Genuine := by
  unfold framedTurn
  obtain ⟨pr, framerState⟩ := f.parse c.framerState ⟨mem, c.receiveChain⟩ c.receiveEof
  show ({ c with framerState }.act mem outside fresh pr).2.Genuine
  unfold act
  split
  · unfold emitRecord
    split
    · exact fail_genuine _ ⟨nofun, nofun⟩
    · exact genuine_of_none rfl
  · split
    · unfold endOfStream
      split
      · refine genuine_of_error (c := discardUnparsed { c with framerState })
          (e := incompleteError { c with framerState }) ?_ ⟨nofun, nofun⟩
        rw [← receiveFailure_snd]
        rfl
      · exact genuine_of_none rfl
    · exact issueRead_genuine outside fresh _

theorem readFailure_genuine {ec : ErrorCode} (h : ec ≠ .operationAborted) :
    (readFailure ec).reason ≠ .invalidState ∧ (readFailure ec).reason ≠ .localAbort := by
  cases ec with
  | operationAborted => exact absurd rfl h
  | _ => exact ⟨nofun, nofun⟩

theorem finishRead_error {ec : Option ErrorCode} {n : Nat} {e : TAPSError}
    (h : c.finishRead ec n = some (c₁, .error e)) : ∃ code, ec = some code ∧ e = readFailure code := by
  unfold finishRead at h
  split at h
  · cases h
  · rename_i code _
    split at h
    · cases h
      exact ⟨code, rfl, rfl⟩
    · cases h
      exact ⟨code, rfl, rfl⟩
  · split at h
    · cases h
    · cases h

theorem resume_genuine {ec : Option ErrorCode} {n : Nat} (hec : ec ≠ some .operationAborted)
    (h : c.resume mem outside fresh ec n = some (c', p)) : p.Genuine := by
  obtain ⟨⟨c₁, r⟩, hf, heq⟩ := Option.map_eq_some_iff.mp h
  cases r with
  | error e =>
      obtain ⟨code, rfl, rfl⟩ := finishRead_error hf
      have hg := fail_genuine c₁ (readFailure_genuine fun hc => hec (congrArg some hc))
      simp only at heq
      rwa [heq] at hg
  | ok chunk =>
      cases hfr : c₁.framer with
      | none =>
          simp only [hfr] at heq
          cases chunk with
          | none =>
              cases heq
              exact genuine_of_none rfl
          | some r =>
              cases heq
              exact genuine_of_none rfl
      | some f =>
          simp only [hfr] at heq
          cases chunk with
          | none =>
              have hg := framedTurn_genuine f mem outside fresh c₁
              rwa [show c₁.framedTurn f mem outside fresh = (c', p) from heq] at hg
          | some r =>
              have hg := framedTurn_genuine f mem outside fresh
                { c₁ with receiveChain := c₁.receiveChain.append r }
              rwa [show framedTurn f mem outside fresh _ = (c', p) from heq] at hg

theorem resume_cancelled {n : Nat}
    (h : c.resume mem outside fresh (some .operationAborted) n = some (c', p)) :
    ∃ e, p = .failed e ∧
      (c.aborted = true → e.event = .connectionError ∧ e.reason = .localAbort) ∧
      (c.aborted = false → e.event = .receiveError ∧ e.reason = .invalidState) := by
  have hp : p = .failed (c.reclassify (readFailure .operationAborted)) := by
    rw [← receiveFailure_snd]
    exact (congrArg Prod.snd (Option.some.inj h)).symm
  refine ⟨_, hp, fun ha => ?_, fun ha => ?_⟩
  · simp [reclassify, ha, readFailure, ioError, reasonFrom]
  · simp [reclassify, ha, readFailure, ioError, reasonFrom]

end TCPConnection

end Taps
