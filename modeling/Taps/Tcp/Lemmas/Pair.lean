import Taps.Tcp.Lemmas.Link
import Taps.Tcp.Pair

/-!
# Lemmas on the two ends of a TCP connection
-/

namespace Taps

/-! ## Errors that end a connection -/

namespace TCPConnection

variable {σ : Type} {c c' c₁ : TCPConnection σ} {p : Progress} {mem : Memory} {outside : List Addr} {fresh : Addr}

/-- The stretch returns no error that ends the connection. -/
def Quiet (p : Progress) : Prop := ∀ e, p.error = some e → e.event ≠ .connectionError

theorem quiet_of_none (h : p.error = none) : Quiet p := by
  intro e he
  rw [h] at he
  cases he

theorem reclassify_event {e : TAPSError} (h : e.event = .receiveError) : (c.reclassify e).event = .receiveError := by
  unfold reclassify
  split
  · rfl
  · exact h

theorem fail_quiet (c : TCPConnection σ) {e : TAPSError} (h : e.event = .receiveError) : Quiet (c.fail e).2 := by
  intro e' he'
  have heq : (c.fail e).2 = .failed (c.reclassify e) := congrArg Progress.failed (c.receiveFailure_snd e)
  rw [heq] at he'
  cases he'
  rw [reclassify_event h]
  exact nofun

theorem issueRead_quiet (outside : List Addr) (fresh : Addr) (c : TCPConnection σ) :
    Quiet (c.issueRead outside fresh).2 := by
  unfold issueRead startRead
  cases hb : c.readBlock outside fresh with
  | some r => exact quiet_of_none rfl
  | none => exact fail_quiet _ rfl

theorem framedTurn_quiet (f : MessageFramer σ) (mem : Memory) (outside : List Addr) (fresh : Addr)
    (c : TCPConnection σ) : Quiet (c.framedTurn f mem outside fresh).2 := by
  unfold framedTurn
  obtain ⟨pr, framerState⟩ := f.parse c.framerState ⟨mem, c.receiveChain⟩ c.receiveEof
  show Quiet ({ c with framerState }.act mem outside fresh pr).2
  unfold act
  split
  · unfold emitRecord
    split
    · exact fail_quiet _ rfl
    · exact quiet_of_none rfl
  · split
    · unfold endOfStream
      split
      · exact fail_quiet (discardUnparsed { c with framerState }) (e := incompleteError { c with framerState }) rfl
      · exact quiet_of_none rfl
    · exact issueRead_quiet outside fresh _

theorem receive_quiet (mem : Memory) (outside : List Addr) (fresh : Addr) (c : TCPConnection σ) :
    Quiet (c.receive mem outside fresh).2 := by
  unfold receive
  cases hr : c.receiveRefused with
  | some e =>
      intro e' he'
      cases he'
      unfold receiveRefused at hr
      split at hr
      · cases hr
      · cases hr
        exact nofun
  | none =>
      cases hf : c.framer with
      | some f => exact framedTurn_quiet f mem outside fresh c
      | none => exact issueRead_quiet outside fresh c

/-- A read that `close()` has cancelled does not end the connection, and that the peer has ended its side does not. -/
theorem resume_quiet {ec : Option ErrorCode} {n : Nat}
    (hec : ∀ code, ec = some code → code = .eof ∨ code = .operationAborted ∧ c.aborted = false)
    (h : c.resume mem outside fresh ec n = some (c', p)) : Quiet p := by
  obtain ⟨⟨c₁, r⟩, hf, heq⟩ := Option.map_eq_some_iff.mp h
  cases r with
  | error e =>
      obtain ⟨code, rfl, rfl⟩ := finishRead_error hf
      rcases hec code rfl with rfl | ⟨rfl, ha⟩
      · cases hf
      · obtain ⟨e, rfl, -, hclose⟩ := resume_cancelled h
        intro e' he'
        cases he'
        rw [(hclose ha).1]
        exact nofun
  | ok chunk =>
      cases hfr : c₁.framer with
      | none =>
          simp only [hfr] at heq
          cases chunk with
          | none =>
              cases heq
              exact quiet_of_none rfl
          | some r =>
              cases heq
              exact quiet_of_none rfl
      | some f =>
          simp only [hfr] at heq
          cases chunk with
          | none =>
              have hq := framedTurn_quiet f mem outside fresh c₁
              rwa [show c₁.framedTurn f mem outside fresh = (c', p) from heq] at hq
          | some r =>
              have hq := framedTurn_quiet f mem outside fresh { c₁ with receiveChain := c₁.receiveChain.append r }
              rwa [show framedTurn f mem outside fresh _ = (c', p) from heq] at hq

end TCPConnection

/-! ## One end of a connection that is not reset -/

namespace Link

variable {σ : Type} {s s' : Link σ} {e : LinkEvent} {i : Nat} {c : Call} {atEnd atEnd' : Prop}

/-- What the kernel does for an end whose peer's stream is at its end, or not. -/
def Kernel (s : Link σ) (atEnd : Prop) : LinkEvent → Prop
  | .close shutdown _ => shutdown = none
  | .abort _ => False
  | .complete i outcome => ∀ wait, s.calls[i]? = some (.suspended wait .pending) →
      (∃ n, outcome = .ok n) ∨ outcome = .error .eof ∧ wait ≠ .write ∧ atEnd
  | _ => True

def CallCalm (s : Link σ) (atEnd : Prop) : Call → Prop
  | .suspended (.shutdown on) op => on = .drain ∧ s.conn.state = .closing ∧
      (op = .pending ∨ (∃ n, op = .completed (.ok n)) ∨ op = .completed (.error .eof) ∧ atEnd)
  | .suspended (.read _) op => ∀ ec, op = .completed (.error ec) →
      ec = .eof ∨ ec = .operationAborted ∨ s.socketOpen = false
  | .suspended .write op => ∀ ec, op = .completed (.error ec) → ec = .operationAborted ∨ s.socketOpen = false
  | .returned (.closed r) => r = .ok () ∨ ∃ ec, r = .error (TCPConnection.closeFailure ec)
  | .returned _ => True

/-- The invariant of an end, given whether the peer's stream is at its end. -/
structure Calm (s : Link σ) (atEnd : Prop) : Prop where
  inv : Inv s
  plain : s.secured = false
  aborted : s.conn.aborted = false
  isOpen : s.conn.state = .closed → s.socketOpen = false
  drained : s.socketOpen = false → atEnd
  calls : ∀ (i : Nat) (c : Call), s.calls[i]? = some c → s.CallCalm atEnd c
  closer : s.conn.state = .closing → ∃ (i : Nat) (op : Lib.Operation ErrorCode Nat), s.calls[i]? = some (.suspended (.shutdown .drain) op)

theorem CallCalm.mono (h : s.CallCalm atEnd c) (hstate : s'.conn.state = s.conn.state)
    (hopen : s'.socketOpen = s.socketOpen) (hend : atEnd → atEnd') : s'.CallCalm atEnd' c := by
  cases c with
  | suspended wait op =>
      cases wait with
      | read buffer => exact fun ec hec => hopen ▸ h ec hec
      | write => exact fun ec hec => hopen ▸ h ec hec
      | shutdown on =>
          obtain ⟨hon, hclosing, hop⟩ := h
          exact ⟨hon, hstate.trans hclosing, hop.imp_right (Or.imp_right (And.imp_right hend))⟩
  | returned value =>
      cases value with
      | closed r => exact h
      | received | sent | aborted => trivial

theorem Calm.mono (h : s.Calm atEnd) (hend : atEnd → atEnd') : s.Calm atEnd' :=
  { h with drained := fun ho => hend (h.drained ho), calls := fun i c hc => (h.calls i c hc).mono rfl rfl hend }

/-- A call that the first `close()`, or its end, cancels. -/
theorem CallCalm.cancel (h : s.CallCalm atEnd c) (hc : ¬ c.Closes) (hopen : s.socketOpen = false → s'.socketOpen = false) :
    s'.CallCalm atEnd c.cancel := by
  cases c with
  | suspended wait op =>
      cases wait with
      | shutdown on => exact absurd ⟨on, op, rfl⟩ hc
      | read buffer =>
          cases op with
          | pending =>
              intro ec hec
              cases hec
              exact .inr (.inl rfl)
          | completed outcome => exact fun ec hec => (h ec hec).imp_right (Or.imp_right hopen)
      | write =>
          cases op with
          | pending =>
              intro ec hec
              cases hec
              exact .inl rfl
          | completed outcome => exact fun ec hec => (h ec hec).imp_right hopen
  | returned value =>
      cases value with
      | closed r => exact h
      | received | sent | aborted => trivial

theorem callCalm_ofProgress (s : Link σ) (atEnd : Prop) (p : Progress) :
    s.CallCalm atEnd (.ofProgress s.socketOpen p) := by
  rcases Call.ofProgress_cases s.socketOpen p with ⟨buffer, -, hc⟩ | hc
  · rw [hc]
    intro ec hec
    cases hopen : s.socketOpen with
    | true =>
        rw [hopen] at hec
        cases hec
    | false => exact .inr (.inr rfl)
  · rw [hc]
    trivial

/-- A step that leaves the state and the socket as they are. -/
theorem Calm.turn (h : s.Calm atEnd) (hst : s.step e = some s') (hplain : s'.secured = s.secured)
    (hstate : s'.conn.state = s.conn.state) (haborted : s'.conn.aborted = s.conn.aborted)
    (hopen : s'.socketOpen = s.socketOpen) (hothers : ∀ j, j ≠ i → s'.calls[j]? = s.calls[j]?)
    (hc : s'.calls[i]? = some c) (hcalm : s'.CallCalm atEnd c)
    (hcloser : ∀ op, s.calls[i]? = some (.suspended (.shutdown .drain) op) →
      ∃ op', c = .suspended (.shutdown .drain) op') : s'.Calm atEnd where
  inv := step_inv h.inv hst
  plain := hplain.trans h.plain
  aborted := haborted.trans h.aborted
  isOpen hcl := hopen.trans (h.isOpen (hstate ▸ hcl))
  drained ho := h.drained (hopen ▸ ho)
  calls j c' hc' := by
    by_cases hj : j = i
    · subst hj
      cases hc.symm.trans hc'
      exact hcalm
    · exact (h.calls j c' (hothers j hj ▸ hc')).mono hstate hopen id
  closer hcl := by
    obtain ⟨j, op, hj⟩ := h.closer (hstate ▸ hcl)
    by_cases hji : j = i
    · subst hji
      obtain ⟨op', rfl⟩ := hcloser op hj
      exact ⟨j, op', hc⟩
    · exact ⟨j, op, (hothers j hji).trans hj⟩

/-- The state after a stretch that is quiet, or that comes after the end of the connection. -/
theorem after_quiet {st : ConnectionState} {p : Progress} (h : TCPConnection.Quiet p ∨ st = .closed) :
    st.after p.error = st := by
  rcases after_cases st p.error with ⟨hst, -⟩ | hst
  · exact hst
  · rcases h with hq | rfl
    · cases hp : p.error with
      | none => rfl
      | some err => exact st.after_of_ne (hq err hp)
    · exact hst

theorem not_closer_past (s : Link σ) (op : Lib.Operation ErrorCode Nat) :
    s.calls[s.calls.length]? ≠ some (.suspended (.shutdown .drain) op) := by
  simp

/-- The read of the last stretch of a calm receive, or the end of the connection. -/
theorem Calm.read_quiet (h : s.Calm atEnd) {buffer : ReadBuffer} {outcome : Except ErrorCode Nat}
    {around : Surroundings} {conn : TCPConnection σ} {p : Progress}
    (hi : s.calls[i]? = some (.suspended (.read buffer) (.completed outcome)))
    (hr : s.conn.resume around.mem around.outside around.fresh (errorOf outcome) (bytesOf outcome) = some (conn, p)) :
    TCPConnection.Quiet p ∨ s.conn.state = .closed := by
  cases hopen : s.socketOpen with
  | false =>
      refine .inr ?_
      by_contra hne
      exact Bool.false_ne_true (hopen.symm.trans (h.inv.isOpen hne))
  | true =>
      refine .inl (TCPConnection.resume_quiet (fun code hcode => ?_) hr)
      cases outcome with
      | ok n => cases hcode
      | error ec =>
          cases hcode
          rcases h.calls i _ hi code rfl with heof | habort | hclosed
          · exact .inl heof
          · exact .inr ⟨habort, h.aborted⟩
          · exact absurd hclosed (by simp [hopen])

theorem Calm.write_state (h : s.Calm atEnd) {outcome : Except ErrorCode Nat}
    (hi : s.calls[i]? = some (.suspended .write (.completed outcome))) :
    (s.conn.sendEnd (errorOf outcome)).1.state = s.conn.state := by
  cases outcome with
  | ok n => rfl
  | error ec =>
      rcases h.calls i _ hi ec rfl with rfl | hclosed
      · simp [TCPConnection.sendEnd, errorOf, h.aborted]
      · have hstate : s.conn.state = .closed := by
          by_contra hne
          exact Bool.false_ne_true (hclosed.symm.trans (h.inv.isOpen hne))
        unfold TCPConnection.sendEnd
        split
        · rfl
        · split
          · rfl
          · exact hstate.symm

/-- The `close()` that waits for the peer, from the completion of its read on. -/
theorem Calm.resume_closer (h : s.Calm atEnd) {on : ShutdownOperation} {outcome : Except ErrorCode Nat}
    (hi : s.calls[i]? = some (.suspended (.shutdown on) (.completed outcome))) (around : Surroundings)
    (ec : Option ErrorCode) :
    ((∃ n, outcome = .ok n) ∧
      s.step (.resume i around ec) = some (s.set i (.suspended (.shutdown .drain) .pending))) ∨
    (atEnd ∧ s.step (.resume i around ec) = some
      (({ s with conn := { s.conn with state := .closed } }.closeSocket).set i
        (.returned (.closed (s.conn.closeEnd (.ok ()) (s.closeError ec)).2)))) := by
  obtain ⟨rfl, hclosing, hop⟩ := h.calls i _ hi
  have hopen : s.socketOpen = true := h.inv.isOpen (by simp [hclosing])
  rcases hop with hop | ⟨n, hop⟩ | ⟨hop, hend⟩
  · cases hop
  · cases hop
    refine .inl ⟨⟨n, rfl⟩, ?_⟩
    simp [step, hi, resume, Shutdown.resume, drainUntilEof, closing, hopen, Lib.Operation.start]
  · cases hop
    refine .inr ⟨hend, ?_⟩
    simp [step, hi, resume, Shutdown.resume, closing, TCPConnection.closeEnd]

/-- How a step moves the state. -/
def Moves (s s' : Link σ) (e : LinkEvent) : Prop :=
  s'.conn.state = s.conn.state ∨ (∃ ec, e = .close none ec ∧ s.conn.closeBegin.isSome = true) ∨
    s.conn.state = .closing

/-- `close()` of an end that has not been closed. -/
theorem Calm.close (h : s.Calm atEnd) {ec : Option ErrorCode} {conn : TCPConnection σ}
    (hb : s.conn.closeBegin = some conn) (hst : s.step (.close none ec) = some s') : s'.Calm atEnd := by
  obtain ⟨hstate, rfl⟩ := closeBegin_eq_some hb
  have hest := h.inv.established hstate
  have hopen : s.socketOpen = true := h.inv.isOpen hstate.2
  have hs' : s' = { s with conn := { s.conn with state := .closing } }.cancel.push
      (.suspended (.shutdown .drain) .pending) := by
    have hshutdown : Link.shutdown { s with conn := { s.conn with state := .closing } }.cancel none
        = .suspended .drain .pending := by
      simp [Link.shutdown, Link.cancel, h.plain, PlainStream.shutdown, drainUntilEof, hopen, Lib.Operation.start]
    simp only [Link.step, reduceCtorEq, if_false, Link.close, hb, hshutdown, closing] at hst
    exact (Option.some.inj hst).symm
  obtain ⟨hself, hothers⟩ := push_cancelled (s := s)
    (t := { s with conn := { s.conn with state := .closing } }.cancel) rfl (.suspended (.shutdown .drain) .pending)
  rw [← hs'] at hself hothers
  have hinv := step_inv h.inv hst
  have hstate' : s'.conn.state = .closing := hs' ▸ rfl
  have hopen' : s'.socketOpen = s.socketOpen := hs' ▸ rfl
  refine
    { inv := hinv
      plain := hs' ▸ h.plain
      aborted := hs' ▸ h.aborted
      isOpen := fun hcl => by cases hstate'.symm.trans hcl
      drained := fun ho => h.drained (hopen' ▸ ho)
      calls := fun j c hc => ?_
      closer := fun _ => ⟨_, _, hself⟩ }
  by_cases hj : j = s.calls.length
  · subst hj
    cases hself.symm.trans hc
    exact ⟨rfl, hstate', .inl rfl⟩
  · obtain ⟨c₀, hc₀, rfl⟩ := cancelled_of_others hothers hj hc
    exact (h.calls j c₀ hc₀).cancel (fun hcl => (h.inv.calls j c₀ hc₀).closes hcl hest) fun ho => hopen' ▸ ho

/-- The end of the first `close()`. -/
theorem Calm.closed (h : s.Calm atEnd) {on : ShutdownOperation} {op : Lib.Operation ErrorCode Nat}
    {ec : Option ErrorCode} (hi : s.calls[i]? = some (.suspended (.shutdown on) op)) (hend : atEnd)
    (hst : s.step e = some (({ s with conn := { s.conn with state := .closed } }.closeSocket).set i
      (.returned (.closed (s.conn.closeEnd (.ok ()) ec).2)))) :
    Calm (({ s with conn := { s.conn with state := .closed } }.closeSocket).set i
      (.returned (.closed (s.conn.closeEnd (.ok ()) ec).2))) atEnd := by
  refine
    { inv := step_inv h.inv hst
      plain := h.plain
      aborted := h.aborted
      isOpen := fun _ => rfl
      drained := fun _ => hend
      calls := fun j c hc => ?_
      closer := fun hcl => by cases hcl }
  have hlt : i < (s.calls.map Call.cancel).length := by
    rw [List.length_map]
    exact (List.getElem?_eq_some_iff.mp hi).1
  by_cases hj : j = i
  · subst hj
    cases (getElem?_set_self (s := { s with conn := { s.conn with state := .closed } }.closeSocket) _ hlt).symm.trans hc
    cases ec with
    | none => exact .inl rfl
    | some code => exact .inr ⟨code, rfl⟩
  · rw [getElem?_set_ne _ _ hj] at hc
    obtain ⟨c₀, hc₀, rfl⟩ := Option.map_eq_some_iff.mp ((List.getElem?_map ..).symm.trans hc)
    exact (h.calls j c₀ hc₀).cancel (h.inv.only_closer (.inr ⟨_, hi, on, op, rfl⟩) hj hc₀) fun _ => rfl

theorem Calm.step (h : s.Calm atEnd) (hk : s.Kernel atEnd e) (hst : s.step e = some s') :
    s'.Calm atEnd ∧ Moves s s' e := by
  have hpast := s.not_closer_past
  cases e with
  | abort => exact hk.elim
  | close sd ec =>
      cases hk
      cases hb : s.conn.closeBegin with
      | some conn => exact ⟨h.close hb hst, .inr (.inl ⟨ec, rfl, by simp [hb]⟩)⟩
      | none =>
          have hs' : s' = s.push (.returned (.closed (.ok ()))) := by
            simp only [Link.step, reduceCtorEq, if_false, Link.close, hb] at hst
            exact (Option.some.inj hst).symm
          subst hs'
          exact ⟨h.turn hst rfl rfl rfl rfl (fun j hj => getElem?_push s _ hj) (getElem?_push_self s _) (.inl rfl)
            fun op hop => absurd hop (hpast op), .inl rfl⟩
  | send around m =>
      cases step_steps hst with
      | refuse =>
          exact ⟨h.turn hst rfl rfl rfl rfl (fun j hj => getElem?_push _ _ hj) (getElem?_push_self _ _) trivial
            fun op hop => absurd hop (hpast op), .inl rfl⟩
      | send =>
          refine ⟨h.turn hst rfl rfl rfl rfl (fun j hj => getElem?_push _ _ hj) (getElem?_push_self _ _) ?_
            fun op hop => absurd hop (hpast op), .inl rfl⟩
          intro ec hec
          cases hopen : s.socketOpen with
          | true =>
              rw [hopen] at hec
              cases hec
          | false => exact .inr rfl
  | receive around =>
      cases step_steps hst with
      | @receive _ conn p hr =>
          have hv := s.conn.receive_verdict around.mem around.outside around.fresh
          have hq := s.conn.receive_quiet around.mem around.outside around.fresh
          rw [hr] at hv hq
          have hstate : conn.state = s.conn.state := hv.state.trans (after_quiet (.inl hq))
          refine ⟨h.turn hst rfl hstate hv.aborted rfl (fun j hj => getElem?_push _ _ hj) (getElem?_push_self _ _) ?_
            fun op hop => absurd hop (hpast op), .inl hstate⟩
          exact callCalm_ofProgress (s.settle conn p) atEnd p
  | complete i outcome =>
      cases step_steps hst with
      | @complete _ wait _ hi ho =>
          have hlt := (List.getElem?_eq_some_iff.mp hi).1
          have hop : ∀ op, s.calls[i]? = some (.suspended (.shutdown .drain) op) →
              ∃ op', Call.suspended wait (.completed outcome) = .suspended (.shutdown .drain) op' := by
            intro op hop
            cases hi.symm.trans hop
            exact ⟨_, rfl⟩
          refine ⟨h.turn hst rfl rfl rfl rfl (fun j hj => getElem?_set_ne s _ hj) (getElem?_set_self _ hlt) ?_ hop,
            .inl rfl⟩
          have hcalm := h.calls i _ hi
          rcases hk wait hi with ⟨n, rfl⟩ | ⟨rfl, hne, hend⟩
          · cases wait with
            | read buffer => exact fun ec hec => by cases hec
            | write => exact fun ec hec => by cases hec
            | shutdown on => exact ⟨hcalm.1, hcalm.2.1, .inr (.inl ⟨n, rfl⟩)⟩
          · cases wait with
            | read buffer =>
                intro ec hec
                cases hec
                exact .inl rfl
            | write => exact absurd rfl hne
            | shutdown on => exact ⟨hcalm.1, hcalm.2.1, .inr (.inr ⟨rfl, hend⟩)⟩
  | resume i around ec =>
      cases step_steps hst with
      | @read _ buffer outcome _ _ conn p hi hr =>
          have hlt := (List.getElem?_eq_some_iff.mp hi).1
          have hv := TCPConnection.resume_verdict hr
          have hstate : conn.state = s.conn.state := hv.state.trans (after_quiet (h.read_quiet hi hr))
          refine ⟨h.turn hst rfl hstate hv.aborted rfl (fun j hj => getElem?_set_ne _ _ hj)
            (getElem?_set_self _ hlt) ?_ fun op hop => ?_, .inl hstate⟩
          · exact callCalm_ofProgress (s.settle conn p) atEnd p
          · cases hi.symm.trans hop
      | @write _ outcome _ _ hi =>
          have hlt := (List.getElem?_eq_some_iff.mp hi).1
          refine ⟨h.turn hst rfl (h.write_state hi) (sendEnd_verdict s.conn _).2.1 rfl
            (fun j hj => getElem?_set_ne _ _ hj) (getElem?_set_self _ hlt) trivial fun op hop => ?_,
            .inl (h.write_state hi)⟩
          cases hi.symm.trans hop
      | @drain _ on outcome _ _ hi | @closed _ on outcome _ _ sd hi hsd =>
          have hclosing := (h.calls i _ hi).2.1
          have hlt := (List.getElem?_eq_some_iff.mp hi).1
          refine ⟨?_, .inr (.inr hclosing)⟩
          rcases h.resume_closer hi around ec with ⟨-, hs⟩ | ⟨hend, hs⟩
          · rw [Option.some.inj (hst.symm.trans hs)]
            exact h.turn hs rfl rfl rfl rfl (fun j hj => getElem?_set_ne _ _ hj) (getElem?_set_self _ hlt)
              ⟨rfl, hclosing, .inl rfl⟩ fun _ _ => ⟨_, rfl⟩
          · rw [Option.some.inj (hst.symm.trans hs)]
            exact h.closed hi hend hs

end Link

/-! ## Both ends -/

@[simp] theorem Side.other_other (p : Side) : p.other.other = p := by cases p <;> rfl

theorem Side.other_ne (p : Side) : p.other ≠ p := by cases p <;> exact nofun

theorem Side.eq_other {p q : Side} (h : q ≠ p) : q = p.other := by
  cases p <;> cases q <;> first | rfl | exact absurd rfl h

namespace Pair

variable {σ : Type} {s s' : Pair σ} {e : PairEvent} {p q : Side}

/-- Both ends are calm, and an end that is not established any more has ended its side. -/
structure Quiet (s : Pair σ) : Prop where
  reset : s.reset = false
  link : ∀ p, (s.link p).Calm (s.pipe p.other).AtEnd
  finished : ∀ p, (s.link p).conn.state ≠ .established → (s.pipe p).finished = true

theorem create_quiet (framer : Side → Option (MessageFramer σ)) (framerState : Side → σ)
    (pool : Side → MessageBlockPool) :
    Quiet (create fun p => .create .established (framer p) (framerState p) (pool p)) where
  reset := rfl
  link p :=
    { inv := Link.create_inv ..
      plain := rfl
      aborted := rfl
      isOpen := nofun
      drained := nofun
      calls := by simp [create, Link.create]
      closer := nofun }
  finished p hne := absurd rfl hne

/-- Without a reset, the kernel does what is calm. -/
theorem kernel_of_allows (hq : s.reset = false) {le : LinkEvent} (h : s.allows p le = true)
    (hab : ∀ ec, le ≠ .abort ec) : (s.link p).Kernel (s.pipe p.other).AtEnd le := by
  cases le with
  | send | receive | resume => trivial
  | abort ec => exact absurd rfl (hab ec)
  | close sd ec =>
      simp only [allows, hq, Bool.or_false, Option.isNone_iff_eq_none] at h
      exact h
  | complete i outcome =>
      intro wait hi
      simp only [allows, hi] at h
      cases outcome with
      | ok n => exact .inl ⟨n, rfl⟩
      | error ec =>
          by_cases heof : ec = .eof
          · subst heof
            simp only [brings, Bool.and_eq_true, decide_eq_true_eq] at h
            exact .inr ⟨rfl, h.1.1, h.1.2, h.2⟩
          · have hreset : s.brings p wait (.error ec) = s.reset := by
              cases ec <;> first | rfl | exact absurd rfl heof
            rw [hreset, hq] at h
            cases h

theorem after_link_self (s : Pair σ) (p : Side) (le : LinkEvent) (l : Link σ) : (s.after p le l).link p = l :=
  Function.update_self ..

theorem after_link_ne (s : Pair σ) (le : LinkEvent) (l : Link σ) (h : q ≠ p) :
    (s.after p le l).link q = s.link q := Function.update_of_ne h ..

theorem after_pipe_self (s : Pair σ) (p : Side) (le : LinkEvent) (l : Link σ) :
    (s.after p le l).pipe p = { s.pipe p with
      finished := (s.pipe p).finished || s.shutsDown p le || ((s.link p).socketOpen && !l.socketOpen) } :=
  Function.update_self ..

theorem after_pipe_other (s : Pair σ) (p : Side) (le : LinkEvent) (l : Link σ) :
    (s.after p le l).pipe p.other = { s.pipe p.other with
      unread := (s.pipe p.other).unread - s.taken p le } := by
  unfold after
  simp only
  rw [Function.update_of_ne (Side.other_ne p), Function.update_self]

/-- What is at its end stays there. -/
theorem atEnd_after (s : Pair σ) (p q : Side) (le : LinkEvent) (l : Link σ) (h : (s.pipe q).AtEnd) :
    ((s.after p le l).pipe q).AtEnd := by
  by_cases hqp : q = p
  · subst hqp
    rw [after_pipe_self]
    exact ⟨by simp [h.1], h.2⟩
  · rw [Side.eq_other hqp] at h ⊢
    rw [after_pipe_other]
    exact ⟨h.1, by simp [h.2]⟩

theorem finished_after (s : Pair σ) (p q : Side) (le : LinkEvent) (l : Link σ) (h : (s.pipe q).finished = true) :
    ((s.after p le l).pipe q).finished = true := by
  by_cases hqp : q = p
  · subst hqp
    rw [after_pipe_self]
    simp [h]
  · rw [Side.eq_other hqp] at h ⊢
    rw [after_pipe_other]
    exact h

theorem Quiet.call (h : s.Quiet) {le : LinkEvent} (hab : ∀ ec, le ≠ .abort ec) (hallows : s.allows p le = true)
    {l : Link σ} (hst : (s.link p).step le = some l) : (s.after p le l).Quiet := by
  obtain ⟨hcalm, hmoves⟩ := (h.link p).step (kernel_of_allows h.reset hallows hab) hst
  refine ⟨?_, fun q => ?_, fun q hne => ?_⟩
  · -- A socket is closed only once everything was read.
    have hfalse : ((s.link p).socketOpen && !l.socketOpen &&
        (l.conn.aborted || decide (0 < (s.pipe p.other).unread))) = false := by
      cases hl : l.socketOpen with
      | true => simp
      | false => simp [hcalm.aborted, (hcalm.drained hl).2]
    show (s.reset || _) = false
    rw [h.reset, hfalse]
    rfl
  · by_cases hqp : q = p
    · subst hqp
      rw [after_link_self]
      exact hcalm.mono (atEnd_after s q q.other le l)
    · rw [after_link_ne s le l hqp]
      exact (h.link q).mono (atEnd_after s p q.other le l)
  · by_cases hqp : q = p
    · subst hqp
      rw [after_link_self] at hne
      rcases hmoves with hsame | ⟨ec, rfl, hb⟩ | hclosing
      · exact finished_after s q q le l (h.finished q (hsame ▸ hne))
      · rw [after_pipe_self]
        simp [shutsDown, hb]
      · exact finished_after s q q le l (h.finished q (by simp [hclosing]))
    · rw [after_link_ne s le l hqp] at hne
      exact finished_after s p q le l (h.finished q hne)

theorem Quiet.transmit (h : s.Quiet) {n : Nat} (hst : s.step (.transmit p n) = some s') : s'.Quiet := by
  simp only [step] at hst
  obtain ⟨⟨-, hsends⟩, hs'⟩ := Option.ite_none_right_eq_some.mp hst
  cases hs'
  refine ⟨?_, fun q => ?_, fun q hne => ?_⟩
  · -- The other socket is open, since this end has not ended its side.
    have hopen : (s.link p.other).socketOpen = true := by
      cases ho : (s.link p.other).socketOpen with
      | true => rfl
      | false =>
          have hend := (h.link p.other).drained ho
          rw [Side.other_other] at hend
          exact absurd hend.1 (by simp [hsends])
    simp [h.reset, hopen]
  · refine (h.link q).mono fun hend => ?_
    by_cases hqp : q.other = p
    · rw [hqp] at hend
      exact absurd hend.1 (by simp [hsends])
    · dsimp only
      rwa [Function.update_of_ne hqp]
  · by_cases hqp : q = p
    · subst hqp
      dsimp only
      rw [Function.update_self]
      exact h.finished q hne
    · dsimp only
      rw [Function.update_of_ne hqp]
      exact h.finished q hne

theorem Quiet.step (h : s.Quiet) (hst : (peaceful σ).step s e s') : s'.Quiet := by
  obtain ⟨hst, hcut, hab⟩ := hst
  cases e with
  | cut => exact absurd rfl hcut
  | transmit p n => exact h.transmit hst
  | call p le =>
      obtain ⟨hallows, hst⟩ := Option.ite_none_right_eq_some.mp hst
      obtain ⟨l, hl, rfl⟩ := Option.map_eq_some_iff.mp hst
      exact h.call (fun ec he => hab p ec (congrArg _ he)) hallows hl

theorem quiet_of_reachable (hr : (peaceful σ).Reachable s) : s.Quiet := by
  refine hr.invariant ?_ fun _ _ _ h hst => h.step hst
  rintro s ⟨framer, framerState, pool, rfl⟩
  exact create_quiet framer framerState pool

theorem finishes_of_quiet (h : s.Quiet) : s.Finishes where
  reset := h.reset
  ended p ho := by
    refine h.finished p fun hest => ?_
    have hopen := (h.link p).inv.isOpen (by simp [hest])
    rw [ho] at hopen
    cases hopen
  read p := (h.link p).drained
  close p c r hc hr := by
    obtain ⟨i, hi⟩ := List.mem_iff_getElem?.mp hc
    subst hr
    exact (h.link p).calls i _ hi

/-! ## The end of a `close()` -/

/-- The peer has ended its side, and the `i`-th call of `p` is a `close()` that waits to read that, or it is over. -/
structure Waits (s : Pair σ) (p : Side) (i : Nat) : Prop where
  quiet : s.Quiet
  finished : (s.pipe p.other).finished = true
  call : (∃ op, (s.link p).calls[i]? = some (.suspended (.shutdown .drain) op)) ∨ s.ClosedBy p i

/-- How many steps the call still takes at most, with `u` bytes left to read. -/
def stepsLeft (u : Nat) : Option Call → Nat
  | some (.suspended _ .pending) => 2 * u + 2
  | some (.suspended _ (.completed (.ok _))) => 2 * u + 3
  | some (.suspended _ (.completed (.error _))) => 1
  | _ => 0

def remaining (s : Pair σ) (p : Side) (i : Nat) : Nat :=
  stepsLeft (s.pipe p.other).unread ((s.link p).calls[i]?)

theorem stepsLeft_mono {u v : Nat} (h : u ≤ v) (c : Option Call) : stepsLeft u c ≤ stepsLeft v c := by
  unfold stepsLeft
  split <;> omega

variable {i : Nat} {l : Link σ} {le : LinkEvent}

/-- A step of `p` that is not about its `i`-th call leaves that call as it is. -/
theorem Waits.other_call (h : s.Waits p i) (hab : ∀ ec, le ≠ .abort ec) (hst : (s.link p).step le = some l)
    (hi : (s.link p).callOf le ≠ i) :
    l.calls[i]? = (s.link p).calls[i]? ∧ ((s.link p).socketOpen = false → l.socketOpen = false) := by
  have hinv := ((h.quiet.link p).inv)
  obtain ⟨c, hc, heff⟩ := (Link.step_steps hst).effect
  rcases h.call with ⟨op, hop⟩ | ⟨hopen, r, hr⟩
  · have hcloses : Call.Closes (.suspended (.shutdown .drain) op) := ⟨_, _, rfl⟩
    cases heff with
    | turns others isOpen => exact ⟨others i hi.symm, fun ho => isOpen.trans ho⟩
    | closes others isOpen before =>
        exact absurd ((h.quiet.link p).calls i _ hop).2.1 before.1
    | ends others isOpen state aborted value call =>
        refine ⟨?_, fun _ => isOpen⟩
        rcases aborted with hab' | ⟨-, hbefore | ⟨c₀, hc₀, hcl⟩⟩
        · rw [Link.step_aborted hst hab, (h.quiet.link p).aborted] at hab'
          cases hab'
        · exact absurd ((h.quiet.link p).calls i _ hop).2.1 hbefore.1
        · exact absurd (hinv.closer _ _ _ _ hc₀ hop hcl hcloses) hi
  · have hcancel : ((s.link p).calls[i]?).map Call.cancel = (s.link p).calls[i]? := by
      rw [hr]
      rfl
    cases heff with
    | turns others isOpen => exact ⟨others i hi.symm, fun ho => isOpen.trans ho⟩
    | closes others isOpen => exact ⟨(others i hi.symm).trans hcancel, fun ho => isOpen.trans ho⟩
    | ends others isOpen => exact ⟨(others i hi.symm).trans hcancel, fun _ => isOpen⟩

theorem not_drives_of_callOf (hi : (s.link p).callOf le ≠ i) : drives p i (.call p le) = false := by
  cases le with
  | complete j | resume j =>
      have hj : j ≠ i := hi
      simp [drives, hj]
  | send | receive | close | abort => rfl

theorem taken_le (s : Pair σ) (p : Side) (le : LinkEvent) (l : Link σ) :
    ((s.after p le l).pipe p.other).unread ≤ (s.pipe p.other).unread := by
  rw [after_pipe_other]
  exact Nat.sub_le ..

/-- A step of the `close()` itself. -/
theorem Waits.own_call (h : s.Waits p i) (hallows : s.allows p le = true) (hst : (s.link p).step le = some l)
    (hi : (s.link p).callOf le = i) (hlt : i < (s.link p).calls.length) :
    ((∃ op, l.calls[i]? = some (.suspended (.shutdown .drain) op)) ∨
      l.socketOpen = false ∧ ∃ r, l.calls[i]? = some (.returned (.closed r))) ∧
    stepsLeft ((s.pipe p.other).unread - s.taken p le) l.calls[i]? + 1 ≤ s.remaining p i := by
  cases le with
  | send | receive | close | abort => exact absurd hi (Nat.ne_of_gt hlt)
  | complete j outcome =>
      obtain rfl : j = i := hi
      cases Link.step_steps hst with
      | @complete _ wait _ hc ho =>
          have hwait : wait = .shutdown .drain := by
            rcases h.call with ⟨op, hop⟩ | ⟨-, r, hr⟩
            · cases hc.symm.trans hop
              rfl
            · cases hc.symm.trans hr
          subst hwait
          rw [Link.getElem?_set_self _ hlt]
          refine ⟨.inl ⟨_, rfl⟩, ?_⟩
          have htaken : ∀ n, s.taken p (.complete j (.ok n)) = n := by
            intro n
            simp [taken, hc]
          simp only [remaining, hc, stepsLeft]
          rcases (kernel_of_allows h.quiet.reset hallows nofun) _ hc with
            ⟨n, rfl⟩ | ⟨rfl, -, hend⟩
          · simp only [allows, hc, brings, Bool.and_eq_true, decide_eq_true_eq] at hallows
            rw [htaken]
            simp only
            omega
          · simp [hend.2]
  | resume j around ec =>
      obtain rfl : j = i := hi
      have hstep := hst
      simp only [Link.step] at hstep
      rcases h.call with ⟨op, hop⟩ | ⟨-, r, hr⟩
      · cases op with
        | pending =>
            rw [hop] at hstep
            cases hstep
        | completed outcome =>
            simp only [remaining, taken, hop, Nat.sub_zero]
            rcases (h.quiet.link p).resume_closer hop around ec with ⟨⟨n, rfl⟩, hs⟩ | ⟨hend, hs⟩
            · rw [Option.some.inj (hst.symm.trans hs), Link.getElem?_set_self _ hlt]
              exact ⟨.inl ⟨_, rfl⟩, by simp [stepsLeft]⟩
            · rw [Option.some.inj (hst.symm.trans hs), Link.getElem?_set_self _ (by simpa [Link.closeSocket, Link.cancel] using hlt)]
              refine ⟨.inr ⟨rfl, _, rfl⟩, ?_⟩
              cases outcome with
              | ok n => simp [stepsLeft]
              | error code => simp [stepsLeft]
      · rw [hr] at hstep
        cases hstep

theorem Waits.step (h : s.Waits p i) (hst : (peaceful σ).step s e s') :
    s'.Waits p i ∧ s'.remaining p i + (if drives p i e = true then 1 else 0) ≤ s.remaining p i := by
  have hquiet := h.quiet.step hst
  have hlt : i < (s.link p).calls.length := by
    rcases h.call with ⟨op, hop⟩ | ⟨-, r, hr⟩
    · exact (List.getElem?_eq_some_iff.mp hop).1
    · exact (List.getElem?_eq_some_iff.mp hr).1
  obtain ⟨hst, hcut, hab⟩ := hst
  cases e with
  | cut => exact absurd rfl hcut
  | transmit q n =>
      change s.step (.transmit q n) = some s' at hst
      simp only [Pair.step] at hst
      obtain ⟨⟨-, hsends⟩, hs'⟩ := Option.ite_none_right_eq_some.mp hst
      cases hs'
      have hne : p.other ≠ q := by
        rintro rfl
        exact absurd h.finished (by simp [hsends])
      have hpipe := Function.update_of_ne hne { s.pipe q with unread := (s.pipe q).unread + n } s.pipe
      refine ⟨⟨hquiet, ?_, h.call⟩, ?_⟩
      · dsimp only
        rw [hpipe]
        exact h.finished
      · simp only [remaining, drives]
        rw [hpipe]
        exact Nat.le_refl _
  | call q le =>
      obtain ⟨hallows, hst⟩ := Option.ite_none_right_eq_some.mp hst
      obtain ⟨l, hl, rfl⟩ := Option.map_eq_some_iff.mp hst
      have hfinished := finished_after s q p.other le l h.finished
      by_cases hqp : q = p
      · subst hqp
        have hab' : ∀ ec, le ≠ .abort ec := fun ec he => hab q ec (congrArg _ he)
        have hlink := after_link_self s q le l
        by_cases hi : (s.link q).callOf le = i
        · obtain ⟨hcall, hleft⟩ := h.own_call hallows hl hi hlt
          refine ⟨⟨hquiet, hfinished, ?_⟩, ?_⟩
          · unfold ClosedBy
            rw [hlink]
            exact hcall
          · rw [remaining, hlink, after_pipe_other]
            split
            · exact hleft
            · exact Nat.le_of_succ_le hleft
        · obtain ⟨hsame, hopen⟩ := h.other_call hab' hl hi
          refine ⟨⟨hquiet, hfinished, ?_⟩, ?_⟩
          · unfold ClosedBy
            rw [hlink, hsame]
            exact h.call.imp_right (And.imp_left hopen)
          · rw [not_drives_of_callOf hi, remaining, hlink, hsame]
            exact stepsLeft_mono (taken_le s q le l) _
      · have hlink := after_link_ne s le l (Ne.symm hqp)
        refine ⟨⟨hquiet, hfinished, ?_⟩, ?_⟩
        · unfold ClosedBy
          rw [hlink]
          exact h.call
        · have hq : q = p.other := Side.eq_other hqp
          subst hq
          have hdrives : drives p i (.call p.other le) = false := by
            cases le with
            | complete | resume => simp [drives, Side.other_ne p]
            | send | receive | close | abort => rfl
          rw [hdrives, remaining, hlink, after_pipe_self]
          exact Nat.le_refl _

theorem Waits.run {es : List PairEvent} (hrun : (peaceful σ).Run s es s') (h : s.Waits p i) :
    s'.Waits p i ∧ s'.remaining p i + es.countP (drives p i) ≤ s.remaining p i := by
  induction hrun with
  | refl => exact ⟨h, Nat.le_refl _⟩
  | @step s s₁ s₂ e es hst _ ih =>
      obtain ⟨h₁, hstep⟩ := h.step hst
      obtain ⟨h₂, hrest⟩ := ih h₁
      refine ⟨h₂, ?_⟩
      rw [List.countP_cons]
      omega

theorem step_of_link (hallows : s.allows p le = true) (hl : (s.link p).step le = some l)
    (hab : ∀ ec, le ≠ .abort ec) : (peaceful σ).step s (.call p le) (s.after p le l) := by
  refine ⟨?_, nofun, fun q ec he => ?_⟩
  · show s.step (.call p le) = some (s.after p le l)
    simp [Pair.step, hallows, hl]
  · cases he
    exact hab ec rfl

/-- The `close()` can take a step until it has returned. -/
theorem Waits.enabled (h : s.Waits p i) :
    s.ClosedBy p i ∨ ∃ e s', drives p i e = true ∧ (peaceful σ).step s e s' := by
  rcases h.call with ⟨op, hop⟩ | hclosed
  · refine .inr ?_
    cases op with
    | pending =>
        -- It reads a byte, or that there are no more.
        obtain ⟨outcome, hadmits, hbrings⟩ : ∃ outcome, Wait.Admits (.shutdown .drain) outcome ∧
            s.brings p (.shutdown .drain) outcome = true := by
          rcases Nat.eq_zero_or_pos (s.pipe p.other).unread with hzero | hpos
          · exact ⟨.error .eof, by decide, by simp [brings, h.finished, hzero]⟩
          · exact ⟨.ok 1, by decide, by simpa [brings] using Nat.succ_le_of_lt hpos⟩
        have hallows : s.allows p (.complete i outcome) = true := by simp [allows, hop, hbrings]
        have hl : (s.link p).step (.complete i outcome) =
            some ((s.link p).set i (.suspended (.shutdown .drain) (.completed outcome))) := by
          simp only [Link.step, hop, if_pos hadmits]
        exact ⟨_, _, by simp [drives], step_of_link hallows hl (by simp)⟩
    | completed outcome =>
        rcases (h.quiet.link p).resume_closer hop ⟨fun _ _ => 0, [], 0⟩ none with ⟨-, hs⟩ | ⟨-, hs⟩
        · exact ⟨_, _, by simp [drives], step_of_link rfl hs (by simp)⟩
        · exact ⟨_, _, by simp [drives], step_of_link rfl hs (by simp)⟩
  · exact .inl hclosed

theorem remaining_le (s : Pair σ) (p : Side) {op : Lib.Operation ErrorCode Nat}
    (hop : (s.link p).calls[i]? = some (.suspended (.shutdown .drain) op)) :
    s.remaining p i ≤ 2 * (s.pipe p.other).unread + 3 := by
  rw [remaining, hop]
  unfold stepsLeft
  split <;> omega

end Pair

end Taps
