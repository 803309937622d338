import Taps.Listener.Calls
import Taps.Listener.SecureAcceptor

/-!
# The accept loop

What the steps do to the loop: it waits for at most one send, and where its accept is pending when the
acceptor is closed, it is at its end or on the way to it from then on.
-/

namespace Taps.SecureAcceptor

variable {s s' : SecureAcceptor} {e : AcceptorEvent}

/-- The steps, one constructor for each way in which the loop can go on. -/
inductive Steps (s : SecureAcceptor) : AcceptorEvent → SecureAcceptor → Prop
  | complete {outcome} (hl : s.loop = .accepting .pending) (ho : outcome ≠ .error .operationAborted) :
      Steps s (.complete outcome) { s with loop := .accepting (.completed outcome) }
  | resume {outcome} (hl : s.loop = .accepting (.completed outcome)) :
      Steps s .resume (s.resumeAccept outcome)
  | sent (hl : s.loop = .sent) : Steps s .resume s.nextAccept
  | secured {connection success} (hc : connection ∈ s.handshakes) :
      Steps s (.secured connection success) (s.secured connection success)
  | accept : Steps s .accept s.accept
  | stop : Steps s .stop s.stop

theorem step_steps (h : s.step e = some s') : Steps s e s' := by
  cases e with
  | complete outcome =>
      obtain ⟨⟨hl, ho⟩, h⟩ := Option.ite_none_right_eq_some.mp h
      cases h
      exact .complete hl ho
  | resume =>
      simp only [step] at h
      split at h
      · rename_i hl
        cases h
        exact .resume hl
      · rename_i hl
        cases h
        exact .sent hl
      · cases h
  | secured connection success =>
      obtain ⟨hc, h⟩ := Option.ite_none_right_eq_some.mp h
      cases h
      exact .secured hc
  | accept =>
      cases h
      exact .accept
  | stop =>
      cases h
      exact .stop

/-! ## The send that the loop waits for -/

/-- The loop waits in the channel for the one send that it is suspended on, or for none. -/
def Sending (s : SecureAcceptor) : Prop :=
  (s.ready.senders.map Prod.fst).count .loop = if s.loop = .sending then 1 else 0

theorem sending_send (h : s.Sending) (connection : Nat) (x : Except ErrorCode Nat) :
    (s.send (.handshake connection) x).Sending := by
  unfold Sending at *
  simp only [send, Lib.Channel.senders_send]
  split
  · rw [List.map_append, List.count_append, h]
    rfl
  · exact h

theorem sending_report (h : s.Sending) (hl : s.loop ≠ .sending) (ec : ErrorCode) :
    (s.report ec).Sending := by
  unfold Sending at *
  rw [if_neg hl] at h
  simp only [report, send, Lib.Channel.senders_send]
  split
  · rw [List.map_append, List.count_append, h]
    rfl
  · rw [h]
    rfl

theorem sending_accept (h : s.Sending) : s.accept.Sending := by
  unfold Sending at *
  rcases s.ready.senders_receive with ⟨a, sender, b, hr, hs⟩ | ⟨hr, hs⟩
  · rw [hs, List.map_cons, List.count_cons] at h
    simp only [accept, hr, Option.some.injEq]
    by_cases hsender : sender = .loop
    · subst hsender
      simp only [if_true, reduceCtorEq, if_false] at h ⊢
      have : s.loop = .sending := by
        by_contra hl
        rw [if_neg hl] at h
        simp at h
      rw [if_pos this] at h
      simpa using h
    · simpa [hsender] using h
  · have hloop : s.accept.loop = s.loop := by
      unfold accept
      split
      · rename_i x sender he
        cases sender with
        | none => rfl
        | some sender => exact absurd he (hr x sender)
      · rfl
      · rfl
    have hsenders : s.accept.ready.senders = s.ready.senders := by
      rw [← hs]
      unfold accept
      split <;> rfl
    rw [hloop, hsenders]
    exact h

theorem sending_of_loop (h : s.Sending) (hl : s.loop ≠ .sending) {l : AcceptLoop}
    (hl' : l ≠ .sending) : { s with loop := l }.Sending := by
  unfold Sending at *
  rw [if_neg hl] at h
  rw [if_neg hl', h]

theorem sending_resumeAccept (h : s.Sending) (hl : s.loop ≠ .sending)
    (outcome : Except ErrorCode Unit) : (s.resumeAccept outcome).Sending := by
  unfold resumeAccept
  split
  · exact sending_of_loop h hl nofun
  · exact sending_of_loop h hl nofun
  · exact sending_report h hl _
  · exact sending_of_loop (s := { s with
      handshakes := s.handshakes ++ [s.connections], connections := s.connections + 1 }) h hl nofun

theorem loop_stop_eq_sending (s : SecureAcceptor) : s.stop.loop = .sending ↔ s.loop = .sending := by
  cases hl : s.loop with
  | accepting op => simp [stop, hl]
  | sending => simp [stop, hl]
  | sent => simp [stop, hl]
  | returned => simp [stop, hl]

theorem sending_stop (h : s.Sending) : s.stop.Sending := by
  unfold Sending at *
  simp only [loop_stop_eq_sending]
  exact h

theorem step_sending (h : s.step e = some s') (hs : s.Sending) : s'.Sending := by
  cases step_steps h with
  | complete hl => exact sending_of_loop hs (by rw [hl]; exact nofun) nofun
  | resume hl => exact sending_resumeAccept hs (by rw [hl]; exact nofun) _
  | sent hl => exact sending_of_loop hs (by rw [hl]; exact nofun) nofun
  | @secured connection success =>
      unfold secured
      split
      · exact sending_send (s := { s with handshakes := s.handshakes.erase connection }) hs _ _
      · exact hs
  | accept => exact sending_accept hs
  | stop => exact sending_stop hs

/-! ## The end of the loop -/

/-- Once the acceptor is closed, the loop has returned, or it returns when it is resumed. -/
def AcceptDone (s : SecureAcceptor) : Prop :=
  s.acceptorOpen = false →
    s.loop = .returned ∨ s.loop = .accepting (.completed (.error .operationAborted))

theorem loop_accept (h : s.Sending) (hl : s.loop ≠ .sending) : s.accept.loop = s.loop := by
  unfold Sending at h
  rw [if_neg hl] at h
  rcases s.ready.senders_receive with ⟨a, sender, b, hr, hs⟩ | ⟨hr, -⟩
  · rw [hs, List.map_cons, List.count_cons] at h
    have hsender : sender ≠ .loop := by
      rintro rfl
      simp at h
    simp [accept, hr, hsender]
  · unfold accept
    split
    · rename_i x sender he
      cases sender with
      | none => rfl
      | some sender => exact absurd he (hr x sender)
    · rfl
    · rfl

@[simp] theorem acceptorOpen_accept (s : SecureAcceptor) :
    s.accept.acceptorOpen = s.acceptorOpen := by
  unfold accept
  split <;> rfl

theorem step_acceptDone (h : s.step e = some s') (hw : s.AcceptWaits e) (hs : s.Sending)
    (hd : s.AcceptDone) : s'.AcceptDone := by
  cases step_steps h with
  | complete hl =>
      intro ho
      rcases hd ho with hl' | hl'
      · exact absurd (hl.symm.trans hl') nofun
      · exact absurd (hl.symm.trans hl') nofun
  | @resume outcome hl =>
      intro ho
      have ho' : s.acceptorOpen = false := by
        unfold resumeAccept at ho
        split at ho <;> exact ho
      rcases hd ho' with hl' | hl'
      · exact absurd (hl.symm.trans hl') nofun
      · rw [hl] at hl'
        cases hl'
        exact .inl rfl
  | sent hl =>
      intro ho
      rcases hd ho with hl' | hl'
      · exact absurd (hl.symm.trans hl') nofun
      · exact absurd (hl.symm.trans hl') nofun
  | secured =>
      unfold secured
      split
      · exact hd
      · exact hd
  | accept =>
      intro ho
      have hd' := hd (s.acceptorOpen_accept ▸ ho)
      have hne : s.loop ≠ .sending := by
        rcases hd' with hl | hl
        · rw [hl]
          exact nofun
        · rw [hl]
          exact nofun
      rwa [loop_accept hs hne]
  | stop =>
      intro _
      cases ho : s.acceptorOpen with
      | true =>
          simp only [stop, hw rfl ho]
          exact .inr rfl
      | false =>
          rcases hd ho with hl | hl
          · refine .inl ?_
            simp only [stop, hl]
          · refine .inr ?_
            simp only [stop, hl]
            rfl

/-! ## Between two calls -/

/-- What another step than a call of `accept()` or the handler of `stop()` leaves. -/
structure Goes (s s' : SecureAcceptor) : Prop where
  acceptorOpen : s'.acceptorOpen = s.acceptorOpen
  isOpen : s'.ready.isOpen = s.ready.isOpen
  receivers : s'.ready.receivers ≤ s.ready.receivers
  refusals : s'.accepts.countP invalidState = s.accepts.countP invalidState

theorem Goes.refl (s : SecureAcceptor) : Goes s s := ⟨rfl, rfl, Nat.le_refl _, rfl⟩

theorem invalidState_accepted (x : Except ErrorCode Nat) : invalidState (accepted x) = false := by
  cases x with
  | error ec => exact invalidState_ioError ..
  | ok connection => rfl

theorem goes_send (s : SecureAcceptor) (sender : Sender) (x : Except ErrorCode Nat) : Goes s (s.send sender x) where
  acceptorOpen := rfl
  isOpen := Lib.Channel.isOpen_send ..
  receivers := Lib.Channel.receivers_send_le ..
  refusals := by
    simp only [send]
    split
    · simp [invalidState_accepted]
    · rfl

theorem goes_loop (h : Goes s s') (l : AcceptLoop) : Goes s { s' with loop := l } :=
  ⟨h.acceptorOpen, h.isOpen, h.receivers, h.refusals⟩

theorem step_goes (h : s.step e = some s') (haccept : e ≠ .accept) (hstop : e ≠ .stop) : Goes s s' := by
  cases step_steps h with
  | complete | sent => exact goes_loop (.refl s) _
  | resume =>
      unfold resumeAccept
      split
      · exact goes_loop (.refl s) _
      · exact goes_loop (.refl s) _
      · exact goes_loop (goes_send s _ _) _
      · exact ⟨rfl, rfl, Nat.le_refl _, rfl⟩
  | @secured connection =>
      unfold secured
      have herase : Goes s { s with handshakes := s.handshakes.erase connection } :=
        ⟨rfl, rfl, Nat.le_refl _, rfl⟩
      split
      · have hsend := goes_send { s with handshakes := s.handshakes.erase connection }
          (.handshake connection) (.ok connection)
        exact ⟨hsend.acceptorOpen, hsend.isOpen, hsend.receivers, hsend.refusals⟩
      · exact herase
  | accept => exact absurd rfl haccept
  | stop => exact absurd rfl hstop

theorem step_receivers (h : s.step e = some s') (haccept : e ≠ .accept) :
    s'.ready.receivers ≤ s.ready.receivers := by
  by_cases hstop : e = .stop
  · subst hstop
    cases h
    exact Nat.zero_le _
  · exact (step_goes h haccept hstop).receivers

theorem refusals_accept (h : s.ready.isOpen = true) :
    s.accept.accepts.countP invalidState = s.accepts.countP invalidState := by
  unfold accept
  split
  · simp [invalidState_accepted]
  · rename_i hr
    exact absurd hr (Lib.Channel.receive_ne_closed h)
  · rfl

theorem isOpen_accept (s : SecureAcceptor) : s.accept.ready.isOpen = s.ready.isOpen := by
  have hready : s.accept.ready = s.ready.receive.1 := by
    unfold accept
    split <;> rfl
  rw [hready, Lib.Channel.isOpen_receive]

theorem refusals_stop (h : s.ready.receivers = 0) :
    s.stop.accepts.countP invalidState = s.accepts.countP invalidState := by
  simp [stop, h]

theorem runs_nextAccept (h : s.acceptorOpen = true) : s.nextAccept.loop.Runs := by
  simp [nextAccept, AcceptLoop.Runs, Lib.Operation.start, h]

theorem step_admits (h : s.step e = some s') (hstop : e ≠ .stop) (ha : s.Admits) : s'.Admits := by
  have hkept : s'.acceptorOpen = s.acceptorOpen ∧ s'.ready.isOpen = s.ready.isOpen := by
    by_cases haccept : e = .accept
    · subst haccept
      cases h
      exact ⟨s.acceptorOpen_accept, s.isOpen_accept⟩
    · exact ⟨(step_goes h haccept hstop).acceptorOpen, (step_goes h haccept hstop).isOpen⟩
  refine
    { acceptorOpen := hkept.1.trans ha.acceptorOpen, loop := ?_, ready := hkept.2.trans ha.ready }
  cases step_steps h with
  | complete hl ho =>
      intro he
      cases he
      exact ho rfl
  | resume hl =>
      have hruns := ha.loop
      rw [hl] at hruns
      unfold resumeAccept
      split
      · exact absurd rfl hruns
      · exact runs_nextAccept ha.acceptorOpen
      · unfold report
        split <;> trivial
      · exact runs_nextAccept ha.acceptorOpen
  | sent => exact runs_nextAccept ha.acceptorOpen
  | secured =>
      unfold secured
      split <;> exact ha.loop
  | accept =>
      unfold accept
      split
      · simp only
        split
        · trivial
        · exact ha.loop
      · exact ha.loop
      · exact ha.loop
  | stop => exact absurd rfl hstop

theorem create_admits : create.Admits where
  acceptorOpen := rfl
  loop := by simp [create, AcceptLoop.Runs]
  ready := rfl

end Taps.SecureAcceptor
