import Mathlib.Data.List.Range
import Taps.Listener.Handover
import Taps.Listener.Lemmas.Secured
import Taps.Listener.Lemmas.Serves

/-!
# Lemmas on what becomes of the accepted sockets
-/

namespace Taps

/-! ## What `accept()` returns for an element of the channel -/

namespace SecureAcceptor

variable {s : SecureAcceptor}

theorem accepted_ne_stopped (x : Except ErrorCode Nat) : accepted x ≠ .error listenerStopped := by
  cases x with
  | ok c => exact nofun
  | error ec =>
      intro h
      have hreason : reasonFrom ec = .invalidState := congrArg TAPSError.reason (Except.error.inj h)
      unfold reasonFrom at hreason
      split at hreason <;> cases hreason

/-- No error of an accept is taken for the end of the Listener. -/
theorem filter_accepted (x : Except ErrorCode Nat) :
    [accepted x].filter (fun r => r ≠ .error listenerStopped) = [accepted x] := by
  simp [accepted_ne_stopped x]

/-- The three ways in which the loop goes on after a failed accept, with what it sends. -/
theorem resumeAccept_cases (s : SecureAcceptor) (ec : ErrorCode) :
    (s.resumeAccept (.error ec)).ready = s.ready ∧ (s.resumeAccept (.error ec)).accepts = s.accepts ∧
      (AcceptLoop.accepting (.completed (.error ec))).reports = [] ∨
    s.resumeAccept (.error ec) = s.report ec ∧ (AcceptLoop.accepting (.completed (.error ec))).reports = [ec] := by
  by_cases hop : ec = .operationAborted
  · subst hop
    exact .inl ⟨rfl, rfl, rfl⟩
  by_cases hconn : ec = .connectionAborted
  · subst hconn
    exact .inl ⟨rfl, rfl, rfl⟩
  exact .inr ⟨by cases ec <;> first | rfl | contradiction, by cases ec <;> first | rfl | contradiction⟩

/-- A failed accept moves no Connection. -/
theorem resumeAccept_error (s : SecureAcceptor) (ec : ErrorCode) :
    (s.resumeAccept (.error ec)).handshakes = s.handshakes ∧
      (s.resumeAccept (.error ec)).connections = s.connections ∧
      (s.resumeAccept (.error ec)).ready.isOpen = s.ready.isOpen := by
  unfold resumeAccept
  split
  · exact ⟨rfl, rfl, rfl⟩
  · exact ⟨rfl, rfl, rfl⟩
  · exact ⟨rfl, rfl, Lib.Channel.isOpen_send ..⟩
  · rename_i heq
    cases heq

theorem accept_kept (s : SecureAcceptor) :
    s.accept.handshakes = s.handshakes ∧ s.accept.connections = s.connections := by
  unfold accept
  split <;> exact ⟨rfl, rfl⟩

end SecureAcceptor

namespace AcceptorHistory

open SecureAcceptor (accepted filter_accepted)

variable {h h' : AcceptorHistory} {e : AcceptorEvent}

/-! ## The order -/

structure Ordered (h : AcceptorHistory) : Prop where
  ready : h.acceptor.ready.Bounded
  matched : h.acceptor.ready.Matched
  order : h.returned ++ h.acceptor.ready.queue.map accepted = h.ready.map accepted

theorem create_ordered : create.Ordered where
  ready := Lib.Channel.bounded_empty (by decide)
  matched _ := rfl
  order := rfl

theorem Ordered.congr (ho : h.Ordered) (hready : h'.acceptor.ready = h.acceptor.ready)
    (haccepts : h'.acceptor.accepts = h.acceptor.accepts) (hlog : h'.ready = h.ready) : h'.Ordered where
  ready := hready ▸ ho.ready
  matched := hready ▸ ho.matched
  order := by
    rw [returned, haccepts, hready, hlog]
    exact ho.order

/-- A send, and what is added to the history where the channel is open. -/
theorem Ordered.send (ho : h.Ordered) (sender : Sender) (x : Except ErrorCode Nat)
    (hready : h'.acceptor.ready = (h.acceptor.send sender x).ready)
    (haccepts : h'.acceptor.accepts = (h.acceptor.send sender x).accepts)
    (hlog : h'.ready = if h.acceptor.ready.isOpen then h.ready ++ [x] else h.ready) : h'.Ordered := by
  have hready' : h'.acceptor.ready = (h.acceptor.ready.send sender x).1 := hready
  refine ⟨?_, ?_, ?_⟩
  · rw [hready']
    exact ho.ready.send ..
  · rw [hready']
    exact ho.ready.matched_send ho.matched sender x
  · have horder := ho.order
    rw [returned] at horder ⊢
    rw [hready', haccepts, hlog]
    cases hopen : h.acceptor.ready.isOpen with
    | false => simpa [SecureAcceptor.send, Lib.Channel.send_closed hopen] using horder
    | true =>
        rcases ho.ready.queue_send hopen sender x with ⟨hhanded, hqueue⟩ | ⟨hne, hqueue⟩
        · -- A receive that waited takes it, so nothing else is in front of it.
          have hempty : h.acceptor.ready.queue = [] := by
            refine ho.matched ?_
            by_contra hzero
            unfold Lib.Channel.send at hhanded
            rw [if_neg (by simp [hopen]), if_neg hzero] at hhanded
            split at hhanded <;> cases hhanded
          rw [hempty, List.map_nil, List.append_nil] at horder
          simp only [SecureAcceptor.send, hhanded, if_true, hqueue, hempty, List.map_nil, List.append_nil,
            List.map_append, List.map_cons, List.filter_append, filter_accepted, horder]
        · simp only [SecureAcceptor.send, if_neg hne, hqueue, if_true, List.map_append, List.map_cons, List.map_nil,
            ← horder, List.append_assoc]

theorem Ordered.accept (ho : h.Ordered) : Ordered { h with acceptor := h.acceptor.accept } := by
  have hready := h.acceptor.ready_accept
  refine ⟨?_, ?_, ?_⟩
  · rw [hready]
    exact ho.ready.receive
  · rw [hready]
    exact ho.ready.matched_receive ho.matched
  · have horder := ho.order
    rw [returned] at horder ⊢
    simp only [hready]
    unfold SecureAcceptor.accept
    split
    · rename_i x sender hr
      rw [Lib.Channel.queue_receive_of_taken hr] at horder
      simpa only [List.filter_append, filter_accepted, List.append_assoc, List.map_cons, List.cons_append,
        List.nil_append] using horder
    · rename_i hr
      obtain ⟨hold, hnew⟩ := ho.ready.queue_receive fun a sender => by simp [hr]
      rw [hold] at horder
      simpa [hnew] using horder
    · rename_i hr
      obtain ⟨hold, hnew⟩ := ho.ready.queue_receive fun a sender => by simp [hr]
      rw [hold] at horder
      simpa [hnew] using horder

theorem Ordered.stop (ho : h.Ordered) : Ordered { h with acceptor := h.acceptor.stop } where
  ready := { ho.ready with }
  matched hr := absurd hr (Nat.lt_irrefl 0)
  order := by
    have hnone : (List.replicate h.acceptor.ready.receivers (Except.error listenerStopped : Result Nat)).filter
        (fun r => r ≠ .error listenerStopped) = [] := by simp
    have horder := ho.order
    rw [returned] at horder ⊢
    rw [SecureAcceptor.stop, List.filter_append, hnone, List.append_nil]
    exact horder

theorem step_eq (hst : h.step e = some h') :
    ∃ acceptor, h.acceptor.step e = some acceptor ∧ h' = { h.log e with acceptor } := by
  obtain ⟨acceptor, ha, rfl⟩ := Option.map_eq_some_iff.mp hst
  exact ⟨acceptor, ha, rfl⟩

theorem log_resume (h : AcceptorHistory) : (h.log .resume).ready =
    if h.acceptor.ready.isOpen then h.ready ++ h.acceptor.loop.reports.map .error else h.ready := by
  cases hopen : h.acceptor.ready.isOpen <;> simp [log, hopen]

theorem step_ordered (hst : h.step e = some h') (ho : h.Ordered) : h'.Ordered := by
  obtain ⟨acceptor, ha, rfl⟩ := step_eq hst
  cases SecureAcceptor.step_steps ha with
  | complete => exact ho.congr rfl rfl rfl
  | @resume outcome hl =>
      have hlog := h.log_resume
      cases outcome with
      | ok =>
          refine ho.congr rfl rfl ?_
          simpa [hl, AcceptLoop.reports] using hlog
      | error ec =>
          rcases h.acceptor.resumeAccept_cases ec with ⟨hready, haccepts, hreports⟩ | ⟨hreport, hreports⟩
          · refine ho.congr hready haccepts ?_
            simpa [hl, hreports] using hlog
          · rw [hreport]
            refine ho.send .loop (.error ec) rfl rfl ?_
            simpa [hl, hreports] using hlog
  | sent hl =>
      refine ho.congr rfl rfl ?_
      simpa [hl, AcceptLoop.reports] using h.log_resume
  | @secured c success hc =>
      cases success with
      | false => exact ho.congr rfl rfl rfl
      | true =>
          refine ho.send (.handshake c) (.ok c) rfl rfl ?_
          cases hopen : h.acceptor.ready.isOpen <;> simp [log, hopen]
  | accept => exact ho.accept
  | stop => exact ho.stop

/-! ## The places -/

structure Placed (h : AcceptorHistory) : Prop where
  places : (h.acceptor.handshakes ++ h.sent ++ h.failed ++ h.dropped).Perm (List.range h.acceptor.connections)
  dropped : h.acceptor.ready.isOpen = true → h.dropped = []

theorem create_placed : create.Placed where
  places := .refl _
  dropped _ := rfl

theorem Placed.congr (hp : h.Placed) (hhandshakes : h'.acceptor.handshakes = h.acceptor.handshakes)
    (hconnections : h'.acceptor.connections = h.acceptor.connections) (hsent : h'.sent = h.sent)
    (hfailed : h'.failed = h.failed) (hdropped : h'.dropped = h.dropped)
    (hopen : h'.acceptor.ready.isOpen = true → h.acceptor.ready.isOpen = true) : h'.Placed where
  places := by
    rw [hhandshakes, hconnections, hsent, hfailed, hdropped]
    exact hp.places
  dropped ho := by
    rw [hdropped]
    exact hp.dropped (hopen ho)

/-- The Connection whose handshake ends goes to one of the other places. -/
theorem Placed.move (hp : h.Placed) {c : Nat} (hc : c ∈ h.acceptor.handshakes)
    (hhandshakes : h'.acceptor.handshakes = h.acceptor.handshakes.erase c)
    (hconnections : h'.acceptor.connections = h.acceptor.connections)
    (hmoved : (h'.sent ++ h'.failed ++ h'.dropped).Perm (c :: (h.sent ++ h.failed ++ h.dropped)))
    (hdropped : h'.acceptor.ready.isOpen = true → h'.dropped = []) : h'.Placed where
  places := by
    have hold := hp.places
    simp only [List.append_assoc] at hold hmoved ⊢
    rw [hhandshakes, hconnections]
    have hback : (h.acceptor.handshakes.erase c ++ c :: (h.sent ++ (h.failed ++ h.dropped))).Perm
        (h.acceptor.handshakes ++ (h.sent ++ (h.failed ++ h.dropped))) :=
      List.perm_middle.trans ((List.perm_cons_erase hc).symm.append_right _)
    exact ((hmoved.append_left _).trans hback).trans hold
  dropped := hdropped

theorem sent_log_resume (h : AcceptorHistory) : (h.log .resume).sent = h.sent := by
  have hnone : (h.acceptor.loop.reports.map (Except.error (α := Nat))).filterMap Except.toOption = [] := by
    rw [List.filterMap_map, List.filterMap_eq_nil_iff]
    exact fun _ _ => rfl
  cases hopen : h.acceptor.ready.isOpen with
  | false => simp [log, hopen]
  | true => simp [sent, log, hopen, hnone]

theorem log_resume_rest (h : AcceptorHistory) :
    (h.log .resume).failed = h.failed ∧ (h.log .resume).dropped = h.dropped := by
  cases hopen : h.acceptor.ready.isOpen <;> simp [log, hopen]

/-- The accepted socket goes to its handshake. -/
theorem Placed.accepted (hp : h.Placed)
    (hhandshakes : h'.acceptor.handshakes = h.acceptor.handshakes ++ [h.acceptor.connections])
    (hconnections : h'.acceptor.connections = h.acceptor.connections + 1) (hsent : h'.sent = h.sent)
    (hfailed : h'.failed = h.failed) (hdropped : h'.dropped = h.dropped)
    (hopen : h'.acceptor.ready.isOpen = h.acceptor.ready.isOpen) : h'.Placed where
  places := by
    have hold := hp.places
    simp only [List.append_assoc] at hold ⊢
    rw [hhandshakes, hconnections, hsent, hfailed, hdropped, List.range_succ, List.append_assoc]
    have hnew : (h.acceptor.handshakes ++ [h.acceptor.connections] ++ (h.sent ++ (h.failed ++ h.dropped))).Perm
        (h.acceptor.connections :: (h.acceptor.handshakes ++ (h.sent ++ (h.failed ++ h.dropped)))) := by
      rw [List.append_assoc]
      exact List.perm_middle
    rw [List.append_assoc] at hnew
    exact (hnew.trans (hold.cons _)).trans (List.perm_append_singleton ..).symm
  dropped ho := by
    rw [hdropped]
    exact hp.dropped (hopen ▸ ho)

theorem step_placed (hst : h.step e = some h') (hp : h.Placed) : h'.Placed := by
  obtain ⟨acceptor, ha, rfl⟩ := step_eq hst
  cases SecureAcceptor.step_steps ha with
  | complete => exact hp.congr rfl rfl rfl rfl rfl id
  | @resume outcome hl =>
      have hsent := h.sent_log_resume
      obtain ⟨hfailed, hdropped⟩ := h.log_resume_rest
      cases outcome with
      | ok => exact hp.accepted rfl rfl hsent hfailed hdropped rfl
      | error ec =>
          obtain ⟨hhandshakes, hconnections, hopen⟩ := h.acceptor.resumeAccept_error ec
          exact hp.congr hhandshakes hconnections hsent hfailed hdropped fun ho => hopen ▸ ho
  | sent =>
      obtain ⟨hfailed, hdropped⟩ := h.log_resume_rest
      exact hp.congr rfl rfl h.sent_log_resume hfailed hdropped id
  | @secured c success hc =>
      cases success with
      | false =>
          refine hp.move hc rfl rfl ?_ hp.dropped
          have hat : h.sent ++ (h.failed ++ [c]) ++ h.dropped = (h.sent ++ h.failed) ++ c :: h.dropped := by simp
          exact hat ▸ List.perm_middle
      | true =>
          have hisOpen := h.acceptor.ready.isOpen_send (.handshake c) (.ok c)
          cases hopen : h.acceptor.ready.isOpen with
          | false =>
              have hlog : h.log (.secured c true) = { h with dropped := h.dropped ++ [c] } := by simp [log, hopen]
              rw [hlog]
              refine hp.move hc rfl rfl ?_ fun ho => ?_
              · rw [← List.append_assoc]
                exact List.perm_append_singleton ..
              · exact absurd (hisOpen.symm.trans ho) (by simp [hopen])
          | true =>
              have hlog : h.log (.secured c true) = { h with ready := h.ready ++ [.ok c] } := by simp [log, hopen]
              have hsent : (h.ready ++ [Except.ok c]).filterMap Except.toOption = h.sent ++ [c] := by
                rw [List.filterMap_append]
                rfl
              rw [hlog]
              refine hp.move hc rfl rfl ?_ fun _ => hp.dropped hopen
              change (((h.ready ++ [Except.ok c]).filterMap Except.toOption) ++ h.failed ++ h.dropped).Perm _
              rw [hsent, List.append_assoc, List.append_assoc, List.append_assoc]
              exact List.perm_middle
  | accept =>
      have hkept := h.acceptor.accept_kept
      exact hp.congr hkept.1 hkept.2 rfl rfl rfl fun ho => h.acceptor.isOpen_accept ▸ ho
  | stop => exact hp.congr rfl rfl rfl rfl rfl (fun hopen => by cases hopen)

/-! ## Every run -/

theorem conserves_of_reachable (hr : system.Reachable h) : h.Conserves := by
  have hboth : h.Ordered ∧ h.Placed := hr.invariant (I := fun h => h.Ordered ∧ h.Placed)
    (fun _ hi => hi ▸ ⟨create_ordered, create_placed⟩)
    (fun _ _ _ hi hst => ⟨step_ordered hst hi.1, step_placed hst hi.2⟩)
  exact ⟨hboth.1.order, hboth.1.matched, hboth.2.places, hboth.2.dropped⟩

end AcceptorHistory

end Taps
