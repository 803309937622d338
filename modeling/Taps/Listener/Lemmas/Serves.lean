import Taps.Listener.Lemmas.Sequential

/-!
# The admission of a peer

From a state in which the accept loop goes on, its steps and those of `accept()` lead to one in which an
`accept()` has returned a Connection that was accepted since.
-/

namespace Taps.SecureAcceptor

variable {s s' t : SecureAcceptor} {e : AcceptorEvent}

/-! ## Every run -/

theorem accepts_prefix_send (s : SecureAcceptor) (sender : Sender) (x : Except ErrorCode Nat) :
    s.accepts <+: (s.send sender x).accepts := by
  simp only [send]
  split
  · exact List.prefix_append ..
  · exact List.prefix_rfl

/-- What `accept()` has returned stays returned, and the sockets are numbered upwards. -/
theorem step_grows (h : s.step e = some s') : s.connections ≤ s'.connections ∧ s.accepts <+: s'.accepts := by
  cases step_steps h with
  | complete | sent => exact ⟨Nat.le_refl _, List.prefix_rfl⟩
  | resume =>
      unfold resumeAccept
      split
      · exact ⟨Nat.le_refl _, List.prefix_rfl⟩
      · exact ⟨Nat.le_refl _, List.prefix_rfl⟩
      · exact ⟨Nat.le_refl _, accepts_prefix_send ..⟩
      · exact ⟨Nat.le_succ _, List.prefix_rfl⟩
  | secured =>
      unfold secured
      split
      · exact ⟨Nat.le_refl _, accepts_prefix_send { s with handshakes := _ } _ _⟩
      · exact ⟨Nat.le_refl _, List.prefix_rfl⟩
  | accept =>
      unfold accept
      split
      · exact ⟨Nat.le_refl _, List.prefix_append ..⟩
      · exact ⟨Nat.le_refl _, List.prefix_append ..⟩
      · exact ⟨Nat.le_refl _, List.prefix_rfl⟩
  | stop => exact ⟨Nat.le_refl _, List.prefix_append ..⟩

/-- The loop waits for at most one send, and a send on a full channel only. -/
structure Orderly (s : SecureAcceptor) : Prop where
  sending : s.Sending
  ready : s.ready.Bounded

theorem create_orderly : create.Orderly where
  sending := rfl
  ready := Lib.Channel.bounded_empty (by decide)

theorem ready_accept (s : SecureAcceptor) : s.accept.ready = s.ready.receive.1 := by
  unfold accept
  split <;> rfl

theorem step_orderly (h : s.step e = some s') (ho : s.Orderly) : s'.Orderly := by
  refine ⟨step_sending h ho.sending, ?_⟩
  cases step_steps h with
  | complete | sent => exact ho.ready
  | resume =>
      unfold resumeAccept
      split
      · exact ho.ready
      · exact ho.ready
      · exact ho.ready.send ..
      · exact ho.ready
  | secured =>
      unfold secured
      split
      · exact ho.ready.send ..
      · exact ho.ready
  | accept =>
      rw [ready_accept]
      exact ho.ready.receive
  | stop => exact { ho.ready with }

/-! ## Until the next `stop()` -/

/-- A run leads from the one state to the other in which no handler of `stop()` is. -/
def Leads (s t : SecureAcceptor) : Prop :=
  ∃ es, (system.restrict fun _ e _ => e ≠ .stop).Run s es t

theorem Leads.refl (s : SecureAcceptor) : Leads s s := ⟨[], .refl⟩

theorem Leads.step (h : s.step e = some s') (hstop : e ≠ .stop) (hl : Leads s' t) : Leads s t := by
  obtain ⟨es, hrun⟩ := hl
  exact ⟨e :: es, .step ⟨h, hstop⟩ hrun⟩

theorem Leads.trans {u : SecureAcceptor} (h : Leads s t) (h' : Leads t u) : Leads s u := by
  obtain ⟨es, hrun⟩ := h
  obtain ⟨fs, hrun'⟩ := h'
  exact ⟨es ++ fs, hrun.append hrun'⟩

theorem Leads.admits (h : Leads s t) (ho : s.Orderly) (ha : s.Admits) : t.Orderly ∧ t.Admits := by
  obtain ⟨es, hrun⟩ := h
  refine hrun.preserves (I := fun s => s.Orderly ∧ s.Admits) ?_ ⟨ho, ha⟩
  rintro s e s' ⟨ho, ha⟩ ⟨hst, hstop⟩
  exact ⟨step_orderly hst ho, step_admits hst hstop ha⟩

theorem Leads.grows (h : Leads s t) : s.connections ≤ t.connections ∧ s.accepts <+: t.accepts := by
  obtain ⟨es, hrun⟩ := h
  refine hrun.relates (I := fun _ => True)
    (R := fun s t => s.connections ≤ t.connections ∧ s.accepts <+: t.accepts) (fun _ _ _ _ _ => trivial)
    (fun s => ⟨Nat.le_refl _, List.prefix_rfl⟩) ?_ ?_ trivial
  · rintro a b c ⟨hab, hab'⟩ ⟨hbc, hbc'⟩
    exact ⟨Nat.le_trans hab hbc, hab'.trans hbc'⟩
  · rintro s e s' - ⟨hst, -⟩
    exact step_grows hst

/-- Calls of `accept()` take all that is in the channel. -/
theorem drain (ho : s.Orderly) :
    ∃ t, Leads s t ∧ t.ready.queue = [] ∧ ∀ x ∈ s.ready.queue, accepted x ∈ t.accepts := by
  generalize hq : s.ready.queue = queue
  induction queue generalizing s with
  | nil => exact ⟨s, .refl s, hq, by simp⟩
  | cons x rest ih =>
      obtain ⟨⟨sender, hr⟩, hrest⟩ := ho.ready.receive_cons hq
      have hst : s.step .accept = some s.accept := rfl
      have haccepts : accepted x ∈ s.accept.accepts := by
        simp [accept, hr]
      obtain ⟨t, hl, hempty, htaken⟩ := ih (step_orderly hst ho) (by rw [ready_accept, hrest])
      refine ⟨t, .step hst (by simp) hl, hempty, fun y hy => ?_⟩
      rcases List.mem_cons.mp hy with rfl | hy
      · exact hl.grows.2.subset haccepts
      · exact htaken y hy

theorem loop_ne_sending (ho : s.Orderly) (hq : s.ready.queue = []) : s.loop ≠ .sending := by
  intro hl
  have hsending := ho.sending
  unfold Sending at hsending
  rw [List.map_eq_nil_iff.mp (List.append_eq_nil_iff.mp hq).2, if_pos hl] at hsending
  cases hsending

theorem loop_nextAccept (h : s.acceptorOpen = true) : s.nextAccept.loop = .accepting .pending := by
  simp [nextAccept, Lib.Operation.start, h]

/-- With nothing in the channel, the loop goes on to an accept, or has sent an error. -/
theorem loop_resumeAccept (hb : s.ready.Bounded) (hq : s.ready.queue = []) (hopen : s.acceptorOpen = true)
    {outcome : Except ErrorCode Unit} (hruns : AcceptLoop.Runs (.accepting (.completed outcome))) :
    (s.resumeAccept outcome).loop = .accepting .pending ∨ (s.resumeAccept outcome).loop = .sent := by
  unfold resumeAccept
  split
  · exact absurd rfl hruns
  · exact .inl (loop_nextAccept hopen)
  · exact .inr (if_neg (hb.send_ne_waits hq _ _))
  · exact .inl (loop_nextAccept hopen)

theorem comes_to_accept (ho : s.Orderly) (ha : s.Admits) : ∃ t, Leads s t ∧ t.loop = .accepting .pending := by
  obtain ⟨u, hu, hq, -⟩ := drain ho
  obtain ⟨ho, ha⟩ := hu.admits ho ha
  cases hl : u.loop with
  | accepting op =>
      cases op with
      | pending => exact ⟨u, hu, hl⟩
      | completed outcome =>
          have hst : u.step .resume = some (u.resumeAccept outcome) := by simp [step, hl]
          have hruns := ha.loop
          rw [hl] at hruns
          obtain hloop | hloop := loop_resumeAccept ho.ready hq ha.acceptorOpen hruns
          · exact ⟨_, hu.trans (.step hst (by simp) (.refl _)), hloop⟩
          · have hst' : (u.resumeAccept outcome).step .resume = some (u.resumeAccept outcome).nextAccept := by
              simp [step, hloop]
            have hopen := ((Leads.step hst (by simp) (.refl _)).admits ho ha).2.acceptorOpen
            exact ⟨_, hu.trans (.step hst (by simp) (.step hst' (by simp) (.refl _))), loop_nextAccept hopen⟩
  | sending => exact absurd hl (loop_ne_sending ho hq)
  | sent =>
      have hst : u.step .resume = some u.nextAccept := by simp [step, hl]
      exact ⟨_, hu.trans (.step hst (by simp) (.refl _)), loop_nextAccept ha.acceptorOpen⟩
  | returned =>
      have hruns := ha.loop
      rw [hl] at hruns
      exact hruns.elim

/-- A peer connects, is secured, and its Connection is returned by an `accept()`. -/
theorem serves_of_admits (ho : s.Orderly) (ha : s.Admits) :
    ∃ t c, Leads s t ∧ s.connections ≤ c ∧ .ok c ∈ t.accepts := by
  obtain ⟨u, hu, hl⟩ := comes_to_accept ho ha
  obtain ⟨ho, ha⟩ := hu.admits ho ha
  -- its socket is accepted, and the handshake succeeds
  have hcomplete : u.step (.complete (.ok ())) = some { u with loop := .accepting (.completed (.ok ())) } := by
    simp [step, hl]
  have haccepted : Leads u ({ u with loop := .accepting (.completed (.ok ())) }.resumeAccept (.ok ())) :=
    .step hcomplete (by simp) (.step (e := .resume) rfl (by simp) (.refl _))
  generalize hv : { u with loop := .accepting (.completed (.ok ())) }.resumeAccept (.ok ()) = v at haccepted
  have hmem : u.connections ∈ v.handshakes := by
    rw [← hv]
    exact List.mem_append_right _ (List.mem_singleton.mpr rfl)
  have hst : v.step (.secured u.connections true) = some (v.secured u.connections true) := if_pos hmem
  have hsecured : Leads u (v.secured u.connections true) := haccepted.trans (.step hst (by simp) (.refl _))
  -- its Connection is returned at once, or once all that is in the channel is taken
  obtain ⟨t, ht, -, htaken⟩ := drain (hsecured.admits ho ha).1
  refine ⟨t, u.connections, (hu.trans hsecured).trans ht, hu.grows.1, ?_⟩
  rcases Lib.Channel.send_open (haccepted.admits ho ha).2.ready (.handshake u.connections)
    (.ok u.connections) with hsent | hsent
  · refine ht.grows.2.subset ?_
    simp [secured, send, hsent, accepted]
  · exact htaken _ hsent

end Taps.SecureAcceptor

namespace Taps.TCPListener

variable {s s' : TCPListener} {e : TCPListenerEvent} {j : Nat}

theorem step_secures (hw : s.Waits) (h : s.step e = some s') (hs : ∀ a ∈ s.secures, a.Orderly) :
    ∀ a ∈ s'.secures, a.Orderly := by
  rcases secures_cases hw h with ⟨-, he | he⟩ | ⟨j, a, b, b', -, hb, hstep, he⟩
  · rw [he]
    exact hs
  · rw [he]
    intro c hc
    rcases List.mem_append.mp hc with hc | hc
    · exact hs c hc
    · rw [List.mem_singleton.mp hc]
      exact SecureAcceptor.create_orderly
  · rw [he]
    intro c hc
    rcases List.mem_or_eq_of_mem_set hc with hc | rfl
    · exact hs c hc
    · exact SecureAcceptor.step_orderly hstep (hs b (List.mem_of_getElem? hb))

theorem orderly_of_reachable (h : system.Reachable s) : ∀ a ∈ s.secures, a.Orderly := by
  refine (h.invariant (I := fun s => s.Waits ∧ ∀ a ∈ s.secures, a.Orderly) ?_ ?_).2
  · rintro s ⟨securityEnabled, withTls, rfl⟩
    exact ⟨by simp [Waits, create], by simp [create]⟩
  · rintro s e s' ⟨hw, hs⟩ hst
    exact ⟨step_waits hw hst, step_secures hw hst hs⟩

/-- A step of the last SecureAcceptor is one of the Listener, after the call if it is an `accept()`. -/
theorem run_secure_step {a b : SecureAcceptor} {ev : AcceptorEvent} (hl : s.isListening = true)
    (ha : s.secures[j]? = some a) (hj : j + 1 = s.secures.length) (hst : a.step ev = some b) (hstop : ev ≠ .stop) :
    ∃ es s', system.Run s es s' ∧ s'.isListening = true ∧ s'.calls = s.calls ∧ s'.secures = s.secures.set j b := by
  have hne : s.secures ≠ [] := by
    intro hnil
    rw [hnil] at ha
    cases ha
  have hone : ev ≠ .accept → s.step (.secure j ev) = some { s with secures := s.secures.set j b } := by
    intro haccept
    simp only [step, secure, ha, hst, Option.bind_some]
  by_cases haccept : ev = .accept
  · subst haccept
    have hcall : s.step .accept = some { s with entering := s.entering ++ [j] } := by
      simp only [step, accept]
      rw [if_neg (by simp [hl]), if_neg hne, ← hj, Nat.add_sub_cancel]
    have hrun : { s with entering := s.entering ++ [j] }.step (.secure j .accept) = some
        { s with entering := (s.entering ++ [j]).erase j, secures := s.secures.set j b } := by
      simp only [step, secure, ha, hst, Option.bind_some]
      rw [if_pos (List.mem_append_right _ (List.mem_singleton.mpr rfl))]
    exact ⟨_, _, .step hcall (.step hrun .refl), hl, rfl, rfl⟩
  · exact ⟨_, _, .step (hone haccept) .refl, hl, rfl, rfl⟩

theorem run_secure {a a' : SecureAcceptor} (hl : s.isListening = true) (ha : s.secures[j]? = some a)
    (hj : j + 1 = s.secures.length) (h : a.Leads a') :
    ∃ es s', system.Run s es s' ∧ s'.calls = s.calls ∧ s'.secures[j]? = some a' := by
  obtain ⟨fs, hrun⟩ := h
  induction hrun generalizing s with
  | refl => exact ⟨[], s, .refl, rfl, ha⟩
  | step hst hrun ih =>
      obtain ⟨hst, hstop⟩ := hst
      obtain ⟨es, t, ht, hl, hcalls, hsecures⟩ := run_secure_step hl ha hj hst hstop
      have hlt : j < s.secures.length := (List.getElem?_eq_some_iff.mp ha).1
      obtain ⟨fs, u, hu, hcalls', ha'⟩ := ih hl (by rw [hsecures, List.getElem?_set_self hlt])
        (by rw [hsecures, List.length_set, hj])
      exact ⟨es ++ fs, u, ht.append hu, hcalls'.trans hcalls, ha'⟩

/-- The peer connects that a pending accept waits for. -/
theorem returns_of_pending {i : Nat} (h : s.accepts[i]? = some (.accepting .pending)) :
    ∃ es s', system.Run s es s' ∧ s'.calls = s.calls ∧ .returned (.ok s.connections) ∈ s'.accepts := by
  have hlt := (List.getElem?_eq_some_iff.mp h).1
  have hcomplete : s.step (.complete i (.ok ())) = some
      { s with accepts := s.accepts.set i (.accepting (.completed (.ok ()))) } := by
    simp [step, h]
  have hresume : { s with accepts := s.accepts.set i (.accepting (.completed (.ok ()))) }.step (.resume i) = some
      ({ s with accepts := s.accepts.set i (.accepting (.completed (.ok ()))) }.resumeAccept i (.ok ())) := by
    simp only [step]
    rw [List.getElem?_set_self hlt]
  refine ⟨_, _, .step hcomplete (.step hresume .refl), rfl, List.mem_set ?_ _⟩
  rw [List.length_set]
  exact hlt

/-- Without security, an `accept()` waits for the peer. -/
theorem serves_of_open (hl : s.isListening = true) (hsecures : s.secures = []) (hopen : s.acceptorOpen = true) :
    s.Serves := by
  have hcall : s.step .accept = some { s with accepts := s.accepts ++ [.accepting .pending] } := by
    simp only [step, accept, nextAccept, Lib.Operation.start]
    rw [if_neg (by simp [hl]), if_pos hsecures, if_pos hopen]
  obtain ⟨es, s', hrun, hcalls, hmem⟩ := returns_of_pending (i := s.accepts.length)
    (s := { s with accepts := s.accepts ++ [.accepting .pending] }) (by simp)
  exact ⟨_, s', .step hcall hrun, hcalls, .inl hmem⟩

theorem serves_of_admits (hr : system.Reachable s) (hl : s.isListening = true) (ha : s.Admits) : s.Serves := by
  unfold Admits at ha
  split at ha
  · obtain ⟨a, hlast, ha⟩ := ha
    have hne : s.secures ≠ [] := by
      intro hnil
      rw [hnil] at hlast
      cases hlast
    have hj : s.secures.length - 1 + 1 = s.secures.length := Nat.sub_add_cancel (List.length_pos_iff.mpr hne)
    rw [List.getLast?_eq_getElem?] at hlast
    obtain ⟨a', c, hleads, hc, hmem⟩ := SecureAcceptor.serves_of_admits
      (orderly_of_reachable hr a (List.mem_of_getElem? hlast)) ha
    obtain ⟨es, s', hrun, hcalls, ha'⟩ := run_secure hl hlast hj hleads
    exact ⟨es, s', hrun, hcalls, .inr ⟨_, a, a', c, hlast, ha', hc, hmem⟩⟩
  · exact serves_of_open hl ha.1 ha.2

end Taps.TCPListener
