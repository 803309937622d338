import Taps.Listener.Lemmas.TCPListener

/-!
# A TCP Listener whose calls do not overlap

Where each call has completed before the next, the acceptor is closed when a `listen()` comes to open it, and
a started Listener has it open, or has a SecureAcceptor that no handler of `stop()` is posted for.
-/

namespace Taps.TCPListener

variable {s s' : TCPListener} {e : TCPListenerEvent} {i j : Nat}

/-- What holds between the calls. A SecureAcceptor before the last one has no `accept()` to serve. -/
structure Sequential (s : TCPListener) : Prop where
  one : s.resolving ≤ 1
  resolving : s.resolving ≠ 0 → s.isListening = false ∧ s.NoAccept
  plain : s.securityEnabled = false → s.secures = []
  acceptorOpen : s.acceptorOpen = true → s.isListening = true ∧ s.secures = []
  started : ListenerCall.started s.calls = true →
    s.isListening = true ∧ s.Admits ∧ ∀ j ∈ s.stopping, j + 1 ≠ s.secures.length
  aborted : .accepting (.completed (.error .operationAborted)) ∉ s.accepts
  entering : ∀ j ∈ s.entering, j + 1 = s.secures.length
  stopping : ∀ j ∈ s.stopping, j < s.secures.length
  older : ∀ (j : Nat) (a : SecureAcceptor), s.secures[j]? = some a → j + 1 ≠ s.secures.length →
    a.ready.receivers = 0

theorem create_noAccept (securityEnabled withTls : Bool) : (create securityEnabled withTls).NoAccept where
  accepts := by simp [create]
  entering := rfl
  receivers := by simp [create]

theorem create_sequential (securityEnabled withTls : Bool) : (create securityEnabled withTls).Sequential where
  one := Nat.zero_le _
  resolving h := absurd rfl h
  plain _ := rfl
  acceptorOpen := by simp [create]
  started := by simp [create, ListenerCall.started]
  aborted := by simp [create]
  entering := by simp [create]
  stopping := by simp [create]
  older := by simp [create]

/-! ## The calls -/

theorem started_listened_error (s : TCPListener) (err : TAPSError) :
    ListenerCall.started (s.listened (.error err)).calls = ListenerCall.started s.calls :=
  ListenerCall.started_append ..

theorem Sequential.waits (hs : s.Sequential) (h : s.resolving ≠ 0) : s.acceptorOpen = false ∧ s.Waits := by
  obtain ⟨hlistening, hno⟩ := hs.resolving h
  refine ⟨?_, fun hmem => absurd hmem (hno.accepts _)⟩
  rw [← Bool.not_eq_true]
  intro hopen
  cases hlistening.symm.trans (hs.acceptorOpen hopen).1

theorem sequential_listen (hs : s.Sequential) (h0 : s.resolving = 0) (hno : s.NoAccept) :
    s.listen.Sequential := by
  unfold listen
  split
  · refine { hs with resolving := fun h => absurd h0 h, started := fun h => ?_ }
    rw [started_listened_error] at h
    exact hs.started h
  · rename_i hl
    refine { hs with one := ?_, resolving := fun _ => ⟨by simpa using hl, ?_⟩ }
    · simp [h0]
    · exact { hno with }

theorem sequential_failed (hs : s.Sequential) (h : s.resolving ≠ 0) (err : TAPSError) :
    ({ s with resolving := s.resolving - 1 }.listened (.error err)).Sequential where
  one := Nat.le_trans (Nat.sub_le ..) hs.one
  resolving h' := absurd (Nat.sub_eq_zero_of_le hs.one) h'
  plain := hs.plain
  acceptorOpen := hs.acceptorOpen
  started h' := by
    rw [started_listened_error] at h'
    cases (hs.resolving h).1.symm.trans (hs.started h').1
  aborted := hs.aborted
  entering := hs.entering
  stopping := hs.stopping
  older := hs.older

theorem sequential_resolved (hs : s.Sequential) (h : s.resolving ≠ 0) (attempts : List BindAttempt)
    (provider : Result Unit) (ec : Option ErrorCode) : (s.resolved attempts provider ec).Sequential := by
  obtain ⟨hclosed, hw⟩ := hs.waits h
  obtain ⟨hlistening, hno⟩ := hs.resolving h
  cases attempts with
  | nil => exact sequential_failed hs h _
  | cons a rest =>
      have hnone : ¬ s.resolving - 1 ≠ 0 := fun h' => h' (Nat.sub_eq_zero_of_le hs.one)
      obtain ⟨t, rfl, ⟨err, hr⟩ | ⟨hsec, hr⟩ | ⟨hsec, hr⟩⟩ := resolved_cases hw a rest provider ec
      · rw [hr, closeAcceptor_eq_self hw hclosed]
        exact sequential_failed hs h err
      · rw [hr, closeAcceptor_eq_self hw hclosed]
        refine
          { one := Nat.le_trans (Nat.sub_le ..) hs.one, resolving := fun h' => absurd h' hnone
            plain := hs.plain, acceptorOpen := fun _ => ⟨rfl, hs.plain hsec⟩
            started := fun _ => ⟨rfl, ?_, ?_⟩
            aborted := hs.aborted, entering := hs.entering, stopping := hs.stopping, older := hs.older }
        · simp [Admits, listened, hsec, hs.plain hsec]
        · intro j hj
          have hlt := hs.stopping j hj
          rw [hs.plain hsec] at hlt
          cases hlt
      · rw [hr, closeAcceptor_eq_self hw hclosed]
        have hlength : (s.secures ++ [SecureAcceptor.create]).length = s.secures.length + 1 := by simp
        refine
          { one := Nat.le_trans (Nat.sub_le ..) hs.one, resolving := fun h' => absurd h' hnone
            plain := fun h' => ?_, acceptorOpen := fun h' => ?_, started := fun _ => ⟨rfl, ?_, ?_⟩
            aborted := hs.aborted, entering := ?_, stopping := ?_, older := ?_ }
        · cases hsec.symm.trans h'
        · cases hclosed.symm.trans h'
        · simp [Admits, listened, hsec, SecureAcceptor.create_admits]
        · intro j hj
          have hlt := hs.stopping j hj
          simp only [listened, hlength]
          omega
        · intro j hj
          have hj : j ∈ s.entering := hj
          rw [hno.entering] at hj
          cases hj
        · intro j hj
          simp only [listened, hlength]
          exact Nat.lt_succ_of_lt (hs.stopping j hj)
        · intro j a ha hj
          simp only [listened, hlength] at ha hj
          have hlt : j < s.secures.length := by
            have := (List.getElem?_eq_some_iff.mp ha).1
            rw [hlength] at this
            omega
          rw [List.getElem?_append_left hlt] at ha
          exact hno.receivers a (List.mem_of_getElem? ha)

theorem nextAccept_ne_aborted (s : TCPListener) :
    s.nextAccept ≠ .accepting (.completed (.error .operationAborted)) := by
  unfold nextAccept Lib.Operation.start
  split <;> simp

theorem sequential_accept (hs : s.Sequential) (h0 : s.resolving = 0) : s.accept.Sequential := by
  have happend : ∀ c : AcceptCall, c ≠ .accepting (.completed (.error .operationAborted)) →
      { s with accepts := s.accepts ++ [c] }.Sequential := by
    intro c hc
    refine { hs with resolving := fun h => absurd h0 h, aborted := fun hmem => ?_ }
    rcases List.mem_append.mp hmem with hmem | hmem
    · exact hs.aborted hmem
    · exact hc (List.mem_singleton.mp hmem).symm
  unfold accept
  split
  · exact happend _ (by simp)
  · split
    · exact happend _ s.nextAccept_ne_aborted
    · rename_i hsecures
      refine { hs with resolving := fun h => absurd h0 h, entering := fun j hj => ?_ }
      rcases List.mem_append.mp hj with hj | hj
      · exact hs.entering j hj
      · rw [List.mem_singleton.mp hj]
        exact Nat.sub_add_cancel (List.length_pos_iff.mpr hsecures)

theorem sequential_stop (hs : s.Sequential) (h0 : s.resolving = 0) (hno : s.NoAccept)
    (ec : Option ErrorCode) : (s.stop ec).Sequential := by
  have hstopped : ∀ r, ListenerCall.started (s.calls ++ [.stopped r]) ≠ true := by
    intro r
    rw [ListenerCall.started_append]
    simp [ListenerCall.after]
  have haccepts : s.closeAcceptor.accepts = s.accepts := map_cancel (hno.accepts _)
  have hclosed : ∀ (isListening : Bool) (r : Result Unit),
      { s.closeAcceptor with isListening, calls := s.calls ++ [ListenerCall.stopped r] }.Sequential := by
    intro isListening r
    refine
      { hs with
        resolving := fun h => absurd h0 h, acceptorOpen := by simp [closeAcceptor]
        started := fun h => absurd h (hstopped r), aborted := ?_ }
    simp only [haccepts]
    exact hs.aborted
  unfold stop
  split
  · exact { hs with resolving := fun h => absurd h0 h, started := fun h => absurd h (hstopped _) }
  · split
    · split
      · exact hclosed s.isListening _
      · exact hclosed false _
    · rename_i hsecures
      have hpos : 0 < s.secures.length := List.length_pos_iff.mpr hsecures
      refine
        { hs with
          resolving := fun h => absurd h0 h, acceptorOpen := fun h => ?_
          started := fun h => absurd h (hstopped _), stopping := fun j hj => ?_ }
      · exact absurd (hs.acceptorOpen h).2 hsecures
      · rcases List.mem_append.mp hj with hj | hj
        · exact hs.stopping j hj
        · rw [List.mem_singleton.mp hj]
          exact Nat.sub_lt hpos Nat.one_pos

/-! ## Between the calls -/

/-- An `accept()` without security goes on. -/
theorem sequential_set (hs : s.Sequential) {op : Lib.Operation ErrorCode Unit} (hmem : .accepting op ∈ s.accepts)
    {c : AcceptCall} (hc : c ≠ .accepting (.completed (.error .operationAborted))) (connections : Nat) :
    { s with accepts := s.accepts.set i c, connections }.Sequential := by
  refine
    { hs with resolving := fun h => absurd hmem ((hs.resolving h).2.accepts op), aborted := fun hmem' => ?_ }
  rcases List.mem_or_eq_of_mem_set hmem' with hmem' | rfl
  · exact hs.aborted hmem'
  · exact hc rfl

theorem sequential_resume (hs : s.Sequential) {outcome : Except ErrorCode Unit}
    (hi : s.accepts[i]? = some (.accepting (.completed outcome))) : (s.resumeAccept i outcome).Sequential := by
  obtain ⟨c, connections, hres, hc⟩ := s.resumeAccept_cases i outcome
  rw [hres]
  refine sequential_set hs (List.mem_of_getElem? hi) ?_ connections
  rcases hc with rfl | ⟨r, rfl, -⟩
  · exact s.nextAccept_ne_aborted
  · simp

theorem mem_set_cases {α : Type} {l : List α} {a b : α} {k : Nat} (h : (l.set j b)[k]? = some a) :
    (k = j ∧ a = b) ∨ l[k]? = some a := by
  rw [List.getElem?_set] at h
  split at h
  · rename_i hjk
    split at h
    · exact .inl ⟨hjk.symm, (Option.some.inj h).symm⟩
    · cases h
  · exact .inr h

theorem sequential_secure {a : AcceptorEvent} (hs : s.Sequential) (h : s.secure j a = some s') :
    s'.Sequential := by
  obtain ⟨b, b', entering, stopping, hb, hstep, rfl, hentering, hstopping, haccept, hstop⟩ := secure_cases h
  have hne : s.secures ≠ [] := by
    intro hnil
    rw [hnil] at hb
    cases hb
  refine
    { one := hs.one, resolving := fun hr => ⟨(hs.resolving hr).1, ?_⟩
      plain := fun hsec => absurd (hs.plain hsec) hne
      acceptorOpen := fun hopen => absurd (hs.acceptorOpen hopen).2 hne
      started := fun hst => ⟨(hs.started hst).1, ?_, ?_⟩
      aborted := hs.aborted, entering := ?_, stopping := ?_, older := ?_ }
  · have hno := (hs.resolving hr).2
    refine { accepts := hno.accepts, entering := ?_, receivers := ?_ }
    · refine List.eq_nil_iff_forall_not_mem.mpr fun k hk => ?_
      have hk := hentering k hk
      rw [hno.entering] at hk
      cases hk
    · intro c hc
      rcases List.mem_or_eq_of_mem_set hc with hc | rfl
      · exact hno.receivers c hc
      · have hle := SecureAcceptor.step_receivers hstep fun ha => by
          have hj := haccept ha
          rw [hno.entering] at hj
          cases hj
        rw [hno.receivers b (List.mem_of_getElem? hb)] at hle
        exact Nat.eq_zero_of_le_zero hle
  · obtain ⟨-, hadmits, hlast⟩ := hs.started hst
    unfold Admits at hadmits ⊢
    split at hadmits
    · obtain ⟨c, hc, hca⟩ := hadmits
      rename_i hsec
      rw [if_pos hsec]
      simp only [List.getLast?_eq_getElem?, List.length_set] at hc ⊢
      by_cases hj : j = s.secures.length - 1
      · subst hj
        cases hb.symm.trans hc
        refine ⟨b', ?_, SecureAcceptor.step_admits hstep (fun ha => ?_) hca⟩
        · exact List.getElem?_set_self (List.getElem?_eq_some_iff.mp hb).1
        · exact hlast _ (hstop ha) (Nat.sub_add_cancel (List.length_pos_iff.mpr hne))
      · exact ⟨c, (List.getElem?_set_ne hj).trans hc, hca⟩
    · exact absurd hadmits.1 hne
  · intro k hk
    rw [List.length_set]
    exact (hs.started hst).2.2 k (hstopping k hk)
  · intro k hk
    rw [List.length_set]
    exact hs.entering k (hentering k hk)
  · intro k hk
    rw [List.length_set]
    exact hs.stopping k (hstopping k hk)
  · intro k c hc hk
    rw [List.length_set] at hk
    rcases mem_set_cases hc with ⟨rfl, rfl⟩ | hc
    · have hle := SecureAcceptor.step_receivers hstep fun ha => hk (hs.entering k (haccept ha))
      rw [hs.older k b hb hk] at hle
      exact Nat.eq_zero_of_le_zero hle
    · exact hs.older k c hc hk

theorem step_sequential (hs : s.Sequential) (h : s.step e = some s') (hone : s.OneAtATime e) :
    s'.Sequential := by
  cases step_steps h with
  | listen =>
      obtain ⟨h0, hno⟩ := hone (.inl rfl)
      exact sequential_listen hs h0 hno
  | resolved hr => exact sequential_resolved hs hr _ _ _
  | accept => exact sequential_accept hs (hone (.inr (.inl rfl))).1
  | @stop ec =>
      obtain ⟨h0, hno⟩ := hone (.inr (.inr ⟨ec, rfl⟩))
      exact sequential_stop hs h0 hno ec
  | complete hi ho =>
      exact sequential_set hs (List.mem_of_getElem? hi) (by simpa using ho) s.connections
  | resume hi => exact sequential_resume hs hi
  | secure h => exact sequential_secure hs h

theorem sequential_of_reachable (h : (system.restrict fun s e _ => s.OneAtATime e).Reachable s) :
    s.Sequential := by
  refine h.invariant (I := Sequential) ?_ ?_
  · rintro s ⟨securityEnabled, withTls, rfl⟩
    exact create_sequential securityEnabled withTls
  · rintro s e s' hs ⟨hst, hone⟩
    exact step_sequential hs hst hone

/-! ## What `accept()` returns -/

theorem map_set_eq {α β : Type} {f : α → β} {l : List α} {a b : α} (h : l[i]? = some a) (hf : f b = f a) :
    (l.set i b).map f = l.map f := by
  obtain ⟨hlt, rfl⟩ := List.getElem?_eq_some_iff.mp h
  rw [List.map_set, hf, ← List.map_set, List.set_getElem_self]

theorem countP_set_eq {c c' : AcceptCall} {accepts : List AcceptCall} (hi : accepts[i]? = some c)
    (hc : c'.refused = c.refused) :
    (accepts.set i c').countP AcceptCall.refused = accepts.countP AcceptCall.refused := by
  have hmap := congrArg (List.countP id) (map_set_eq hi hc)
  rwa [List.countP_map, List.countP_map] at hmap

theorem refused_cancel (c : AcceptCall) : c.cancel.refused = c.refused := by
  cases c <;> rfl

theorem refusals_stop (s : TCPListener) (ec : Option ErrorCode) : (s.stop ec).refusals = s.refusals := by
  have hcancel : (s.accepts.map AcceptCall.cancel).countP AcceptCall.refused
      = s.accepts.countP AcceptCall.refused := by
    rw [List.countP_map]
    exact List.countP_congr fun c _ => by simp [refused_cancel]
  have hclosed : s.closeAcceptor.refusals = s.refusals := by
    simp only [refusals, closeAcceptor, hcancel]
  unfold stop
  split
  · rfl
  · split
    · split
      · exact hclosed
      · exact hclosed
    · rfl

/-- A SecureAcceptor fails no `accept()` but on a closed channel or in the handler of `stop()`. -/
theorem refusals_step {a a' : SecureAcceptor} {ev : AcceptorEvent} (h : a.step ev = some a')
    (haccept : ev = .accept → a.ready.isOpen = true) (hstop : ev = .stop → a.ready.receivers = 0) :
    a'.accepts.countP invalidState = a.accepts.countP invalidState := by
  by_cases hev : ev = .accept
  · subst hev
    cases h
    exact SecureAcceptor.refusals_accept (haccept rfl)
  · by_cases hev' : ev = .stop
    · subst hev'
      cases h
      exact SecureAcceptor.refusals_stop (hstop rfl)
    · exact (SecureAcceptor.step_goes h hev hev').refusals

theorem refusals_secure {a : AcceptorEvent} (hs : s.Sequential) (hst : ListenerCall.started s.calls = true)
    (h : s.secure j a = some s') : s'.refusals = s.refusals := by
  obtain ⟨b, b', entering, stopping, hb, hstep, rfl, -, -, haccept, hstop⟩ := secure_cases h
  obtain ⟨-, hadmits, hlast⟩ := hs.started hst
  have hcount : b'.accepts.countP invalidState = b.accepts.countP invalidState := by
    refine refusals_step hstep (fun ha => ?_) fun ha => hs.older j b hb (hlast j (hstop ha))
    have hj := hs.entering j (haccept ha)
    unfold Admits at hadmits
    split at hadmits
    · obtain ⟨c, hc, hca⟩ := hadmits
      rw [List.getLast?_eq_getElem?, ← hj, Nat.add_sub_cancel] at hc
      cases hb.symm.trans hc
      exact hca.ready
    · rw [hadmits.1] at hb
      cases hb
  simp only [refusals]
  rw [map_set_eq hb hcount]

theorem step_refusals (hs : s.Sequential) (hst : ListenerCall.started s.calls = true)
    (h : s.step e = some s') : s'.refusals = s.refusals := by
  have hl := (hs.started hst).1
  cases step_steps h with
  | listen =>
      unfold listen
      split
      · rfl
      · rfl
  | resolved hr => cases (hs.resolving hr).1.symm.trans hl
  | accept =>
      unfold accept
      rw [if_neg (by simp [hl])]
      split
      · simp [refusals, nextAccept, AcceptCall.refused]
      · rfl
  | @stop ec => exact refusals_stop s ec
  | complete hi => exact congrArg (· + _) (countP_set_eq hi (by rfl))
  | @resume i outcome hi =>
      obtain ⟨c, connections, hres, hc⟩ := s.resumeAccept_cases i outcome
      have hrefused : c.refused = false := by
        rcases hc with rfl | ⟨r, rfl, hr⟩
        · rfl
        · refine hr fun ho => hs.aborted ?_
          subst ho
          exact List.mem_of_getElem? hi
      rw [hres]
      exact congrArg (· + _) (countP_set_eq hi hrefused)
  | secure h => exact refusals_secure hs hst h

end Taps.TCPListener
