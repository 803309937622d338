import Taps.Listener.Lemmas.SecureAcceptor
import Taps.Listener.TCPListener

/-!
# The calls on a TCP Listener

What a `listen()` that fails leaves, and what a started Listener is like whose calls do not overlap.
-/

namespace Taps.TCPListener

variable {s s' : TCPListener} {e : TCPListenerEvent} {i j : Nat}

/-- An accept is pending on an open acceptor only. -/
def Waits (s : TCPListener) : Prop := .accepting .pending ∈ s.accepts → s.acceptorOpen = true

theorem not_pending_cancel (accepts : List AcceptCall) :
    .accepting .pending ∉ accepts.map AcceptCall.cancel := by
  intro h
  obtain ⟨c, -, hc⟩ := List.mem_map.mp h
  cases c with
  | accepting op => exact op.cancel_ne_pending _ (AcceptCall.accepting.inj hc)
  | returned r => cases hc

theorem waits_closeAcceptor (s : TCPListener) : s.closeAcceptor.Waits :=
  fun h => absurd h (not_pending_cancel s.accepts)

theorem cancel_eq_self {c : AcceptCall} (h : c ≠ .accepting .pending) : c.cancel = c := by
  cases c with
  | accepting op =>
      exact congrArg AcceptCall.accepting (Lib.Operation.cancel_of_ne_pending fun hop => h (hop ▸ rfl))
  | returned r => rfl

theorem map_cancel {accepts : List AcceptCall} (h : .accepting .pending ∉ accepts) :
    accepts.map AcceptCall.cancel = accepts :=
  (List.map_congr_left fun _ hc => cancel_eq_self fun he => h (he ▸ hc)).trans (List.map_id _)

theorem not_pending_of_closed (hw : s.Waits) (hopen : s.acceptorOpen = false) :
    .accepting .pending ∉ s.accepts := by
  intro h
  rw [hw h] at hopen
  cases hopen

theorem closeAcceptor_reopened (hw : s.Waits) (hopen : s.acceptorOpen = false) :
    { s with acceptorOpen := true }.closeAcceptor = s := by
  unfold closeAcceptor
  simp only [map_cancel (not_pending_of_closed hw hopen), ← hopen]

theorem closeAcceptor_eq_self (hw : s.Waits) (hopen : s.acceptorOpen = false) : s.closeAcceptor = s :=
  closeAcceptor_reopened hw hopen

/-! ## The end of a `listen()` -/

/-- From a closed acceptor, the loop ends with the acceptor closed or bound. -/
theorem bindLoop_of_closed (hw : s.Waits) (hopen : s.acceptorOpen = false) (last : ErrorCode)
    (attempts : List BindAttempt) :
    s.bindLoop last attempts = ({ s with acceptorOpen := true }, .bound) ∨
      ∃ r, r ≠ .bound ∧ s.bindLoop last attempts = (s, r) := by
  induction attempts generalizing last with
  | nil => exact .inr ⟨.failed last, by simp, rfl⟩
  | cons a rest ih =>
      have hclose := closeAcceptor_reopened hw hopen
      unfold bindLoop tryBind
      rw [hopen]
      simp only [Bool.false_eq_true, if_false]
      cases a.opened with
      | some ec =>
          simp only [hopen, Bool.false_eq_true, if_false]
          exact ih ec
      | none =>
          simp only
          cases a.bound with
          | none => exact .inl rfl
          | some ec =>
              simp only [if_true]
              rw [hclose]
              cases a.closed with
              | some ec' => exact .inr ⟨.threw ec', by simp, rfl⟩
              | none => exact ih ec

/-- If there is an endpoint, the loop starts anew, whether the acceptor was closed or its first attempt
closes it. -/
theorem bindLoop_cons (hw : s.Waits) (last : ErrorCode) (a : BindAttempt) (rest : List BindAttempt) :
    s.bindLoop last (a :: rest) = ({ s.closeAcceptor with acceptorOpen := true }, .bound) ∨
      ∃ r, r ≠ .bound ∧ s.bindLoop last (a :: rest) = (s.closeAcceptor, r) := by
  cases hopen : s.acceptorOpen with
  | false =>
      rw [closeAcceptor_eq_self hw hopen]
      exact bindLoop_of_closed hw hopen last (a :: rest)
  | true =>
      unfold bindLoop tryBind
      rw [hopen]
      simp only [if_true, hopen]
      cases a.closed with
      | some ec => exact .inr ⟨.threw ec, by simp, rfl⟩
      | none => exact bindLoop_of_closed (waits_closeAcceptor s) rfl .alreadyOpen rest

theorem begin_cases (s : TCPListener) (provider : Result Unit) (ec : Option ErrorCode) :
    (s.securityEnabled = false ∧ s.begin provider ec = ({ s with isListening := true }, .ok ())) ∨
    (s.securityEnabled = true ∧ s.begin provider ec = ({ s with
      secures := s.secures ++ [SecureAcceptor.create], acceptorOpen := false, isListening := true }, .ok ())) ∨
    ∃ err, s.begin provider ec = (s.closeAcceptor, .error err) := by
  unfold begin
  cases hsec : s.securityEnabled with
  | false => exact .inl ⟨rfl, rfl⟩
  | true =>
      simp only [Bool.true_eq_false, if_false]
      rcases (if s.withTls = true then provider else .error tlsUnavailable) with err | ⟨⟩
      · cases ec with
        | none => exact .inr (.inr ⟨err, rfl⟩)
        | some ec => exact .inr (.inr ⟨ioError .establishmentError ec, rfl⟩)
      · exact .inr (.inl ⟨trivial, rfl⟩)

/-- A `listen()` that came to open the acceptor fails, with the acceptor closed; or it succeeds, with the
acceptor open or in a new SecureAcceptor. -/
theorem resolved_cases (hw : s.Waits) (a : BindAttempt) (rest : List BindAttempt) (provider : Result Unit)
    (ec : Option ErrorCode) :
    ∃ t : TCPListener, t = { s.closeAcceptor with resolving := s.resolving - 1 } ∧
      ((∃ err, s.resolved (a :: rest) provider ec = t.listened (.error err)) ∨
        (s.securityEnabled = false ∧ s.resolved (a :: rest) provider ec =
          { t with acceptorOpen := true, isListening := true }.listened (.ok ())) ∨
        s.securityEnabled = true ∧ s.resolved (a :: rest) provider ec =
          { t with secures := s.secures ++ [SecureAcceptor.create], isListening := true }.listened (.ok ())) := by
  have hclose : { s.closeAcceptor with resolving := s.resolving - 1, acceptorOpen := true }.closeAcceptor
      = { s.closeAcceptor with resolving := s.resolving - 1 } :=
    closeAcceptor_reopened (s := { s.closeAcceptor with resolving := s.resolving - 1 })
      (waits_closeAcceptor s) rfl
  refine ⟨_, rfl, ?_⟩
  unfold resolved
  rcases bindLoop_cons (s := { s with resolving := s.resolving - 1 }) hw (.other 0) a rest with h | ⟨r, hr, h⟩
  · simp only [h]
    rcases begin_cases { { s with resolving := s.resolving - 1 }.closeAcceptor with acceptorOpen := true }
      provider ec with ⟨hsec, hb⟩ | ⟨hsec, hb⟩ | ⟨err, hb⟩
    · rw [hb]
      exact .inr (.inl ⟨hsec, rfl⟩)
    · rw [hb]
      exact .inr (.inr ⟨hsec, rfl⟩)
    · rw [hb]
      exact .inl ⟨err, congrArg (·.listened (.error err)) hclose⟩
  · simp only [h]
    cases r with
    | bound => exact absurd rfl hr
    | failed last => exact .inl ⟨_, rfl⟩
    | threw ec => exact .inl ⟨_, rfl⟩

/-! ## A `listen()` that fails -/

theorem waits_resolved (hw : s.Waits) (attempts : List BindAttempt) (provider : Result Unit)
    (ec : Option ErrorCode) : (s.resolved attempts provider ec).Waits := by
  cases attempts with
  | nil => exact hw
  | cons a rest =>
      have hclosed := waits_closeAcceptor s
      obtain ⟨t, rfl, ⟨err, h⟩ | ⟨-, h⟩ | ⟨-, h⟩⟩ := resolved_cases hw a rest provider ec
      · rw [h]
        exact hclosed
      · rw [h]
        exact fun _ => rfl
      · rw [h]
        exact hclosed

theorem waits_set (hw : s.Waits) (c : AcceptCall) (hc : c = .accepting .pending → s.acceptorOpen = true)
    (hs : s'.accepts = s.accepts.set i c) (hopen : s'.acceptorOpen = s.acceptorOpen) : s'.Waits := by
  intro hmem
  rw [hs] at hmem
  rw [hopen]
  rcases List.mem_or_eq_of_mem_set hmem with hmem | hmem
  · exact hw hmem
  · exact hc hmem.symm

theorem nextAccept_pending (h : s.nextAccept = .accepting .pending) : s.acceptorOpen = true := by
  unfold nextAccept Lib.Operation.start at h
  cases hopen : s.acceptorOpen with
  | true => rfl
  | false =>
      rw [hopen] at h
      cases h

theorem resumeAccept_cases (s : TCPListener) (i : Nat) (outcome : Except ErrorCode Unit) :
    ∃ c connections, s.resumeAccept i outcome = { s with accepts := s.accepts.set i c, connections } ∧
      (c = s.nextAccept ∨
        ∃ r : Result Nat, c = .returned r ∧ (outcome ≠ .error .operationAborted → invalidState r = false)) := by
  unfold resumeAccept
  split
  · exact ⟨_, _, rfl, .inl rfl⟩
  · exact ⟨_, _, rfl, .inr ⟨_, rfl, fun h => absurd rfl h⟩⟩
  · exact ⟨_, _, rfl, .inr ⟨_, rfl, fun _ => invalidState_ioError ..⟩⟩
  · exact ⟨_, _, rfl, .inr ⟨_, rfl, fun _ => rfl⟩⟩

theorem secure_cases {a : AcceptorEvent} (h : s.secure j a = some s') :
    ∃ b b' entering stopping, s.secures[j]? = some b ∧ b.step a = some b' ∧
      s' = { s with secures := s.secures.set j b', entering, stopping } ∧
      (∀ k ∈ entering, k ∈ s.entering) ∧ (∀ k ∈ stopping, k ∈ s.stopping) ∧
      (a = .accept → j ∈ s.entering) ∧ (a = .stop → j ∈ s.stopping) := by
  unfold secure at h
  split at h
  · cases h
  · rename_i b hb
    obtain ⟨b', hstep, h⟩ := Option.bind_eq_some_iff.mp h
    refine ⟨b, b', ?_⟩
    cases a with
    | accept =>
        simp only at h
        split at h
        · rename_i hj
          cases h
          exact ⟨_, _, hb, hstep, rfl, fun _ => List.mem_of_mem_erase, fun _ => id, fun _ => hj, by simp⟩
        · cases h
    | stop =>
        simp only at h
        split at h
        · rename_i hj
          cases h
          exact ⟨_, _, hb, hstep, rfl, fun _ => id, fun _ => List.mem_of_mem_erase, by simp, fun _ => hj⟩
        · cases h
    | complete | resume | secured =>
        cases h
        exact ⟨_, _, hb, hstep, rfl, fun _ => id, fun _ => id, by simp, by simp⟩

/-- The steps, one constructor for each event. -/
inductive Steps (s : TCPListener) : TCPListenerEvent → TCPListener → Prop
  | listen : Steps s .listen s.listen
  | resolved {attempts provider ec} (hr : s.resolving ≠ 0) :
      Steps s (.resolved attempts provider ec) (s.resolved attempts provider ec)
  | accept : Steps s .accept s.accept
  | stop {ec} : Steps s (.stop ec) (s.stop ec)
  | complete {i outcome} (hi : s.accepts[i]? = some (.accepting .pending))
      (ho : outcome ≠ .error .operationAborted) :
      Steps s (.complete i outcome) { s with accepts := s.accepts.set i (.accepting (.completed outcome)) }
  | resume {i outcome} (hi : s.accepts[i]? = some (.accepting (.completed outcome))) :
      Steps s (.resume i) (s.resumeAccept i outcome)
  | secure {j a s'} (h : s.secure j a = some s') : Steps s (.secure j a) s'

theorem step_steps (h : s.step e = some s') : Steps s e s' := by
  cases e with
  | listen =>
      cases h
      exact .listen
  | resolved attempts provider ec =>
      simp only [step] at h
      split at h
      · cases h
      · rename_i hr
        cases h
        exact .resolved hr
  | accept =>
      cases h
      exact .accept
  | stop ec =>
      cases h
      exact .stop
  | complete i outcome =>
      simp only [step] at h
      split at h
      · cases h
      · rename_i hi ho
        cases h
        exact .complete hi (by simpa using ho)
      · cases h
  | resume i =>
      simp only [step] at h
      split at h
      · rename_i hi
        cases h
        exact .resume hi
      · cases h
  | secure j a => exact .secure h

theorem step_waits (hw : s.Waits) (h : s.step e = some s') : s'.Waits := by
  cases step_steps h with
  | listen =>
      unfold listen
      split
      · exact hw
      · exact hw
  | resolved => exact waits_resolved hw _ _ _
  | accept =>
      unfold accept
      have happend : ∀ c : AcceptCall, (c = .accepting .pending → s.acceptorOpen = true) →
          { s with accepts := s.accepts ++ [c] }.Waits := by
        intro c hc hmem
        rcases List.mem_append.mp hmem with hmem | hmem
        · exact hw hmem
        · exact hc (List.mem_singleton.mp hmem).symm
      split
      · exact happend _ (by simp)
      · split
        · exact happend _ nextAccept_pending
        · exact hw
  | stop =>
      unfold stop
      split
      · exact hw
      · split
        · split
          · exact waits_closeAcceptor s
          · exact waits_closeAcceptor s
        · exact hw
  | complete => exact waits_set hw _ (by simp) rfl rfl
  | @resume i outcome =>
      obtain ⟨c, connections, hres, hc⟩ := s.resumeAccept_cases i outcome
      rw [hres]
      refine waits_set hw c (fun hpending => ?_) rfl rfl
      rcases hc with rfl | ⟨r, rfl, -⟩
      · exact nextAccept_pending hpending
      · cases hpending
  | secure h =>
      obtain ⟨b, b', entering, stopping, -, -, rfl, -⟩ := secure_cases h
      exact hw

theorem waits_of_reachable (h : system.Reachable s) : s.Waits := by
  refine h.invariant (I := Waits) ?_ fun s e s' hw hst => step_waits hw hst
  rintro s ⟨securityEnabled, withTls, rfl⟩
  simp [Waits, create]

/-- A step leaves the SecureAcceptors as they are, starts another one, or is a step of one of them. -/
theorem secures_cases (hw : s.Waits) (h : s.step e = some s') :
    (∀ j a, e ≠ .secure j a) ∧
        (s'.secures = s.secures ∨ s'.secures = s.secures ++ [SecureAcceptor.create]) ∨
      ∃ j a b b', e = .secure j a ∧ s.secures[j]? = some b ∧ b.step a = some b' ∧
        s'.secures = s.secures.set j b' := by
  cases step_steps h with
  | listen =>
      refine .inl ⟨by simp, .inl ?_⟩
      unfold listen
      split
      · rfl
      · rfl
  | @resolved attempts provider ec =>
      cases attempts with
      | nil => exact .inl ⟨by simp, .inl rfl⟩
      | cons a rest =>
          obtain ⟨t, rfl, ⟨err, hr⟩ | ⟨-, hr⟩ | ⟨-, hr⟩⟩ := resolved_cases hw a rest provider ec
          · exact .inl ⟨by simp, .inl (by rw [hr]; rfl)⟩
          · exact .inl ⟨by simp, .inl (by rw [hr]; rfl)⟩
          · exact .inl ⟨by simp, .inr (by rw [hr]; rfl)⟩
  | accept =>
      refine .inl ⟨by simp, .inl ?_⟩
      unfold accept
      split
      · rfl
      · split
        · rfl
        · rfl
  | stop =>
      refine .inl ⟨by simp, .inl ?_⟩
      unfold stop
      split
      · rfl
      · split
        · split
          · rfl
          · rfl
        · rfl
  | complete => exact .inl ⟨by simp, .inl rfl⟩
  | @resume i outcome =>
      obtain ⟨c, connections, hres, -⟩ := s.resumeAccept_cases i outcome
      exact .inl ⟨by simp, .inl (by rw [hres])⟩
  | @secure j a s' h =>
      obtain ⟨b, b', entering, stopping, hb, hstep, rfl, -⟩ := secure_cases h
      exact .inr ⟨j, a, b, b', rfl, hb, hstep, rfl⟩

theorem opensClosed_of_ne (h : ∀ a rest provider ec, e ≠ .resolved (a :: rest) provider ec) :
    s.OpensClosed e := fun a rest provider ec he => absurd he (h a rest provider ec)

theorem listens_of_calls {r : Result Unit} (h : s.step e = some s')
    (hcalls : s'.calls = s.calls ++ [.listened r]) :
    e = .listen ∨ ∃ attempts provider ec, e = .resolved attempts provider ec := by
  cases step_steps h with
  | listen => exact .inl rfl
  | resolved => exact .inr ⟨_, _, _, rfl⟩
  | accept =>
      have hsame : s.accept.calls = s.calls := by
        unfold accept
        split
        · rfl
        · split
          · rfl
          · rfl
      rw [hsame] at hcalls
      simp at hcalls
  | @stop ec =>
      obtain ⟨r', hstop⟩ : ∃ r', (s.stop ec).calls = s.calls ++ [.stopped r'] := by
        unfold stop
        split
        · exact ⟨_, rfl⟩
        · split
          · split
            · exact ⟨_, rfl⟩
            · exact ⟨_, rfl⟩
          · exact ⟨_, rfl⟩
      have hlast := List.append_cancel_left (hstop.symm.trans hcalls)
      simp at hlast
  | complete => simp at hcalls
  | @resume i outcome =>
      obtain ⟨c, connections, hres, -⟩ := s.resumeAccept_cases i outcome
      rw [hres] at hcalls
      simp at hcalls
  | secure h =>
      obtain ⟨b, b', entering, stopping, -, -, rfl, -⟩ := secure_cases h
      simp at hcalls

theorem step_unchanged_iff (hw : s.Waits) (h : s.step e = some s') {err : TAPSError}
    (hfail : s'.calls = s.calls ++ [.listened (.error err)]) : s.Unchanged s' ↔ s.OpensClosed e := by
  rcases listens_of_calls h hfail with rfl | ⟨attempts, provider, ec, rfl⟩
  · cases h
    refine iff_of_true ?_ (opensClosed_of_ne (by simp))
    unfold listen
    split
    · rfl
    · rfl
  · cases step_steps h with
    | resolved =>
      cases attempts with
      | nil => exact iff_of_true rfl (opensClosed_of_ne (by simp))
      | cons a rest =>
          have hok : ∀ t : TCPListener, t.calls = s.calls →
              (t.listened (.ok ())).calls ≠ s.calls ++ [.listened (.error err)] := by
            intro t ht hc
            rw [listened, ht] at hc
            have hlast := List.append_cancel_left hc
            simp at hlast
          obtain ⟨t, rfl, ⟨err', hr⟩ | ⟨-, hr⟩ | ⟨-, hr⟩⟩ := resolved_cases hw a rest provider ec
          · rw [hr]
            refine ⟨fun hu a' rest' provider' ec' _ => (congrArg acceptorOpen hu).symm, fun hc => ?_⟩
            rw [closeAcceptor_eq_self hw (hc a rest provider ec rfl)]
            rfl
          · rw [hr] at hfail
            exact absurd hfail (hok _ rfl)
          · rw [hr] at hfail
            exact absurd hfail (hok _ rfl)

end Taps.TCPListener
