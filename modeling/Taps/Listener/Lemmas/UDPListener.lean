import Taps.Listener.Lemmas.Strand
import Taps.Listener.UDPListener

/-!
# The calls on a UDP Listener

What a `listen()` that fails leaves, and what a started Listener is like.
-/

namespace Taps.UDPListener

variable {E : Type} {s s' : UDPListener E} {e : UDPListenerEvent E} {i j : Nat} {d : DemuxEvent E}

/-- A receive is pending on an open socket only. -/
def Waits (s : UDPListener E) : Prop := ∀ sink, .pending sink ∈ s.receiveLoops → s.socketOpen = true

theorem create_waits (config : DemuxConfig) (securityEnabled : Bool) :
    (create (E := E) config securityEnabled).Waits := by
  simp [Waits, create]

theorem not_pending_abort (loops : List (ReceiveLoop E)) (sink : Bool) :
    .pending sink ∉ loops.map ReceiveLoop.abort := by
  intro h
  obtain ⟨l, -, hl⟩ := List.mem_map.mp h
  cases l <;> cases hl

theorem waits_closeSocket (s : UDPListener E) : s.closeSocket.Waits :=
  fun sink h => absurd h (not_pending_abort s.receiveLoops sink)

theorem abort_eq_self {l : ReceiveLoop E} (h : ∀ sink, l ≠ .pending sink) : l.abort = l := by
  cases l with
  | pending sink => exact absurd rfl (h sink)
  | completed | returned => rfl

theorem closeSocket_eq_self (hw : s.Waits) (h : s.socketOpen = false) : s.closeSocket = s := by
  have hloops : s.receiveLoops.map ReceiveLoop.abort = s.receiveLoops := by
    refine (List.map_congr_left fun l hl => abort_eq_self fun sink he => ?_).trans (List.map_id _)
    rw [hw sink (he ▸ hl)] at h
    cases h
  unfold closeSocket
  rw [hloops, ← h]

/-! ## The end of a `listen()` -/

theorem start_cases (s : UDPListener E) (atCap : Bool) (endpoint : Binding E) :
    (s.socketOpen = true ∧ ∃ err, s.start atCap endpoint = (s.closeSocket, .error err)) ∨
    (s.socketOpen = false ∧ ∃ ec, endpoint = .failed ec ∧
      s.start atCap endpoint = (s.closeSocket, .error (ioError .establishmentError ec))) ∨
    (s.socketOpen = false ∧ ∃ ec, endpoint = .unnamed ec ∧ s.start atCap endpoint =
      ({ s with localEndpoint := none }.closeSocket, .error (ioError .establishmentError ec))) ∨
    (s.socketOpen = false ∧ ∃ address, endpoint = .bound address ∧ s.start atCap endpoint =
      ({ s with
          localEndpoint := some address
          socketOpen := true
          receiveLoops := s.receiveLoops ++ [.pending atCap]
          sweepLoops := s.sweepLoops.map SweepLoop.cancel ++ [.pending] }, .ok ())) := by
  unfold start
  cases hopen : s.socketOpen with
  | true => exact .inl ⟨rfl, _, rfl⟩
  | false =>
      cases endpoint with
      | failed ec => exact .inr (.inl ⟨rfl, ec, rfl, rfl⟩)
      | unnamed ec => exact .inr (.inr (.inl ⟨rfl, ec, rfl, rfl⟩))
      | bound address => exact .inr (.inr (.inr ⟨rfl, address, rfl, rfl⟩))

theorem waits_start (s : UDPListener E) (atCap : Bool) (endpoint : Binding E) :
    (s.start atCap endpoint).1.Waits := by
  rcases s.start_cases atCap endpoint with ⟨-, err, h⟩ | ⟨-, ec, -, h⟩ | ⟨-, ec, -, h⟩ | ⟨-, address, -, h⟩
  · rw [h]
    exact waits_closeSocket s
  · rw [h]
    exact waits_closeSocket s
  · rw [h]
    exact waits_closeSocket { s with localEndpoint := none }
  · rw [h]
    exact fun _ _ => rfl

theorem resolved_cons (s : UDPListener E) (endpoint : Binding E) (rest : List (Binding E)) (atCap : Bool) :
    s.resolved (endpoint :: rest) atCap =
      match { s with resolving := s.resolving - 1 }.start atCap endpoint with
      | (s, .error e) => s.listened (.error e)
      | (s, .ok ()) => { s with isListening := true }.listened (.ok ()) := rfl

theorem waits_resolved (endpoint : Binding E) (rest : List (Binding E)) (atCap : Bool) :
    (s.resolved (endpoint :: rest) atCap).Waits := by
  have hstart := waits_start { s with resolving := s.resolving - 1 } atCap endpoint
  rw [resolved_cons]
  split
  · rename_i h
    rw [h] at hstart
    exact hstart
  · rename_i h
    rw [h] at hstart
    exact hstart

/-! ## The strand -/

variable [DecidableEq E]

theorem run_steps (h : s.run i j d = some s') :
    ∃ t, UDPDemux.Steps (s.focus (s.receiveLoops.getD i .returned) (s.sweepLoops.getD j .returned)) d t ∧
      ∃ sweepLoops, s' = { s with
        demux := t.demux
        socketOpen := t.socketOpen
        receiveLoops :=
          (if t.socketOpen then s.receiveLoops else s.receiveLoops.map ReceiveLoop.abort).set i t.receiveLoop
        sweepLoops
        arrivals := t.arrivals } := by
  obtain ⟨t, ht, rfl⟩ := Option.map_eq_some_iff.mp h
  exact ⟨t, UDPDemux.step_steps ht, _, rfl⟩

/-- What a step of the strand takes from the calls and the posted handlers. -/
theorem strand_run (h : s.strand i j d = some s') :
    ∃ entering stopping, { s with entering, stopping }.run i j d = some s' := by
  unfold strand at h
  split at h
  · split at h
    · cases h
    · exact ⟨_, _, h⟩
  · split at h
    · cases h
    · exact ⟨_, _, h⟩
  · exact ⟨_, _, h⟩

theorem getD_mem {α : Type} {l : List α} {a : α} (h : l.getD i a ≠ a) : l.getD i a ∈ l := by
  rw [List.getD_eq_getElem?_getD] at h ⊢
  cases hget : l[i]? with
  | none =>
      rw [hget] at h
      exact absurd rfl h
  | some b => exact List.mem_of_getElem? hget

theorem waits_run (hw : s.Waits) (h : s.run i j d = some s') : s'.Waits := by
  obtain ⟨t, hsteps, sweepLoops, rfl⟩ := run_steps h
  have hfocus : (s.focus (s.receiveLoops.getD i .returned) (s.sweepLoops.getD j .returned)).Waits := by
    intro sink hl
    apply hw sink
    rw [← show _ = ReceiveLoop.pending sink from hl]
    refine getD_mem fun hr => ?_
    rw [show s.receiveLoops.getD i .returned = .pending sink from hl] at hr
    cases hr
  intro sink hl
  rcases List.mem_or_eq_of_mem_set hl with hl | hl
  · by_contra hopen
    rw [if_neg hopen] at hl
    exact not_pending_abort s.receiveLoops sink hl
  · exact (hsteps.waits hfocus).1 sink hl.symm

/-- The steps, with the two ways that `listen()`, the end of its `resolve()` and `accept()` go. -/
inductive Steps (s : UDPListener E) : UDPListenerEvent E → UDPListener E → Prop
  | unavailable (henabled : s.securityEnabled = true) :
      Steps s .listen (s.listened (.error securityUnavailable))
  | resolving (henabled : s.securityEnabled = false) : Steps s .listen { s with resolving := s.resolving + 1 }
  | unresolved {atCap} (hr : s.resolving ≠ 0) :
      Steps s (.resolved [] atCap) ({ s with resolving := s.resolving - 1 }.listened (.error resolutionFailed))
  | resolved {endpoint rest atCap} (hr : s.resolving ≠ 0) :
      Steps s (.resolved (endpoint :: rest) atCap) (s.resolved (endpoint :: rest) atCap)
  | entering (hl : s.isListening = true) : Steps s .accept { s with entering := s.entering + 1 }
  | refused (hl : s.isListening = false) : Steps s .accept { s with refused := s.refused ++ [notListening] }
  | stop : Steps s .stop s.stop
  | strand {i j : Nat} {d : DemuxEvent E} {t : UDPListener E} (h : s.strand i j d = some t) :
      Steps s (.strand i j d) t

theorem step_steps (h : s.step e = some s') : Steps s e s' := by
  cases e with
  | listen =>
      cases h
      unfold listen
      split
      · rename_i henabled
        exact .unavailable henabled
      · rename_i henabled
        exact .resolving (by simpa using henabled)
  | resolved endpoints atCap =>
      simp only [step] at h
      split at h
      · cases h
      · rename_i hr
        cases h
        cases endpoints with
        | nil => exact .unresolved hr
        | cons => exact .resolved hr
  | accept =>
      cases h
      unfold accept
      split
      · rename_i hl
        exact .entering hl
      · rename_i hl
        exact .refused (by simpa using hl)
  | stop =>
      cases h
      exact .stop
  | strand i j d => exact .strand h

theorem step_waits (hw : s.Waits) (h : s.step e = some s') : s'.Waits := by
  cases step_steps h with
  | unavailable | resolving | unresolved | entering | refused | stop => exact hw
  | resolved => exact waits_resolved _ _ _
  | strand h =>
      obtain ⟨entering, stopping, hrun⟩ := strand_run h
      exact waits_run (s := { s with entering, stopping }) hw hrun

theorem waits_of_reachable {config : DemuxConfig} (h : (system config).Reachable s) : s.Waits := by
  refine h.invariant (I := Waits) ?_ fun s e s' hw hst => step_waits hw hst
  rintro s ⟨securityEnabled, rfl⟩
  exact create_waits config securityEnabled

theorem calls_strand (h : s.step (.strand i j d) = some s') : s'.calls = s.calls := by
  obtain ⟨entering, stopping, hrun⟩ := strand_run h
  obtain ⟨t, -, sweepLoops, rfl⟩ := run_steps hrun
  rfl

/-! ## A `listen()` that fails -/

omit [DecidableEq E] in
theorem opensClosed_of_ne (h : ∀ endpoint rest atCap, e ≠ .resolved (endpoint :: rest) atCap) :
    s.OpensClosed e := fun endpoint rest atCap he => absurd he (h endpoint rest atCap)

omit [DecidableEq E] in
theorem resolved_unchanged_iff (hw : s.Waits) (endpoint : Binding E) (rest : List (Binding E)) (atCap : Bool)
    {err : TAPSError} (hfail : (s.resolved (endpoint :: rest) atCap).calls = s.calls ++ [.listened (.error err)]) :
    s.Unchanged (s.resolved (endpoint :: rest) atCap) ↔
      s.socketOpen = false ∧ ((∃ ec, endpoint = .unnamed ec) → s.localEndpoint = none) := by
  have hw' : { s with resolving := s.resolving - 1 }.Waits := hw
  rw [resolved_cons] at hfail ⊢
  rcases { s with resolving := s.resolving - 1 }.start_cases atCap endpoint with
    ⟨hopen, err', h⟩ | ⟨hopen, ec, rfl, h⟩ | ⟨hopen, ec, rfl, h⟩ | ⟨hopen, address, rfl, h⟩
  · rw [h]
    refine iff_of_false (fun hu => ?_) fun hc => ?_
    · cases (congrArg UDPListener.socketOpen hu).trans hopen
    · cases hc.1.symm.trans hopen
  · rw [h, closeSocket_eq_self hw' hopen]
    exact iff_of_true rfl ⟨hopen, by simp⟩
  · rw [h, closeSocket_eq_self (s := { s with resolving := s.resolving - 1, localEndpoint := none }) hw hopen]
    refine ⟨fun hu => ⟨hopen, fun _ => (congrArg UDPListener.localEndpoint hu).symm⟩, fun hc => ?_⟩
    have hnone := hc.2 ⟨ec, rfl⟩
    unfold Unchanged listened
    rw [← hnone]
  · rw [h] at hfail
    have hlast := List.append_cancel_left hfail
    simp at hlast

theorem step_unchanged_iff (hw : s.Waits) (h : s.step e = some s') {err : TAPSError}
    (hfail : s'.calls = s.calls ++ [.listened (.error err)]) : s.Unchanged s' ↔ s.OpensClosed e := by
  cases step_steps h with
  | unavailable | resolving | unresolved => exact iff_of_true rfl (opensClosed_of_ne (by simp))
  | @resolved endpoint rest atCap =>
      rw [resolved_unchanged_iff hw endpoint rest atCap hfail]
      refine ⟨fun hc endpoint' rest' atCap' he => ?_, fun hc => hc endpoint rest atCap rfl⟩
      cases he
      exact hc
  | entering | refused => simp at hfail
  | stop =>
      have hlast := List.append_cancel_left hfail
      simp at hlast
  | strand h =>
      rw [calls_strand h] at hfail
      simp at hfail

/-! ## A started Listener -/

/-- What the calls say of the Listener, and of a listening one that it admits new sources. -/
structure Started (s : UDPListener E) : Prop where
  listening : ListenerCall.started s.calls = s.isListening
  channel : s.demux.accepting = true → s.demux.channel.isOpen = true
  admits : s.isListening = true → s.Admits

omit [DecidableEq E] in
theorem create_started (config : DemuxConfig) (securityEnabled : Bool) :
    (create (E := E) config securityEnabled).Started where
  listening := rfl
  channel _ := rfl
  admits := by simp [create]

omit [DecidableEq E] in
theorem startsOnce_of_ne (h : ∀ endpoint rest atCap, e ≠ .resolved (endpoint :: rest) atCap)
    (hstop : ∀ i j, e ≠ .strand i j .stop) : s.StartsOnce e :=
  ⟨fun endpoint rest atCap he => absurd he (h endpoint rest atCap), fun i j he => absurd he (hstop i j)⟩

/-- A step of the strand, but for the handler of `stop_accepting()`, leaves a loop that runs. -/
theorem admits_run (hs : s.Admits) (hd : d ≠ .stop) (h : s.run i j d = some s') :
    s'.Admits ∧ s'.refusals = s.refusals := by
  obtain ⟨t, hsteps, sweepLoops, rfl⟩ := run_steps h
  have hsteady := hsteps.steady hd
  obtain ⟨hopen, hruns⟩ := hsteps.keeps_running hd hs.accepting
  have hopen' : t.socketOpen = true := hopen.trans hs.socketOpen
  refine ⟨?_, congrArg (s.refused.length + ·) (hsteady.refusals hs.channel)⟩
  refine
    { socketOpen := hopen', loop := ?_, accepting := hsteady.accepting.trans hs.accepting
      channel := hsteady.isOpen.trans hs.channel }
  obtain ⟨l, hl, hrun⟩ := hs.loop
  obtain ⟨k, hk⟩ := List.mem_iff_getElem?.mp hl
  simp only [hopen', if_true]
  by_cases hik : i = k
  · subst hik
    have hlt := (List.getElem?_eq_some_iff.mp hk).1
    refine ⟨t.receiveLoop, List.mem_set hlt _, hruns hs.socketOpen ?_⟩
    rw [show (s.focus (s.receiveLoops.getD i .returned) (s.sweepLoops.getD j .returned)).receiveLoop = l by
      simp [focus, hk]]
    exact hrun
  · exact ⟨l, List.mem_of_getElem? ((List.getElem?_set_ne hik).trans hk), hrun⟩

omit [DecidableEq E] in
/-- A `listen()` has failed and closed the socket. -/
theorem failed_admits_iff (hs : s.Started) (hcalls : s'.calls = s.calls) (hopen : s'.socketOpen = false)
    (err : TAPSError) : (ListenerCall.started (s'.listened (.error err)).calls = true →
      (s'.listened (.error err)).Admits) ↔ s.isListening = false := by
  rw [listened, ListenerCall.started_append, hcalls, hs.listening, ← Bool.not_eq_true]
  refine ⟨fun ha hl => ?_, fun hc hl => absurd hl hc⟩
  cases hopen.symm.trans (ha hl).socketOpen

omit [DecidableEq E] in
/-- After a `listen()` that came to open the socket. -/
theorem resolved_admits_iff (hs : s.Started) (endpoint : Binding E) (rest : List (Binding E)) (atCap : Bool) :
    (ListenerCall.started (s.resolved (endpoint :: rest) atCap).calls = true →
      (s.resolved (endpoint :: rest) atCap).Admits) ↔
    s.isListening = false ∧ ((∃ address, endpoint = .bound address) → s.socketOpen = false →
      s.demux.accepting = true) := by
  rw [resolved_cons]
  rcases { s with resolving := s.resolving - 1 }.start_cases atCap endpoint with
    ⟨hopen, err, h⟩ | ⟨hopen, ec, rfl, h⟩ | ⟨hopen, ec, rfl, h⟩ | ⟨hopen, address, rfl, h⟩
  · -- the socket was open, and is closed now
    simp only [h]
    refine (failed_admits_iff hs (by rfl) (by rfl) err).trans ⟨fun hl => ⟨hl, fun _ hclosed => ?_⟩, And.left⟩
    cases hclosed.symm.trans hopen
  · simp only [h]
    exact (failed_admits_iff hs (by rfl) (by rfl) _).trans ⟨fun hl => ⟨hl, by simp⟩, And.left⟩
  · simp only [h]
    exact (failed_admits_iff hs (by rfl) (by rfl) _).trans ⟨fun hl => ⟨hl, by simp⟩, And.left⟩
  · simp only [h]
    have hlistening : s.isListening = false := by
      rw [← Bool.not_eq_true]
      exact fun hl => by cases hopen.symm.trans (hs.admits hl).socketOpen
    refine ⟨fun ha => ⟨hlistening, fun _ _ => ?_⟩, fun hc _ => ?_⟩
    · refine (ha ?_).accepting
      rw [listened, ListenerCall.started_append]
      rfl
    · have hacc := hc.2 ⟨address, rfl⟩ hopen
      exact
        { socketOpen := rfl, loop := ⟨.pending atCap, List.mem_append_right _ List.mem_cons_self, trivial⟩
          accepting := hacc, channel := hs.channel hacc }

theorem demux_run_stop (h : s.run i j .stop = some s') : s'.demux = s.demux.stop := by
  obtain ⟨t, hsteps, sweepLoops, rfl⟩ := run_steps h
  cases hsteps
  exact UDPDemux.demux_shutDownIfUnused _

theorem isListening_strand (h : s.step (.strand i j d) = some s') : s'.isListening = s.isListening := by
  obtain ⟨entering, stopping, hrun⟩ := strand_run h
  obtain ⟨t, -, sweepLoops, rfl⟩ := run_steps hrun
  rfl

/-- After a step, a started Listener admits new sources if and only if it was not started again, nor has a
handler of an earlier `stop()` run. -/
theorem step_admits_iff (hs : s.Started) (h : s.step e = some s') :
    (ListenerCall.started s'.calls = true → s'.Admits) ↔ s.StartsOnce e := by
  have hadmits : ListenerCall.started s.calls = true → s.Admits := fun hl => hs.admits (hs.listening ▸ hl)
  cases step_steps h with
  | unavailable | unresolved =>
      refine iff_of_true ?_ (startsOnce_of_ne (by simp) (by simp))
      rw [listened, ListenerCall.started_append]
      exact fun hl => { hadmits hl with }
  | resolving | entering | refused =>
      exact iff_of_true (fun hl => { hadmits hl with }) (startsOnce_of_ne (by simp) (by simp))
  | @resolved endpoint rest atCap =>
      rw [resolved_admits_iff hs endpoint rest atCap]
      refine ⟨fun hc => ⟨fun endpoint' rest' atCap' he => ?_, by simp⟩, fun hc => hc.1 _ _ _ rfl⟩
      cases he
      exact hc
  | stop =>
      refine iff_of_true ?_ (startsOnce_of_ne (by simp) (by simp))
      rw [stop, ListenerCall.started_append]
      simp [ListenerCall.after]
  | @strand i j d _ h =>
      rw [calls_strand h, hs.listening]
      obtain ⟨entering, stopping, hrun⟩ := strand_run h
      by_cases hd : d = .stop
      · subst hd
        have hclosed : ¬ s'.Admits := by
          intro ha
          have hacc := ha.accepting
          rw [demux_run_stop hrun] at hacc
          cases hacc
        refine ⟨fun ha => ⟨by simp, fun _ _ _ => ?_⟩, fun hc hl => ?_⟩
        · rw [← Bool.not_eq_true]
          exact fun hl => hclosed (ha hl)
        · cases (hc.2 i j rfl).symm.trans hl
      · refine iff_of_true (fun hl => ?_) (startsOnce_of_ne (by simp) (by simp [hd]))
        exact (admits_run (s := { s with entering, stopping }) { hs.admits hl with } hd hrun).1

omit [DecidableEq E] in
theorem Started.started_failed (hs : s.Started) (err : TAPSError) :
    ListenerCall.started (s.calls ++ [.listened (.error err)]) = s.isListening := by
  rw [ListenerCall.started_append, ← hs.listening]
  rfl

omit [DecidableEq E] in
/-- The end of a `listen()` is no matter of the table, and is recorded as the state says. -/
theorem resolved_fields (hs : s.Started) (endpoint : Binding E) (rest : List (Binding E)) (atCap : Bool) :
    (s.resolved (endpoint :: rest) atCap).demux = s.demux ∧
      (s.resolved (endpoint :: rest) atCap).refused = s.refused ∧
      ListenerCall.started (s.resolved (endpoint :: rest) atCap).calls =
        (s.resolved (endpoint :: rest) atCap).isListening := by
  rw [resolved_cons]
  rcases { s with resolving := s.resolving - 1 }.start_cases atCap endpoint with
    ⟨-, err, h⟩ | ⟨-, ec, -, h⟩ | ⟨-, ec, -, h⟩ | ⟨-, address, -, h⟩
  · rw [h]
    exact ⟨rfl, rfl, hs.started_failed _⟩
  · rw [h]
    exact ⟨rfl, rfl, hs.started_failed _⟩
  · rw [h]
    exact ⟨rfl, rfl, hs.started_failed _⟩
  · rw [h]
    exact ⟨rfl, rfl, ListenerCall.started_append ..⟩

theorem step_started (hs : s.Started) (h : s.step e = some s') (ho : s.StartsOnce e) : s'.Started := by
  have hadmits := (step_admits_iff hs h).mpr ho
  have hboth : ListenerCall.started s'.calls = s'.isListening ∧
      (s'.demux.accepting = true → s'.demux.channel.isOpen = true) := by
    cases step_steps h with
    | unavailable | unresolved => exact ⟨hs.started_failed _, hs.channel⟩
    | resolving | entering | refused => exact ⟨hs.listening, hs.channel⟩
    | @resolved endpoint rest atCap =>
        obtain ⟨hdemux, -, hlistening⟩ := resolved_fields hs endpoint rest atCap
        exact ⟨hlistening, hdemux ▸ hs.channel⟩
    | stop => exact ⟨ListenerCall.started_append .., hs.channel⟩
    | @strand i j d _ h =>
        refine ⟨?_, fun hacc => ?_⟩
        · rw [calls_strand h, hs.listening, isListening_strand h]
        · obtain ⟨entering, stopping, hrun⟩ := strand_run h
          by_cases hd : d = .stop
          · subst hd
            rw [demux_run_stop hrun] at hacc
            cases hacc
          · obtain ⟨t, hsteps, sweepLoops, rfl⟩ := run_steps hrun
            have hsteady := hsteps.steady hd
            exact hsteady.isOpen.trans (hs.channel (hsteady.accepting.symm.trans hacc))
  exact { listening := hboth.1, channel := hboth.2, admits := fun hl => hadmits (hboth.1.trans hl) }

theorem started_of_reachable {config : DemuxConfig}
    (h : ((system config).restrict fun s e _ => s.StartsOnce e).Reachable s) : s.Started := by
  refine h.invariant (I := Started) ?_ ?_
  · rintro s ⟨securityEnabled, rfl⟩
    exact create_started config securityEnabled
  · rintro s e s' hs ⟨hst, ho⟩
    exact step_started hs hst ho

theorem step_refusals (hs : s.Started) (hl : s.isListening = true) (h : s.step e = some s')
    (ho : s.StartsOnce e) : s'.refusals = s.refusals := by
  cases step_steps h with
  | unavailable | resolving | unresolved | entering | stop => rfl
  | @resolved endpoint rest atCap =>
      obtain ⟨hdemux, hrefused, -⟩ := resolved_fields hs endpoint rest atCap
      rw [refusals, hdemux, hrefused]
      rfl
  | refused hstopped => cases hl.symm.trans hstopped
  | @strand i j d _ h =>
      obtain ⟨entering, stopping, hrun⟩ := strand_run h
      have hd : d ≠ .stop := by
        rintro rfl
        cases (ho.2 i j rfl).symm.trans hl
      exact (admits_run (s := { s with entering, stopping }) { hs.admits hl with } hd hrun).2

/-! ## A Listener with security -/

/-- Nothing has been started. -/
structure Unstarted (config : DemuxConfig) (s : UDPListener E) : Prop where
  enabled : s.securityEnabled = true
  isListening : s.isListening = false
  demux : s.demux = .create config
  receiveLoops : s.receiveLoops = []
  sweepLoops : s.sweepLoops = []
  resolving : s.resolving = 0
  entering : s.entering = 0
  stopping : s.stopping = 0

omit [DecidableEq E] in
theorem create_unstarted (config : DemuxConfig) : (create (E := E) config true).Unstarted config :=
  ⟨rfl, rfl, rfl, rfl, rfl, rfl, rfl, rfl⟩

/-- No loop runs, and there is no Connection and no handler. -/
theorem Unstarted.run_eq_none {config : DemuxConfig} (hs : s.Unstarted config) (haccept : d ≠ .accept)
    (hstop : d ≠ .stop) : s.run i j d = none := by
  have hfocus : s.focus (s.receiveLoops.getD i .returned) (s.sweepLoops.getD j .returned) =
      { demux := .create config, socketOpen := s.socketOpen, receiveLoop := .returned, sweepLoop := .returned
        arrivals := s.arrivals } := by
    simp [focus, hs.demux, hs.receiveLoops, hs.sweepLoops]
  rw [run, hfocus, Option.map_eq_none_iff]
  cases d with
  | accept => exact absurd rfl haccept
  | stop => exact absurd rfl hstop
  | arrive | resume | expire | sweep => rfl
  | release => simp [UDPDemux.step, UDPDemux.atShutDown, Demux.create]
  | receive | wake | close | destroy => simp [UDPDemux.step, UDPDemux.owned, Demux.create]

theorem step_unstarted {config : DemuxConfig} (hs : s.Unstarted config) (h : s.step e = some s') :
    s'.Unstarted config := by
  cases step_steps h with
  | unavailable | refused => exact { hs with }
  | resolving henabled => cases hs.enabled.symm.trans henabled
  | unresolved hr | resolved hr => exact absurd hs.resolving hr
  | entering hl => cases hs.isListening.symm.trans hl
  | stop =>
      exact { hs with isListening := rfl, stopping := by simp [UDPListener.stop, hs.isListening, hs.stopping] }
  | strand h =>
      unfold strand at h
      split at h
      · rw [if_pos hs.entering] at h
        cases h
      · rw [if_pos hs.stopping] at h
        cases h
      · rename_i haccept hstop
        rw [hs.run_eq_none haccept hstop] at h
        cases h

theorem accepts_of_secured {config : DemuxConfig} {es : List (UDPListenerEvent E)}
    (hrun : (system config).Run (create config true) es s) : s.demux.accepts = [] := by
  have hs : s.Unstarted config := hrun.preserves (I := Unstarted config)
    (fun s e s' hs hst => step_unstarted hs hst) (create_unstarted config)
  rw [hs.demux]
  rfl

end Taps.UDPListener
