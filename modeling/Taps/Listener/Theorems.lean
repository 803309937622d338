import Taps.Listener.Lemmas.Handover
import Taps.Listener.Lemmas.Serves
import Taps.Listener.Lemmas.UDPListener
import Taps.Udp.Theorems

/-!
# Listeners

How the accept loop of a TCP Listener with security ends, what a `listen()` that fails leaves, what a started
Listener is like, and that no Connection is lost between the accept and `accept()`.
-/

namespace Taps.SecureAcceptor

variable {s : SecureAcceptor}

/-! ## The end of the accept loop -/

/-- In the runs in which the accept of `accept_loop()` is pending when the handler of `stop()` first runs,
the loop starts no accept on the closed acceptor and returns. -/
theorem accept_loop_ends (h : (system.restrict fun s e _ => AcceptWaits s e).Reachable s) :
    s.AcceptEnds := by
  have hboth : s.Sending ∧ s.AcceptDone := by
    refine h.invariant (I := fun s => s.Sending ∧ s.AcceptDone) ?_ ?_
    · rintro s rfl
      exact ⟨rfl, nofun⟩
    · rintro s e s' ⟨hs, hd⟩ ⟨hst, hw⟩
      exact ⟨step_sending hst hs, step_acceptDone hst hw hs hd⟩
  intro ho
  refine ⟨hboth.2 ho, fun s' hst => ?_⟩
  rcases hboth.2 ho with hl | hl
  · simp only [step, hl] at hst
    cases hst
  · simp only [step, hl] at hst
    cases hst
    rfl

/-- A socket is accepted before the Listener is stopped with the next accept pending. -/
theorem accept_loop_ends_pending : ∃ s,
    (system.restrict fun s e _ => AcceptWaits s e).Run create
      [.complete (.ok ()), .resume, .stop, .resume] s ∧
    s.acceptorOpen = false ∧ s.loop = .returned ∧ s.AcceptEnds := by
  obtain ⟨s, hrun, ho, hl⟩ : ∃ s, (system.restrict fun s e _ => AcceptWaits s e).Run create
      [.complete (.ok ()), .resume, .stop, .resume] s ∧
      s.acceptorOpen = false ∧ s.loop = .returned :=
    ⟨_, .step ⟨rfl, nofun⟩ (.step ⟨rfl, nofun⟩ (.step ⟨rfl, fun _ _ => rfl⟩
      (.step ⟨rfl, nofun⟩ .refl))), rfl, rfl⟩
  exact ⟨s, hrun, ho, hl, accept_loop_ends ⟨_, _, rfl, hrun⟩⟩

/-- A socket has been accepted when the Listener is stopped, and `accept_loop()` is resumed after that. -/
def acceptedEvents : List AcceptorEvent := [.complete (.ok ()), .stop, .resume]

/-- The loop starts an accept on the closed acceptor. -/
theorem accept_loop_goes_on : ¬ ∀ s, system.Reachable s → s.AcceptEnds := by
  intro h
  have hsome : (acceptedEvents.foldlM step create).isSome := rfl
  obtain ⟨s, hs⟩ := Option.isSome_iff_exists.mp hsome
  have hends := h s ⟨_, acceptedEvents, rfl, .of_foldlM (fun _ _ _ _ hst => hst) hs⟩
  cases hs
  rcases (hends rfl).1 with hl | hl
  · cases hl
  · cases hl

end Taps.SecureAcceptor

namespace Taps

/-! ## A `listen()` that fails -/

/-- A `listen()` that fails leaves the Listener as it is if and only if it does not come to open the socket
or the acceptor where that is open; and a UDP Listener also not where the endpoint is forgotten. A TCP
Listener whose calls do not overlap is always left as it is. -/
theorem failed_listen_unchanged {E : Type} [DecidableEq E] (config : DemuxConfig) :
    (∀ (s s' : UDPListener E) (e : UDPListenerEvent E) (err : TAPSError),
      (UDPListener.system config).Reachable s → s.step e = some s' →
        s'.calls = s.calls ++ [.listened (.error err)] → (s.Unchanged s' ↔ s.OpensClosed e)) ∧
    (∀ (s s' : TCPListener) (e : TCPListenerEvent) (err : TAPSError),
      TCPListener.system.Reachable s → s.step e = some s' →
        s'.calls = s.calls ++ [.listened (.error err)] → (s.Unchanged s' ↔ s.OpensClosed e)) ∧
    ∀ (s s' : TCPListener) (e : TCPListenerEvent) (err : TAPSError),
      (TCPListener.system.restrict fun s e _ => s.OneAtATime e).Reachable s → s.step e = some s' →
        s'.calls = s.calls ++ [.listened (.error err)] → s.Unchanged s' := by
  refine ⟨fun s s' e err hr h => UDPListener.step_unchanged_iff (UDPListener.waits_of_reachable hr) h,
    fun s s' e err hr h => TCPListener.step_unchanged_iff (TCPListener.waits_of_reachable hr) h,
    fun s s' e err hr h hfail => ?_⟩
  have hs := TCPListener.sequential_of_reachable hr
  have hwaits := TCPListener.waits_of_reachable hr.of_restrict
  refine (TCPListener.step_unchanged_iff hwaits h hfail).mpr fun a rest provider ec he => ?_
  subst he
  simp only [TCPListener.step] at h
  split at h
  · cases h
  · rename_i h0
    exact (hs.waits h0).1

/-- A Listener that listens, and whose `listen()` is called again. -/
def startedUDP : List (UDPListenerEvent Unit) := [.listen, .resolved [.bound ()] false, .listen]

def startedTCP : List TCPListenerEvent := [.listen, .resolved [⟨none, none, none⟩] (.ok ()) none]

/-- The endpoint of the second `listen()` is not found, and a TCP Listener refuses it. -/
theorem failed_listen_unchanged_started :
    (∃ s s' : UDPListener Unit, startedUDP.foldlM UDPListener.step (.create UDPDemux.smallConfig false) = some s ∧
      s.step (.resolved [] false) = some s' ∧ s'.socketOpen = true ∧ s.Unchanged s') ∧
    (∃ s s' : TCPListener, startedTCP.foldlM TCPListener.step (.create false false) = some s ∧
      s.step .listen = some s' ∧ s'.acceptorOpen = true ∧ s.Unchanged s') ∧
    ∃ s s' : TCPListener, (TCPListener.create false false).step .listen = some s ∧
      s.step (.resolved [⟨none, some (.other 98), none⟩] (.ok ()) none) = some s' ∧ s.Unchanged s' := by
  obtain ⟨hudp, htcp, hsequential⟩ := failed_listen_unchanged (E := Unit) UDPDemux.smallConfig
  refine ⟨⟨_, _, rfl, rfl, rfl, ?_⟩, ⟨_, _, rfl, rfl, rfl, ?_⟩, ⟨_, _, rfl, rfl, ?_⟩⟩
  · refine (hudp _ _ (.resolved [] false) resolutionFailed ?_ rfl rfl).mpr (UDPListener.opensClosed_of_ne (by simp))
    exact ⟨_, startedUDP, ⟨false, rfl⟩, .of_foldlM (fun _ _ _ _ hst => hst) rfl⟩
  · refine (htcp _ _ .listen alreadyListening ?_ rfl rfl).mpr (TCPListener.opensClosed_of_ne (by simp))
    exact ⟨_, startedTCP, ⟨false, false, rfl⟩, .of_foldlM (fun _ _ _ _ hst => hst) rfl⟩
  · refine hsequential _ _ (.resolved [⟨none, some (.other 98), none⟩] (.ok ()) none) (bindFailed (.other 98))
      ⟨_, [.listen], ⟨false, false, rfl⟩, .step ⟨rfl, fun _ => ⟨rfl, ?_⟩⟩ .refl⟩ rfl rfl
    exact TCPListener.create_noAccept false false

/-- The second `listen()` opens the socket that is open, and closes it. -/
theorem failed_listen_closes : ¬ ∀ (s s' : UDPListener Unit) (e : UDPListenerEvent Unit) (err : TAPSError),
    (UDPListener.system UDPDemux.smallConfig).Reachable s → s.step e = some s' →
      s'.calls = s.calls ++ [.listened (.error err)] → s.Unchanged s' := by
  intro h
  have hsome : (startedUDP.foldlM UDPListener.step (.create UDPDemux.smallConfig false)).isSome := rfl
  obtain ⟨s, hs⟩ := Option.isSome_iff_exists.mp hsome
  have hreachable : (UDPListener.system UDPDemux.smallConfig).Reachable s :=
    ⟨_, startedUDP, ⟨false, rfl⟩, .of_foldlM (fun _ _ _ _ hst => hst) hs⟩
  cases hs
  have hu := h _ _ (.resolved [.bound ()] false) (ioError .establishmentError .alreadyOpen) hreachable rfl rfl
  cases congrArg UDPListener.socketOpen hu

/-! ## A started Listener -/

/-- After a `listen()` that succeeded and is later than the last `stop()`, no `accept()` fails with
`INVALID_STATE`, and a peer is admitted. For a UDP Listener, in the runs in which it is started once: no
`listen()` comes to open the socket of a Listener that listens, or opens it after a `stop()`; and a step
after which a started Listener does not admit new sources is one that breaks this. For a TCP Listener, in
the runs in which its calls do not overlap. -/
theorem started_listener_admits {E : Type} [DecidableEq E] (config : DemuxConfig) :
    (∀ s : UDPListener E, ((UDPListener.system config).restrict fun s e _ => s.StartsOnce e).Reachable s →
      (ListenerCall.started s.calls = true → s.Admits ∧
        (∀ (now : Int) (address : Addr) (d : Datagram E), s.demux.HasRoom →
          s.demux.table.index.lookup d.source = none → (s.demux.serve now address d).Welcomes d.source) ∧
        ∀ e s', s.step e = some s' → s.StartsOnce e → s'.refusals = s.refusals) ∧
      ∀ e s', s.step e = some s' → ((ListenerCall.started s'.calls = true → s'.Admits) ↔ s.StartsOnce e)) ∧
    ∀ s : TCPListener, (TCPListener.system.restrict fun s e _ => s.OneAtATime e).Reachable s →
      ListenerCall.started s.calls = true →
        s.Admits ∧ s.Serves ∧ ∀ e s', s.step e = some s' → s'.refusals = s.refusals := by
  refine ⟨fun s hr => ?_, fun s hr hstarted => ?_⟩
  · have hs := UDPListener.started_of_reachable hr
    refine ⟨fun hstarted => ?_, fun e s' hst => UDPListener.step_admits_iff hs hst⟩
    have hl : s.isListening = true := hs.listening.symm.trans hstarted
    have ha := hs.admits hl
    exact ⟨ha, fun now address d hroom hnew =>
        Demux.welcomes_serve ha.accepting ha.channel hroom now address hnew,
      fun e s' hst ho => UDPListener.step_refusals hs hl hst ho⟩
  · have hs := TCPListener.sequential_of_reachable hr
    obtain ⟨hl, ha, -⟩ := hs.started hstarted
    exact ⟨ha, TCPListener.serves_of_admits hr.of_restrict hl ha,
      fun e s' hst => TCPListener.step_refusals hs hstarted hst⟩

/-- A TCP Listener with security that is started again after a `stop()`, whose handler has yet to run. -/
def restartedTCP : List TCPListenerEvent :=
  [.listen, .resolved [⟨none, none, none⟩] (.ok ()) none, .stop none, .listen,
    .resolved [⟨none, none, none⟩] (.ok ()) none]

theorem started_listener_admits_restarted :
    (∃ s : UDPListener Unit, [.listen, .resolved [.bound ()] false].foldlM UDPListener.step
        (.create UDPDemux.smallConfig false) = some s ∧
      s.Admits ∧ (s.demux.serve 0 10 ⟨(), 0, [7], [7]⟩).Welcomes ()) ∧
    ∃ s : TCPListener, restartedTCP.foldlM TCPListener.step (.create true true) = some s ∧ s.Serves := by
  obtain ⟨hudp, htcp⟩ := started_listener_admits (E := Unit) UDPDemux.smallConfig
  refine ⟨⟨_, rfl, ?_⟩, ⟨_, rfl, ?_⟩⟩
  · obtain ⟨hstarted, -⟩ := hudp _ ⟨_, [.listen, .resolved [.bound ()] false], ⟨false, rfl⟩,
      .step ⟨rfl, UDPListener.startsOnce_of_ne (by simp) (by simp)⟩
        (.step ⟨rfl, fun _ _ _ _ => ⟨rfl, fun _ _ => rfl⟩, by simp⟩ .refl)⟩
    obtain ⟨ha, hwelcomes, -⟩ := hstarted rfl
    exact ⟨ha, hwelcomes 0 10 _ (.inr (by decide)) rfl⟩
  · have hcall : ∀ {s : TCPListener} {attempts : List BindAttempt} {provider : Result Unit}
        {ec : Option ErrorCode}, s.OneAtATime (.resolved attempts provider ec) := by
      simp [TCPListener.OneAtATime]
    refine (htcp _ ⟨_, restartedTCP, ⟨true, true, rfl⟩, .step ⟨rfl, fun _ => ⟨rfl, ?_⟩⟩ (.step ⟨rfl, hcall⟩
      (.step ⟨rfl, fun _ => ⟨rfl, ?_⟩⟩ (.step ⟨rfl, fun _ => ⟨rfl, ?_⟩⟩ (.step ⟨rfl, hcall⟩ .refl))))⟩ rfl).2.1
    · exact TCPListener.create_noAccept true true
    · exact ⟨nofun, rfl, fun a ha => by rw [List.mem_singleton.mp ha]; rfl⟩
    · exact ⟨nofun, rfl, fun a ha => by rw [List.mem_singleton.mp ha]; rfl⟩

/-- A UDP Listener that is started again after a `stop()`, whose handler has run. -/
def restartedUDP : List (UDPListenerEvent Unit) :=
  [.listen, .resolved [.bound ()] false, .stop, .strand 0 0 .stop, .listen, .resolved [.bound ()] false]

/-- The demultiplexer accepts no new sources any more, and the channel stays closed. -/
theorem restarted_listener_refuses :
    (¬ ∀ s : UDPListener Unit, (UDPListener.system UDPDemux.smallConfig).Reachable s →
      ListenerCall.started s.calls = true → s.Admits) ∧
    ¬ ∀ (s s' : UDPListener Unit) (e : UDPListenerEvent Unit),
      (UDPListener.system UDPDemux.smallConfig).Reachable s → ListenerCall.started s.calls = true →
        s.step e = some s' → s'.refusals = s.refusals := by
  have hreachable : ∀ (events : List (UDPListenerEvent Unit)) {s : UDPListener Unit},
      events.foldlM UDPListener.step (.create UDPDemux.smallConfig false) = some s →
        (UDPListener.system UDPDemux.smallConfig).Reachable s :=
    fun events _ h => ⟨_, events, ⟨false, rfl⟩, .of_foldlM (fun _ _ _ _ hst => hst) h⟩
  refine ⟨fun h => ?_, fun h => ?_⟩
  · cases (h _ (hreachable restartedUDP rfl) rfl).accepting
  · cases h _ _ (.strand 0 0 .accept) (hreachable (restartedUDP ++ [.accept]) rfl) rfl rfl

/-! ## From the accept loop to `accept()` -/

/-- In every run, `accept()` returns what was sent to it, each once and in that order, and each socket that the loop
has accepted is in one place. -/
theorem AcceptorHistory.conserves {h : AcceptorHistory} (hr : system.Reachable h) : h.Conserves :=
  conserves_of_reachable hr

/-- The handshake of the second socket ends first, that of the third fails and that of the fourth ends too late. -/
def AcceptorHistory.fourSockets : List AcceptorEvent :=
  (List.replicate 4 [.complete (.ok ()), .resume]).flatten ++
    [.accept, .secured 1 true, .secured 2 false, .secured 0 true, .stop, .secured 3 true, .accept, .accept]

theorem AcceptorHistory.conserves_four : ∃ h : AcceptorHistory, fourSockets.foldlM step create = some h ∧
    h.acceptor.accepts = [.ok 1, .ok 0, .error listenerStopped] ∧ h.failed = [2] ∧ h.dropped = [3] ∧
    h.Conserves := by
  have hsome : (fourSockets.foldlM step create).isSome := rfl
  obtain ⟨h, hh⟩ := Option.isSome_iff_exists.mp hsome
  have hconserves : h.Conserves := conserves ⟨_, _, rfl, .of_foldlM (fun _ _ _ _ hst => hst) hh⟩
  refine ⟨h, hh, ?_, ?_, ?_, hconserves⟩ <;> cases hh <;> rfl

end Taps
