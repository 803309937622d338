import Taps.Listener.Lemmas.Secured
import Taps.Listener.Lemmas.UDPListener
import Taps.Preconnection.Lemmas.Preconnection
import Taps.Udp.Theorems

/-!
# Results on a Preconnection

Without security, the search of `initiate()` through the addresses; with security, whose name a peer is
validated against, and that `initiate()` and the Listeners return no other Connections than secured ones.
-/

namespace Taps

variable {A : Type}

/-- A Preconnection for a reliable transport to one host, and another one to two. -/
def toHost (security : SecurityParameters) : Preconnection :=
  .create ⟨"a.example", 443⟩ (TransportProperties.create.set .reliability .require) security
    { blockSize := 4096, maxLiveBlocks := 0, blockSize_lt := by decide } true

def toHosts (security : SecurityParameters) : Preconnection :=
  (toHost security).addRemoteEndpoint ⟨"b.example", 443⟩

/-- Each host has the addresses `2 * i` and `2 * i + 1`, of which those below `n` do not answer. -/
def dualStack (n : Nat) : Network Nat where
  resolve i := [2 * i, 2 * i + 1].map fun a =>
    { address := a, connected := if a < n then some .timedOut else none, secured := fun _ => .ok (), closed := none }
  provider := .ok ()
  opened := none

/-! ## The search through the addresses -/

/-- Over a reliable transport and without security, `initiate()` selects from the addresses of every remote
endpoint if and only if its only endpoint, where it has one, is decided by the first address. -/
theorem Preconnection.selects_iff (p : Preconnection) (net : Network A)
    (hr : p.transportProperties.requiresReliableTransport = true)
    (hs : p.securityParameters.isEnabled = false) :
    (p.initiate net).1.Selects (p.initiate net).2 (p.candidates net) ↔ p.FirstDecides net := by
  rw [p.firstDecides_iff net]
  rcases p.initiate_cases net hr with ⟨hnil, text, hi⟩ | ⟨hne, hall, message, hi⟩ |
    ⟨pre, c, post, hsplit, hpre, hc, hi⟩
  · have hcands := (p.tried_eq_nil net).mp hnil
    rw [hi, hcands]
    refine ⟨fun _ => by simp, fun _ => ⟨⟨_, rfl, rfl, rfl⟩, ?_⟩⟩
    intro n t hn
    simp at hn
  · rw [hi]
    constructor
    · intro hsel _ c hc
      cases hfind : (p.candidates net).find? Candidate.accepts with
      | none => simpa using List.find?_eq_none.mp hfind c hc
      | some x =>
          have hfirst := hsel.1
          rw [hfind] at hfirst
          obtain ⟨n, t, hr, -⟩ := hfirst
          cases hr
    · intro hdecides
      have hnone : (p.candidates net).find? Candidate.accepts = none :=
        List.find?_eq_none.mpr fun c hc => by simp [hdecides hall c hc]
      have hcands : (p.candidates net).isEmpty = false := by
        simpa [p.tried_eq_nil net] using hne
      refine ⟨?_, fun n t hn _ => ?_⟩
      · rw [hnone]
        exact ⟨_, rfl, rfl, by simp [hcands]⟩
      · obtain ⟨c, -, rfl⟩ := List.mem_map.mp (List.mem_of_getElem? hn)
        exact p.refusedBy_aborted c
  · obtain ⟨-, hfind⟩ := p.find_candidates net hsplit hpre hc
    rw [hi, Initiation.establishConnection_plain _ _ _ _ hs]
    refine ⟨fun _ hall => ?_, fun _ => ⟨?_, fun n t hn hne => ?_⟩⟩
    · simp [hall c (by simp [hsplit])] at hc
    · rw [hfind]
      exact ⟨pre.length, p.connectedTo c, by simp [Initiation.hand], by simp [Initiation.hand, Initiation.leave],
        rfl, p.connectedTo_established c⟩
    · rcases Initiation.leave_cases hn with ⟨-, hn⟩ | ⟨rfl, -⟩
      · obtain ⟨x, -, rfl⟩ := List.mem_map.mp (List.mem_of_getElem? hn)
        exact p.refusedBy_aborted x
      · exact absurd rfl hne

/-- With two hosts, the second address of the first one is found. -/
theorem Preconnection.selects_iff_hosts :
    ((toHosts .create).initiate (dualStack 1)).1.Selects ((toHosts .create).initiate (dualStack 1)).2
      ((toHosts .create).candidates (dualStack 1)) :=
  (Preconnection.selects_iff (toHosts .create) (dualStack 1) rfl rfl).mpr fun h => by simp [toHosts, toHost,
    Preconnection.addRemoteEndpoint, Preconnection.create] at h

/-- With that host alone, it is not tried. -/
theorem Preconnection.selects_one_address :
    ((toHost .create).initiate (dualStack 1)).2 =
        .error ⟨.establishmentError, .establishmentFailed, .code .timedOut⟩ ∧
      ¬ ((toHost .create).initiate (dualStack 1)).1.Selects ((toHost .create).initiate (dualStack 1)).2
        ((toHost .create).candidates (dualStack 1)) := by
  refine ⟨rfl, fun h => ?_⟩
  obtain ⟨n, t, hr, -⟩ := h.1
  cases hr

/-! ## The name that the peer is validated against -/

/-- With security and no name of its own, `initiate()` validates a peer against the name of the remote
endpoint whose address it has connected to if and only if this is the name of the first remote endpoint. -/
theorem Preconnection.identifies_iff (p : Preconnection) (net : Network A)
    (he : p.securityParameters.isEnabled = true) (hn : p.securityParameters.serverName = "") :
    (p.initiate net).1.Identifies (p.origins net) ↔ p.NamesWinner net := by
  have hidentity : p.identity = p.primary.hostname := by simp [identity, hn]
  by_cases hr : p.transportProperties.requiresReliableTransport = true
  case neg =>
    have hi : p.initiate net = (⟨p, []⟩, .error securityUnavailable) := by
      simp [initiate, Initiation.initiateUdp, hr, he]
    rw [hi]
    exact ⟨fun _ h => absurd h hr, fun _ n t name hn => by simp at hn⟩
  rcases p.initiate_cases net hr with ⟨hnil, text, hi⟩ | ⟨-, hall, message, hi⟩ |
    ⟨pre, c, post, hsplit, hpre, hc, hi⟩
  · rw [hi]
    have hnone := p.winner_of_refused net (by simp [(p.tried_eq_nil net).mp hnil])
    exact ⟨fun _ _ _ w hw => by simp [hnone] at hw, fun _ n t name hn => by simp at hn⟩
  · rw [hi]
    refine ⟨fun _ _ _ w hw => ?_, fun _ n t name hn hname => ?_⟩
    · by_cases h1 : p.remoteEndpoints.length = 1
      · rw [p.origins_single net h1 (List.of_mem_zip (List.mem_of_find?_eq_some hw)).1]
      · rw [p.winner_of_refused net (by simpa [tried, h1] using hall)] at hw
        cases hw
    · obtain ⟨c, -, rfl⟩ := List.mem_map.mp (List.mem_of_getElem? hn)
      cases hname
  · obtain ⟨r, horigin, hwinner⟩ := p.winner_of_tried net hsplit hpre hc
    obtain ⟨s', t, hleave, hconnections, hname, hnone⟩ :=
      Initiation.establishConnection_names ⟨p, pre.map p.refusedBy⟩ net c (p.connectedTo c) he
        (by simpa [Candidate.accepts] using hc)
    have hlen : s'.connections.length = pre.length := by simp [hconnections]
    rw [hi, hleave]
    constructor
    · intro hidentifies _ hp w hw
      obtain ⟨r', hr', hname'⟩ := hidentifies pre.length t _ (by simp [Initiation.leave, ← hlen]) (hname hp)
      obtain rfl : r' = r := Option.some.inj (hr'.symm.trans horigin)
      obtain rfl : w = (r', c) := Option.some.inj (hw.symm.trans hwinner)
      exact hname'.symm.trans hidentity
    · intro hnames n x name hx hxname
      rcases Initiation.leave_cases hx with ⟨-, hx⟩ | ⟨rfl, rfl⟩
      · -- The attempts before it were not connected, and so not secured.
        rw [hconnections] at hx
        obtain ⟨c', -, rfl⟩ := List.mem_map.mp (List.mem_of_getElem? hx)
        cases hxname
      · by_cases hp : p.HasProvider net
        · refine ⟨r, by rw [hlen]; exact horigin, ?_⟩
          rw [hnames hr hp (r, c) hwinner, ← hidentity]
          exact Option.some.inj (hxname.symm.trans (hname hp))
        · rw [hnone hp] at hxname
          cases hxname

/-- With one host, its second address is validated against its name. -/
theorem Preconnection.identifies_iff_host :
    ((toHosts (.requireTls .create)).initiate (dualStack 1)).1.Identifies
      ((toHosts (.requireTls .create)).origins (dualStack 1)) :=
  (Preconnection.identifies_iff (toHosts (.requireTls .create)) (dualStack 1) rfl rfl).mpr
    fun _ _ w hw => by
      obtain rfl := Option.some.inj hw
      rfl

/-- Where none of the first host's addresses answers, the second host is validated against the first one's
name. -/
theorem Preconnection.names_another_host :
    (∃ t, ((toHosts (.requireTls .create)).initiate (dualStack 2)).1.connections[2]? = some t ∧
        t.remoteEndpoint = some 2 ∧ t.serverName = some "a.example") ∧
      (((toHosts (.requireTls .create)).origins (dualStack 2))[2]?).map RemoteEndpoint.hostname =
        some "b.example" ∧
      ¬ ((toHosts (.requireTls .create)).initiate (dualStack 2)).1.Identifies
        ((toHosts (.requireTls .create)).origins (dualStack 2)) := by
  refine ⟨⟨_, rfl, rfl, rfl⟩, rfl, fun h => ?_⟩
  obtain ⟨r, hr, hname⟩ := h 2 _ _ rfl rfl
  obtain rfl := Option.some.inj hr
  exact absurd hname (by decide)

/-! ## Connections with security -/

/-- Where security is requested, `initiate()` keeps it, whatever it meets; in every run of a TCP Listener so
does `accept()`, and a TCPConnection whose handshake has failed is aborted and never returned; and `accept()`
on a UDP Listener returns no Connection. -/
theorem security_kept {E : Type} [DecidableEq E] (config : DemuxConfig) :
    (∀ (p : Preconnection) (net : Network A), p.securityParameters.isEnabled = true →
      (p.initiate net).1.KeepsSecurity (p.initiate net).2 p net) ∧
    (∀ withTls memory es s, SecuredListener.system.Run (.create true withTls memory) es s → s.KeepsSecurity ∧
      ∀ (j c : Nat) (success : Bool) (h : Handshake) (s' : SecuredListener),
        s.step (.secure j (.secured c success)) h = some s' → h.result.isOk = false →
          ∀ fs u, SecuredListener.system.Run s' fs u → u.Dropped j c) ∧
    ∀ es (s : UDPListener E), (UDPListener.system config).Run (.create config true) es s →
      ∀ b, .ok b ∉ s.demux.accepts := by
  refine ⟨fun p net he => p.initiate_keepsSecurity net he, fun withTls memory es s hrun => ?_,
    fun es s hrun b => by simp [UDPListener.accepts_of_secured hrun]⟩
  refine ⟨SecuredListener.keepsSecurity_of_run hrun, fun j c success h s' hst hfailed fs u hrun' => ?_⟩
  have hg := SecuredListener.guards_of_reachable ⟨_, es, ⟨true, withTls, memory, rfl⟩, hrun⟩
  exact SecuredListener.dropped_of_failed hg hst hfailed hrun'

/-- Two clients connect to a TCP Listener, and `accept()` waits. -/
def clientsConnect : List (TCPListenerEvent × Handshake) :=
  [.listen, .resolved [⟨none, none, none⟩] (.ok ()) none, .accept, .secure 0 .accept,
    .secure 0 (.complete (.ok ())), .secure 0 .resume, .secure 0 (.complete (.ok ())), .secure 0 .resume].map
    fun e => (e, ⟨.ok (), none⟩)

def failedHandshake : Handshake :=
  { result := .error ⟨.establishmentError, .establishmentFailed, .text "TLS handshake failed"⟩, closed := none }

/-- The second address of a host takes a secured Connection; the handshake of a Listener's first client fails,
and its second client is accepted; and a UDP Listener does not listen. -/
theorem security_kept_clients :
    ((toHost (.requireTls .create)).initiate (dualStack 0)).1.KeepsSecurity
        ((toHost (.requireTls .create)).initiate (dualStack 0)).2 (toHost (.requireTls .create)) (dualStack 0) ∧
      (∃ s s' u, SecuredListener.system.Run (.create true true (toHost .create).memory) clientsConnect s ∧
        s.step (.secure 0 (.secured 0 false)) failedHandshake = some s' ∧
        SecuredListener.system.Run s' [(.secure 0 (.secured 1 true), ⟨.ok (), none⟩)] u ∧
        (u.listener.secures.map SecureAcceptor.accepts) = [[.ok 1]] ∧ u.KeepsSecurity ∧ u.Dropped 0 0) ∧
      ∃ s : UDPListener Unit, (UDPListener.system UDPDemux.smallConfig).Run
          (.create UDPDemux.smallConfig true) [.listen, .accept] s ∧ s.refused = [notListening] ∧
        .ok 0 ∉ s.demux.accepts := by
  obtain ⟨hinitiate, htcp, hudp⟩ := security_kept (A := Nat) (E := Unit) UDPDemux.smallConfig
  refine ⟨hinitiate _ _ rfl, ?_, ?_⟩
  · obtain ⟨s, s', u, hs, hst, hu, haccepts⟩ : ∃ s s' u,
        SecuredListener.system.Run (.create true true (toHost .create).memory) clientsConnect s ∧
        s.step (.secure 0 (.secured 0 false)) failedHandshake = some s' ∧
        SecuredListener.system.Run s' [(.secure 0 (.secured 1 true), ⟨.ok (), none⟩)] u ∧
        (u.listener.secures.map SecureAcceptor.accepts) = [[.ok 1]] :=
      ⟨_, _, _, .of_foldlM (f := fun s e => s.step e.1 e.2) (fun _ _ _ _ hst => hst) rfl, rfl,
        .of_foldlM (f := fun s e => s.step e.1 e.2) (fun _ _ _ _ hst => hst) rfl, rfl⟩
    have hstep : SecuredListener.system.step s (.secure 0 (.secured 0 false), failedHandshake) s' := hst
    have hrun := hs.append (.step hstep hu)
    exact ⟨s, s', u, hs, hst, hu, haccepts, (htcp _ _ _ u hrun).1,
      (htcp _ _ _ s hs).2 0 0 false failedHandshake s' hst rfl _ u hu⟩
  · obtain ⟨s, hs, hrefused⟩ : ∃ s : UDPListener Unit, (UDPListener.system UDPDemux.smallConfig).Run
        (.create UDPDemux.smallConfig true) [.listen, .accept] s ∧ s.refused = [notListening] :=
      ⟨_, .of_foldlM (f := UDPListener.step) (fun _ _ _ _ hst => hst) rfl, rfl⟩
    exact ⟨s, hs, hrefused, hudp _ s hs 0⟩

end Taps
