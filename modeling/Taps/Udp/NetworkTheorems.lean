import Taps.Udp.Lemmas.Network

/-!
# The Connections of a Listener and its clients do not mix

On a network that loses, duplicates and reorders datagrams, and on one that duplicates nothing.
-/

namespace Taps.UdpNetwork

variable {σ E : Type} [DecidableEq E] {config : DemuxConfig} {s : UdpNetwork σ E}

/-- In every run, a Connection returns only what was sent on the Connection at the other end, to itself. -/
theorem isolates (h : (system σ E config).Reachable s) : s.Isolated where
  listener p hp d hd := by
    have hi := inv_of_reachable h
    obtain ⟨hsource, -, hpayload⟩ := UDPDemux.returned_of_reachable hi.listener hp hd
    obtain ⟨-, -, hgenuine⟩ := hi.listenerCarried hp hd
    obtain ⟨x, hx, hend, hwritten⟩ := hi.toServer hgenuine
    exact ⟨hpayload, x, hx, hend.trans hsource, hwritten⟩
  client x hx d hd := by
    have hi := inv_of_reachable h
    obtain ⟨-, hpayload⟩ := hi.clientArrived hx hd
    obtain ⟨-, -, hgenuine⟩ := hi.clientCarried hx hd
    exact ⟨hpayload, hi.toEndpoint hx hgenuine⟩

/-- Two clients of the Listener at the endpoint 0. -/
def twoClients : UdpNetwork Unit Nat :=
  { server := 0, listener := .create ⟨2, 30, 16, Nat.two_pos⟩ false
    clients := [.create 1 0 none () smallPool, .create 2 0 none () smallPool]
    replies := [], sending := [], wire := .empty }

theorem twoClients_init : (system Unit Nat ⟨2, 30, 16, Nat.two_pos⟩).init twoClients := by
  refine ⟨0, false, _, rfl, by decide, fun x hx => ?_⟩
  rcases List.mem_cons.mp hx with rfl | hx
  · exact ⟨none, (), smallPool, rfl⟩
  · rw [List.mem_singleton.mp hx]
    exact ⟨none, (), smallPool, rfl⟩

/-- The datagrams of both arrive in the other order, and the first client gets an answer. -/
def crossing : List (UdpNetworkEvent Unit Nat) :=
  [.client 0 (.send (fun _ _ => 0) (.ofVector [7])), .client 0 (.transmit 0 (.ok 1)),
    .client 1 (.send (fun _ _ => 0) (.ofVector [8])), .client 1 (.transmit 0 (.ok 1)),
    .toListener 0, .listener (.resume 0 10 false), .toListener 0, .listener (.resume 1 11 false),
    .listener .accept, .listener .accept, .listener (.receive 0), .listener (.receive 1),
    .reply 1 none () (fun _ _ => 0) (.ofVector [9]), .replied 0 true, .client 0 (.receive 0 1), .toClient 0 0 1,
    .client 0 (.resume 1)]

theorem isolates_crossing : ∃ s, crossing.foldlM step twoClients = some s ∧
    s.listener.demux.peers.map (fun p => (p.source, p.returned.map Datagram.bytes)) = [(2, [[8]]), (1, [[7]])] ∧
    s.clients.map (fun x => x.udp.calls.length) = [2, 1] ∧ s.Isolated := by
  have hsome : (crossing.foldlM step twoClients).isSome := rfl
  obtain ⟨s, hs⟩ := Option.isSome_iff_exists.mp hsome
  have hisolated : s.Isolated := isolates ⟨_, _, twoClients_init, .of_foldlM (fun _ _ _ _ hst => hst) hs⟩
  refine ⟨s, hs, ?_, ?_, hisolated⟩
  · cases hs
    rfl
  · cases hs
    rfl

/-- If nothing is duplicated, what the receives return are different packets. -/
theorem returns_once (h : ((system σ E config).restrict DuplicatesNone).Reachable s) : s.Once := by
  have hi := inv_of_reachable h.of_restrict
  have hfaithful := faithful_of_reachable h
  refine ⟨fun p hp d hd => ?_, ?_, fun x hx d hd => ?_, ?_⟩
  · obtain ⟨number, hcarried, -⟩ := hi.listenerCarried hp hd
    exact ⟨number, hcarried⟩
  · refine (UDPDemux.returned_distinct (UDPDemux.inv_of_reachable hi.listener)).imp ?_
    intro d d' hseq number hcarried hcarried'
    exact hseq (hfaithful.index_eq hcarried hcarried')
  · obtain ⟨number, hcarried, -⟩ := hi.clientCarried hx hd
    exact ⟨number, hcarried⟩
  · intro x hx i j d d' number hd hd' hcarried hcarried'
    exact ActiveUDP.distinct_of_reachable (hi.clients x hx).1 ⟨_, hd, rfl⟩ ⟨_, hd', rfl⟩
      (hfaithful.index_eq hcarried hcarried')

theorem returns_once_crossing : ∃ s, crossing.foldlM step twoClients = some s ∧
    s.wire.sent.map Lib.Packet.content = [[7], [8], [9]] ∧ s.Once := by
  have hsome : (crossing.foldlM step twoClients).isSome := rfl
  obtain ⟨s, hs⟩ := Option.isSome_iff_exists.mp hsome
  have hnone : ∀ e ∈ crossing, ∀ s s' : UdpNetwork Unit Nat, s.step e = some s' →
      ((system Unit Nat ⟨2, 30, 16, Nat.two_pos⟩).restrict DuplicatesNone).step s e s' := by
    refine fun e he s s' hst => ⟨hst, fun k hk => ?_⟩
    simp [crossing, hk] at he
  have honce : s.Once := returns_once ⟨_, _, twoClients_init, .of_foldlM hnone hs⟩
  refine ⟨s, hs, ?_, honce⟩
  cases hs
  rfl

end Taps.UdpNetwork
