import Taps.Udp.Lemmas.Alloc
import Taps.Udp.Lemmas.Recency
import Taps.Udp.Lemmas.Releases
import Taps.Udp.Lemmas.ShutDown
import Taps.Udp.Lemmas.Stop

/-!
# The demultiplexer of a UDP Listener

For any sources, any number of Connections and any order of the strand's handlers, the loops and the calls
of the application: the table, what the receives return, whom a release handler evicts, how the two loops
end, what a stopped Listener and an allocation that throws leave, and which entries are evicted as time
passes.
-/

namespace Taps.UDPDemux

variable {E : Type} [DecidableEq E] {config : DemuxConfig} {s : UDPDemux E}

/-! ## The table -/

/-- In every state that a run reaches, the index and the list agree and are bounded, and a Mailbox is open
if and only if the table has it. -/
theorem table_consistent (h : (system config).Reachable s) :
    s.demux.Consistent config.maxConnections := by
  have hi := (inv_of_reachable h).demux
  refine
    { running := hi.running
      index := hi.agrees.index
      nodes := fun n hn => hi.agrees.deref hn
      sources := hi.agrees.keys
      size := hi.agrees.length_keys
      bound := config_of_reachable h ▸ hi.bound
      entries := hi.source
      isOpen := hi.isOpen
      woken := ?_ }
  intro b p hp hout
  have hclosed : p.mailbox.closed = true := by
    cases hcl : p.mailbox.closed with
    | true => rfl
    | false => exact absurd ((hi.isOpen b p hp).mp hcl) hout
  refine ⟨(hi.accounted b p hp).waiting hclosed, ?_⟩
  rcases p.receive_cases with ⟨d, m, -, he⟩ | ⟨-, -, he⟩ | ⟨-, hopen, -⟩
  · exact ⟨.ok d, by rw [he]⟩
  · exact ⟨.error (p.conn.closedError p.mailbox.cause), by rw [he]⟩
  · rw [hclosed] at hopen
    cases hopen

def smallConfig : DemuxConfig := ⟨1, 30, 16, by decide⟩

/-- A second source displaces the first one. -/
def displacedEvents : List (DemuxEvent Nat) :=
  [.arrive (.ok (1, [7])), .resume 0 10 false, .accept, .receive 0, .receive 0,
    .arrive (.ok (2, [8])), .resume 1 11 false]

theorem table_consistent_displaced : ∃ s : UDPDemux Nat,
    displacedEvents.foldlM step (create smallConfig false) = some s ∧
    s.demux.table.nodes.map Lib.Node.key = [2] ∧
    s.demux.peers.map (fun p => p.mailbox.closed) = [true, false] ∧
    s.demux.Consistent 1 := by
  have hsome : (displacedEvents.foldlM step (create smallConfig false)).isSome := rfl
  obtain ⟨s, hs⟩ := Option.isSome_iff_exists.mp hsome
  have hr : (system smallConfig).Reachable s :=
    ⟨_, displacedEvents, ⟨false, rfl⟩, .of_foldlM (fun _ _ _ _ hst => hst) hs⟩
  refine ⟨s, hs, ?_, ?_, table_consistent hr⟩
  · cases hs
    rfl
  · cases hs
    rfl

/-! ## The datagrams -/

/-- Every Connection returns datagrams of its source only, in the order of arrival, all that were enqueued
but those it counted as dropped, and no two Connections return the same one. What a closed Mailbox still
has is returned before any error. -/
theorem datagrams_accounted_for (h : (system config).Reachable s) :
    (∀ p ∈ s.demux.peers, p.Accounted ∧ (∀ d ∈ p.returned, d.source = p.source) ∧
      ∀ d ∈ p.enqueued, s.Arrived d) ∧
    (s.demux.peers.flatMap Peer.returned).Pairwise (fun d d' => d.seq ≠ d'.seq) ∧
    ∀ es s', (system config).Run s es s' → ∀ (b : Nat) (p : Peer E), s.demux.peers[b]? = some p →
      ∃ p', s'.demux.peers[b]? = some p' ∧ p.Continues p' ∧
        (p.mailbox.closed = true →
          p'.returned ++ p'.mailbox.contents = p.returned ++ p.mailbox.contents) := by
  have hi := inv_of_reachable h
  have hacc : ∀ p ∈ s.demux.peers, p.Accounted := by
    intro p hp
    obtain ⟨b, hb⟩ := List.mem_iff_getElem?.mp hp
    exact hi.demux.accounted b p hb
  refine ⟨fun p hp => ⟨hacc p hp, fun d hd => ?_, fun d hd => ?_⟩, ?_, ?_⟩
  · exact (hacc p hp).source d ((hacc p hp).returned_subset d hd)
  · obtain ⟨b, hb⟩ := List.mem_iff_getElem?.mp hp
    exact hi.arrived b p hb d hd
  · refine List.pairwise_flatMap.mpr ⟨fun p hp => ?_, ?_⟩
    · exact (hacc p hp).returned_order.imp Nat.ne_of_lt
    · rw [List.pairwise_iff_getElem]
      intro b b' hb hb' hlt d hd d' hd'
      exact hi.demux.disjoint b b' _ _ (List.getElem?_eq_getElem hb) (List.getElem?_eq_getElem hb')
        (Nat.ne_of_lt hlt) d ((hacc _ (List.getElem_mem hb)).returned_subset d hd) d'
        ((hacc _ (List.getElem_mem hb')).returned_subset d' hd')
  · intro es s' hrun b p hp
    obtain ⟨p', hp', hc⟩ := run_continues hi hrun hp
    have hacc' := (inv_of_reachable (h.run hrun)).demux.accounted b p' hp'
    exact ⟨p', hp', hc, hc.returned (hi.demux.accounted b p hp) hacc'⟩

/-- Two datagrams are queued when the source is displaced; three receives follow. -/
def queuedEvents : List (DemuxEvent Nat) :=
  [.arrive (.ok (1, [7])), .resume 0 10 false, .accept, .arrive (.ok (1, [8])), .resume 1 11 false,
    .arrive (.ok (2, [9])), .resume 2 11 false]

def receiveEvents : List (DemuxEvent Nat) := [.receive 0, .receive 0, .receive 0]

theorem datagrams_accounted_for_displaced : ∃ s s' : UDPDemux Nat, ∃ p p' : Peer Nat,
    (system smallConfig).Run s receiveEvents s' ∧
    s.demux.peers[0]? = some p ∧ s'.demux.peers[0]? = some p' ∧
    p.mailbox.contents.map Datagram.bytes = [[7], [8]] ∧ p.mailbox.cause = .displaced ∧
    p'.results.map Except.toBool = [true, true, false] ∧
    p'.returned ++ p'.mailbox.contents = p.returned ++ p.mailbox.contents := by
  have hsome : ((queuedEvents ++ receiveEvents).foldlM step (create smallConfig false)).isSome := rfl
  rw [List.foldlM_append] at hsome
  obtain ⟨s', hs'⟩ := Option.isSome_iff_exists.mp hsome
  obtain ⟨s, hs, hrun⟩ := Option.bind_eq_some_iff.mp hs'
  have hstep : ∀ (es : List (DemuxEvent Nat)), ∀ e ∈ es, ∀ s s', step s e = some s' →
      (system smallConfig).step s e s' := fun _ _ _ _ _ hst => hst
  have hr : (system smallConfig).Reachable s :=
    ⟨_, queuedEvents, ⟨false, rfl⟩, .of_foldlM (hstep _) hs⟩
  have hrun : (system smallConfig).Run s _ s' := .of_foldlM (hstep _) hrun
  cases hs
  obtain ⟨p', hp', -, hret⟩ := (datagrams_accounted_for hr).2.2 _ _ hrun 0 _ rfl
  cases hs'
  cases hp'
  exact ⟨_, _, _, _, hrun, rfl, rfl, rfl, rfl, rfl, hret rfl⟩

/-! ## Releases -/

/-- In the runs in which no Mailbox for a new source is put where a posted release handler of the source
has captured one, a release handler evicts and closes its poster's Connection only. -/
theorem releases_own
    (h : ((system config).restrict fun s e _ => Permits Demux.NotCaptured s e).Reachable s) :
    s.ReleasesOwn := by
  have hboth : s.Inv ∧ s.demux.Identified := by
    refine h.invariant (I := fun s : UDPDemux E => s.Inv ∧ s.demux.Identified) ?_ ?_
    · rintro s ⟨atCap, rfl⟩
      exact ⟨create_inv config atCap, Demux.create_identified config⟩
    · rintro s e s' ⟨hi, hid⟩ ⟨hst, hG⟩
      exact ⟨(step_steps hst).inv hi, (step_steps hst).identified hG hi hid⟩
  exact releasesOwn_of_identified hboth.1 hboth.2

/-- A Connection is evicted for idleness and destroyed; its source gets another one, at another address,
before the release handler runs. -/
theorem releases_own_elsewhere : ∃ s : UDPDemux Nat,
    ((system smallConfig).restrict fun s e _ => Permits Demux.NotCaptured s e).Run
      (create smallConfig false)
      [.arrive (.ok (1, [7])), .resume 0 10 false, .accept, .expire, .sweep (seconds 100),
        .arrive (.ok (1, [8])), .destroy 0, .resume (seconds 101) 11 false] s ∧
    s.demux.posted = [⟨1, 10, 0⟩] ∧ s.demux.InTable 1 ∧ s.ReleasesOwn := by
  have hother : ∀ {s : UDPDemux Nat} {e : DemuxEvent Nat},
      (∀ now address atCap, e ≠ .resume now address atCap) → Permits Demux.NotCaptured s e :=
    fun hne now address atCap d he => absurd he (hne now address atCap)
  obtain ⟨s, hrun, hposted, hin⟩ : ∃ s : UDPDemux Nat,
      ((system smallConfig).restrict fun s e _ => Permits Demux.NotCaptured s e).Run
        (create smallConfig false)
        [.arrive (.ok (1, [7])), .resume 0 10 false, .accept, .expire, .sweep (seconds 100),
          .arrive (.ok (1, [8])), .destroy 0, .resume (seconds 101) 11 false] s ∧
      s.demux.posted = [⟨1, 10, 0⟩] ∧ s.demux.InTable 1 := by
    refine ⟨_, .step ⟨rfl, hother nofun⟩ (.step ⟨rfl, ?_⟩ (.step ⟨rfl, hother nofun⟩
      (.step ⟨rfl, hother nofun⟩ (.step ⟨rfl, hother nofun⟩ (.step ⟨rfl, hother nofun⟩
      (.step ⟨rfl, hother nofun⟩ (.step ⟨rfl, ?_⟩ .refl))))))), rfl, ?_⟩
    · intro now address atCap d he _ _ _ h hh
      cases hh
    · intro now address atCap d he _ _ _ h hh _
      cases he
      rw [List.mem_singleton.mp hh]
      decide
    · exact ⟨_, List.mem_singleton.mpr rfl, rfl⟩
  exact ⟨s, hrun, hposted, hin, releases_own ⟨_, _, ⟨false, rfl⟩, hrun⟩⟩

/-- The same, but the new Mailbox is put where the old one was. -/
def reusedEvents : List (DemuxEvent Nat) :=
  [.arrive (.ok (1, [7])), .resume 0 10 false, .accept, .expire, .sweep (seconds 100), .arrive (.ok (1, [8])),
    .destroy 0, .resume (seconds 101) 10 false]

/-- The release handler of the first Connection evicts the second one. -/
theorem releases_other :
    ¬ ∀ s : UDPDemux Nat, (system smallConfig).Reachable s → s.ReleasesOwn := by
  intro h
  have hsome : (reusedEvents.foldlM step (create smallConfig false)).isSome := rfl
  obtain ⟨s, hs⟩ := Option.isSome_iff_exists.mp hsome
  have hown := h s ⟨_, reusedEvents, ⟨false, rfl⟩, .of_foldlM (fun _ _ _ _ hst => hst) hs⟩
  cases hs
  obtain ⟨n, hn, -⟩ := (hown 0 ⟨1, 10, 0⟩ _ rfl rfl 1 (by decide)).2
    ⟨_, List.mem_singleton.mpr rfl, rfl⟩
  cases hn

/-! ## Refused sources -/

/-- A datagram of a new source whose Connection the accept channel does not take posts the release handler of
the source. Once it has run, the table has the entries that it had before, with their Mailboxes as they were,
if and only if it was not full. -/
theorem refused_source_costs_nothing (h : (system config).Reachable s) {now : Int} {address : Addr}
    {atCap : Bool} {d : Datagram E} {s₁ : UDPDemux E} (hd : s.Received d)
    (hacc : s.demux.accepting = true) (hnew : s.demux.table.index.lookup d.source = none)
    (hrefuse : s.demux.Refuses d.source address now) (hst : s.step (.resume now address atCap) = some s₁) :
    s₁.demux.posted = s.demux.posted ++ [⟨d.source, address, s.demux.peers.length⟩] ∧
      ∃ s₂, s₁.step (.release s.demux.posted.length) = some s₂ ∧
        (s.demux.SameTable s₂.demux ↔ s.demux.table.index.keys.length < config.maxConnections) := by
  obtain ⟨hposted, s₂, hst₂, hdemux⟩ := step_refused h hd hacc hnew hrefuse hst
  obtain ⟨-, -, hsame⟩ := Demux.refused_sameTable (inv_of_reachable h).demux hacc hnew hrefuse
  refine ⟨hposted, s₂, hst₂, ?_⟩
  rw [hdemux, ← config_of_reachable h]
  exact hsame

/-- The table has room for more sources than the accept channel. -/
theorem refused_source_costs_nothing_room : ∃ s s₁ s₂ : UDPDemux Nat, ∃ address,
    (system ⟨200, 30, 16, by decide⟩).Reachable s ∧ s.step (.resume 0 address false) = some s₁ ∧
    s₁.step (.release s.demux.posted.length) = some s₂ ∧ s.demux.SameTable s₂.demux := by
  obtain ⟨s, address, d, s₁, hr, hd, hacc, hnew, hrefuse, hst, hsize, -⟩ :=
    exists_refused ⟨200, 30, 16, by decide⟩
  obtain ⟨-, s₂, hst₂, hsame⟩ := refused_source_costs_nothing hr hd hacc hnew hrefuse hst
  exact ⟨s, s₁, s₂, address, hr, hst, hst₂, hsame.mpr (Nat.lt_of_le_of_lt hsize (by decide))⟩

/-- The table has room for one source, which is displaced for one that is not queued. -/
theorem refused_source_displaces : ¬ ∀ (s s₁ s₂ : UDPDemux Nat) (now : Int) (address : Addr)
    (d : Datagram Nat), (system smallConfig).Reachable s → s.Received d → s.demux.accepting = true →
    s.demux.table.index.lookup d.source = none → s.demux.Refuses d.source address now →
    s.step (.resume now address false) = some s₁ → s₁.step (.release s.demux.posted.length) = some s₂ →
    s.demux.SameTable s₂.demux := by
  intro h
  obtain ⟨s, address, d, s₁, hr, hd, hacc, hnew, hrefuse, hst, -, hpos⟩ := exists_refused smallConfig
  obtain ⟨-, s₂, hst₂, hdemux⟩ := step_refused hr hd hacc hnew hrefuse hst
  have hsame := h s s₁ s₂ 0 address d hr hd hacc hnew hrefuse hst hst₂
  rw [hdemux] at hsame
  obtain ⟨-, -, hiff⟩ := Demux.refused_sameTable (inv_of_reachable hr).demux hacc hnew hrefuse
  have hroom := hiff.mp hsame
  rw [config_of_reachable hr, show smallConfig.maxConnections = 1 from rfl] at hroom
  omega

/-! ## The ends of the loops -/

/-- In the runs in which the wait of `sweep_loop()` is pending when the Listener is first found unused, the
loop starts no other wait and returns. -/
theorem sweep_ends (h : ((system config).restrict fun s e _ => SweepWaits s e).Reachable s) :
    s.SweepEnds := by
  have hall : s.Inv ∧ s.Closed ∧ s.SweepDone := by
    refine h.invariant (I := fun s : UDPDemux E => s.Inv ∧ s.Closed ∧ s.SweepDone) ?_ ?_
    · rintro s ⟨atCap, rfl⟩
      exact ⟨create_inv config atCap, create_closed config atCap, nofun⟩
    · rintro s e s' ⟨hi, hc, hd⟩ ⟨hst, hwait⟩
      have hsteps := step_steps hst
      exact ⟨hsteps.inv hi, hsteps.closed hi hc, hsteps.sweepDone hi hc hwait hd⟩
  obtain ⟨-, hc, hd⟩ := hall
  intro hu
  have hdone := hd (hc.mp hu)
  refine ⟨hdone, fun now s' hst => ?_⟩
  cases step_steps hst with
  | cancelled => rfl
  | sweep hl =>
      rcases hdone with hl' | hl'
      · exact absurd (hl.symm.trans hl') nofun
      · exact absurd (hl.symm.trans hl') nofun

theorem sweepWaits_of_none {e : DemuxEvent E} (h : s.atShutDown e = none) : s.SweepWaits e := by
  intro t ht
  rw [h] at ht
  cases ht

theorem sweep_ends_release : ∃ s : UDPDemux Nat,
    ((system smallConfig).restrict fun s e _ => SweepWaits s e).Run (create smallConfig false)
      [.arrive (.ok (1, [7])), .resume 0 10 false, .accept, .stop, .close 0 false, .release 0,
        .sweep 5] s ∧
    s.demux.unused = true ∧ s.sweepLoop = .returned ∧ s.SweepEnds := by
  obtain ⟨s, hrun, hu, hl⟩ : ∃ s : UDPDemux Nat,
      ((system smallConfig).restrict fun s e _ => SweepWaits s e).Run (create smallConfig false)
        [.arrive (.ok (1, [7])), .resume 0 10 false, .accept, .stop, .close 0 false, .release 0,
          .sweep 5] s ∧
      s.demux.unused = true ∧ s.sweepLoop = .returned := by
    refine ⟨_, .step ⟨rfl, sweepWaits_of_none rfl⟩ (.step ⟨rfl, sweepWaits_of_none rfl⟩
      (.step ⟨rfl, sweepWaits_of_none rfl⟩ (.step ⟨rfl, ?_⟩ (.step ⟨rfl, sweepWaits_of_none rfl⟩
      (.step ⟨rfl, ?_⟩ (.step ⟨rfl, sweepWaits_of_none rfl⟩ .refl)))))), rfl, rfl⟩
    · intro t ht hu
      cases ht
      cases hu
    · intro t ht _ _
      cases ht
      rfl
  exact ⟨s, hrun, hu, hl, sweep_ends ⟨_, _, ⟨false, rfl⟩, hrun⟩⟩

/-- The sweep itself evicts the last source of a stopped Listener. -/
def emptiedEvents : List (DemuxEvent Nat) :=
  [.arrive (.ok (1, [7])), .resume 0 10 false, .accept, .stop, .expire, .sweep (seconds 100)]

/-- The loop that has just shut the Listener down waits again. -/
theorem sweep_goes_on : ¬ ∀ s : UDPDemux Nat, (system smallConfig).Reachable s → s.SweepEnds := by
  intro h
  have hsome : (emptiedEvents.foldlM step (create smallConfig false)).isSome := rfl
  obtain ⟨s, hs⟩ := Option.isSome_iff_exists.mp hsome
  have hends := h s ⟨_, emptiedEvents, ⟨false, rfl⟩, .of_foldlM (fun _ _ _ _ hst => hst) hs⟩
  obtain rfl := Option.some.inj hs
  rcases (hends rfl).1 with hl | hl
  · cases hl
  · cases hl

/-- In the runs in which the receive of `receive_loop()` is pending when the Listener is first found
unused, the loop starts no receive on the closed socket and returns. -/
theorem receive_ends (h : ((system config).restrict fun s e _ => ReceiveWaits s e).Reachable s) :
    s.ReceiveEnds := by
  have hd : s.ReceiveDone := by
    refine h.invariant (I := ReceiveDone) ?_ ?_
    · rintro s ⟨atCap, rfl⟩
      exact nofun
    · rintro s e s' hd ⟨hst, hwait⟩
      exact (step_steps hst).receiveDone hwait hd
  intro hopen
  refine ⟨hd hopen, fun now address atCap s' hst => ?_⟩
  cases step_steps hst with
  | resume hl ha =>
      rcases hd hopen with hl' | ⟨sink, hl'⟩
      · exact absurd (hl.symm.trans hl') nofun
      · rw [hl] at hl'
        cases hl'
        rfl

theorem receiveWaits_of_none {e : DemuxEvent E} (h : s.atShutDown e = none) : s.ReceiveWaits e := by
  intro t ht
  rw [h] at ht
  cases ht

theorem receive_ends_release : ∃ s : UDPDemux Nat,
    ((system smallConfig).restrict fun s e _ => ReceiveWaits s e).Run (create smallConfig false)
      [.arrive (.ok (1, [7])), .resume 0 10 true, .accept, .stop, .close 0 false, .release 0,
        .resume 5 11 false] s ∧
    s.socketOpen = false ∧ s.receiveLoop = .returned ∧ s.ReceiveEnds := by
  obtain ⟨s, hrun, hopen, hl⟩ : ∃ s : UDPDemux Nat,
      ((system smallConfig).restrict fun s e _ => ReceiveWaits s e).Run (create smallConfig false)
        [.arrive (.ok (1, [7])), .resume 0 10 true, .accept, .stop, .close 0 false, .release 0,
          .resume 5 11 false] s ∧
      s.socketOpen = false ∧ s.receiveLoop = .returned := by
    refine ⟨_, .step ⟨rfl, receiveWaits_of_none rfl⟩ (.step ⟨rfl, receiveWaits_of_none rfl⟩
      (.step ⟨rfl, receiveWaits_of_none rfl⟩ (.step ⟨rfl, ?_⟩ (.step ⟨rfl, receiveWaits_of_none rfl⟩
      (.step ⟨rfl, ?_⟩ (.step ⟨rfl, receiveWaits_of_none rfl⟩ .refl)))))), rfl, rfl⟩
    · intro t ht hu
      cases ht
      cases hu
    · intro t ht _ _
      cases ht
      exact ⟨true, rfl⟩
  exact ⟨s, hrun, hopen, hl, receive_ends ⟨_, _, ⟨false, rfl⟩, hrun⟩⟩

/-- A datagram is received before the last Connection of a stopped Listener is released, and
`receive_loop()` is resumed after that. -/
def receivedEvents : List (DemuxEvent Nat) :=
  [.arrive (.ok (1, [7])), .resume 0 10 false, .accept, .stop, .close 0 false,
    .arrive (.ok (1, [8])), .release 0, .resume 1 11 false]

/-- The loop starts a receive on the closed socket. -/
theorem receive_goes_on :
    ¬ ∀ s : UDPDemux Nat, (system smallConfig).Reachable s → s.ReceiveEnds := by
  intro h
  have hsome : (receivedEvents.foldlM step (create smallConfig false)).isSome := rfl
  obtain ⟨s, hs⟩ := Option.isSome_iff_exists.mp hsome
  have hends := h s ⟨_, receivedEvents, ⟨false, rfl⟩, .of_foldlM (fun _ _ _ _ hst => hst) hs⟩
  cases hs
  rcases (hends rfl).1 with hl | ⟨sink, hl⟩
  · cases hl
  · cases hl

/-! ## A stopped Listener -/

/-- In the runs in which the accept channel is empty when the Listener stops, and the strand runs the
release handlers in their order, a stopped Listener whose Connections are all released has no entry, no
open socket and no Connection in the accept channel. -/
theorem stopped_lets_go
    (h : ((system config).restrict fun s e _ => InOrder e ∧ StopsAccepted s e).Reachable s) :
    s.LetsGo := by
  have hall : s.Inv ∧ s.Closed ∧ s.demux.Tracked none := by
    refine h.invariant (I := fun s : UDPDemux E => s.Inv ∧ s.Closed ∧ s.demux.Tracked none) ?_ ?_
    · rintro s ⟨atCap, rfl⟩
      exact ⟨create_inv config atCap, create_closed config atCap, Demux.create_tracked config⟩
    · rintro s e s' ⟨hi, hc, ht⟩ ⟨hst, hord, hstop⟩
      have hsteps := step_steps hst
      exact ⟨hsteps.inv hi, hsteps.closed hi hc, hsteps.tracked hi.demux ht hord hstop⟩
  obtain ⟨hi, hc, ht⟩ := hall
  intro hacc hrel
  have hbuf := ht.drained hacc
  have hnodes := nodes_eq_nil hi.demux ht hbuf hrel
  have hkeys : s.demux.table.index.keys = [] := by
    rw [← List.length_eq_zero_iff, hi.demux.agrees.length_keys, hnodes, List.length_nil]
  exact ⟨hnodes, hkeys, hc.mp (Demux.unused_iff.mpr ⟨hacc, hkeys⟩), hbuf⟩

omit [DecidableEq E] in
theorem stopsAccepted_of_ne {e : DemuxEvent E} (h : e ≠ .stop) : s.StopsAccepted e :=
  fun he => absurd he h

/-- One source is accepted, its Connection is closed after the stop, and the release handler runs. -/
theorem stopped_lets_go_release : ∃ s : UDPDemux Nat,
    ((system smallConfig).restrict fun s e _ => InOrder e ∧ StopsAccepted s e).Run
      (create smallConfig false)
      [.arrive (.ok (1, [7])), .resume 0 10 false, .accept, .stop, .close 0 false, .release 0] s ∧
    s.demux.accepting = false ∧ s.demux.HandedOut 0 ∧ s.demux.AllReleased ∧ s.LetsGo := by
  obtain ⟨s, hrun, hacc, hhanded, hrel⟩ : ∃ s : UDPDemux Nat,
      ((system smallConfig).restrict fun s e _ => InOrder e ∧ StopsAccepted s e).Run
        (create smallConfig false)
        [.arrive (.ok (1, [7])), .resume 0 10 false, .accept, .stop, .close 0 false, .release 0] s ∧
      s.demux.accepting = false ∧ s.demux.HandedOut 0 ∧ s.demux.AllReleased := by
    refine ⟨_, .step ⟨rfl, trivial, stopsAccepted_of_ne nofun⟩
      (.step ⟨rfl, trivial, stopsAccepted_of_ne nofun⟩
      (.step ⟨rfl, trivial, stopsAccepted_of_ne nofun⟩ (.step ⟨rfl, trivial, fun _ _ => rfl⟩
      (.step ⟨rfl, trivial, stopsAccepted_of_ne nofun⟩
      (.step ⟨rfl, rfl, stopsAccepted_of_ne nofun⟩ .refl))))), rfl, by decide, ?_⟩
    intro b hb
    cases List.mem_singleton.mp hb
    exact ⟨⟨_, rfl, rfl⟩, nofun⟩
  exact ⟨s, hrun, hacc, hhanded, hrel, stopped_lets_go ⟨_, _, ⟨false, rfl⟩, hrun⟩⟩

/-- A source that sent one datagram is never accepted. -/
def unacceptedEvents : List (DemuxEvent Nat) := [.arrive (.ok (1, [7])), .resume 0 10 false, .stop]

theorem inOrder_unaccepted : ∀ e ∈ unacceptedEvents, InOrder e := by
  simp [unacceptedEvents, InOrder]

/-- Its entry, its Connection in the accept channel and the open socket stay. -/
theorem stopped_keeps :
    ¬ ∀ s : UDPDemux Nat, ((system smallConfig).restrict fun _ e _ => InOrder e).Reachable s →
      s.LetsGo := by
  intro h
  have hsome : (unacceptedEvents.foldlM step (create smallConfig false)).isSome := rfl
  obtain ⟨s, hs⟩ := Option.isSome_iff_exists.mp hsome
  have hstep : ∀ e ∈ unacceptedEvents, ∀ s s', step s e = some s' →
      ((system smallConfig).restrict fun _ e _ => InOrder e).step s e s' :=
    fun e he _ _ hst => ⟨hst, inOrder_unaccepted e he⟩
  have hgo := h s ⟨_, unacceptedEvents, ⟨false, rfl⟩, .of_foldlM hstep hs⟩
  cases hs
  obtain ⟨-, -, -, hbuf⟩ := hgo rfl nofun
  cases hbuf

/-! ## Running out of memory -/

/-- `start()` leaves the receive loop running if and only if no allocation for its first block throws. From
there, in every run in which no allocation of a turn throws while the socket is open, the loop does not end
before the socket is closed and the index and the list hold the same entries; and a turn in which one throws
ends the loop. -/
theorem receive_loop_survives (config : DemuxConfig) :
    (∀ throws atCap, (createOrThrow (E := E) config throws atCap).Survives ↔
      ∀ a ∈ acquireAllocations atCap, throws a = false) ∧
    ∀ throws atCap, (∀ a ∈ acquireAllocations atCap, throws a = false) → ∀ es (s : UDPDemux E),
      ((allocating config).restrict fun s e _ => s.Spares e.2 e.1).Run (createOrThrow config throws atCap) es s →
        s.Survives ∧ ∀ (e : DemuxEvent E) (throws : Allocation → Bool) (s' : UDPDemux E),
          s.stepOrThrow throws e = some s' → (s'.Survives ↔ s.Spares throws e) := by
  refine ⟨createOrThrow_survives_iff config, fun throws atCap hspared es s hrun => ?_⟩
  have hs : s.Sound := by
    have hcreate : (createOrThrow (E := E) config throws atCap).Sound := by
      rw [createOrThrow, acquireOrThrow_spared hspared]
      exact create_sound config atCap
    refine hrun.preserves (I := Sound) ?_ hcreate
    rintro s e s' hs ⟨hst, hspares⟩
    exact stepOrThrow_sound hs hst hspares
  exact ⟨hs.survives, fun e throws s' hst => stepOrThrow_survives_iff hs hst⟩

/-- Nothing throws in a turn with a datagram of a new source. -/
theorem receive_loop_survives_datagram : ∃ s : UDPDemux Nat,
    ((allocating smallConfig).restrict fun s e _ => s.Spares e.2 e.1).Run
      (createOrThrow smallConfig (fun _ => false) false)
      [(.arrive (.ok (1, [7])), fun _ => false), (.resume 0 10 false, fun _ => false)] s ∧
    s.demux.table.nodes.map Lib.Node.key = [1] ∧ s.Survives := by
  obtain ⟨s, hrun, hnodes⟩ : ∃ s : UDPDemux Nat,
      ((allocating smallConfig).restrict fun s e _ => s.Spares e.2 e.1).Run
        (createOrThrow smallConfig (fun _ => false) false)
        [(.arrive (.ok (1, [7])), fun _ => false), (.resume 0 10 false, fun _ => false)] s ∧
      s.demux.table.nodes.map Lib.Node.key = [1] :=
    ⟨_, .step ⟨rfl, fun _ _ _ => rfl⟩ (.step ⟨rfl, fun _ _ _ => rfl⟩ .refl), rfl⟩
  exact ⟨s, hrun, hnodes, ((receive_loop_survives smallConfig).2 _ _ (fun _ _ => rfl) _ s hrun).1⟩

/-- The entry of a new source in the index throws: the loop ends while the socket is open, and the list has
an entry that the index has not. -/
theorem receive_loop_ends_early : ∃ s : UDPDemux Nat,
    (allocating smallConfig).Run (createOrThrow smallConfig (fun _ => false) false)
      [(.arrive (.ok (1, [7])), fun _ => false), (.resume 0 10 false, fun a => a = .index)] s ∧
    s.receiveLoop = .returned ∧ s.socketOpen = true ∧ s.demux.table.nodes.map Lib.Node.key = [1] ∧
    s.demux.table.index.keys = [] ∧ ¬ s.Survives := by
  refine ⟨_, .step rfl (.step rfl .refl), rfl, rfl, rfl, rfl, fun h => ?_⟩
  cases h.loop rfl

end Taps.UDPDemux

/-! ## Idle sources -/

namespace Taps.TimedDemux

variable {E : Type} [DecidableEq E] {config : DemuxConfig} {s s' : TimedDemux E} {e : Int × DemuxEvent E}

/-- In the runs in which no datagram of a source that has an entry is read at the cap of the pool, none that was
read waits for `receive_loop()` while a sweep runs, and no cutoff overflows, a Connection is evicted for idleness
only if nothing was read from its source within the idle timeout. -/
theorem idle_is_silent (h : ((system config).restrict fun s e _ => s.Heeds e.2).Reachable s)
    (hst : ((system config).restrict fun s e _ => s.Heeds e.2).step s e s') : s.IdleIsSilent e.1 s' := by
  have hh := heard_of_reachable h
  obtain ⟨hst, hheeds⟩ := hst
  obtain ⟨-, htime, hsteps, -, -⟩ := step_cases hst
  intro b p p' hp hopen hp' hclosed hidle r hr
  obtain ⟨n, hn, hb⟩ := (hh.udp.demux.isOpen b p hp).mp hopen
  have hkey : p.source = n.key := by
    obtain ⟨q, hq, hq'⟩ := hh.udp.demux.source n hn
    rw [hb, hp] at hq
    cases hq
    exact hq'
  have hout : n ∉ s'.udp.demux.table.nodes := by
    intro hn'
    have hopen' := ((hsteps.inv hh.udp).demux.isOpen b p' hp').mpr ⟨n, hn', hb⟩
    rw [hclosed] at hopen'
    cases hopen'
  by_cases hsweep : ∀ now, e.2 ≠ .sweep now
  · obtain ⟨q, hq, hstays⟩ := hsteps.awake hsweep b p hp
    cases hp'.symm.trans hq
    exact absurd hidle (hstays.idle hopen hclosed)
  · obtain ⟨now, hnow⟩ := not_forall_not.mp hsweep
    have hquiet : ∀ sink d, s.udp.receiveLoop = .completed sink (.ok d) → d.source ≠ n.key := by
      intro sink d hl hd
      have hnone := hheeds.sources sink d hl (.inr ⟨now, hnow⟩)
      exact hh.udp.demux.agrees.lookup_eq_none hnone n hn hd.symm
    have hactive := hh.active n hn hquiet r (hkey ▸ hr)
    rw [hnow] at htime hsteps
    generalize s'.udp = u at hsteps hout
    cases hsteps with
    | cancelled => exact absurd hn hout
    | sweep =>
        rw [UDPDemux.demux_shutDownIfUnused] at hout
        have hold := Demux.lastActive_sweep hh.udp.demux hn hout
        rw [Demux.cutoff_eq (hheeds.cutoff now hnow)] at hold
        rw [show now = e.1 from of_decide_eq_true htime] at hold
        exact Int.lt_of_le_of_lt hactive hold

/-- A source is heard, and evicted 31 seconds later. -/
def silentEvents : List (Int × DemuxEvent Nat) :=
  [(0, .arrive (.ok (1, [7]))), (0, .resume 0 10 false), (seconds 31, .expire)]

theorem idle_is_silent_swept : ∃ s s' : TimedDemux Nat,
    silentEvents.foldlM step (create UDPDemux.smallConfig false 0) = some s ∧
    s.step (seconds 31, .sweep (seconds 31)) = some s' ∧ s.udp.demux.table.nodes.map Lib.Node.key = [1] ∧
    s'.udp.demux.table.nodes = [] ∧ s.IdleIsSilent (seconds 31) s' := by
  have hother : ∀ {s : TimedDemux Nat} {e : DemuxEvent Nat}, (∀ now address atCap, e ≠ .resume now address atCap) →
      (∀ now, e ≠ .sweep now) → s.Heeds e := by
    refine fun hresume hsweep => ⟨?_, fun now he => absurd he (hsweep now)⟩
    rintro sink d - (⟨-, now, address, atCap, he⟩ | ⟨now, he⟩)
    · exact absurd he (hresume now address atCap)
    · exact absurd he (hsweep now)
  obtain ⟨s, hrun, hs⟩ : ∃ s : TimedDemux Nat,
      ((system UDPDemux.smallConfig).restrict fun s e _ => s.Heeds e.2).Run
        (create UDPDemux.smallConfig false 0) silentEvents s ∧
      silentEvents.foldlM step (create UDPDemux.smallConfig false 0) = some s := by
    refine ⟨_, .step ⟨rfl, hother (by simp) (by simp)⟩ (.step ⟨rfl, ?_, by simp⟩
      (.step ⟨rfl, hother (by simp) (by simp)⟩ .refl)), rfl⟩
    rintro sink d hl -
    cases hl
    rfl
  have hheeds : s.Heeds (.sweep (seconds 31)) := by
    cases hs
    constructor
    · rintro sink d hl -
      cases hl
    · rintro now he
      cases he
      exact ⟨by decide, by decide⟩
  have hsilent : ∀ s', s.step (seconds 31, .sweep (seconds 31)) = some s' → s.IdleIsSilent (seconds 31) s' :=
    fun s' hst => idle_is_silent ⟨_, _, ⟨false, 0, rfl⟩, hrun⟩ ⟨hst, hheeds⟩
  cases hs
  exact ⟨_, _, rfl, rfl, rfl, rfl, hsilent _ rfl⟩

/-- A source has sent another datagram, which was read at the cap of the pool 10 seconds before the sweep. -/
def cappedEvents : List (Int × DemuxEvent Nat) :=
  [(0, .arrive (.ok (1, [7]))), (0, .resume 0 10 true), (seconds 21, .arrive (.ok (1, [8]))),
    (seconds 21, .resume (seconds 21) 11 true), (seconds 31, .expire)]

/-- The number of nanoseconds in this idle timeout has no room in 64 bits. -/
def agesConfig : DemuxConfig := ⟨1, 10000000000, 16, by decide⟩

/-- A source was heard 5 seconds before the sweep. -/
def heardEvents : List (Int × DemuxEvent Nat) :=
  [(0, .arrive (.ok (1, [7]))), (0, .resume 0 10 false), (seconds 5, .expire)]

/-- Either source is evicted for idleness: its datagram did not count, or the cutoff is in the future. -/
theorem idle_while_sending :
    (¬ ∀ (s s' : TimedDemux Nat) (e : Int × DemuxEvent Nat),
      (system UDPDemux.smallConfig).Reachable s → s.step e = some s' → s.IdleIsSilent e.1 s') ∧
    ¬ ∀ (s s' : TimedDemux Nat) (e : Int × DemuxEvent Nat),
      (system agesConfig).Reachable s → s.step e = some s' → s.IdleIsSilent e.1 s' := by
  constructor
  · intro h
    have hsome : (cappedEvents.foldlM step (create UDPDemux.smallConfig false 0)).isSome := rfl
    obtain ⟨s, hs⟩ := Option.isSome_iff_exists.mp hsome
    have hr : (system UDPDemux.smallConfig).Reachable s :=
      ⟨_, cappedEvents, ⟨false, 0, rfl⟩, .of_foldlM (fun _ _ _ _ hst => hst) hs⟩
    cases hs
    have hread := h _ _ (seconds 31, .sweep (seconds 31)) hr rfl 0 _ _ rfl rfl rfl rfl rfl (seconds 21)
      (List.mem_cons_of_mem _ (List.mem_singleton.mpr rfl))
    exact absurd hread (by decide)
  · intro h
    have hsome : (heardEvents.foldlM step (create agesConfig false 0)).isSome := rfl
    obtain ⟨s, hs⟩ := Option.isSome_iff_exists.mp hsome
    have hr : (system agesConfig).Reachable s :=
      ⟨_, heardEvents, ⟨false, 0, rfl⟩, .of_foldlM (fun _ _ _ _ hst => hst) hs⟩
    cases hs
    have hread := h _ _ (seconds 5, .sweep (seconds 5)) hr rfl 0 _ _ rfl rfl rfl rfl rfl 0
      (List.mem_singleton.mpr rfl)
    exact absurd hread (by decide)

/-! ## The order of the entries -/

/-- The list is always in the order in which the entries were last active. A sweep evicts exactly the entries
from before the cutoff, and a displacement exactly one entry that no other one is older than. -/
theorem evicts_right (h : (system config).Reachable s) :
    s.udp.demux.NewestFirst ∧ ∀ e s', s.step e = some s' → s.udp.EvictsRight e.2 s'.udp := by
  have hrecent := recent_of_reachable h
  refine ⟨hrecent.newestFirst, fun e s' hst => ?_⟩
  obtain ⟨-, -, hsteps, -, -⟩ := step_cases hst
  exact hsteps.evictsRight hrecent.udp.demux hrecent.newestFirst

def pairConfig : DemuxConfig := ⟨2, 30, 16, by decide⟩

/-- The first of two sources is heard again, and then a third one. -/
def thirdEvents : List (Int × DemuxEvent Nat) :=
  [(0, .arrive (.ok (1, [7]))), (0, .resume 0 10 false), (1, .arrive (.ok (2, [8]))), (1, .resume 1 11 false),
    (2, .arrive (.ok (1, [9]))), (2, .resume 2 12 false), (3, .arrive (.ok (3, [10])))]

theorem evicts_right_third : ∃ s s' : TimedDemux Nat,
    thirdEvents.foldlM step (create pairConfig false 0) = some s ∧
    s.step (3, .resume 3 12 false) = some s' ∧ s.udp.demux.table.nodes.map Lib.Node.key = [1, 2] ∧
    s'.udp.demux.table.nodes.map Lib.Node.key = [3, 1] ∧ s.udp.demux.NewestFirst ∧
    s.udp.EvictsRight (.resume 3 12 false) s'.udp := by
  have hsome : (thirdEvents.foldlM step (create pairConfig false 0)).isSome := rfl
  obtain ⟨s, hs⟩ := Option.isSome_iff_exists.mp hsome
  have hr : (system pairConfig).Reachable s :=
    ⟨_, thirdEvents, ⟨false, 0, rfl⟩, .of_foldlM (fun _ _ _ _ hst => hst) hs⟩
  obtain ⟨horder, hright⟩ := evicts_right hr
  cases hs
  exact ⟨_, _, rfl, rfl, rfl, rfl, horder, hright (3, .resume 3 12 false) _ rfl⟩

end Taps.TimedDemux
