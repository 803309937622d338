import Taps.Udp.Lemmas.Footprint
import Taps.Udp.Lemmas.Pool

/-!
# Results on what a UDP Listener keeps

However many sources send to it, the Listener keeps a bounded number of datagrams for Connections that nobody has
accepted; and its pool is exhausted only by datagrams that wait and Messages that the application has.
-/

namespace Taps

variable {E : Type} [DecidableEq E]

/-! ## The table -/

/-- At most so many Mailboxes are kept for Connections that the application does not have, and at most so many
datagrams are queued in them; the limit is the one of the environment, in any form that a decimal number has there. -/
theorem UDPDemux.backlog_bounded {env : String → Option String} {blockSize : Nat} {s : UDPDemux E}
    (h : (system (DemuxConfig.ofEnv env blockSize)).Reachable s) :
    s.demux.unowned.card ≤
      envOr (env "TAPS_UDP_MAX_CONNS") DemuxConfig.kMaxConnections + Demux.channelCapacity ∧
    s.demux.backlog ≤
      (envOr (env "TAPS_UDP_MAX_CONNS") DemuxConfig.kMaxConnections + Demux.channelCapacity) *
        Mailbox.defaultCapacity ∧
    ∀ text negative n, env "TAPS_UDP_MAX_CONNS" = some text → Denotes text.toList negative n →
      envOr (env "TAPS_UDP_MAX_CONNS") DemuxConfig.kMaxConnections = limit negative n DemuxConfig.kMaxConnections := by
  have hshelved := shelved_of_reachable h
  have hbound := (inv_of_reachable h).demux.bound
  have hcard := Demux.card_unowned_le hshelved hbound
  have hbacklog := Demux.backlog_le hshelved hbound
  rw [config_of_reachable h] at hcard hbacklog
  refine ⟨hcard, hbacklog, fun text negative n henv hdenotes => ?_⟩
  rw [henv]
  exact envOr_denotes hdenotes _

/-- A table for two sources, and one of them. -/
theorem UDPDemux.backlog_bounded_two :
    let env := fun name => if name = "TAPS_UDP_MAX_CONNS" then some " +02x" else none
    ∃ s : UDPDemux Nat,
      [.arrive (.ok (1, [7])), .resume 0 10 false].foldlM step (create (DemuxConfig.ofEnv env 16) false) = some s ∧
      s.demux.unowned.card = 1 ∧ s.demux.backlog ≤ (2 + 100) * 256 := by
  intro env
  have hsome : ([.arrive (.ok (1, [7])), .resume 0 10 false].foldlM step
      (create (E := Nat) (DemuxConfig.ofEnv env 16) false)).isSome := rfl
  obtain ⟨s, hs⟩ := Option.isSome_iff_exists.mp hsome
  have hreachable : (system (DemuxConfig.ofEnv env 16)).Reachable s :=
    ⟨_, _, ⟨false, rfl⟩, .of_foldlM (fun _ _ _ _ hst => hst) hs⟩
  obtain ⟨-, hbacklog, hlimit⟩ := backlog_bounded hreachable
  have hdenotes : Denotes " +02x".toList false 2 :=
    ⟨[' '], ['+'], 1, ['x'], rfl, List.forall_mem_singleton.mpr rfl, .inr rfl, fun c hc => by cases hc; rfl⟩
  rw [hlimit " +02x" false 2 rfl hdenotes] at hbacklog
  refine ⟨s, hs, ?_, hbacklog⟩
  cases hs
  rfl

/-! ## The pool -/

/-- With a cap, no more blocks are live; and after each turn of `receive_loop()`, its next datagram will be dropped for
the lack of a block if and only if as many datagrams as the cap that are not empty are in Mailboxes and in Messages
that the application has. -/
theorem PooledDemux.pool_exact {config : DemuxConfig} {cap : Nat} {s : PooledDemux E}
    (h : (system config cap).Reachable s) (hcap : 0 < cap) :
    s.liveBlocks ≤ cap ∧
    ∀ now address atCap s', s.step (.strand (.resume now address atCap)) = some s' →
      ∀ sink, s'.udp.receiveLoop = .pending sink → (sink = true ↔ s'.datagramBlocks = cap) := by
  obtain ⟨hi, rfl⟩ := reachable_inv h
  exact ⟨hi.bound hcap, fun now address atCap s' hst => (resume_bound hi hcap hst).2.2⟩

/-- The only block has a datagram that waits. -/
theorem PooledDemux.pool_exact_one : ∃ s s' : PooledDemux Nat,
    [.strand (.arrive (.ok (1, [7])))].foldlM step (create ⟨2, 30, 16, by decide⟩ 1) = some s ∧
    s.step (.strand (.resume 0 10 true)) = some s' ∧ s'.udp.receiveLoop = .pending true ∧ s'.datagramBlocks = 1 := by
  have hsome : ([.strand (.arrive (.ok (1, [7])))].foldlM step
      (create (E := Nat) ⟨2, 30, 16, by decide⟩ 1)).isSome := rfl
  obtain ⟨s, hs⟩ := Option.isSome_iff_exists.mp hsome
  have hstep : (s.step (.strand (.resume 0 10 true))).isSome := by
    cases hs
    rfl
  obtain ⟨s', hs'⟩ := Option.isSome_iff_exists.mp hstep
  have hreachable : (system ⟨2, 30, 16, by decide⟩ 1).Reachable s :=
    ⟨_, _, rfl, .of_foldlM (fun _ _ _ _ hst => hst) hs⟩
  have hpending : s'.udp.receiveLoop = .pending true := by
    cases hs
    cases hs'
    rfl
  exact ⟨s, s', hs, hs', hpending,
    ((pool_exact hreachable (by decide)).2 0 10 true s' hs' true hpending).mp rfl⟩

end Taps
