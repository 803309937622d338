import Taps.Udp.Lemmas.Flows

/-!
# The demultiplexer implements the flows

A source that goes on sending keeps its Connection, unless as many others send meanwhile as the table has entries.
-/

namespace Taps.UDPDemux

variable {E : Type} [DecidableEq E] {config : DemuxConfig} {s : UDPDemux E}

/-! ## The flows -/

/-- Every reachable state stands for reachable flows, and every run from it for a run of those. -/
theorem refines_flows (h : (system config).Reachable s) :
    ∃ t, (Flows.system config.maxConnections config.maxConnections_pos).Reachable t ∧ s.demux.Represents t ∧
      ∀ es s', (system config).Run s es s' → ∃ fs t',
        (Flows.system config.maxConnections config.maxConnections_pos).Run t fs t' ∧ s'.demux.Represents t' := by
  obtain ⟨t, ht, hr⟩ := reachable_represents h
  exact ⟨t, ht, hr, fun es s' hrun => run_represents _ hrun (inv_of_reachable h) hr⟩

/-- The flow of the first source has been displaced by that of the second one. -/
theorem refines_flows_displaced : ∃ (s : UDPDemux Nat) (t : Flows Nat),
    [.arrive (.ok (1, [7])), .resume 0 10 false, .arrive (.ok (2, [9])), .resume 1 11 false].foldlM step
      (create ⟨1, 30, 16, by decide⟩ false) = some s ∧
    s.demux.Represents t ∧ t.flows.map Flow.cause = [some .displaced, none] ∧
    t.table.entries = [(2, ⟨1, 1⟩)] := by
  have hsome : ([.arrive (.ok (1, [7])), .resume 0 10 false, .arrive (.ok (2, [9])), .resume 1 11 false].foldlM step
      (create (E := Nat) ⟨1, 30, 16, by decide⟩ false)).isSome := rfl
  obtain ⟨s, hs⟩ := Option.isSome_iff_exists.mp hsome
  have hreachable : (system ⟨1, 30, 16, by decide⟩).Reachable s :=
    ⟨_, _, ⟨false, rfl⟩, .of_foldlM (fun _ _ _ _ hst => hst) hs⟩
  obtain ⟨t, -, hr, -⟩ := refines_flows hreachable
  refine ⟨s, t, hs, hr, ?_, ?_⟩
  · rw [hr.flows]
    cases hs
    rfl
  · rw [hr.entries]
    cases hs
    rfl

/-! ## The table -/

/-- From the moment a datagram of a source is served, and as long as fewer others send than the table has entries, no
one displaces its Connection: it stays in the table until it has been idle for too long or its owner gives it up. -/
theorem active_source_stays {D : Finset E} {d : Datagram E} {now : Int} {address : Addr} {atCap : Bool}
    {s₁ s₂ : UDPDemux E} {es : List (DemuxEvent E)} (h : (system config).Reachable s) (hd : s.Received d)
    (hst : s.step (.resume now address atCap) = some s₁) (hD : D.card < config.maxConnections)
    (hrun : ((system config).restrict (ServesOnly (insert d.source D))).Run s₁ es s₂) :
    ∀ n ∈ s₁.demux.table.nodes, n.key = d.source → s₂.demux.InTable n.value.mailbox ∨
      ∃ p, s₂.demux.peers[n.value.mailbox]? = some p ∧ p.mailbox.closed = true ∧ p.mailbox.cause ≠ .displaced := by
  intro n hn hkey
  obtain ⟨t, ht, hr⟩ := reachable_represents h
  have htaken : ∃ taken, s₁.demux.Represents (t.datagram now d taken) := by
    rcases (step_steps hst).resume_cases with ⟨d', hd', hserve⟩ | ⟨hnone, -⟩
    · cases hd.symm.trans hd'
      rw [hserve]
      exact hr.serve (inv_of_reachable h).demux now address d
    · exact absurd hd (hnone d)
  obtain ⟨taken, htaken⟩ := htaken
  have hconfig : (t.datagram now d taken).table.bound = config.maxConnections := by
    rw [htaken.bound, config_of_reachable (h.step hst)]
  have hspared : (t.datagram now d taken).Spared d.source n.value.mailbox D := by
    obtain ⟨front, back, he, hfront⟩ := Flows.recent_datagram (hkey ▸ htaken.find?_some hn)
    exact .inl ⟨n.value, rfl, front, back, he, fun x hx => absurd (hfront x hx) (Finset.notMem_empty _)⟩
  have hvalid := Flows.valid_next (Flows.valid_of_reachable ht) (.datagram now d taken)
  obtain ⟨fs, t', hfs, hr'⟩ := run_serves config.maxConnections_pos hrun (inv_of_reachable (h.step hst)) htaken
  exact hr'.spared (Flows.run_spared hfs hvalid (hconfig ▸ hD) hspared)

/-- Another source fills the table, and sends again. -/
def busySource : List (DemuxEvent Nat) :=
  [.arrive (.ok (2, [9])), .resume 1 11 false, .arrive (.ok (2, [9])), .resume 2 12 false]

theorem active_source_stays_busy : ∃ s₁ s₂ : UDPDemux Nat,
    [.arrive (.ok (1, [7])), .resume 0 10 false].foldlM step (create ⟨2, 30, 16, by decide⟩ false) = some s₁ ∧
    busySource.foldlM step s₁ = some s₂ ∧
    (s₂.demux.InTable 0 ∨
      ∃ p, s₂.demux.peers[0]? = some p ∧ p.mailbox.closed = true ∧ p.mailbox.cause ≠ .displaced) := by
  obtain ⟨s, hs⟩ : ∃ s, (create (E := Nat) ⟨2, 30, 16, by decide⟩ false).step (.arrive (.ok (1, [7]))) = some s :=
    ⟨_, rfl⟩
  obtain ⟨s₁, hs₁⟩ : ∃ s₁, s.step (.resume 0 10 false) = some s₁ := by
    cases hs
    exact ⟨_, rfl⟩
  obtain ⟨s₂, hs₂, hrun⟩ : ∃ s₂, busySource.foldlM step s₁ = some s₂ ∧
      ((system ⟨2, 30, 16, by decide⟩).restrict (ServesOnly (insert 1 {2}))).Run s₁ busySource s₂ := by
    cases hs
    cases hs₁
    refine ⟨_, rfl, .step ⟨rfl, ?_⟩ (.step ⟨rfl, ?_⟩ (.step ⟨rfl, ?_⟩ (.step ⟨rfl, ?_⟩ .refl)))⟩
    all_goals
      intro now address atCap d he hd
      cases he
    · cases hd
      decide
    · cases hd
      decide
  have hreachable : (system ⟨2, 30, 16, by decide⟩).Reachable s := ⟨_, [_], ⟨false, rfl⟩, .step hs .refl⟩
  have hd : s.Received ⟨1, 0, [7], [7]⟩ := by
    cases hs
    rfl
  have hnode : ∃ n ∈ s₁.demux.table.nodes, n.key = 1 ∧ n.value.mailbox = 0 := by
    cases hs
    cases hs₁
    exact ⟨_, List.mem_singleton_self _, rfl, rfl⟩
  obtain ⟨n, hn, hkey, hmailbox⟩ := hnode
  refine ⟨s₁, s₂, ?_, hs₂, ?_⟩
  · simp [hs, hs₁]
  · rw [← hmailbox]
    exact active_source_stays (D := {2}) hreachable hd hs₁ (by decide) hrun n hn hkey

end Taps.UDPDemux
