import Taps.Udp.Lemmas.Timed

/-!
# The order of the entries

`receive_loop()` puts the entry of a source in front when it reads the clock, and everything else only takes
entries out. So the list is in the order in which the entries were last active, and its back is where the
entries to evict are.
-/

namespace Taps.Demux

variable {E : Type} [DecidableEq E] {s : Demux E} {now : Int} {address : Addr} {d : Datagram E}

/-! ## Sweeps -/

theorem evictsIdle_sweep (hi : s.Inv) (hs : s.NewestFirst) (now : Int) :
    EvictsIdle (s.cutoff now) s (s.sweep now) := by
  have hback := hs.below_at_back (s.cutoff now)
  obtain ⟨hevicted, hkept⟩ := sweepIdle_eq hi (s.cutoff now) (Nat.le_refl _)
  rw [Lib.LinkedMap.rtakeWhile_eq_filter hback] at hevicted
  rw [Lib.LinkedMap.rdropWhile_eq_filter hback] at hkept
  exact ⟨hevicted, hkept.trans (by simp only [decide_not])⟩

/-! ## Displacements -/

theorem serve_new (hacc : s.accepting = true) (hl : s.table.index.lookup d.source = none) :
    s.serve now address d = s.makeRoom.connect now address d := by
  simp [serve, hl, hacc]

theorem nodes_connect (s : Demux E) (now : Int) (address : Addr) (d : Datagram E) :
    (s.connect now address d).table.nodes =
      ⟨s.table.nextId, d.source, { mailbox := s.peers.length, lastActive := now }⟩ :: s.table.nodes := by
  rw [table_connect]
  rfl

theorem displacesOldest_serve (hi : s.Inv) (hs : s.NewestFirst) (hacc : s.accepting = true)
    (hl : s.table.index.lookup d.source = none)
    (hfull : s.config.maxConnections ≤ s.table.index.keys.length) :
    DisplacesOldest now address d s (s.serve now address d) := by
  obtain ⟨n, others, hnodes, hroom⟩ := makeRoom_full hi hfull
  have hothers : (s.remove n .displaced).table.nodes = others := hi.agrees.nodes_erase_concat hnodes
  have hpeers : (s.remove n .displaced).peers.length = s.peers.length := by simp [remove, update]
  refine ⟨n, others, hnodes, fun x hx => hs.last_le hnodes x (by simp [hnodes, hx]), ?_, ?_⟩
  · rw [serve_new hacc hl, hroom]
  · rw [serve_new hacc hl, hroom, nodes_connect, hothers, hpeers]
    rfl

/-! ## Datagrams -/

theorem newestFirst_serve (hi : s.Inv) (hs : s.NewestFirst) (address : Addr) (d : Datagram E)
    (hnow : ∀ n ∈ s.table.nodes, n.value.lastActive ≤ now) : (s.serve now address d).NewestFirst := by
  unfold serve
  cases hl : s.table.index.lookup d.source with
  | some it =>
      obtain ⟨n, hn, -, hderef⟩ := hi.agrees.deref_lookup hl
      simp only [hderef]
      exact hs.touch n hnow
  | none =>
      simp only
      split
      · have hroom := nodes_makeRoom s
        apply Lib.LinkedMap.Descending.cons hs hroom (n := ⟨_, d.source, _, now⟩) hnow
        exact nodes_connect ..
      · exact hs

/-- A datagram of a source that needs no other one's place takes no entry out. -/
theorem kept_serve (hi : s.Inv) (now : Int) (address : Addr)
    (hfit : s.accepting = true → s.table.index.lookup d.source = none →
      s.table.index.keys.length < s.config.maxConnections)
    {n : Lib.Node E Entry} (hn : n ∈ s.table.nodes) :
    n.id ∈ (s.serve now address d).table.nodes.map Lib.Node.id := by
  unfold serve
  cases hl : s.table.index.lookup d.source with
  | some it =>
      obtain ⟨x, hx, -, hderef⟩ := hi.agrees.deref_lookup hl
      simp only [hderef]
      by_cases he : n = x
      · exact List.mem_map.mpr ⟨_, (hi.agrees.mem_touch hx).mpr (.inl rfl), by rw [he]⟩
      · exact List.mem_map_of_mem ((hi.agrees.mem_touch hx).mpr (.inr ⟨hn, he⟩))
  | none =>
      simp only
      split
      · rename_i hacc
        rw [nodes_connect, makeRoom, if_neg (Nat.not_le.mpr (hfit hacc hl))]
        exact List.mem_map_of_mem (List.mem_cons_of_mem _ hn)
      · exact List.mem_map_of_mem hn

end Taps.Demux

namespace Taps.UDPDemux

variable {E : Type} [DecidableEq E] {s s' : UDPDemux E} {e : DemuxEvent E}

theorem Steps.newestFirst (h : Steps s e s') (hi : s.demux.Inv) (hs : s.demux.NewestFirst)
    (hnow : ∀ now address atCap, e = .resume now address atCap →
      ∀ n ∈ s.demux.table.nodes, n.value.lastActive ≤ now) : s'.demux.NewestFirst := by
  by_cases he : ∃ now address atCap, e = .resume now address atCap
  · obtain ⟨now, address, atCap, rfl⟩ := he
    rcases h.resume_cases with ⟨d, -, hserve⟩ | ⟨-, hsame⟩
    · rw [hserve]
      exact Demux.newestFirst_serve hi hs address d (hnow now address atCap rfl)
    · rwa [hsame]
  · exact hs.sublist (h.nodes_sublist he)

/-- A step that neither sweeps nor displaces nor runs a release handler takes no entry out. -/
theorem Steps.kept (h : Steps s e s') (hi : s.demux.Inv) {n : Lib.Node E Entry}
    (hn : n ∈ s.demux.table.nodes) :
    n.id ∈ s'.demux.table.nodes.map Lib.Node.id ∨ (∃ now, e = .sweep now ∧ s.sweepLoop = .expired) ∨
      (∃ now address atCap d, e = .resume now address atCap ∧ s.Full d) ∨ ∃ i, e = .release i := by
  have hsame : s'.demux.table = s.demux.table → n.id ∈ s'.demux.table.nodes.map Lib.Node.id := by
    intro htable
    rw [htable]
    exact List.mem_map_of_mem hn
  cases h with
  | sweep hl => exact .inr (.inl ⟨_, rfl, hl⟩)
  | release => exact .inr (.inr (.inr ⟨_, rfl⟩))
  | @resume now address atCap sink outcome hl ha =>
      rcases resume_demux_cases hl now address atCap with ⟨d, hd, hserve⟩ | ⟨-, hdemux⟩
      · by_cases hfull : s.Full d
        · exact .inr (.inr (.inl ⟨now, address, atCap, d, rfl, hfull⟩))
        · left
          rw [hserve]
          exact Demux.kept_serve hi now address
            (fun hacc hnone => Nat.not_le.mp fun hsize => hfull ⟨hd, hacc, hnone, hsize⟩) hn
      · exact .inl (hsame (by rw [hdemux]))
  | arrive => exact .inl (hsame (by rw [demux_arrive]))
  | stop => exact .inl (hsame (by rw [demux_shutDownIfUnused]; rfl))
  | accept => exact .inl (hsame (Demux.table_accept _))
  | close => exact .inl (hsame (by rw [Demux.close, Demux.table_release]; rfl))
  | destroy => exact .inl (hsame (Demux.table_release _ _))
  | expire | cancelled | receive | wake => exact .inl (hsame rfl)

theorem Steps.evictsRight (h : Steps s e s') (hi : s.demux.Inv) (hs : s.demux.NewestFirst) :
    s.EvictsRight e s' where
  sweep now he hl := by
    subst he
    cases h with
    | cancelled hl' => cases hl'.symm.trans hl
    | sweep =>
        rw [demux_shutDownIfUnused]
        exact Demux.evictsIdle_sweep hi hs now
  displace now address atCap d he hfull := by
    subst he
    rcases h.resume_cases with ⟨d', hd', hserve⟩ | ⟨hnone, -⟩
    · cases hfull.received.symm.trans hd'
      rw [hserve]
      exact Demux.displacesOldest_serve hi hs hfull.accepting hfull.source hfull.size
    · exact absurd hfull.received (hnone d)
  others n hn hout := (h.kept hi hn).resolve_left hout

end Taps.UDPDemux

namespace Taps.TimedDemux

variable {E : Type} [DecidableEq E] {config : DemuxConfig} {s s' : TimedDemux E} {e : Int × DemuxEvent E}

/-- The entries are in order, and none is of the future. -/
structure Recent (s : TimedDemux E) : Prop where
  udp : s.udp.Inv
  newestFirst : s.udp.demux.NewestFirst
  past : ∀ n ∈ s.udp.demux.table.nodes, n.value.lastActive ≤ s.clock

theorem create_recent (config : DemuxConfig) (atCap : Bool) (clock : Int) :
    (create (E := E) config atCap clock).Recent where
  udp := UDPDemux.create_inv config atCap
  newestFirst := List.Pairwise.nil
  past := by simp [create, UDPDemux.create, Demux.create, Lib.LinkedMap.empty]

theorem step_recent (h : s.Recent) (hst : s.step e = some s') : s'.Recent := by
  obtain ⟨hclock, htime, hsteps, hclock', -⟩ := step_cases hst
  have hnow : ∀ now address atCap, e.2 = .resume now address atCap → now = e.1 := by
    intro now address atCap he
    rw [he] at htime
    exact of_decide_eq_true htime
  refine ⟨hsteps.inv h.udp, hsteps.newestFirst h.udp.demux h.newestFirst ?_, fun n hn => ?_⟩
  · intro now address atCap he n hn
    rw [hnow now address atCap he]
    exact Int.le_trans (h.past n hn) hclock
  · rw [hclock']
    rcases hsteps.mem_nodes h.udp.demux hn with ⟨hn, -⟩ | ⟨now, address, atCap, he, hactive⟩
    · exact Int.le_trans (h.past n hn) hclock
    · rw [hactive, hnow now address atCap he]

theorem recent_of_reachable (h : (system config).Reachable s) : s.Recent := by
  refine h.invariant (I := Recent) ?_ fun s e s' h hst => step_recent h hst
  rintro s ⟨atCap, clock, rfl⟩
  exact create_recent config atCap clock

end Taps.TimedDemux
