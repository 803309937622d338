import Taps.Buffer.Lemmas.ChainAccounts

/-!
# The accounts over whole runs

Each event but `acquire()` turns the references of all objects of the program into those after it, so the
accounts stay right along every run.
-/

namespace Taps

namespace Buffers

open DataBlocks

/-- What all objects refer to. -/
def total (s : Buffers) : Multiset Addr := heldBy s.handles

variable {s s' : Buffers} {e : BufferEvent} {i c : Nat} {r : Handle} {chain : ChainStorage}

theorem total_eq (s : Buffers) : s.total = heldBy (s.refs.flatMap Option.toList) +
    heldBy (s.chains.flatMap fun c => (c.map ChainStorage.cells).getD []) + heldBy s.lost := by
  rw [total, handles, heldBy_append, heldBy_append]

theorem coe_held (s : Buffers) : (s.held : Multiset Addr) = s.total := coe_filterMap_block _

/-! ## Changes of variables -/

theorem total_setRef (h : s.ref i = some r) (o : Option Handle) :
    (s.setRef i o).total + r.held = s.total + heldBy o.toList ∧ r.held ≤ s.total := by
  rw [Buffers.ref, Option.join_eq_some_iff] at h
  obtain ⟨heq, hle⟩ := heldBy_set Option.toList h o
  simp only [Option.toList_some, heldBy_cons, heldBy_nil, add_zero] at heq hle
  rw [total_eq, total_eq]
  refine ⟨?_, hle.trans ((Multiset.le_add_right ..).trans (Multiset.le_add_right ..))⟩
  calc _ = heldBy ((s.refs.set i o).flatMap Option.toList) + r.held +
        heldBy (s.chains.flatMap fun c => (c.map ChainStorage.cells).getD []) + heldBy s.lost := by
        simp only [setRef]
        abel
    _ = _ := by
        rw [heq]
        abel

theorem total_addRef (s : Buffers) (o : Option Handle) : (s.addRef o).total = s.total + heldBy o.toList := by
  simp only [total_eq, addRef, List.flatMap_append, List.flatMap_singleton, heldBy_append]
  abel

theorem total_setChain (h : s.chain c = some chain) (o : Option ChainStorage) :
    (s.setChain c o).total + chain.held = s.total + o.elim 0 ChainStorage.held ∧ chain.held ≤ s.total := by
  rw [Buffers.chain, Option.join_eq_some_iff] at h
  obtain ⟨heq, hle⟩ := heldBy_set (fun c => (c.map ChainStorage.cells).getD []) h o
  rw [Option.map_some, Option.getD_some, ← ChainStorage.held] at heq hle
  have ho : heldBy ((o.map ChainStorage.cells).getD []) = o.elim 0 ChainStorage.held := by
    cases o <;> rfl
  rw [ho] at heq
  rw [total_eq, total_eq]
  refine ⟨?_, hle.trans ((Multiset.le_add_left ..).trans (Multiset.le_add_right ..))⟩
  calc _ = heldBy (s.refs.flatMap Option.toList) +
        (heldBy ((s.chains.set c o).flatMap fun c => (c.map ChainStorage.cells).getD []) + chain.held) +
          heldBy s.lost := by
        simp only [setChain]
        abel
    _ = _ := by
        rw [heq]
        abel

theorem total_addChain (s : Buffers) (o : Option ChainStorage) :
    (s.addChain o).total = s.total + o.elim 0 ChainStorage.held := by
  have ho : heldBy ((o.map ChainStorage.cells).getD []) = o.elim 0 ChainStorage.held := by
    cases o <;> rfl
  simp only [total_eq, addChain, List.flatMap_append, List.flatMap_singleton, heldBy_append, ho]
  abel

theorem total_lost (s : Buffers) (lost : List Handle) :
    ({ s with lost := s.lost ++ lost } : Buffers).total = s.total + heldBy lost := by
  simp only [total_eq, heldBy_append]
  abel

/-! ## Events -/

/-- The parameter of `append()` is one object more. -/
theorem argument_conserves (h : s.ref i = some r) (moves : Bool) :
    Conserves s.blocks (s.argument i moves r).blocks s.total ((s.argument i moves r).total + r.held) ∧
      (s.argument i moves r).chains = s.chains := by
  rw [argument]
  split
  · obtain ⟨heq, -⟩ := total_setRef h (some r.moved)
    exact ⟨.of_eq (by simpa using heq.symm), rfl⟩
  · obtain ⟨-, hle⟩ := total_setRef h none
    refine ⟨(conserves_copy s.blocks r).frame hle ?_, rfl⟩
    exact add_assoc ..

theorem append_step_conserves {moves : Bool} {throws : Nat → Bool} (h : s.step (.append c i moves throws) = some s') :
    Conserves s.blocks s'.blocks s.total s'.total := by
  obtain ⟨chain, hc, h⟩ := Option.bind_eq_some_iff.mp h
  obtain ⟨r, hr, h⟩ := Option.bind_eq_some_iff.mp h
  obtain ⟨p, happend, h⟩ := Option.bind_eq_some_iff.mp h
  obtain ⟨hargument, hchains⟩ := argument_conserves hr moves
  have hc' : (s.argument i moves r).chain c = some chain := by
    rw [Buffers.chain, hchains]
    exact hc
  have hs' : s' = { (s.argument i moves r).setChain c (some (ChainStorage.state p).2) with
      blocks := (ChainStorage.state p).1 } := by
    cases p <;> exact (Option.some.inj h).symm
  obtain ⟨heq, hle⟩ := total_setChain hc' (some (ChainStorage.state p).2)
  subst hs'
  apply hargument.trans
  apply (ChainStorage.append_conserves happend).frame (add_le_add hle le_rfl)
  rw [← add_assoc]
  exact (congrArg (· + r.held) heq).trans (add_right_comm ..)

theorem consumeFront_step_conserves {n : Nat} (h : s.step (.consumeFront c n) = some s') :
    Conserves s.blocks s'.blocks s.total s'.total := by
  obtain ⟨chain, hc, h⟩ := Option.bind_eq_some_iff.mp h
  obtain ⟨⟨blocks, chain'⟩, hconsume, heq⟩ := Option.bind_eq_some_iff.mp h
  cases heq
  obtain ⟨heq, hle⟩ := total_setChain hc (some chain')
  exact (ChainStorage.consumeFront_conserves hconsume).frame hle heq

theorem first_step_conserves {len : Nat} {throws : Nat → Bool} (h : s.step (.first c len throws) = some s') :
    Conserves s.blocks s'.blocks s.total s'.total := by
  obtain ⟨chain, hc, h⟩ := Option.bind_eq_some_iff.mp h
  obtain ⟨q, hfirst, h⟩ := Option.bind_eq_some_iff.mp h
  obtain ⟨-, hle⟩ := total_setChain hc none
  cases q with
  | ok q =>
      cases h
      apply (ChainStorage.first_conserves hfirst).frame hle
      rw [← add_assoc]
      exact congrArg (· + chain.held) (total_addChain s (some q.2))
  | error blocks =>
      cases h
      apply (ChainStorage.first_conserves_of_throws hfirst).frame hle
      have hadd := total_addChain s none
      rw [Option.elim_none, add_zero] at hadd
      exact congrArg (· + chain.held) hadd

theorem copyChain_step_conserves {throws : Nat → Bool} (h : s.step (.copyChain c throws) = some s') :
    Conserves s.blocks s'.blocks s.total s'.total := by
  obtain ⟨chain, hc, h⟩ := Option.bind_eq_some_iff.mp h
  obtain ⟨q, hcopy, h⟩ := Option.bind_eq_some_iff.mp h
  obtain ⟨-, hle⟩ := total_setChain hc none
  cases q with
  | ok q =>
      cases h
      apply (ChainStorage.copy_conserves hcopy).frame hle
      rw [← add_assoc]
      exact congrArg (· + chain.held) (total_addChain s (some q.2))
  | error e =>
      cases h
      apply (ChainStorage.copy_conserves_of_throws hcopy).frame hle
      have hlost := total_lost (s.addChain none) e.2
      rw [total_addChain, Option.elim_none, add_zero] at hlost
      refine (congrArg (· + chain.held) hlost).trans ?_
      rw [add_assoc, add_comm (heldBy _)]

theorem moveChain_step_conserves (h : s.step (.moveChain c) = some s') :
    Conserves s.blocks s'.blocks s.total s'.total := by
  obtain ⟨other, hc, h⟩ := Option.bind_eq_some_iff.mp h
  obtain ⟨⟨blocks, chain, other'⟩, hmove, heq⟩ := Option.bind_eq_some_iff.mp h
  cases heq
  have hconserves := ChainStorage.moveAssign_conserves hmove
  rw [ChainStorage.held_create, zero_add] at hconserves
  obtain ⟨heq, hle⟩ := total_setChain hc (some other')
  apply hconserves.frame hle
  have hadd := total_addChain (s.setChain c (some other')) (some chain)
  refine (congrArg (· + other.held) hadd).trans ?_
  rw [add_right_comm, heq, Option.elim_some, Option.elim_some]
  abel

theorem chain_setChain_of_ne {d : Nat} {other : ChainStorage} (hd : s.chain d = some other) (hcd : c ≠ d)
    (o : Option ChainStorage) : (s.setChain c o).chain d = some other := by
  rw [Buffers.chain, setChain, List.getElem?_set_ne hcd]
  exact hd

/-- Two chains are different objects. -/
theorem held_add_held_le {d : Nat} {other : ChainStorage} (hc : s.chain c = some chain) (hd : s.chain d = some other)
    (hcd : c ≠ d) : chain.held + other.held ≤ s.total := by
  obtain ⟨heq, -⟩ := total_setChain hc none
  obtain ⟨-, hle⟩ := total_setChain (chain_setChain_of_ne hd hcd none) none
  rw [Option.elim_none, add_zero] at heq
  rw [← heq, add_comm chain.held]
  exact add_le_add hle le_rfl

theorem assignChain_step_conserves {d : Nat} {throws : Nat → Bool} (h : s.step (.assignChain c d throws) = some s') :
    Conserves s.blocks s'.blocks s.total s'.total := by
  obtain ⟨chain, hc, h⟩ := Option.bind_eq_some_iff.mp h
  obtain ⟨other, hd, h⟩ := Option.bind_eq_some_iff.mp h
  split at h
  · cases h
    exact .of_eq rfl
  · rename_i hcd
    obtain ⟨q, hassign, h⟩ := Option.bind_eq_some_iff.mp h
    cases q with
    | ok q =>
        cases h
        obtain ⟨heq, -⟩ := total_setChain hc (some q.2)
        apply (ChainStorage.copyAssign_conserves hassign).frame (held_add_held_le hc hd hcd)
        rw [← add_assoc, ← add_assoc]
        exact congrArg (· + other.held) heq
    | error e =>
        cases h
        obtain ⟨-, hle⟩ := total_setChain hd none
        apply (ChainStorage.copyAssign_conserves_of_throws hassign).frame hle
        refine (congrArg (· + other.held) (total_lost s e.2)).trans ?_
        rw [add_assoc, add_comm (heldBy _)]

theorem moveAssignChain_step_conserves {d : Nat} (h : s.step (.moveAssignChain c d) = some s') :
    Conserves s.blocks s'.blocks s.total s'.total := by
  obtain ⟨chain, hc, h⟩ := Option.bind_eq_some_iff.mp h
  obtain ⟨other, hd, h⟩ := Option.bind_eq_some_iff.mp h
  split at h
  · cases h
    exact .of_eq rfl
  · rename_i hcd
    obtain ⟨⟨blocks, chain', other'⟩, hmove, heq⟩ := Option.bind_eq_some_iff.mp h
    cases heq
    obtain ⟨heq₁, -⟩ := total_setChain hc (some chain')
    obtain ⟨heq₂, -⟩ := total_setChain (chain_setChain_of_ne hd hcd (some chain')) (some other')
    apply (ChainStorage.moveAssign_conserves hmove).frame (held_add_held_le hc hd hcd)
    rw [add_comm chain.held, ← add_assoc]
    refine (congrArg (· + chain.held) heq₂).trans ?_
    rw [add_right_comm, heq₁, add_assoc]
    rfl

theorem destroyChain_step_conserves (h : s.step (.destroyChain c) = some s') :
    Conserves s.blocks s'.blocks s.total s'.total := by
  obtain ⟨chain, hc, h⟩ := Option.bind_eq_some_iff.mp h
  obtain ⟨blocks, hdestroy, heq⟩ := Option.bind_eq_some_iff.mp h
  cases heq
  obtain ⟨heq, hle⟩ := total_setChain hc none
  exact (ChainStorage.destroy_conserves hdestroy).frame hle heq

theorem assignRef_step_conserves {j : Nat} (h : s.step (.assignRef i j) = some s') :
    Conserves s.blocks s'.blocks s.total s'.total := by
  obtain ⟨r, hr, h⟩ := Option.bind_eq_some_iff.mp h
  obtain ⟨o, ho, h⟩ := Option.bind_eq_some_iff.mp h
  cases h
  split
  · exact .of_eq rfl
  · obtain ⟨heq, hle⟩ := total_setRef hr (some o)
    obtain ⟨-, hle'⟩ := total_setRef ho none
    rw [Option.toList_some, heldBy_cons, heldBy_nil, add_zero] at heq
    have hcopy : Conserves s.blocks (s.blocks.copy o) s.total (s.total + o.held) :=
      (conserves_copy s.blocks o).frame hle' (add_assoc ..)
    apply hcopy.trans
    exact (conserves_reset _ r).frame (hle.trans (Multiset.le_add_right ..)) (heq.trans (add_zero _).symm)

theorem moveAssignRef_step_conserves {j : Nat} (h : s.step (.moveAssignRef i j) = some s') :
    Conserves s.blocks s'.blocks s.total s'.total := by
  obtain ⟨r, hr, h⟩ := Option.bind_eq_some_iff.mp h
  obtain ⟨o, ho, h⟩ := Option.bind_eq_some_iff.mp h
  cases h
  split
  · exact .of_eq rfl
  · rename_i hij
    have ho' : (s.setRef i (some o)).ref j = some o := by
      rw [Buffers.ref, setRef, List.getElem?_set_ne hij]
      exact ho
    obtain ⟨heq, hle⟩ := total_setRef hr (some o)
    obtain ⟨heq', -⟩ := total_setRef ho' (some o.moved)
    rw [Option.toList_some, heldBy_cons, heldBy_nil, add_zero] at heq heq'
    rw [Handle.held_moved, add_zero] at heq'
    apply (conserves_reset s.blocks r).frame hle
    apply add_right_cancel (b := o.held)
    rw [add_zero, add_right_comm]
    exact (congrArg (· + r.held) heq').trans heq

/-- Every step but an `acquire()`. -/
theorem step_conserves (he : ∀ outcome, e ≠ .acquire outcome) (h : s.step e = some s') :
    Conserves s.blocks s'.blocks s.total s'.total := by
  cases e with
  | acquire outcome => exact absurd rfl (he outcome)
  | construct r =>
      rw [step] at h
      split at h
      · rename_i hmem
        cases h
        have hle : (Handle.ofRef r).held ≤ s.total := by
          rw [← coe_held]
          exact Multiset.singleton_le.mpr hmem
        apply (conserves_copy s.blocks (.ofRef r)).frame hle
        refine (congrArg (· + (Handle.ofRef r).held) (total_addRef s (some (.ofRef r)))).trans ?_
        simp [add_assoc]
      · exact absurd h nofun
  | copyRef i =>
      obtain ⟨r, hr, rfl⟩ := Option.map_eq_some_iff.mp h
      obtain ⟨-, hle⟩ := total_setRef hr none
      apply (conserves_copy s.blocks r).frame hle
      refine (congrArg (· + r.held) (total_addRef s (some r))).trans ?_
      simp [add_assoc]
  | moveRef i =>
      obtain ⟨r, hr, rfl⟩ := Option.map_eq_some_iff.mp h
      obtain ⟨heq, -⟩ := total_setRef hr (some r.moved)
      apply Conserves.of_eq
      rw [total_addRef]
      simpa using heq.symm
  | resetRef i =>
      obtain ⟨r, hr, rfl⟩ := Option.map_eq_some_iff.mp h
      obtain ⟨heq, hle⟩ := total_setRef hr (some .null)
      exact (conserves_reset s.blocks r).frame hle heq
  | destroyRef i =>
      obtain ⟨r, hr, rfl⟩ := Option.map_eq_some_iff.mp h
      obtain ⟨heq, hle⟩ := total_setRef hr none
      exact (conserves_reset s.blocks r).frame hle heq
  | setRange i b e le =>
      obtain ⟨r, hr, rfl⟩ := Option.map_eq_some_iff.mp h
      obtain ⟨heq, -⟩ := total_setRef hr (some (r.setRange b e le))
      rw [Option.toList_some, heldBy_cons, heldBy_nil, add_zero, Handle.held_setRange] at heq
      exact .of_eq (add_right_cancel heq).symm
  | assignRef i j => exact assignRef_step_conserves h
  | moveAssignRef i j => exact moveAssignRef_step_conserves h
  | newChain =>
      cases h
      apply Conserves.of_eq
      rw [total_addChain, Option.elim_some, ChainStorage.held_create, add_zero]
  | append c i moves throws => exact append_step_conserves h
  | consumeFront c n => exact consumeFront_step_conserves h
  | first c len throws => exact first_step_conserves h
  | copyChain c throws => exact copyChain_step_conserves h
  | moveChain c => exact moveChain_step_conserves h
  | assignChain c d throws => exact assignChain_step_conserves h
  | moveAssignChain c d => exact moveAssignChain_step_conserves h
  | destroyChain c => exact destroyChain_step_conserves h

/-! ## Runs -/

theorem acquire_step {outcome : BlockAllocation} (h : s.step (.acquire outcome) = some s') :
    (∀ a ∈ outcome.addrs, a ∉ s.held) ∧
      s' = { s.addRef (s.blocks.acquire outcome).2 with blocks := (s.blocks.acquire outcome).1 } := by
  rw [step] at h
  split at h
  · exact absurd h nofun
  · rename_i hfresh
    cases h
    exact ⟨fun a ha hheld => hfresh ⟨a, ha, hheld⟩, rfl⟩

theorem acquire_step_accounts {outcome : BlockAllocation} (hs : s.blocks.Accounts s.total)
    (h : s.step (.acquire outcome) = some s') : s'.blocks.Accounts s'.total := by
  obtain ⟨hfresh, rfl⟩ := acquire_step h
  have hfresh' : ∀ a ∈ outcome.addrs, a ∉ s.total := by
    intro a ha hmem
    rw [← coe_held] at hmem
    exact hfresh a ha hmem
  have haccounts := hs.acquire hfresh'
  have htotal :
      ({ s.addRef (s.blocks.acquire outcome).2 with blocks := (s.blocks.acquire outcome).1 } : Buffers).total =
        (s.blocks.acquire outcome).2.elim 0 Handle.held + s.total := by
    rw [add_comm]
    refine (total_addRef s (s.blocks.acquire outcome).2).trans ?_
    cases (s.blocks.acquire outcome).2 <;> simp
  rw [htotal]
  exact haccounts

theorem step_accounts (hs : s.blocks.Accounts s.total) (h : s.step e = some s') :
    s'.blocks.Accounts s'.total ∧ s'.blocks.maxLiveBlocks = s.blocks.maxLiveBlocks := by
  by_cases he : ∃ outcome, e = .acquire outcome
  · obtain ⟨outcome, rfl⟩ := he
    refine ⟨acquire_step_accounts hs h, ?_⟩
    obtain ⟨-, rfl⟩ := acquire_step h
    exact maxLiveBlocks_acquire ..
  · have hconserves := step_conserves (fun outcome heq => he ⟨outcome, heq⟩) h
    have haccounts := hconserves.accounts 0
    rw [add_zero, add_zero] at haccounts
    exact ⟨haccounts hs, hconserves.maxLiveBlocks_eq⟩

theorem count_allocated_of_step {p : Piece} (hp : p.block ∈ s.held) (h : s.step e = some s') :
    s'.blocks.allocated.count p = s.blocks.allocated.count p := by
  by_cases he : ∃ outcome, e = .acquire outcome
  · obtain ⟨outcome, rfl⟩ := he
    obtain ⟨hfresh, rfl⟩ := acquire_step h
    exact count_allocated_acquire fun hmem => hfresh _ hmem hp
  · rw [(step_conserves (fun outcome heq => he ⟨outcome, heq⟩) h).allocated_eq]

theorem accounts_of_reachable {maxLiveBlocks : Nat} (h : (system maxLiveBlocks).Reachable s) :
    s.blocks.Accounts s.total ∧ s.blocks.maxLiveBlocks = maxLiveBlocks := by
  apply h.invariant
    (I := fun s : Buffers => s.blocks.Accounts s.total ∧ s.blocks.maxLiveBlocks = maxLiveBlocks)
  · rintro s rfl
    exact ⟨create_accounts maxLiveBlocks, rfl⟩
  · rintro s e s' ⟨hs, hmax⟩ hst
    obtain ⟨hs', hmax'⟩ := step_accounts hs hst
    exact ⟨hs', hmax'.trans hmax⟩

end Buffers

end Taps
