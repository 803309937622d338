import Taps.Buffer.Lemmas.Accounting
import Taps.Buffer.Lemmas.Buffers

/-!
# Blocks, handles and chains over whole runs
-/

namespace Taps

/-! ## Chains are lists of bytes -/

namespace Buffers

variable {s : Buffers} {maxLiveBlocks : Nat}

/-- In runs without a failed allocation every chain is sound, and every event whose variables exist can take
place and does to the bytes of the chains what it does to lists of bytes. -/
theorem chains_are_byte_lists (h : ((system maxLiveBlocks).restrict fun _ e _ => e.Allocates).Reachable s) :
    (∀ o ∈ s.chains, ∀ c ∈ o, ∃ es, c.Sound es) ∧
      ∀ e, e.Allocates → s.Has e →
        ∃ s', s.step e = some s' ∧ ∀ mem, s'.lists mem = (s.lists mem).step (s.window mem) e := by
  have hsound := sound_of_reachable h
  constructor
  · intro o ho c hc
    obtain ⟨bc, hrefines, hapart⟩ := hsound o ho c hc
    exact ⟨bc.entries, hrefines.sound hapart⟩
  · intro e ha hh
    obtain ⟨s', hst, hrefines⟩ := step_refines hsound ha hh
    exact ⟨s', hst, hrefines.lists_eq⟩

/-- A chain with one window of four bytes. -/
def windowAppended : List BufferEvent :=
  [.acquire (.block 7), .setRange 0 0 4 (by decide), .newChain, .append 0 0 false fun _ => false]

theorem chains_are_byte_lists_first :
    ∃ s s', windowAppended.foldlM step (create 0) = some s ∧ s.step (.first 0 3 fun _ => false) = some s' ∧
      ∀ mem, s'.lists mem = s.lists mem ++ [((s.lists mem).get 0).map (List.take 3)] := by
  obtain ⟨s, hrun⟩ : ∃ s, windowAppended.foldlM step (create 0) = some s := ⟨_, rfl⟩
  have hstep : ∀ e ∈ windowAppended, ∀ s s' : Buffers, s.step e = some s' →
      ((system 0).restrict fun _ e _ => e.Allocates).step s e s' := by
    intro e he s s' hst
    refine ⟨hst, ?_⟩
    simp only [windowAppended, List.mem_cons, List.not_mem_nil, or_false] at he
    rcases he with rfl | rfl | rfl | rfl
    · exact ⟨7, rfl⟩
    · trivial
    · trivial
    · exact fun _ => rfl
  have hrun' : ((system 0).restrict fun _ e _ => e.Allocates).Run (create 0) windowAppended s :=
    .of_foldlM hstep hrun
  have hchain : ∃ c, s.chain 0 = some c := by
    cases hrun
    exact ⟨_, rfl⟩
  obtain ⟨-, hstep⟩ := chains_are_byte_lists ⟨create 0, windowAppended, rfl, hrun'⟩
  have hhas : s.Has (.first 0 3 fun _ => false) := by
    constructor
    · intro i hi
      cases hi
    · intro c hc
      rw [List.mem_singleton.mp hc]
      exact hchain
    · intro i hi
      cases hi
    · intro c hc
      cases hc
  obtain ⟨s', hst, hlists⟩ := hstep (.first 0 3 fun _ => false) (fun _ => rfl) hhas
  exact ⟨s, s', hrun, hst, hlists⟩

end Buffers

/-! ## `append()` where larger storage cannot be had -/

namespace ChainStorage

/-- An `append()` that throws leaves the chain as it was if and only if it does not come to an allocation that
throws: the size is raised before. -/
theorem append_all_or_nothing {c : ChainStorage} {bc : BlockChain} (h : c.Refines bc) (s : DataBlocks)
    (throws : Nat → Bool) (ref : Handle) :
    (∀ s' c', c.append throws s ref = some (.error (s', c')) → c' = c) ↔
      ¬ ∃ r, ref = .ofRef r ∧ c.AppendThrows throws bc.entries r := by
  constructor
  · rintro hsame ⟨r, rfl, ht⟩
    have heq := congrArg ChainStorage.size (hsame _ _ (append_of_throws s h.layout ht))
    have hle := r.le
    have hne := ht.1
    simp only [BlockRef.size] at heq
    omega
  · intro ht s' c' happend
    exfalso
    cases hblock : ref.block with
    | none =>
        rw [append_of_invalid s c (.inl hblock)] at happend
        cases happend
    | some a =>
        obtain ⟨r, rfl⟩ := Handle.eq_ofRef hblock
        obtain ⟨s₁, c₁, hok, -⟩ := append_spec s h fun hthrows => ht ⟨r, rfl, hthrows⟩
        rw [hok] at happend
        cases happend

/-- The two entries of the storage are taken, and the window is one of a third block. -/
def storageTaken : List BufferEvent :=
  [.acquire (.block 1), .setRange 0 0 2 (by decide), .acquire (.block 2), .setRange 1 0 2 (by decide),
    .acquire (.block 3), .setRange 2 0 2 (by decide), .newChain, .append 0 0 false fun _ => false,
    .append 0 1 false fun _ => false]

theorem append_all_or_nothing_fits :
    (create.append (fun _ => true) (.create 0) (.ofRef ⟨7, 0, 4, by decide⟩)).isSome = true ∧
      ∀ s' c', create.append (fun _ => true) (.create 0) (.ofRef ⟨7, 0, 4, by decide⟩) = some (.error (s', c')) →
        c' = create := by
  refine ⟨rfl, (append_all_or_nothing create_refines (.create 0) (fun _ => true) (.ofRef ⟨7, 0, 4, by decide⟩)).mpr ?_⟩
  rintro ⟨r, -, -, -, -, hfull, -⟩
  exact absurd hfull (by decide)

/-- The size is 6 then, but the windows are of 4 bytes, and a `consume_front()` leaves the storage. -/
theorem append_counts_lost_window :
    ∃ s s' c c', storageTaken.foldlM Buffers.step (.create 0) = some s ∧ s.chain 0 = some c ∧
      s.step (.append 0 2 false fun _ => true) = some s' ∧ s'.chain 0 = some c' ∧
      (c.size = 4 ∧ c.entries.map (fun es => (es.map Handle.size).sum) = some 4) ∧
      (c'.size = 6 ∧ c'.entries.map (fun es => (es.map Handle.size).sum) = some 4) ∧
      s'.step (.consumeFront 0 5) = none := by
  refine ⟨_, _, _, _, rfl, rfl, rfl, rfl, by decide, by decide, rfl⟩

end ChainStorage

/-! ## The accounts of the blocks -/

namespace Buffers

variable {s : Buffers} {maxLiveBlocks : Nat}

theorem not_overflowed_of_reachable
    (h : ((system maxLiveBlocks).restrict fun _ _ s' => s'.blocks.counts.overflowed = false).Reachable s) :
    s.blocks.counts.overflowed = false := by
  apply h.invariant
  · rintro s rfl
    rfl
  · rintro s e s' - ⟨-, ho⟩
    exact ho

/-- As long as no reference count wraps: the count of a block is the number of the valid handles to it, the
resource has got back a block as often as it has given it out, but for the blocks with a handle, the counter of
a capped pool is the number of these, and `acquire()` refuses when that is the cap. What a block is made of goes
back in the step that leaves no handle to it, once, and in no other one. -/
theorem blocks_accounted
    (h : ((system maxLiveBlocks).restrict fun _ _ s' => s'.blocks.counts.overflowed = false).Reachable s) :
    (∀ a ∈ s.held, (s.blocks.counts.count a).toNat = s.held.count a) ∧
      (∀ p, s.blocks.allocated.count p = s.blocks.deallocated.count p + if p.block ∈ s.held then 1 else 0) ∧
      (maxLiveBlocks ≠ 0 → s.blocks.live = liveBlocks s.held ∧ liveBlocks s.held ≤ maxLiveBlocks) ∧
      (∀ outcome r, (s.blocks.acquire outcome).2 = some r →
        (r.block = none ↔ maxLiveBlocks ≠ 0 ∧ liveBlocks s.held = maxLiveBlocks)) ∧
      ∀ e s', s.step e = some s' → s'.blocks.counts.overflowed = false → ∀ p, p.block ∈ s.held →
        s'.blocks.deallocated.count p = s.blocks.deallocated.count p + if p.block ∈ s'.held then 0 else 1 := by
  have ho := not_overflowed_of_reachable h
  obtain ⟨haccounts, hmax⟩ := accounts_of_reachable h.of_restrict
  have hpieces : ∀ p, s.blocks.allocated.count p =
      s.blocks.deallocated.count p + if p.block ∈ s.held then 1 else 0 := by
    intro p
    rw [haccounts.pieces ho p, ← coe_held]
    exact congrArg _ (if_congr Multiset.mem_coe rfl rfl)
  have hlive : maxLiveBlocks ≠ 0 → s.blocks.live = liveBlocks s.held ∧ liveBlocks s.held ≤ maxLiveBlocks := by
    intro hne
    obtain ⟨hlive, hle⟩ := haccounts.live ho (hmax ▸ hne)
    have hcard : s.total.toFinset.card = liveBlocks s.held := by
      rw [← coe_held]
      exact List.card_toFinset s.held
    rw [hcard] at hlive
    rw [hlive, hmax] at hle
    exact ⟨hlive, hle⟩
  refine ⟨?_, hpieces, hlive, ?_, ?_⟩
  · intro a ha
    have hmem : a ∈ s.total := by
      rw [← coe_held]
      exact ha
    rw [haccounts.counts.toNat ho hmem, ← coe_held, Multiset.coe_count]
  · intro outcome r hr
    rw [DataBlocks.acquire_invalid_iff hr, DataBlocks.AtCap, hmax]
    constructor
    · rintro ⟨hne, hge⟩
      obtain ⟨heq, hle⟩ := hlive hne
      exact ⟨hne, by omega⟩
    · rintro ⟨hne, hcap⟩
      obtain ⟨heq, -⟩ := hlive hne
      exact ⟨hne, by omega⟩
  · intro e s' hst ho' p hp
    obtain ⟨haccounts', -⟩ := step_accounts haccounts hst
    have hafter := haccounts'.pieces ho' p
    rw [count_allocated_of_step hp hst, hpieces p, if_pos hp, ← coe_held] at hafter
    simp only [Multiset.mem_coe] at hafter
    split at hafter <;> rename_i hheld
    · rw [if_pos hheld]
      omega
    · rw [if_neg hheld]
      omega

/-- A handle and a copy of it, of the only block that there may be. -/
def copied : List BufferEvent := [.acquire (.block 7), .copyRef 0]

theorem blocks_accounted_copied :
    ∃ s, copied.foldlM step (create 1) = some s ∧ (s.blocks.counts.count 7).toNat = 2 ∧
      ∀ outcome r, (s.blocks.acquire outcome).2 = some r → r.block = none := by
  obtain ⟨s, hrun⟩ : ∃ s, copied.foldlM step (create 1) = some s := ⟨_, rfl⟩
  have hreachable : ((system 1).restrict fun _ _ s' => s'.blocks.counts.overflowed = false).Reachable s := by
    cases hrun
    exact ⟨create 1, copied, rfl, .step ⟨rfl, rfl⟩ (.step ⟨rfl, rfl⟩ .refl)⟩
  obtain ⟨hcounts, -, -, hrefused, -⟩ := blocks_accounted hreachable
  refine ⟨s, hrun, ?_, fun outcome r hr => (hrefused outcome r hr).mpr ?_⟩
  · cases hrun
    exact hcounts 7 (by decide)
  · cases hrun
    exact ⟨by decide, by decide⟩

/-- Copies of the only handle there is. -/
theorem copies_reachable (n : Nat) :
    ∃ s, (system 0).Reachable s ∧
      s.refs = List.replicate (n + 1) (some (Handle.ofRef ⟨7, 0, 0, Nat.le_refl 0⟩)) ∧ s.chains = [] ∧ s.lost = [] ∧
      s.blocks.counts.count 7 = BitVec.ofNat 32 (n + 1) := by
  induction n with
  | zero => exact ⟨_, ⟨create 0, [.acquire (.block 7)], rfl, .step rfl .refl⟩, rfl, rfl, rfl, rfl⟩
  | succ n ih =>
      obtain ⟨s, hreachable, hrefs, hchains, hlost, hcount⟩ := ih
      have href : s.ref 0 = some (.ofRef ⟨7, 0, 0, Nat.le_refl 0⟩) := by
        rw [Buffers.ref, hrefs]
        rfl
      have hst : (system 0).step s (.copyRef 0) { s.addRef (some (.ofRef ⟨7, 0, 0, Nat.le_refl 0⟩)) with
          blocks := s.blocks.addRef 7 } := congrArg (Option.map _) href
      refine ⟨_, hreachable.run (.step hst .refl), ?_, hchains, hlost, ?_⟩
      · rw [List.replicate_succ', ← hrefs]
        rfl
      · rw [BitVec.ofNat_add, ← hcount]
        exact Function.update_self (7 : Addr) _ s.blocks.counts.count

theorem copies_held (n : Nat) :
    ∃ s, (system 0).Reachable s ∧ s.held = List.replicate (n + 1) 7 ∧
      s.blocks.counts.count 7 = BitVec.ofNat 32 (n + 1) := by
  obtain ⟨s, hreachable, hrefs, hchains, hlost, hcount⟩ := copies_reachable n
  refine ⟨s, hreachable, ?_, hcount⟩
  rw [held, handles, hrefs, hchains, hlost, List.flatMap_nil, List.append_nil, List.append_nil, List.flatMap_replicate,
    Option.toList_some, List.flatten_replicate_singleton]
  exact List.filterMap_replicate_of_some rfl

/-- With 2 ^ 32 handles to a block its count is 0. -/
theorem count_of_handles_wraps :
    ¬ ∀ s, (system 0).Reachable s → ∀ a ∈ s.held, (s.blocks.counts.count a).toNat = s.held.count a := by
  intro hall
  obtain ⟨s, hreachable, hheld, hcount⟩ := copies_held (2 ^ 32 - 1)
  have hmem : 7 ∈ s.held := by
    rw [hheld]
    exact List.mem_replicate.mpr ⟨Nat.succ_ne_zero _, rfl⟩
  have heq := hall s hreachable 7 hmem
  rw [hcount, hheld, List.count_replicate_self, Nat.sub_add_cancel Nat.one_le_two_pow, BitVec.toNat_ofNat,
    Nat.mod_self] at heq
  exact absurd heq.symm (Nat.two_pow_pos 32).ne'

end Buffers

end Taps
