import Mathlib.Algebra.Order.Group.Multiset
import Mathlib.Data.Finset.Card
import Mathlib.Tactic.Abel
import Taps.Buffer.Buffers
import Taps.Buffer.Lemmas.ChainStorage

/-!
# The accounts of the blocks

The references to blocks are a multiset (`heldBy`). What a pool has counted and given back agrees with them
(`Accounts`), and an operation that turns references into others keeps that so whatever other references there
are (`Conserves`).
-/

namespace Taps

/-! ## The references of objects -/

def Handle.held (r : Handle) : Multiset Addr := r.block.elim 0 ({·})

def heldBy (l : List Handle) : Multiset Addr := (l.map Handle.held).sum

@[simp] theorem heldBy_nil : heldBy [] = 0 := rfl

@[simp] theorem heldBy_cons (r : Handle) (l : List Handle) : heldBy (r :: l) = r.held + heldBy l := by
  simp [heldBy]

@[simp] theorem heldBy_append (l l' : List Handle) : heldBy (l ++ l') = heldBy l + heldBy l' := by
  simp [heldBy]

@[simp] theorem Handle.held_null : Handle.null.held = 0 := rfl

@[simp] theorem Handle.held_moved (r : Handle) : r.moved.held = 0 := rfl

@[simp] theorem Handle.held_setRange (r : Handle) {b e : Nat} (h : b ≤ e) : (r.setRange b e h).held = r.held := rfl

@[simp] theorem heldBy_replicate (n : Nat) : heldBy (List.replicate n .null) = 0 := by
  induction n with
  | zero => rfl
  | succ n ih => rw [List.replicate_succ, heldBy_cons, ih, Handle.held_null, add_zero]

theorem coe_filterMap_block (l : List Handle) : (l.filterMap Handle.block : Multiset Addr) = heldBy l := by
  induction l with
  | nil => rfl
  | cons r l ih =>
      rw [heldBy_cons, Handle.held, ← ih]
      cases hblock : r.block with
      | none =>
          rw [List.filterMap_cons_none hblock]
          exact (zero_add _).symm
      | some a =>
          rw [List.filterMap_cons_some hblock]
          rw [← Multiset.cons_coe, ← Multiset.singleton_add]
          rfl

/-- What an object that is part of a list holds is part of what the list holds. -/
theorem heldBy_set {α : Type*} (f : α → List Handle) {l : List α} {i : Nat} {x : α} (h : l[i]? = some x) (y : α) :
    heldBy ((l.set i y).flatMap f) + heldBy (f x) = heldBy (l.flatMap f) + heldBy (f y) ∧
      heldBy (f x) ≤ heldBy (l.flatMap f) := by
  induction l generalizing i with
  | nil => simp at h
  | cons z l ih =>
      cases i with
      | zero =>
          obtain rfl : z = x := by simpa using h
          rw [List.set_cons_zero, List.flatMap_cons, List.flatMap_cons, heldBy_append, heldBy_append]
          exact ⟨by abel, Multiset.le_add_right ..⟩
      | succ i =>
          obtain ⟨heq, hle⟩ := ih (by simpa using h)
          rw [List.set_cons_succ, List.flatMap_cons, List.flatMap_cons, heldBy_append, heldBy_append, add_assoc, heq,
            add_assoc]
          exact ⟨rfl, hle.trans (Multiset.le_add_left ..)⟩

theorem heldBy_set_cell {l : List Handle} {i : Nat} {old : Handle} (h : l[i]? = some old) (r : Handle) :
    heldBy (l.set i r) + old.held = heldBy l + r.held := by
  simpa using (heldBy_set ([·]) h r).1

theorem held_le_heldBy {l : List Handle} {i : Nat} {r : Handle} (h : l[i]? = some r) : r.held ≤ heldBy l := by
  simpa using (heldBy_set ([·]) h r).2

namespace DataBlocks

variable {s s' s'' : DataBlocks} {refs refs' refs'' others : Multiset Addr} {a : Addr} {r : Handle}

@[simp] theorem counts_uncount (s : DataBlocks) : s.uncount.counts = s.counts := by unfold uncount; split <;> rfl

@[simp] theorem allocated_uncount (s : DataBlocks) : s.uncount.allocated = s.allocated := by
  unfold uncount
  split <;> rfl

@[simp] theorem maxLiveBlocks_uncount (s : DataBlocks) : s.uncount.maxLiveBlocks = s.maxLiveBlocks := by
  unfold uncount
  split <;> rfl

/-! ## What a pool has counted -/

/-- Unless a count has wrapped, each block has been allocated once more than it was given back if there is a
reference to it, and else as often, and the counter of a capped pool is the number of the former. -/
structure Accounts (s : DataBlocks) (refs : Multiset Addr) : Prop where
  counts : s.counts.Counts refs
  pieces : s.counts.overflowed = false →
    ∀ p, s.allocated.count p = s.deallocated.count p + if p.block ∈ refs then 1 else 0
  live : s.counts.overflowed = false → s.maxLiveBlocks ≠ 0 →
    s.live = refs.toFinset.card ∧ s.live ≤ s.maxLiveBlocks

theorem create_accounts (maxLiveBlocks : Nat) : (create maxLiveBlocks).Accounts 0 where
  counts := Lib.RefCounts.counts_zero _ _
  pieces _ p := by simp [create]
  live _ _ := by simp [create]

theorem Accounts.addRef (h : s.Accounts refs) (ha : a ∈ refs) : (s.addRef a).Accounts (a ::ₘ refs) := by
  have ho : (s.addRef a).counts.overflowed = false → s.counts.overflowed = false := by
    intro ho
    exact (Bool.or_eq_false_iff.mp ho).1
  have hmem : ∀ b, b ∈ a ::ₘ refs ↔ b ∈ refs := by
    intro b
    rw [Multiset.mem_cons, or_iff_right_iff_imp]
    rintro rfl
    exact ha
  have hfinset : (a ::ₘ refs).toFinset = refs.toFinset := by
    ext b
    simp only [Multiset.mem_toFinset, hmem]
  exact
    { counts := Lib.RefCounts.counts_addRef h.counts (.inl ha)
      pieces := fun ho' p => by
        rw [if_congr (hmem p.block) rfl rfl]
        exact h.pieces (ho ho') p
      live := fun ho' hmax => by
        rw [hfinset]
        exact h.live (ho ho') hmax }

theorem count_pieces (p : Piece) (a : Addr) :
    [Piece.storage a, Piece.header a].count p = if p.block = a then 1 else 0 := by
  cases p with
  | storage b | header b =>
      by_cases h : b = a
      · subst h
        simp [Piece.block]
      · simp [Piece.block, h, Ne.symm h]

theorem Accounts.destroy {counts : Lib.RefCounts Addr 32} (h : s.Accounts (a ::ₘ refs))
    (hcounts : counts.Counts refs) (ho : counts.overflowed = s.counts.overflowed)
    (hlast : s.counts.overflowed = false → a ∉ refs) : ({ s with counts }.destroy a).Accounts refs where
  counts := by simpa [DataBlocks.destroy] using hcounts
  pieces ho' p := by
    have ho₁ : s.counts.overflowed = false := by
      rw [← ho]
      simpa [DataBlocks.destroy] using ho'
    have hpieces := h.pieces ho₁ p
    have hnot := hlast ho₁
    simp only [DataBlocks.destroy, allocated_uncount, List.count_append, count_pieces]
    rw [hpieces]
    by_cases hp : p.block = a
    · subst hp
      rw [if_pos (Multiset.mem_cons_self ..), if_pos rfl, if_neg hnot]
    · rw [if_neg hp, Nat.add_zero]
      exact congrArg _ (if_congr (by simp [hp]) rfl rfl)
  live ho' hmax := by
    have ho₁ : s.counts.overflowed = false := by
      rw [← ho]
      simpa [DataBlocks.destroy] using ho'
    replace hmax : s.maxLiveBlocks ≠ 0 := by simpa [DataBlocks.destroy] using hmax
    obtain ⟨hlive, hle⟩ := h.live ho₁ hmax
    have hcard : (a ::ₘ refs).toFinset.card = refs.toFinset.card + 1 := by
      rw [Multiset.toFinset_cons, Finset.card_insert_of_notMem]
      rw [Multiset.mem_toFinset]
      exact hlast ho₁
    simp only [DataBlocks.destroy, uncount, if_neg hmax]
    omega

theorem Accounts.release (h : s.Accounts (a ::ₘ refs)) : (s.release a).Accounts refs := by
  have hcounts := Lib.RefCounts.counts_release h.counts
  have hlast := fun ho => Lib.RefCounts.release_last h.counts ho (by decide)
  have heq : s.release a = if (s.counts.release a).2 then { s with counts := (s.counts.release a).1 }.destroy a
      else { s with counts := (s.counts.release a).1 } := rfl
  rw [heq]
  by_cases hl : (s.counts.release a).2 = true
  · rw [if_pos hl]
    exact h.destroy hcounts rfl fun ho => (hlast ho).mp hl
  · rw [if_neg hl]
    have hmem : s.counts.overflowed = false → a ∈ refs := by
      intro ho
      by_contra hnot
      exact hl ((hlast ho).mpr hnot)
    exact
      { counts := hcounts
        pieces := fun ho p => by
          have hpieces := h.pieces ho p
          have hiff : p.block ∈ a ::ₘ refs ↔ p.block ∈ refs := by
            rw [Multiset.mem_cons, or_iff_right_iff_imp]
            intro hp
            rw [hp]
            exact hmem ho
          rwa [if_congr hiff rfl rfl] at hpieces
        live := fun ho hmax => by
          obtain ⟨hlive, hle⟩ := h.live ho hmax
          rw [Multiset.toFinset_cons, Finset.insert_eq_of_mem (Multiset.mem_toFinset.mpr (hmem ho))] at hlive
          exact ⟨hlive, hle⟩ }

theorem release_fields (s : DataBlocks) (a : Addr) :
    (s.release a).maxLiveBlocks = s.maxLiveBlocks ∧ (s.release a).allocated = s.allocated := by
  have heq : s.release a = if (s.counts.release a).2 then { s with counts := (s.counts.release a).1 }.destroy a
      else { s with counts := (s.counts.release a).1 } := rfl
  rw [heq]
  split
  · simp [DataBlocks.destroy]
  · exact ⟨rfl, rfl⟩

/-! ## `acquire()` -/

@[simp] theorem uncount_count (s : DataBlocks) : s.count.uncount = s := by
  unfold count uncount
  split <;> simp_all

/-- The live-block cap is reached. -/
def AtCap (s : DataBlocks) : Prop := s.maxLiveBlocks ≠ 0 ∧ s.live ≥ s.maxLiveBlocks

theorem acquire_of_atCap (h : s.AtCap) (outcome : BlockAllocation) : s.acquire outcome = (s, some .null) := by
  unfold AtCap at h
  rw [acquire, if_pos h, uncount_count]

theorem acquire_block (h : ¬ s.AtCap) (a : Addr) :
    s.acquire (.block a) = ({ s.count with
      counts := (s.counts.create a).addRef a
      allocated := s.allocated ++ [.storage a, .header a] },
        some { block := some a, beginOffset := 0, endOffset := 0, le := Nat.le_refl 0 }) := by
  unfold AtCap at h
  rw [acquire, if_neg h]
  by_cases hmax : s.maxLiveBlocks = 0
  · simp only [count, if_pos hmax, allocate]
    rfl
  · simp only [count, if_neg hmax, allocate]
    rfl

theorem acquire_storageThrows (h : ¬ s.AtCap) : s.acquire .storageThrows = (s, none) := by
  unfold AtCap at h
  rw [acquire, if_neg h]
  exact congrArg (·, none) (uncount_count s)

theorem acquire_headerThrows (h : ¬ s.AtCap) (a : Addr) :
    s.acquire (.headerThrows a) = ({ s with
      allocated := s.allocated ++ [.storage a]
      deallocated := s.deallocated ++ [.storage a] }, none) := by
  unfold AtCap at h
  rw [acquire, if_neg h]
  by_cases hmax : s.maxLiveBlocks = 0
  · simp only [count, if_pos hmax, allocate, uncount]
  · simp only [count, if_neg hmax, allocate, uncount]
    rfl

theorem maxLiveBlocks_acquire (s : DataBlocks) (outcome : BlockAllocation) :
    (s.acquire outcome).1.maxLiveBlocks = s.maxLiveBlocks := by
  by_cases hcap : s.AtCap
  · rw [acquire_of_atCap hcap]
  · cases outcome with
    | block a =>
        rw [acquire_block hcap]
        unfold count
        split <;> rfl
    | storageThrows => rw [acquire_storageThrows hcap]
    | headerThrows a => rw [acquire_headerThrows hcap]

theorem acquire_invalid_iff {outcome : BlockAllocation} (h : (s.acquire outcome).2 = some r) :
    r.block = none ↔ s.AtCap := by
  by_cases hcap : s.AtCap
  · rw [acquire_of_atCap hcap] at h
    cases h
    exact ⟨fun _ => hcap, fun _ => rfl⟩
  · cases outcome with
    | block a =>
        rw [acquire_block hcap] at h
        cases h
        exact ⟨nofun, fun h => absurd h hcap⟩
    | storageThrows =>
        rw [acquire_storageThrows hcap] at h
        exact absurd h nofun
    | headerThrows a =>
        rw [acquire_headerThrows hcap] at h
        exact absurd h nofun

/-- The resource gives out only what nothing refers to. -/
theorem count_allocated_acquire {outcome : BlockAllocation} {p : Piece} (hp : p.block ∉ outcome.addrs) :
    (s.acquire outcome).1.allocated.count p = s.allocated.count p := by
  by_cases hcap : s.AtCap
  · rw [acquire_of_atCap hcap]
  · cases outcome with
    | block a =>
        have hne : p.block ≠ a := fun he => hp (List.mem_singleton.mpr he)
        rw [acquire_block hcap, List.count_append, count_pieces, if_neg hne, Nat.add_zero]
    | storageThrows => rw [acquire_storageThrows hcap]
    | headerThrows a =>
        have hne : p ≠ .storage a := by
          rintro rfl
          exact hp (List.mem_singleton.mpr rfl)
        rw [acquire_headerThrows hcap, List.count_append, List.count_singleton, if_neg (by simpa using hne.symm),
          Nat.add_zero]

theorem Accounts.acquire_block (h : s.Accounts refs) (ha : a ∉ refs) (hcap : ¬ s.AtCap) :
    (s.acquire (.block a)).1.Accounts (a ::ₘ refs) := by
  rw [DataBlocks.acquire_block hcap]
  have ho : ((s.counts.create a).addRef a).overflowed = false → s.counts.overflowed = false := by
    intro ho
    exact (Bool.or_eq_false_iff.mp ho).1
  have hcount : (s.counts.create a).count a = 0 := Function.update_self ..
  exact
    { counts := Lib.RefCounts.counts_addRef (Lib.RefCounts.counts_create h.counts ha) (.inr hcount)
      pieces := fun ho' p => by
        have hpieces := h.pieces (ho ho') p
        have hdeallocated : ({ s.count with
            counts := (s.counts.create a).addRef a
            allocated := s.allocated ++ [.storage a, .header a] } : DataBlocks).deallocated = s.deallocated := by
          unfold count
          split <;> rfl
        rw [hdeallocated, List.count_append, count_pieces, hpieces]
        by_cases hp : p.block = a
        · subst hp
          rw [if_neg ha, if_pos rfl, if_pos (Multiset.mem_cons_self ..)]
        · rw [if_neg hp, Nat.add_zero]
          exact congrArg _ (if_congr (by simp [hp]) rfl rfl)
      live := fun ho' hmax => by
        replace hmax : s.maxLiveBlocks ≠ 0 := by
          unfold count at hmax
          split at hmax <;> exact hmax
        obtain ⟨hlive, hle⟩ := h.live (ho ho') hmax
        have hcard : (a ::ₘ refs).toFinset.card = refs.toFinset.card + 1 := by
          rw [Multiset.toFinset_cons, Finset.card_insert_of_notMem]
          rwa [Multiset.mem_toFinset]
        unfold AtCap at hcap
        simp only [count, if_neg hmax]
        omega }

theorem Accounts.acquire_headerThrows (h : s.Accounts refs) (hcap : ¬ s.AtCap) (a : Addr) :
    (s.acquire (.headerThrows a)).1.Accounts refs := by
  rw [DataBlocks.acquire_headerThrows hcap]
  refine ⟨h.counts, fun ho p => ?_, h.live⟩
  have hpieces := h.pieces ho p
  simp only [List.count_append]
  omega

/-- Whatever the resource does, what `acquire()` returns is a reference more, if there is something. -/
theorem Accounts.acquire {outcome : BlockAllocation} (h : s.Accounts refs) (hfresh : ∀ a ∈ outcome.addrs, a ∉ refs) :
    (s.acquire outcome).1.Accounts ((s.acquire outcome).2.elim 0 Handle.held + refs) := by
  by_cases hcap : s.AtCap
  · rw [acquire_of_atCap hcap]
    exact (zero_add refs).symm ▸ h
  · cases outcome with
    | block a =>
        have hblock := h.acquire_block (hfresh a (List.mem_singleton.mpr rfl)) hcap
        rw [← Multiset.singleton_add] at hblock
        rw [DataBlocks.acquire_block hcap] at hblock ⊢
        exact hblock
    | storageThrows =>
        rw [acquire_storageThrows hcap]
        exact (zero_add refs).symm ▸ h
    | headerThrows a =>
        have hthrows := h.acquire_headerThrows hcap a
        rw [DataBlocks.acquire_headerThrows hcap] at hthrows ⊢
        exact (zero_add refs).symm ▸ hthrows

/-! ## Operations that turn references into others -/

/-- From `s` to `s'` references to the blocks `refs` become ones to `refs'`. -/
structure Conserves (s s' : DataBlocks) (refs refs' : Multiset Addr) : Prop where
  maxLiveBlocks_eq : s'.maxLiveBlocks = s.maxLiveBlocks
  allocated_eq : s'.allocated = s.allocated
  accounts : ∀ others, s.Accounts (refs + others) → s'.Accounts (refs' + others)

theorem Conserves.of_eq (h : refs = refs') : Conserves s s refs refs' := ⟨rfl, rfl, fun _ hs => h ▸ hs⟩

theorem Conserves.trans (h : Conserves s s' refs refs') (h' : Conserves s' s'' refs' refs'') :
    Conserves s s'' refs refs'' where
  maxLiveBlocks_eq := h'.maxLiveBlocks_eq.trans h.maxLiveBlocks_eq
  allocated_eq := h'.allocated_eq.trans h.allocated_eq
  accounts others hs := h'.accounts others (h.accounts others hs)

/-- An operation that is about some of the references leaves the others as they are. -/
theorem Conserves.frame {x y : Multiset Addr} (h : Conserves s s' x y) (hle : x ≤ refs) (heq : refs' + x = refs + y) :
    Conserves s s' refs refs' where
  maxLiveBlocks_eq := h.maxLiveBlocks_eq
  allocated_eq := h.allocated_eq
  accounts others hs := by
    obtain ⟨rest, rfl⟩ := Multiset.le_iff_exists_add.mp hle
    obtain rfl : refs' = y + rest := by
      apply add_right_cancel (b := x)
      rw [heq]
      abel
    rw [add_assoc] at hs ⊢
    exact h.accounts _ hs

theorem Conserves.add_right (h : Conserves s s' refs refs') (others : Multiset Addr) :
    Conserves s s' (refs + others) (refs' + others) :=
  h.frame (Multiset.le_add_right ..) (by abel)

theorem Conserves.add_left (h : Conserves s s' refs refs') (others : Multiset Addr) :
    Conserves s s' (others + refs) (others + refs') :=
  h.frame (Multiset.le_add_left ..) (by abel)

theorem conserves_reset (s : DataBlocks) (r : Handle) : Conserves s (s.reset r) r.held 0 := by
  rw [reset, Handle.held]
  cases r.block with
  | none => exact .of_eq rfl
  | some a =>
      refine ⟨(release_fields s a).1, (release_fields s a).2, fun others hs => ?_⟩
      rw [zero_add]
      exact hs.release

theorem conserves_copy (s : DataBlocks) (r : Handle) : Conserves s (s.copy r) r.held (r.held + r.held) := by
  rw [copy, Handle.held]
  cases r.block with
  | none => exact .of_eq rfl
  | some a =>
      refine ⟨rfl, rfl, fun others hs => ?_⟩
      have hmem : a ∈ (some a).elim 0 ({·}) + others := by
        simp
      have haccounts := hs.addRef hmem
      rw [← Multiset.singleton_add, ← add_assoc] at haccounts
      exact haccounts

end DataBlocks

end Taps
