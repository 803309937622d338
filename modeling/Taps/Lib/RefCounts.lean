import Mathlib.Algebra.Ring.Nat
import Mathlib.Data.Multiset.Count
import Mathlib.Logic.Function.Basic

/-!
# Reference counts

Objects that count the references to them in `w` bits. The references are a multiset of objects: a copy adds
one, the end of one takes it out, and a move leaves them as they are. As long as no count wraps, the count of an
object is its number in the multiset (`Counts`), and a release says whether it was the last one.
-/

namespace Taps.Lib

/-- `overflowed` is set for good once a count has wrapped to 0. -/
structure RefCounts (A : Type*) (w : Nat) where
  count : A → BitVec w
  overflowed : Bool

namespace RefCounts

variable {A : Type*} {w : Nat} [DecidableEq A]

def addRef (c : RefCounts A w) (a : A) : RefCounts A w where
  count := Function.update c.count a (c.count a + 1)
  overflowed := c.overflowed || c.count a + 1 = 0

/-- The counts without one reference, and whether it was the last one. -/
def release (c : RefCounts A w) (a : A) : RefCounts A w × Bool :=
  ({ c with count := Function.update c.count a (c.count a - 1) }, c.count a = 1)

/-- A new object, that nothing refers to. -/
def create (c : RefCounts A w) (a : A) : RefCounts A w := { c with count := Function.update c.count a 0 }

/-- Unless a count has wrapped, the counts are those of the references `refs`. -/
def Counts (c : RefCounts A w) (refs : Multiset A) : Prop :=
  c.overflowed = false → ∀ a, refs.count a < 2 ^ w ∧ (a ∈ refs → c.count a = BitVec.ofNat w (refs.count a))

variable {c : RefCounts A w} {refs : Multiset A} {a b : A}

theorem counts_zero (count : A → BitVec w) (overflowed : Bool) : Counts ⟨count, overflowed⟩ 0 := by
  intro _ a
  exact ⟨(Multiset.count_zero a).symm ▸ Nat.two_pow_pos w, fun h => absurd h (Multiset.notMem_zero a)⟩

theorem Counts.toNat (h : c.Counts refs) (ho : c.overflowed = false) (ha : a ∈ refs) :
    (c.count a).toNat = refs.count a := by
  rw [(h ho a).2 ha, BitVec.toNat_ofNat, Nat.mod_eq_of_lt (h ho a).1]

theorem counts_create (h : c.Counts refs) (ha : a ∉ refs) : (c.create a).Counts refs := by
  intro ho b
  refine ⟨(h ho b).1, fun hb => ?_⟩
  have hne : b ≠ a := fun he => ha (he ▸ hb)
  exact (Function.update_of_ne hne ..).trans ((h ho b).2 hb)

/-- The count of an object is right, and so is that of one without a reference if it is 0. -/
theorem counts_addRef (h : c.Counts refs) (ha : a ∈ refs ∨ c.count a = 0) : (c.addRef a).Counts (a ::ₘ refs) := by
  intro ho b
  obtain ⟨ho', hwrap⟩ : c.overflowed = false ∧ c.count a + 1 ≠ 0 := by
    simpa [addRef] using ho
  have hcount : c.count a = BitVec.ofNat w (refs.count a) := by
    by_cases hmem : a ∈ refs
    · exact (h ho' a).2 hmem
    · rw [Multiset.count_eq_zero.mpr hmem]
      exact ha.resolve_left hmem
  by_cases hb : b = a
  · subst hb
    have hlt := (h ho' b).1
    have hsucc : c.count b + 1 = BitVec.ofNat w (refs.count b + 1) := by
      rw [hcount]
      exact (BitVec.ofNat_add ..).symm
    have hne : refs.count b + 1 ≠ 2 ^ w := by
      intro he
      apply hwrap
      rw [hsucc, he]
      apply BitVec.eq_of_toNat_eq
      rw [BitVec.toNat_ofNat, Nat.mod_self]
      exact BitVec.toNat_zero.symm
    refine ⟨by rw [Multiset.count_cons_self]; omega, fun _ => ?_⟩
    rw [Multiset.count_cons_self, ← hsucc]
    exact Function.update_self ..
  · rw [Multiset.count_cons_of_ne hb]
    refine ⟨(h ho' b).1, fun hmem => ?_⟩
    rw [Multiset.mem_cons] at hmem
    exact (Function.update_of_ne hb ..).trans ((h ho' b).2 (hmem.resolve_left hb))

theorem counts_release (h : c.Counts (a ::ₘ refs)) : (c.release a).1.Counts refs := by
  intro ho b
  have hlt := (h ho b).1
  refine ⟨Nat.lt_of_le_of_lt (Multiset.count_le_count_cons b a refs) hlt, fun hmem => ?_⟩
  have hcount := (h ho b).2 (Multiset.mem_cons_of_mem hmem)
  by_cases hb : b = a
  · subst hb
    rw [Multiset.count_cons_self, BitVec.ofNat_add] at hcount
    refine (Function.update_self ..).trans ?_
    rw [hcount]
    exact BitVec.add_sub_cancel ..
  · rw [Multiset.count_cons_of_ne hb] at hcount
    exact (Function.update_of_ne hb ..).trans hcount

/-- A release says that it was the last one if no reference is left. -/
theorem release_last (h : c.Counts (a ::ₘ refs)) (ho : c.overflowed = false) (hw : 0 < w) :
    (c.release a).2 = true ↔ a ∉ refs := by
  have hnat := h.toNat ho (Multiset.mem_cons_self a refs)
  rw [Multiset.count_cons_self] at hnat
  have hone : (1 : BitVec w).toNat = 1 := by
    have := Nat.one_lt_two_pow (Nat.ne_of_gt hw)
    simp [Nat.mod_eq_of_lt this]
  rw [release, decide_eq_true_eq, ← Multiset.count_eq_zero, ← BitVec.toNat_inj, hnat, hone]
  omega

end RefCounts

end Taps.Lib
