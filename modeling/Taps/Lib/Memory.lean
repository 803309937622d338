import Mathlib.Data.List.Basic
import Mathlib.Logic.Function.Basic

/-!
# Addressed memory

Objects at addresses, each a sequence of cells. A window is read as a list; what a write leaves
unchanged is stated cell by cell (`write_apply_of_not`) and carried to windows by `read_congr`.
-/

namespace Taps.Lib

/-- The cells of every object: by the object's address, then by the offset in it. -/
abbrev Memory (A β : Type*) := A → Nat → β

namespace Memory

variable {A β : Type*}

/-- The `len` cells of the object at `a` from offset `off` on. -/
def read (m : Memory A β) (a : A) (off len : Nat) : List β := (List.range' off len).map (m a)

/-- Writes `bs` into the object at `a` from offset `off` on. -/
def write [DecidableEq A] (m : Memory A β) (a : A) (off : Nat) (bs : List β) : Memory A β :=
  fun a' i => if a' = a ∧ off ≤ i then (bs[i - off]?).getD (m a' i) else m a' i

/-- Replaces the object at `a` as a whole. -/
def fill [DecidableEq A] (m : Memory A β) (a : A) (cells : Nat → β) : Memory A β :=
  Function.update m a cells

/-! ## Reading -/

@[simp] theorem length_read (m : Memory A β) (a : A) (off len : Nat) :
    (m.read a off len).length = len := by
  simp [read]

@[simp] theorem read_zero (m : Memory A β) (a : A) (off : Nat) : m.read a off 0 = [] := rfl

theorem read_append (m : Memory A β) (a : A) (off k n : Nat) :
    m.read a off k ++ m.read a (off + k) n = m.read a off (k + n) := by
  simp only [read, ← List.map_append, List.range'_append_1]

theorem take_read (m : Memory A β) (a : A) (off len k : Nat) :
    (m.read a off len).take k = m.read a off (min k len) := by
  simp only [read, ← List.map_take]
  rcases Nat.le_total k len with h | h
  · rw [List.take_range'_of_length_ge h, Nat.min_eq_left h]
  · rw [List.take_range'_of_length_le h, Nat.min_eq_right h]

theorem drop_read (m : Memory A β) (a : A) (off len k : Nat) :
    (m.read a off len).drop k = m.read a (off + k) (len - k) := by
  simp only [read, ← List.map_drop, List.drop_range', Nat.mul_one]

theorem read_congr {m m' : Memory A β} {a : A} {off len : Nat}
    (h : ∀ i, off ≤ i → i < off + len → m' a i = m a i) : m'.read a off len = m.read a off len := by
  simp only [read]
  refine List.map_congr_left fun i hi => ?_
  rw [List.mem_range'_1] at hi
  exact h i hi.1 hi.2

/-! ## Writing -/

variable [DecidableEq A]

theorem write_apply_of_not {m : Memory A β} {a b : A} {off i : Nat} {bs : List β}
    (h : b = a → i < off) : m.write a off bs b i = m b i := by
  unfold write
  split
  · rename_i hc
    exact absurd (h hc.1) (by omega)
  · rfl

@[simp] theorem write_nil (m : Memory A β) (a : A) (off : Nat) : m.write a off [] = m := by
  funext b i
  simp [write]

theorem fill_apply_of_ne {m : Memory A β} {a b : A} {cells : Nat → β} {i : Nat} (h : b ≠ a) :
    m.fill a cells b i = m b i := by
  simp [fill, h]

theorem read_write_self (m : Memory A β) (a : A) (off : Nat) (bs : List β) :
    (m.write a off bs).read a off bs.length = bs := by
  refine List.ext_getElem (by simp) fun i h₁ h₂ => ?_
  simp [read, write, h₂]

end Memory

/-! ## Buffers -/

/-- Copies `bs` into the buffer `dst` from offset `off` on. -/
def overwrite {β : Type*} (dst : List β) (off : Nat) (bs : List β) : List β :=
  dst.take off ++ bs ++ dst.drop (off + bs.length)

/-- Copies the pieces into the buffer one behind the other, and gives the offset behind the last one too. -/
def copyAll {β : Type*} : List (List β) → List β → Nat → List β × Nat
  | [], dst, off => (dst, off)
  | piece :: pieces, dst, off => copyAll pieces (overwrite dst off piece) (off + piece.length)

section

variable {β : Type*} {dst bs : List β} {off : Nat}

@[simp] theorem overwrite_nil (dst : List β) (off : Nat) : overwrite dst off [] = dst := by
  simp [overwrite]

theorem overwrite_zero (dst bs : List β) : overwrite dst 0 bs = bs ++ dst.drop bs.length := by
  simp [overwrite]

theorem overwrite_full (h : bs.length = dst.length) : overwrite dst 0 bs = bs := by
  rw [overwrite_zero, List.drop_of_length_le (by omega), List.append_nil]

theorem length_overwrite (h : off + bs.length ≤ dst.length) : (overwrite dst off bs).length = dst.length := by
  simp only [overwrite, List.length_append, List.length_take, List.length_drop]
  omega

/-- Two copies, the second one behind the first. -/
theorem overwrite_append (h : off ≤ dst.length) (cs : List β) :
    overwrite (overwrite dst off bs) (off + bs.length) cs = overwrite dst off (bs ++ cs) := by
  have hlen : (dst.take off ++ bs).length = off + bs.length := by
    rw [List.length_append, List.length_take, Nat.min_eq_left h]
  have htake : (overwrite dst off bs).take (off + bs.length) = dst.take off ++ bs := by
    rw [overwrite, List.take_append_of_le_length (by omega), List.take_of_length_le (by omega)]
  have hdrop : (overwrite dst off bs).drop (off + bs.length + cs.length)
      = dst.drop (off + (bs ++ cs).length) := by
    have hgone : (dst.take off ++ bs).drop (off + bs.length + cs.length) = [] :=
      List.drop_of_length_le (by omega)
    rw [overwrite, List.drop_append, hgone, hlen, List.nil_append, List.drop_drop, List.length_append]
    congr 1
    omega
  rw [overwrite, htake, hdrop, overwrite, List.append_assoc (dst.take off)]

/-- The pieces are copied as one. The induction is on the pieces. -/
theorem copyAll_eq (pieces : List (List β)) : ∀ (dst : List β) (off : Nat),
    off + pieces.flatten.length ≤ dst.length →
      copyAll pieces dst off = (overwrite dst off pieces.flatten, off + pieces.flatten.length) := by
  induction pieces with
  | nil => simp [copyAll]
  | cons piece pieces ih =>
      intro dst off hfits
      rw [List.flatten_cons, List.length_append, ← Nat.add_assoc] at hfits ⊢
      rw [copyAll, ih _ _ (by rw [length_overwrite (by omega)]; omega), overwrite_append (by omega)]

end

end Taps.Lib
