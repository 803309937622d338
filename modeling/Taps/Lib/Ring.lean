import Mathlib.Data.List.Basic

/-!
# A queue in circular storage

A ring has a bounded number of slots, of which `count` from `head` on are occupied, wrapping at the
end. The bounds are part of the type, so an operation that would break them asks for a proof that it
does not. What an operation does is stated on `contents`, the queue from its oldest element on.
-/

namespace Taps.Lib

/-- The slot that is `i` after the slot `head` of `size`. -/
def wrap (size head i : Nat) : Nat := (head + i) % size

structure Ring (α : Type*) where
  slots : List (Option α)
  head : Nat
  count : Nat
  count_le : count ≤ slots.length
  head_lt : 0 < slots.length → head < slots.length
  occupied : ∀ i < count, (slots[wrap slots.length head i]?).join.isSome

/-! ## Wrapping -/

theorem wrap_eq {size head i : Nat} (hh : head < size) (hi : i ≤ size) :
    wrap size head i = if head + i < size then head + i else head + i - size := by
  unfold wrap
  split
  · rename_i h
    exact Nat.mod_eq_of_lt h
  · rw [Nat.mod_eq_sub_mod (by omega), Nat.mod_eq_of_lt (by omega)]

theorem wrap_lt {size : Nat} (h : 0 < size) (head i : Nat) : wrap size head i < size :=
  Nat.mod_lt _ h

theorem wrap_zero {size head : Nat} (h : head < size) : wrap size head 0 = head :=
  Nat.mod_eq_of_lt h

theorem wrap_wrap (size head i j : Nat) :
    wrap size (wrap size head i) j = wrap size head (i + j) := by
  simp only [wrap, Nat.mod_add_mod, Nat.add_assoc]

theorem wrap_inj {size head i j : Nat} (hh : head < size) (hi : i < size) (hj : j < size)
    (h : wrap size head i = wrap size head j) : i = j := by
  rw [wrap_eq hh (by omega), wrap_eq hh (by omega)] at h
  split at h <;> split at h <;> omega

namespace Ring

variable {α : Type*}

def slot (r : Ring α) (i : Nat) : Option α := (r.slots[wrap r.slots.length r.head i]?).join

/-- The queued elements, the oldest one first. -/
def contents (r : Ring α) : List α := (List.range r.count).filterMap r.slot

/-! ## Operations -/

def empty : Ring α where
  slots := []
  head := 0
  count := 0
  count_le := Nat.le_refl _
  head_lt h := h
  occupied := nofun

theorem size_pos {r : Ring α} (h : 0 < r.count) : 0 < r.slots.length :=
  Nat.lt_of_lt_of_le h r.count_le

def push (r : Ring α) (a : α) (h : r.count < r.slots.length) : Ring α where
  slots := r.slots.set (wrap r.slots.length r.head r.count) (some a)
  head := r.head
  count := r.count + 1
  count_le := by
    rw [List.length_set]
    exact h
  head_lt := by simpa using r.head_lt
  occupied := by
    intro i hi
    have hhead : r.head < r.slots.length := r.head_lt (by omega)
    rw [List.length_set, List.getElem?_set]
    split
    · have hw := wrap_lt (show 0 < r.slots.length by omega) r.head r.count
      simp [hw]
    · rename_i hne
      have hi' : i ≠ r.count := fun he => hne (by rw [he])
      exact r.occupied i (by omega)

def pop (r : Ring α) (h : 0 < r.count) : α × Ring α where
  fst := (r.slots[r.head]?).join.get (by
    have h0 := r.occupied 0 h
    rwa [wrap_zero (r.head_lt (size_pos h))] at h0)
  snd :=
    { slots := r.slots.set r.head none
      head := wrap r.slots.length r.head 1
      count := r.count - 1
      count_le := by
        have := r.count_le
        rw [List.length_set]
        omega
      head_lt := fun hs => by
        rw [List.length_set] at hs ⊢
        exact wrap_lt hs r.head 1
      occupied := by
        intro i hi
        have hhead : r.head < r.slots.length := r.head_lt (size_pos h)
        have hcount := r.count_le
        rw [List.length_set, wrap_wrap, List.getElem?_set_ne]
        · exact r.occupied (1 + i) (by omega)
        · intro he
          rw [← wrap_zero hhead, wrap_wrap] at he
          have := wrap_inj hhead (by omega) (by omega) he
          omega }

/-- Moves the queue to the first of `n` new slots. -/
def resize (r : Ring α) (n : Nat) (h : r.count ≤ n) : Ring α where
  slots := (List.range n).map fun i => if i < r.count then r.slot i else none
  head := 0
  count := r.count
  count_le := by simpa using h
  head_lt h := h
  occupied := by
    intro i hi
    have hw : wrap n 0 i = i := by rw [wrap, Nat.zero_add, Nat.mod_eq_of_lt (by omega)]
    have hn : i < n := by omega
    simpa [hw, hn, hi, slot] using r.occupied i hi

/-! ## What the operations do to the queue -/

theorem slot_isSome (r : Ring α) {i : Nat} (h : i < r.count) : (r.slot i).isSome := r.occupied i h

/-- The queue is the list whose elements are, in order, those of the occupied slots. -/
theorem contents_eq_of {r : Ring α} {q : List α} (hlen : q.length = r.count)
    (h : ∀ i < r.count, r.slot i = q[i]?) : r.contents = q := by
  have hq : ∀ n ≤ q.length, (List.range n).filterMap r.slot = q.take n := by
    intro n hn
    induction n with
    | zero => rfl
    | succ n ih =>
        have hs : r.slot n = some q[n] := by rw [h n (by omega), List.getElem?_eq_getElem]
        rw [List.range_succ, List.filterMap_append, ih (by omega), List.take_add_one]
        simp [hs, List.getElem?_eq_getElem (show n < q.length by omega)]
  rw [contents, ← hlen, hq _ (Nat.le_refl _), List.take_length]

theorem slot_eq_getElem? (r : Ring α) {i : Nat} (h : i < r.count) :
    r.slot i = r.contents[i]? := by
  have hq : r.contents = (List.range r.count).attach.map fun i =>
      (r.slot i.1).get (r.slot_isSome (List.mem_range.mp i.2)) :=
    contents_eq_of (by simp) fun j hj => by simp [hj]
  rw [hq]
  simp [h]

@[simp] theorem length_contents (r : Ring α) : r.contents.length = r.count := by
  rw [contents, List.length_filterMap_eq_countP, List.countP_eq_length.mpr, List.length_range]
  intro i hi
  exact r.slot_isSome (List.mem_range.mp hi)

@[simp] theorem contents_push (r : Ring α) (a : α) (h : r.count < r.slots.length) :
    (r.push a h).contents = r.contents ++ [a] := by
  refine contents_eq_of (by simp [push]) fun i hi => ?_
  have hhead : r.head < r.slots.length := r.head_lt (by omega)
  simp only [push, slot, List.length_set, List.getElem?_set] at hi ⊢
  split
  · rename_i he
    have : r.count = i := wrap_inj hhead h (by omega) he
    subst this
    have hw := wrap_lt (show 0 < r.slots.length by omega) r.head r.count
    simp [hw]
  · rename_i hne
    have hi' : i ≠ r.count := fun he => hne (by rw [he])
    rw [List.getElem?_append_left (by rw [length_contents]; omega)]
    exact r.slot_eq_getElem? (by omega)

theorem contents_pop (r : Ring α) (h : 0 < r.count) :
    r.contents = (r.pop h).1 :: (r.pop h).2.contents := by
  have hhead : r.head < r.slots.length := r.head_lt (size_pos h)
  have hcount := r.count_le
  obtain ⟨a, q, hq⟩ : ∃ a q, r.contents = a :: q :=
    List.exists_cons_of_length_pos (by rwa [length_contents])
  have hlen : q.length + 1 = r.count := by rw [← r.length_contents, hq, List.length_cons]
  have hfst : (r.pop h).1 = a := by
    have h0 := r.slot_eq_getElem? h
    rw [slot, wrap_zero hhead, hq] at h0
    simp [pop, h0]
  have hsnd : (r.pop h).2.contents = q := by
    refine contents_eq_of (by simp only [pop]; omega) fun i hi => ?_
    simp only [pop] at hi
    have hne : r.head ≠ wrap r.slots.length r.head (1 + i) := by
      intro he
      have := wrap_inj hhead (by omega) (by omega) ((wrap_zero hhead).trans he)
      omega
    have h1 := r.slot_eq_getElem? (show 1 + i < r.count by omega)
    rw [hq, Nat.add_comm 1 i, List.getElem?_cons_succ] at h1
    rw [← h1, Nat.add_comm i 1]
    simp only [pop, slot, List.length_set, wrap_wrap, List.getElem?_set_ne hne]
  rw [hq, hfst, hsnd]

@[simp] theorem contents_resize (r : Ring α) (n : Nat) (h : r.count ≤ n) :
    (r.resize n h).contents = r.contents := by
  refine contents_eq_of (by simp [resize]) fun i hi => ?_
  have hi' : i < r.count := hi
  have hn : i < n := by omega
  have hw : wrap n 0 i = i := by rw [wrap, Nat.zero_add, Nat.mod_eq_of_lt hn]
  rw [← r.slot_eq_getElem? hi']
  simp [resize, slot, hw, hn, hi']

end Ring

end Taps.Lib
