import Mathlib.Logic.Function.Iterate
import Taps.Lib.Machine

/-!
# Forward iterators

A program copies the iterators of a range, moves them on, reads through them and compares them, each as often and
in any order as it likes. A range represents a list when no such program can tell its iterators from positions in
the list.
-/

namespace Taps.Lib

/-- The range of the iterators in `I`. `read` is `none` where there is nothing to read, at the end. -/
structure Iterators (I β : Type*) where
  first : I
  last : I
  next : I → I
  read : I → Option β
  equal : I → I → Bool

/-- What a program does with its iterators, which are numbered in the order it got them. -/
inductive IteratorOp
  | first
  | last
  | copy (i : Nat)
  | next (i : Nat)
  | read (i : Nat)
  | equal (i j : Nat)

inductive IteratorOutput (β : Type*)
  | item (b : β)
  | equal (answer : Bool)
  deriving DecidableEq, Repr

namespace Iterators

variable {I β : Type*}

/-- An iterator moves on only from where it can be read. -/
def advance (c : Iterators I β) (it : I) : I :=
  match c.read it with
  | some _ => c.next it
  | none => it

/-- The machine on the iterators that the program has. -/
def machine (c : Iterators I β) : Machine (List I) IteratorOp (IteratorOutput β) where
  step its
    | .first => (its ++ [c.first], [])
    | .last => (its ++ [c.last], [])
    | .copy i => (its ++ its[i]?.toList, [])
    | .next i => (its.modify i c.advance, [])
    | .read i => (its, ((its[i]?.bind c.read).map .item).toList)
    | .equal i j => (its, (its[i]?.bind fun a => its[j]?.map fun b => .equal (c.equal a b)).toList)

/-- The positions of a list. -/
def positions (xs : List β) : Iterators Nat β where
  first := 0
  last := xs.length
  next p := p + 1
  read p := xs[p]?
  equal p q := p == q

/-- The range represents `xs`: an iterator that meets `Inv` is at `pos`, its position. -/
structure Represents (c : Iterators I β) (xs : List β) (Inv : I → Prop) (pos : I → Nat) : Prop where
  first : Inv c.first ∧ pos c.first = 0
  last : Inv c.last ∧ pos c.last = xs.length
  next : ∀ it, Inv it → pos it < xs.length → Inv (c.next it) ∧ pos (c.next it) = pos it + 1
  read : ∀ it, Inv it → c.read it = xs[pos it]?
  equal : ∀ a b, Inv a → Inv b → c.equal a b = (pos a == pos b)

namespace Represents

variable {c : Iterators I β} {xs : List β} {Inv : I → Prop} {pos : I → Nat}

theorem advance (h : c.Represents xs Inv pos) {it : I} (hit : Inv it) :
    Inv (c.advance it) ∧ pos (c.advance it) = (positions xs).advance (pos it) := by
  simp only [Iterators.advance, positions, h.read it hit]
  cases hget : xs[pos it]? with
  | none => exact ⟨hit, rfl⟩
  | some b => exact h.next it hit (List.getElem?_eq_some_iff.mp hget).1

theorem iterate_next (h : c.Represents xs Inv pos) {k : Nat} (hk : k ≤ xs.length) :
    Inv (c.next^[k] c.first) ∧ pos (c.next^[k] c.first) = k := by
  induction k with
  | zero => exact h.first
  | succ k ih =>
      obtain ⟨hinv, hpos⟩ := ih (by omega)
      rw [Function.iterate_succ_apply']
      obtain ⟨hinv', hpos'⟩ := h.next _ hinv (by omega)
      exact ⟨hinv', by rw [hpos', hpos]⟩

theorem equal_iterate_next (h : c.Represents xs Inv pos) {j k : Nat} (hj : j ≤ xs.length) (hk : k ≤ xs.length) :
    c.equal (c.next^[j] c.first) (c.next^[k] c.first) = decide (j = k) := by
  obtain ⟨hinv, hpos⟩ := h.iterate_next hj
  obtain ⟨hinv', hpos'⟩ := h.iterate_next hk
  rw [h.equal _ _ hinv hinv', hpos, hpos']
  rfl

theorem equal_last (h : c.Represents xs Inv pos) {k : Nat} (hk : k ≤ xs.length) :
    c.equal (c.next^[k] c.first) c.last = decide (k = xs.length) := by
  obtain ⟨hinv, hpos⟩ := h.iterate_next hk
  rw [h.equal _ _ hinv h.last.1, hpos, h.last.2]
  rfl

/-- What a step does keeps the invariant of every iterator the program has. -/
theorem step_inv (h : c.Represents xs Inv pos) (its : List I) (op : IteratorOp) (hits : ∀ it ∈ its, Inv it) :
    ∀ it ∈ (c.machine.step its op).1, Inv it := by
  cases op with
  | first => exact forall_mem_concat hits h.first.1
  | last => exact forall_mem_concat hits h.last.1
  | copy i => exact forall_mem_copy hits i
  | next i => exact forall_mem_modify hits (fun it hit => (h.advance (hits it hit)).1) i
  | read i => exact hits
  | equal i j => exact hits

theorem step_eq (h : c.Represents xs Inv pos) (its : List I) (op : IteratorOp) (hits : ∀ it ∈ its, Inv it) :
    (positions xs).machine.step (its.map pos) op
      = ((c.machine.step its op).1.map pos, (c.machine.step its op).2) := by
  have hget : ∀ {i it}, its[i]? = some it → Inv it := fun hi => hits _ (List.mem_of_getElem? hi)
  cases op with
  | first => simp [machine, positions, h.first.2]
  | last => simp [machine, positions, h.last.2]
  | copy i => cases hi : its[i]? <;> simp [machine, hi]
  | next i =>
      have hnext := map_modify (fun it hit => (h.advance (hits it hit)).2) i
      exact Prod.ext hnext.symm rfl
  | read i =>
      cases hi : its[i]? with
      | none => simp [machine, hi]
      | some it => simp [machine, hi, positions, h.read it (hget hi)]
  | equal i j =>
      cases hi : its[i]? with
      | none => simp [machine, hi]
      | some a =>
          cases hj : its[j]? with
          | none => simp [machine, hi, hj]
          | some b => simp [machine, hi, hj, positions, h.equal a b (hget hi) (hget hj)]

/-- No program can tell the iterators from their positions. -/
theorem run (h : c.Represents xs Inv pos) (ops : List IteratorOp) :
    (positions xs).machine.run [] ops = ((c.machine.run [] ops).1.map pos, (c.machine.run [] ops).2) := by
  have hrun := Machine.run_simulates_of (g := id) (I := fun its => ∀ it ∈ its, Inv it) h.step_inv h.step_eq
    (s := []) (by simp) ops
  rwa [List.map_id] at hrun

end Represents

end Iterators

end Taps.Lib
