import Mathlib.Data.List.Basic

/-!
# Machines with outputs

A deterministic component that answers each event with outputs. Two machines that agree event by event agree over
whole runs.
-/

namespace Taps.Lib

structure Machine (S E O : Type*) where
  step : S → E → S × List O

namespace Machine

variable {S S' E E' O : Type*}

/-- The last state, and the outputs in their order. -/
def run (M : Machine S E O) : S → List E → S × List O
  | s, [] => (s, [])
  | s, e :: es => ((run M (M.step s e).1 es).1, (M.step s e).2 ++ (run M (M.step s e).1 es).2)

variable {M : Machine S E O} {M' : Machine S' E' O} {f : S → S'} {g : E → E'}

/-- The simulation rule, on the states that an invariant of the machine allows. -/
theorem run_simulates_of {I : S → Prop} (hI : ∀ s e, I s → I (M.step s e).1)
    (h : ∀ s e, I s → M'.step (f s) (g e) = (f (M.step s e).1, (M.step s e).2)) {s : S} (hs : I s) (es : List E) :
    M'.run (f s) (es.map g) = (f (M.run s es).1, (M.run s es).2) := by
  induction es generalizing s with
  | nil => rfl
  | cons e es ih => simp only [List.map_cons, run, h s e hs, ih (hI s e hs)]

theorem run_simulates (h : ∀ s e, M'.step (f s) (g e) = (f (M.step s e).1, (M.step s e).2)) (s : S) (es : List E) :
    M'.run (f s) (es.map g) = (f (M.run s es).1, (M.run s es).2) :=
  run_simulates_of (I := fun _ => True) (fun _ _ _ => trivial) (fun s e _ => h s e) trivial es

/-- The rule for what relates a state to the last one of a run and to its outputs. -/
theorem run_relates {R : S → List O → S → Prop} (hrefl : ∀ s, R s [] s)
    (hstep : ∀ s e os s', R (M.step s e).1 os s' → R s ((M.step s e).2 ++ os) s') (s : S) (es : List E) :
    R s (M.run s es).2 (M.run s es).1 := by
  induction es generalizing s with
  | nil => exact hrefl s
  | cons e es ih => exact hstep s e _ _ (ih _)

end Machine

/-! ## Objects that a program numbers

The objects are in a list, in the order the program got them; it adds a new one, copies one or changes one.
-/

variable {α β : Type*} {P : α → Prop} {l : List α}

theorem forall_mem_concat {a : α} (h : ∀ x ∈ l, P x) (ha : P a) : ∀ x ∈ l ++ [a], P x :=
  List.forall_mem_append.mpr ⟨h, List.forall_mem_singleton.mpr ha⟩

theorem forall_mem_copy (h : ∀ x ∈ l, P x) (i : Nat) : ∀ x ∈ l ++ l[i]?.toList, P x := by
  refine List.forall_mem_append.mpr ⟨h, fun x hx => ?_⟩
  exact h x (List.mem_of_getElem? (Option.mem_toList.mp hx))

theorem forall_mem_modify {f : α → α} (h : ∀ x ∈ l, P x) (hf : ∀ x ∈ l, P (f x)) (i : Nat) :
    ∀ x ∈ l.modify i f, P x := by
  intro x hx
  obtain ⟨j, hj, rfl⟩ := List.mem_iff_getElem.mp hx
  rw [List.length_modify] at hj
  rw [List.getElem_modify]
  split
  · exact hf _ (List.getElem_mem hj)
  · exact h _ (List.getElem_mem hj)

theorem map_modify {f : α → α} {g : α → β} {k : β → β} (h : ∀ x ∈ l, g (f x) = k (g x)) (i : Nat) :
    (l.modify i f).map g = (l.map g).modify i k := by
  refine List.ext_getElem? fun j => ?_
  simp only [List.getElem?_map, List.getElem?_modify]
  cases hj : l[j]? with
  | none => simp
  | some x => by_cases hij : i = j <;> simp [hij, h x (List.mem_of_getElem? hj)]

end Taps.Lib
