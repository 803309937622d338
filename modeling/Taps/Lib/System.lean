import Mathlib.Logic.Relation

/-!
# Labelled transition systems

A component that runs step by step: where its runs start and what one labelled step does. The rules
below turn what one step preserves into what a run preserves.
-/

namespace Taps.Lib

structure System (S E : Type*) where
  init : S → Prop
  step : S → E → S → Prop

namespace System

variable {S E : Type*} {T : System S E}

/-- A run: the steps with the labels `es`, in order, lead from the first state to the last. -/
inductive Run (T : System S E) : S → List E → S → Prop
  | refl {s} : Run T s [] s
  | step {s s' s'' e es} : T.step s e s' → Run T s' es s'' → Run T s (e :: es) s''

/-- A state that some run from an initial state ends in. -/
def Reachable (T : System S E) (s : S) : Prop := ∃ s₀ es, T.init s₀ ∧ T.Run s₀ es s

def restrict (T : System S E) (G : S → E → S → Prop) : System S E where
  init := T.init
  step s e s' := T.step s e s' ∧ G s e s'

/-! ## Runs -/

theorem Run.append {s s' s'' : S} {es fs : List E} (h : T.Run s es s') (h' : T.Run s' fs s'') :
    T.Run s (es ++ fs) s'' := by
  induction h with
  | refl => exact h'
  | step hst _ ih => exact .step hst (ih h')

theorem Run.mono {T' : System S E} (hT : ∀ s e s', T.step s e s' → T'.step s e s') {s s' : S}
    {es : List E} (h : T.Run s es s') : T'.Run s es s' := by
  induction h with
  | refl => exact .refl
  | step hst _ ih => exact .step (hT _ _ _ hst) ih

theorem Run.of_restrict {G : S → E → S → Prop} {s s' : S} {es : List E} (h : (T.restrict G).Run s es s') :
    T.Run s es s' :=
  h.mono fun _ _ _ => And.left

/-- Where a function computes the steps, folding it over the labels computes a run. -/
theorem Run.of_foldlM {f : S → E → Option S} {es : List E}
    (hf : ∀ e ∈ es, ∀ s s', f s e = some s' → T.step s e s') {s s' : S}
    (h : es.foldlM f s = some s') : T.Run s es s' := by
  induction es generalizing s with
  | nil =>
      cases h
      exact .refl
  | cons e es ih =>
      rw [List.foldlM_cons] at h
      obtain ⟨s₁, h₁, h⟩ := Option.bind_eq_some_iff.mp h
      exact .step (hf e (by simp) _ _ h₁) (ih (fun e' he => hf e' (by simp [he])) h)

theorem Run.preserves {I : S → Prop} (hI : ∀ s e s', I s → T.step s e s' → I s') {s s' : S}
    {es : List E} (h : T.Run s es s') (hs : I s) : I s' := by
  induction h with
  | refl => exact hs
  | step hst _ ih => exact ih (hI _ _ _ hs hst)

/-- A relation that is reflexive, transitive and holds across every step that starts in a state with
the invariant `I` holds across a run. -/
theorem Run.relates {I : S → Prop} {R : S → S → Prop} (hI : ∀ s e s', I s → T.step s e s' → I s')
    (hrefl : ∀ s, R s s) (htrans : ∀ a b c, R a b → R b c → R a c)
    (hR : ∀ s e s', I s → T.step s e s' → R s s') {s s' : S} {es : List E} (h : T.Run s es s')
    (hs : I s) : R s s' := by
  induction h with
  | refl => exact hrefl _
  | step hst _ ih => exact htrans _ _ _ (hR _ _ _ hs hst) (ih (hI _ _ _ hs hst))

/-! ## Reachable states -/

theorem Reachable.run {s s' : S} {es : List E} (h : T.Reachable s) (hr : T.Run s es s') :
    T.Reachable s' := by
  obtain ⟨s₀, fs, h₀, hf⟩ := h
  exact ⟨s₀, fs ++ es, h₀, hf.append hr⟩

theorem Reachable.step {s s' : S} {e : E} (h : T.Reachable s) (hst : T.step s e s') : T.Reachable s' :=
  h.run (.step hst .refl)

theorem Reachable.of_restrict {G : S → E → S → Prop} {s : S} (h : (T.restrict G).Reachable s) :
    T.Reachable s := by
  obtain ⟨s₀, es, h₀, hr⟩ := h
  exact ⟨s₀, es, h₀, hr.of_restrict⟩

/-- The invariant rule: what holds initially and is kept by every step holds of every reachable
state. -/
theorem Reachable.invariant {I : S → Prop} (h₀ : ∀ s, T.init s → I s)
    (hI : ∀ s e s', I s → T.step s e s' → I s') {s : S} (h : T.Reachable s) : I s := by
  obtain ⟨s₀, es, hs₀, hr⟩ := h
  exact hr.preserves hI (h₀ _ hs₀)

/-! ## Simulations -/

/-- The simulation rule: where every step of a system from a state with the invariant `I` is answered by a run of
another one that restores the relation `R`, so is every run. -/
theorem Run.simulates {S' E' : Type*} {U : System S' E'} {I : S → Prop} {R : S → S' → Prop}
    (hI : ∀ s e s', I s → T.step s e s' → I s')
    (hR : ∀ s e s' t, I s → R s t → T.step s e s' → ∃ fs t', U.Run t fs t' ∧ R s' t') {s s' : S} {t : S'}
    {es : List E} (h : T.Run s es s') (hs : I s) (ht : R s t) : ∃ fs t', U.Run t fs t' ∧ R s' t' := by
  induction h generalizing t with
  | refl => exact ⟨[], t, .refl, ht⟩
  | step hst _ ih =>
      obtain ⟨fs, t', hfs, ht'⟩ := hR _ _ _ _ hs ht hst
      obtain ⟨gs, t'', hgs, ht''⟩ := ih (hI _ _ _ hs hst) ht'
      exact ⟨fs ++ gs, t'', hfs.append hgs, ht''⟩

end System

end Taps.Lib
