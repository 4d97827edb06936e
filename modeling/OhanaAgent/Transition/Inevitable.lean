import Mathlib.Logic.Basic

/-!
# What is bound to happen

A machine takes one step for each label of a stream.  A property is inevitable
when every stream of allowed labels reaches it.  The rules compose such facts
stage by stage, without counting the steps.
-/

namespace OhanaAgent.Transition

universe u v

/-- A property that holds, or that every allowed step leads to. -/
inductive Inevitable {σ : Type u} {ι : Type v} (next : σ → ι → σ) (allowed : ι → Prop)
    (P : σ → Prop) : σ → Prop
  | here {state : σ} (holds : P state) : Inevitable next allowed P state
  | step {state : σ} (later : ∀ label, allowed label →
      Inevitable next allowed P (next state label)) : Inevitable next allowed P state

namespace Inevitable

variable {σ : Type u} {ι : Type v} {next : σ → ι → σ} {allowed : ι → Prop} {P Q : σ → Prop}
  {state : σ}

/-- What follows from an inevitable property is inevitable. -/
theorem trans (first : Inevitable next allowed P state)
    (second : ∀ state, P state → Inevitable next allowed Q state) :
    Inevitable next allowed Q state := by
  induction first with
  | here holds => exact second _ holds
  | step _ ih => exact .step ih

/-- Every stream of allowed labels reaches an inevitable property. -/
theorem stream (inevitable : Inevitable next allowed P state) (labels : Nat → ι)
    (allows : ∀ index, allowed (labels index)) :
    ∃ count, P (((List.range count).map labels).foldl next state) := by
  induction inevitable generalizing labels with
  | here holds => exact ⟨0, holds⟩
  | step later ih =>
      rcases ih (labels 0) (allows 0) (fun index => labels (index + 1))
        (fun index => allows (index + 1)) with ⟨count, holds⟩
      refine ⟨count + 1, ?_⟩
      rw [List.range_succ_eq_map, List.map_cons, List.foldl_cons, List.map_map]
      exact holds

end Inevitable

end OhanaAgent.Transition
