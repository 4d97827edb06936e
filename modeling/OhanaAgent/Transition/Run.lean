import Mathlib.Logic.Basic

/-!
# Labelled runs

A run of a labelled transition relation, with the list of its labels.  A
property that holds at the start and that every step keeps holds at the end of
every run; conditions on the steps of a run are conditions of the relation.
-/

namespace OhanaAgent.Transition

universe u v

/-- A run from one state to another through a list of labels. -/
inductive Run {σ : Type u} {ι : Type v} (step : σ → ι → σ → Prop) : σ → List ι → σ → Prop
  | nil (state : σ) : Run step state [] state
  | cons {source middle target : σ} {label : ι} {labels : List ι}
      (first : step source label middle) (rest : Run step middle labels target) :
      Run step source (label :: labels) target

namespace Run

variable {σ : Type u} {ι : Type v} {step : σ → ι → σ → Prop}

theorem single {source target : σ} {label : ι} (taken : step source label target) :
    Run step source [label] target :=
  .cons taken (.nil target)

theorem append {source middle target : σ} {first second : List ι}
    (left : Run step source first middle) (right : Run step middle second target) :
    Run step source (first ++ second) target := by
  induction left with
  | nil state => exact right
  | cons taken _ ih => exact .cons taken (ih right)

/-- A run splits where its labels split. -/
theorem split {source target : σ} {first second : List ι}
    (run : Run step source (first ++ second) target) :
    ∃ middle, Run step source first middle ∧ Run step middle second target := by
  induction first generalizing source with
  | nil => exact ⟨source, .nil source, run⟩
  | cons label first ih =>
      cases run with
      | cons taken rest =>
          obtain ⟨middle, left, right⟩ := ih rest
          exact ⟨middle, .cons taken left, right⟩

/-- The run of a function whose steps are all taken. -/
theorem foldl {next : σ → ι → σ} {labels : List ι} {source : σ}
    (taken : ∀ index (inside : index < labels.length),
      step ((labels.take index).foldl next source) (labels.get ⟨index, inside⟩)
        (next ((labels.take index).foldl next source) (labels.get ⟨index, inside⟩))) :
    Run step source labels (labels.foldl next source) := by
  induction labels generalizing source with
  | nil => exact .nil source
  | cons label rest inductionHypothesis =>
      apply Run.cons (taken 0 (Nat.zero_lt_succ rest.length))
      apply inductionHypothesis
      intro index inside
      exact taken (index + 1) (Nat.succ_lt_succ inside)

/-- An invariant of the steps holds at the end of every run. -/
theorem invariant {P : σ → Prop} (preserved : ∀ {source label target}, P source →
    step source label target → P target) {source target : σ} {labels : List ι}
    (run : Run step source labels target) (start : P source) : P target := by
  induction run with
  | nil state => exact start
  | cons taken _ ih => exact ih (preserved start taken)

/-- A reflexive and transitive relation that every step satisfies relates the
ends of every run; the steps may assume an invariant. -/
theorem related {P : σ → Prop} {R : σ → σ → Prop} (refl : ∀ state, R state state)
    (trans : ∀ {first second third}, R first second → R second third → R first third)
    (kept : ∀ {source label target}, P source → step source label target →
      P target ∧ R source target)
    {source target : σ} {labels : List ι} (run : Run step source labels target)
    (start : P source) : P target ∧ R source target := by
  induction run with
  | nil state => exact ⟨start, refl state⟩
  | cons taken _ ih =>
      obtain ⟨middle, first⟩ := kept start taken
      obtain ⟨finish, rest⟩ := ih middle
      exact ⟨finish, trans first rest⟩

/-- A run of a smaller relation is a run of a larger one. -/
theorem mono {other : σ → ι → σ → Prop} (weaker : ∀ {source label target},
    step source label target → other source label target) {source target : σ}
    {labels : List ι} (run : Run step source labels target) : Run other source labels target := by
  induction run with
  | nil state => exact .nil state
  | cons taken _ ih => exact .cons (weaker taken) ih

end Run

end OhanaAgent.Transition
