import Mathlib.Data.List.Basic
import Mathlib.Data.List.Induction

/-!
# Traces of a deterministic machine

A machine has one successor for a state and a label.  A trace is the list of the
labels so far; facts about the past of a state are facts about the prefixes of
its trace, and they are proved by appending one label at a time.
-/

namespace OhanaAgent.Transition

universe u v

variable {σ : Type u} {ι : Type v} {next : σ → ι → σ} {start : σ} {P Q : σ → ι → Prop}
  {labels : List ι} {label : ι}

/-- A position in an extended trace is the last one, or one of the trace. -/
theorem concat_eq_split_iff {earlier later : List ι} {last : ι} :
    labels ++ [last] = earlier ++ label :: later ↔
      (labels = earlier ∧ last = label ∧ later = []) ∨
        ∃ rest, later = rest ++ [last] ∧ labels = earlier ++ label :: rest := by
  constructor
  · intro equal
    rcases List.eq_nil_or_concat' later with rfl | ⟨rest, other, rfl⟩
    · obtain ⟨same, one⟩ := List.append_inj' equal rfl
      exact Or.inl ⟨same, List.singleton_inj.mp one, rfl⟩
    · rw [← List.cons_append, ← List.append_assoc] at equal
      obtain ⟨same, one⟩ := List.append_inj' equal rfl
      exact Or.inr ⟨rest, by rw [List.singleton_inj.mp one], same⟩
  · rintro (⟨rfl, rfl, rfl⟩ | ⟨rest, rfl, rfl⟩)
    · rfl
    · simp

/-- Of two positions of a trace, the one whose label does not return after the
other comes first. -/
theorem split_of_not_mem {earlier later before after : List ι} {other : ι}
    (same : earlier ++ label :: later = before ++ other :: after) (different : label ≠ other)
    (absent : label ∉ after) : ∃ between, later = between ++ other :: after := by
  rcases List.append_eq_append_iff.mp same with ⟨between, _, rest⟩ | ⟨between, _, rest⟩
  · cases between with
    | nil =>
        rw [List.nil_append, List.cons.injEq] at rest
        exact absurd rest.1 different
    | cons first between =>
        rw [List.cons_append, List.cons.injEq] at rest
        exact ⟨between, rest.2⟩
  · cases between with
    | nil =>
        rw [List.nil_append, List.cons.injEq] at rest
        exact absurd rest.1.symm different
    | cons first between =>
        rw [List.cons_append, List.cons.injEq] at rest
        exact absurd (rest.2 ▸ List.mem_append_right between List.mem_cons_self) absent

/-- The last position of a trace with a property is the only one. -/
theorem eq_of_last_split {R : ι → Prop} {earlier later before after : List ι} {other : ι}
    (same : earlier ++ label :: later = before ++ other :: after) (holds : R label)
    (otherHolds : R other) (last : ∀ next ∈ later, ¬ R next) (otherLast : ∀ next ∈ after, ¬ R next) :
    label = other ∧ later = after := by
  rcases List.append_eq_append_iff.mp same with ⟨between, _, rest⟩ | ⟨between, _, rest⟩
  · cases between with
    | nil => simpa using rest
    | cons first between =>
        rw [List.cons_append, List.cons.injEq] at rest
        exact absurd otherHolds (last other (rest.2 ▸ List.mem_append_right _ List.mem_cons_self))
  · cases between with
    | nil => simpa [eq_comm] using rest
    | cons first between =>
        rw [List.cons_append, List.cons.injEq] at rest
        exact absurd holds (otherLast label (rest.2 ▸ List.mem_append_right _ List.mem_cons_self))

/-- The state at the end of a trace. -/
def reached (next : σ → ι → σ) (start : σ) (labels : List ι) : σ :=
  labels.foldl next start

@[simp]
theorem reached_nil : reached next start [] = start := rfl

@[simp]
theorem reached_concat : reached next start (labels ++ [label]) =
    next (reached next start labels) label :=
  List.foldl_append

/-- A step with a property was taken. -/
def Happened (next : σ → ι → σ) (start : σ) (P : σ → ι → Prop) (labels : List ι) : Prop :=
  ∃ earlier label later, labels = earlier ++ label :: later ∧ P (reached next start earlier) label

theorem happened_concat_iff : Happened next start P (labels ++ [label]) ↔
    Happened next start P labels ∨ P (reached next start labels) label := by
  constructor
  · rintro ⟨earlier, taken, later, equal, holds⟩
    rcases concat_eq_split_iff.mp equal with ⟨rfl, rfl, _⟩ | ⟨rest, _, rfl⟩
    · exact Or.inr holds
    · exact Or.inl ⟨earlier, taken, rest, rfl, holds⟩
  · rintro (⟨earlier, taken, later, rfl, holds⟩ | holds)
    · exact ⟨earlier, taken, later ++ [label], by simp, holds⟩
    · exact ⟨labels, label, [], rfl, holds⟩

/-- A property of traces and their states that every appended label keeps. -/
theorem trace_induction {I : List ι → σ → Prop} (base : I [] start)
    (keeps : ∀ labels label, I labels (reached next start labels) →
      I (labels ++ [label]) (next (reached next start labels) label)) (labels : List ι) :
    I labels (reached next start labels) := by
  induction labels using List.reverseRecOn with
  | nil => exact base
  | append_singleton labels label ih =>
      rw [reached_concat]
      exact keeps labels label ih

/-- A property of states that the good steps keep and the other steps break
holds all along a trace exactly when all of its steps are good. -/
theorem always_iff {I : σ → Prop} (base : I start)
    (keeps : ∀ earlier label, I (reached next start earlier) →
      P (reached next start earlier) label → I (next (reached next start earlier) label))
    (breaks : ∀ earlier label, I (reached next start earlier) →
      ¬ P (reached next start earlier) label → ¬ I (next (reached next start earlier) label))
    (labels : List ι) :
    (∀ earlier later, labels = earlier ++ later → I (reached next start earlier)) ↔
      ∀ earlier label later, labels = earlier ++ label :: later →
        P (reached next start earlier) label := by
  constructor
  · intro holds earlier label later equal
    by_contra bad
    refine breaks earlier label (holds earlier _ equal) bad ?_
    have after := holds (earlier ++ [label]) later (by simp [equal])
    rwa [reached_concat] at after
  · intro good earlier
    induction earlier using List.reverseRecOn with
    | nil => exact fun _ _ => base
    | append_singleton earlier label ih =>
        intro later equal
        have split : labels = earlier ++ label :: later := by simpa using equal
        rw [reached_concat]
        exact keeps earlier label (ih _ split) (good earlier label later split)

end OhanaAgent.Transition
