import Mathlib.Data.List.Destutter
import Mathlib.Data.List.Nodup

/-!
# Equal elements together

Dropping the elements that equal their predecessor leaves no element twice
exactly when equal elements stand together in the list.
-/

namespace OhanaAgent.Store

universe u

variable {α : Type u}

/-- No element comes back after another one. -/
def Grouped (list : List α) : Prop :=
  ∀ first second, [first, second, first].Sublist list → first = second

theorem Grouped.sublist {list part : List α} (grouped : Grouped list) (inside : part.Sublist list) :
    Grouped part :=
  fun first second found => grouped first second (found.trans inside)

theorem grouped_singleton (first : α) : Grouped [first] := by
  intro other second found
  have short := found.length_le
  contradiction

/-- Repeating the first element changes nothing. -/
theorem grouped_cons_self {first : α} {rest : List α} :
    Grouped (first :: first :: rest) ↔ Grouped (first :: rest) := by
  constructor
  · intro grouped
    exact grouped.sublist (List.sublist_cons_self first _)
  · intro grouped other second found
    cases found with
    | cons _ inside => exact grouped other second inside
    | cons_cons _ inside =>
        cases inside with
        | cons _ inside => exact grouped first second (List.Sublist.cons_cons first inside)
        | cons_cons _ _ => rfl

/-- An element before a different one does not come back. -/
theorem grouped_cons_of_ne {first next : α} {rest : List α} (different : first ≠ next) :
    Grouped (first :: next :: rest) ↔ first ∉ next :: rest ∧ Grouped (next :: rest) := by
  constructor
  · intro grouped
    constructor
    · intro member
      rcases List.mem_cons.mp member with same | again
      · exact different same
      · exact different (grouped first next
          ((List.singleton_sublist.mpr again).cons_cons next |>.cons_cons first))
    · exact grouped.sublist (List.sublist_cons_self first _)
  · rintro ⟨absent, grouped⟩ other second found
    cases found with
    | cons _ inside => exact grouped other second inside
    | cons_cons _ inside =>
        have again : first ∈ next :: rest :=
          inside.subset (List.mem_cons_of_mem second List.mem_cons_self)
        exact absurd again absent

/-- A list in order is grouped. -/
theorem Grouped.of_pairwise [PartialOrder α] {list : List α}
    (ordered : list.Pairwise (· ≤ ·)) : Grouped list := by
  intro first second found
  have triple := ordered.sublist found
  simp only [List.pairwise_cons, List.mem_cons] at triple
  exact le_antisymm (triple.1 second (by simp)) (triple.2.1 first (by simp))

variable [DecidableEq α]

theorem mem_destutter'_iff {first other : α} {rest : List α} :
    other ∈ rest.destutter' (· ≠ ·) first ↔ other ∈ first :: rest := by
  induction rest generalizing first with
  | nil => simp
  | cons next rest inductionHypothesis =>
      by_cases same : first = next
      · subst same
        rw [List.destutter'_cons_neg _ (not_not_intro rfl), inductionHypothesis]
        simp
      · rw [List.destutter'_cons_pos _ same, List.mem_cons, inductionHypothesis, ← List.mem_cons]

/-- Dropping repetitions leaves no element twice exactly when equal elements
stand together. -/
theorem nodup_destutter'_iff {first : α} {rest : List α} :
    (rest.destutter' (· ≠ ·) first).Nodup ↔ Grouped (first :: rest) := by
  induction rest generalizing first with
  | nil => simp [grouped_singleton]
  | cons next rest inductionHypothesis =>
      by_cases same : first = next
      · subst same
        rw [List.destutter'_cons_neg _ (not_not_intro rfl), inductionHypothesis, grouped_cons_self]
      · rw [List.destutter'_cons_pos _ same, List.nodup_cons, mem_destutter'_iff,
          inductionHypothesis, grouped_cons_of_ne same]

theorem nodup_destutter_iff {list : List α} : (list.destutter (· ≠ ·)).Nodup ↔ Grouped list := by
  cases list with
  | nil => simp [Grouped]
  | cons first rest => exact nodup_destutter'_iff

end OhanaAgent.Store
