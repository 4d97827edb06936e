import Mathlib.Data.List.Basic

/-!
# Elements with owners

The elements of a list that none of some owners owns.
-/

namespace OhanaAgent.Store

universe u v

variable {α : Type u} {κ : Type v} {owns : κ → α → Bool} {owners : List κ} {elements : List α}

/-- The elements that no listed owner owns. -/
def without (owns : κ → α → Bool) (owners : List κ) (elements : List α) : List α :=
  elements.filter fun element => !owners.any fun owner => owns owner element

@[simp]
theorem without_nil (elements : List α) : without owns [] elements = elements := by
  unfold without
  simp

/-- Removing what one more owner owns. -/
theorem filter_without (owner : κ) (owners : List κ) (elements : List α) :
    (without owns owners elements).filter (fun element => !owns owner element) =
      without owns (owner :: owners) elements := by
  unfold without
  rw [List.filter_filter]
  apply List.filter_congr
  intro element _
  rw [List.any_cons, Bool.not_or]

/-- Only which owners are listed matters. -/
theorem without_congr {others : List κ} (same : ∀ owner, owner ∈ owners ↔ owner ∈ others) :
    without owns owners elements = without owns others elements := by
  unfold without
  apply List.filter_congr
  intro element _
  congr 1
  rw [Bool.eq_iff_iff, List.any_eq_true, List.any_eq_true]
  constructor
  · rintro ⟨owner, listed, owned⟩
    exact ⟨owner, (same owner).mp listed, owned⟩
  · rintro ⟨owner, listed, owned⟩
    exact ⟨owner, (same owner).mpr listed, owned⟩

end OhanaAgent.Store
