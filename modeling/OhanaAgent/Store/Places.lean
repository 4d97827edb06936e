import Mathlib.Data.List.Induction

/-!
# Elements and what is before them

A property of an element of a list and of the elements before it: where it
holds, and how often.
-/

namespace OhanaAgent.Store

universe u

variable {α : Type u} {holds first second : List α → α → Bool} {elements : List α}

/-- The number of elements that satisfy a property of what is before them. -/
def countFrom (holds : List α → α → Bool) : List α → List α → Nat
  | _, [] => 0
  | before, element :: rest =>
      (if holds before element then 1 else 0) + countFrom holds (before ++ [element]) rest

def countAt (holds : List α → α → Bool) (elements : List α) : Nat :=
  countFrom holds [] elements

theorem countFrom_concat (before elements : List α) (last : α) :
    countFrom holds before (elements ++ [last]) =
      countFrom holds before elements + if holds (before ++ elements) last then 1 else 0 := by
  induction elements generalizing before with
  | nil => simp [countFrom]
  | cons element rest inductionHypothesis =>
      rw [List.cons_append, countFrom, countFrom, inductionHypothesis, List.append_assoc,
        List.singleton_append, Nat.add_assoc]

theorem countAt_concat (elements : List α) (last : α) :
    countAt holds (elements ++ [last]) =
      countAt holds elements + if holds elements last then 1 else 0 :=
  countFrom_concat [] elements last

/-- The property holds at every place of a list. -/
def Everywhere (holds : List α → α → Prop) (elements : List α) : Prop :=
  ∀ before element after, elements = before ++ element :: after → holds before element

theorem everywhere_nil (holds : List α → α → Prop) : Everywhere holds [] := by
  intro before element after split
  simp at split

theorem everywhere_concat {holds : List α → α → Prop} {last : α} :
    Everywhere holds (elements ++ [last]) ↔ Everywhere holds elements ∧ holds elements last := by
  constructor
  · intro whole
    constructor
    · intro before element after split
      apply whole before element (after ++ [last])
      rw [split, List.append_assoc, List.cons_append]
    · exact whole elements last [] rfl
  · rintro ⟨earlier, ends⟩ before element after split
    rcases List.eq_nil_or_concat after with rfl | ⟨init, final, rfl⟩
    · rcases List.append_inj' split rfl with ⟨rfl, same⟩
      rw [← List.singleton_inj.mp same]
      exact ends
    · rw [List.concat_eq_append, ← List.cons_append, ← List.append_assoc] at split
      exact earlier before element init (List.append_inj' split rfl).1

/-- A relation to everything before relates every pair. -/
theorem everywhere_iff_pairwise {related : α → α → Prop} :
    Everywhere (fun before element => ∀ earlier ∈ before, related earlier element) elements ↔
      elements.Pairwise related := by
  induction elements using List.reverseRecOn with
  | nil => exact iff_of_true (everywhere_nil _) List.Pairwise.nil
  | append_singleton elements last inductionHypothesis =>
      rw [everywhere_concat, inductionHypothesis, List.pairwise_append]
      simp

theorem countAt_le (implied : Everywhere (fun before element =>
    first before element = true → second before element = true) elements) :
    countAt first elements ≤ countAt second elements := by
  induction elements using List.reverseRecOn with
  | nil => exact Nat.le_refl _
  | append_singleton elements last inductionHypothesis =>
      rw [everywhere_concat] at implied
      rw [countAt_concat, countAt_concat]
      have earlier := inductionHypothesis implied.1
      split
      · rename_i held
        rw [if_pos (implied.2 held)]
        omega
      · omega

/-- Of two properties, the stronger one is counted as often as the other exactly
when both hold at the same places. -/
theorem countAt_eq_iff (implied : Everywhere (fun before element =>
    first before element = true → second before element = true) elements) :
    countAt first elements = countAt second elements ↔ Everywhere (fun before element =>
      second before element = true → first before element = true) elements := by
  induction elements using List.reverseRecOn with
  | nil => exact iff_of_true rfl (everywhere_nil _)
  | append_singleton elements last inductionHypothesis =>
      rw [everywhere_concat] at implied ⊢
      rw [countAt_concat, countAt_concat, ← inductionHypothesis implied.1]
      have fewer := countAt_le implied.1
      by_cases held : first elements last = true
      · simp [held, implied.2 held]
      · by_cases other : second elements last = true
        · rw [if_neg held, if_pos other]
          constructor
          · intro same
            omega
          · rintro ⟨_, same⟩
            exact absurd (same other) held
        · simp [held, other]

end OhanaAgent.Store
