import Mathlib.Data.List.Sort

/-!
# The newest elements

An element is among the newest ones of a list when few others have a greater key.
In a list that is sorted by the key these are the last ones, and an element that is
among the newest ones of a list is among those of any part of it.
-/

namespace OhanaAgent.Store

universe u v

variable {α : Type u} {β : Type v} {count : Nat} {list part : List α} {element first : α}

/-- The last elements of a list, all of them when there are fewer. -/
def lastOnes (count : Nat) (list : List α) : List α :=
  list.drop (list.length - count)

/-- Keeping the last ones after each append keeps the last ones of the whole. -/
theorem lastOnes_lastOnes_append (count : Nat) (list : List α) (last : α) :
    lastOnes count (lastOnes count list ++ [last]) = lastOnes count (list ++ [last]) := by
  rcases Nat.le_total list.length count with few | many
  · rw [lastOnes, lastOnes, Nat.sub_eq_zero_of_le few, List.drop_zero]
    rfl
  · have whole : lastOnes count list ++ [last] = (list ++ [last]).drop (list.length - count) := by
      rw [lastOnes, List.drop_append_of_le_length (Nat.sub_le _ _)]
    have size : (lastOnes count list ++ [last]).length - count = 1 := by
      simp only [lastOnes, List.length_append, List.length_drop, List.length_singleton]
      omega
    have place : list.length - count + 1 = (list ++ [last]).length - count := by
      rw [List.length_append, List.length_singleton]
      omega
    rw [lastOnes, size, whole, List.drop_drop, place, ← lastOnes]

/-- An element with fewer elements after it is one of the last ones. -/
theorem mem_lastOnes_of_few {count : Nat} {before after : List α} {element : α}
    (few : after.length < count) : element ∈ lastOnes count (before ++ element :: after) := by
  have within : (before ++ element :: after).length - count ≤ before.length := by
    rw [List.length_append, List.length_cons]
    omega
  rw [lastOnes, List.drop_append_of_le_length within]
  exact List.mem_append_right _ List.mem_cons_self

theorem lastOnes_cons (count : Nat) (first : α) (rest : List α) :
    lastOnes count (first :: rest) =
      if rest.length < count then first :: rest else lastOnes count rest := by
  unfold lastOnes
  by_cases few : rest.length < count
  · have none' : (first :: rest).length - count = 0 := by
      rw [List.length_cons]
      omega
    rw [if_pos few, none', List.drop_zero]
  · have more : (first :: rest).length - count = rest.length - count + 1 := by
      rw [List.length_cons]
      omega
    rw [if_neg few, more, List.drop_succ_cons]

variable [LinearOrder β] {key : α → β}

/-- Fewer than a number of elements have a greater key. -/
def Newest (key : α → β) (count : Nat) (list : List α) (element : α) : Prop :=
  element ∈ list ∧ (list.countP fun other => key element < key other) < count

instance [DecidableEq α] (key : α → β) (count : Nat) (list : List α) (element : α) :
    Decidable (Newest key count list element) :=
  inferInstanceAs (Decidable (_ ∧ _))

/-- The smallest keys first. -/
def sortedBy (key : α → β) (list : List α) : List α :=
  list.insertionSort fun one other => key one ≤ key other

theorem perm_sortedBy (key : α → β) (list : List α) : (sortedBy key list).Perm list :=
  List.perm_insertionSort _ _

theorem mem_sortedBy_iff : element ∈ sortedBy key list ↔ element ∈ list :=
  (perm_sortedBy key list).mem_iff

theorem pairwise_le_sortedBy (key : α → β) (list : List α) :
    (sortedBy key list).Pairwise fun one other => key one ≤ key other := by
  have total : Std.Total fun one other : α => key one ≤ key other :=
    ⟨fun one other => le_total (key one) (key other)⟩
  have transitive : IsTrans α fun one other => key one ≤ key other :=
    ⟨fun _ _ _ left right => left.trans right⟩
  exact List.pairwise_insertionSort _ list

/-- The last element of a sorted list has the greatest key. -/
theorem greatest_of_getLast? (last : (sortedBy key list).getLast? = some element) :
    element ∈ list ∧ ∀ other ∈ list, key other ≤ key element := by
  rcases List.getLast?_eq_some_iff.mp last with ⟨front, whole⟩
  have sorted := pairwise_le_sortedBy key list
  have same := perm_sortedBy key list
  rw [whole] at sorted same
  rw [List.pairwise_append] at sorted
  constructor
  · exact same.mem_iff.mp (List.mem_append_right front List.mem_cons_self)
  · intro other inside
    rcases List.mem_append.mp (same.mem_iff.mpr inside) with earlier | here
    · exact sorted.2.2 other earlier element List.mem_cons_self
    · rw [List.mem_singleton.mp here]

/-- Distinct keys increase in a sorted list. -/
theorem pairwise_sortedBy (distinct : (list.map key).Nodup) :
    (sortedBy key list).Pairwise fun one other => key one < key other := by
  have sorted := pairwise_le_sortedBy key list
  have different : (sortedBy key list).Pairwise fun one other => key one ≠ key other := by
    rw [← List.pairwise_map (R := (· ≠ ·))]
    exact ((perm_sortedBy key list).map key).nodup_iff.mpr distinct
  exact (sorted.and different).imp fun both => lt_of_le_of_ne both.1 both.2

/-- The last elements of a sorted list are the newest ones. -/
theorem mem_lastOnes_iff (sorted : list.Pairwise fun one other => key one < key other) :
    element ∈ lastOnes count list ↔ Newest key count list element := by
  induction list with
  | nil => simp [lastOnes, Newest]
  | cons first rest inductionHypothesis =>
      rw [List.pairwise_cons] at sorted
      have all : (rest.countP fun other => key first < key other) = rest.length :=
        List.countP_eq_length.mpr fun other inside => decide_eq_true (sorted.1 other inside)
      rw [lastOnes_cons, Newest, List.countP_cons]
      by_cases few : rest.length < count
      · rw [if_pos few, iff_self_and]
        intro inside
        rcases List.mem_cons.mp inside with rfl | later
        · simpa [all] using few
        · have older : ¬ key element < key first := (sorted.1 element later).not_gt
          have bound := List.countP_le_length (p := fun other => key element < key other) (l := rest)
          simpa [older] using bound.trans_lt few
      · rw [if_neg few, inductionHypothesis sorted.2, Newest, List.mem_cons]
        constructor
        · rintro ⟨later, newer⟩
          have older : ¬ key element < key first := (sorted.1 element later).not_gt
          exact ⟨Or.inr later, by simpa [older] using newer⟩
        · rintro ⟨rfl | later, newer⟩
          · simp [all, few] at newer
          · have older : ¬ key element < key first := (sorted.1 element later).not_gt
            exact ⟨later, by simpa [older] using newer⟩

/-- An element with the greatest key is among the newest ones. -/
theorem newest_of_greatest (inside : element ∈ list)
    (greatest : ∀ other ∈ list, key other ≤ key element) (some' : 0 < count) :
    Newest key count list element := by
  refine ⟨inside, ?_⟩
  rw [List.countP_eq_zero.mpr]
  · exact some'
  · intro other listed
    rw [decide_eq_true_eq]
    exact (greatest other listed).not_gt

/-- What is among the newest ones of a list is so in a part of it. -/
theorem Newest.of_subperm (newest : Newest key count list element) (inside : element ∈ part)
    (fewer : part.Subperm list) : Newest key count part element :=
  ⟨inside, (fewer.countP_le _).trans_lt newest.2⟩

theorem Newest.of_perm (newest : Newest key count list element) (same : list.Perm part) :
    Newest key count part element :=
  newest.of_subperm (same.mem_iff.mp newest.1) same.symm.subperm

end OhanaAgent.Store
