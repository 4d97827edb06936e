import Mathlib.Data.List.Sort

/-!
# Places in a stable sort

In a stable sort with the greatest measures first, an element comes after those
with a greater measure and after those with the same measure that came before it.
-/

namespace OhanaAgent.Store

universe u v

variable {α : Type u} {β : Type v} [LinearOrder β] {measure : α → β} {element first head : α}
  {list tail : List α}

/-- The greatest measures first. -/
def ranked (measure : α → β) (list : List α) : List α :=
  list.insertionSort fun one other => measure other ≤ measure one

/-- Insert an element before the first one whose measure is not greater. -/
def place (measure : α → β) (first : α) (list : List α) : List α :=
  list.orderedInsert (fun one other => measure other ≤ measure one) first

theorem place_cons_of_le (before : measure head ≤ measure first) :
    place measure first (head :: tail) = first :: head :: tail :=
  List.orderedInsert_cons_of_le (fun one other => measure other ≤ measure one) tail before

theorem place_cons_of_lt (after : measure first < measure head) :
    place measure first (head :: tail) = head :: place measure first tail :=
  List.orderedInsert_of_not_le (fun one other => measure other ≤ measure one) tail after.not_ge

theorem ranked_cons :
    ranked measure (first :: list) = place measure first (ranked measure list) := rfl

theorem perm_ranked (measure : α → β) (list : List α) : (ranked measure list).Perm list :=
  List.perm_insertionSort _ _

theorem mem_ranked_iff : element ∈ ranked measure list ↔ element ∈ list :=
  (perm_ranked measure list).mem_iff

theorem pairwise_ranked (measure : α → β) (list : List α) :
    (ranked measure list).Pairwise fun one other => measure other ≤ measure one := by
  have total : Std.Total fun one other : α => measure other ≤ measure one :=
    ⟨fun one other => le_total (measure other) (measure one)⟩
  have transitive : IsTrans α fun one other => measure other ≤ measure one :=
    ⟨fun _ _ _ left right => right.trans left⟩
  exact List.pairwise_insertionSort _ list

/-! ## Places -/

variable [DecidableEq α]

/-- The number of the elements that come before another one. -/
def rank (measure : α → β) (element : α) (list : List α) : Nat :=
  (list.countP fun other => measure element < measure other) +
    (list.takeWhile fun other => other ≠ element).countP fun other =>
      measure other = measure element

/-- An element is inserted after those with a greater measure. -/
theorem idxOf_place_self (sorted : list.Pairwise fun one other => measure other ≤ measure one)
    (fresh : first ∉ list) :
    (place measure first list).idxOf first =
      list.countP fun other => measure first < measure other := by
  induction list with
  | nil => simp [place]
  | cons head tail inductionHypothesis =>
      rw [List.mem_cons, not_or] at fresh
      rw [List.pairwise_cons] at sorted
      rcases le_or_gt (measure head) (measure first) with before | after
      · have none : (head :: tail).countP (fun other => measure first < measure other) = 0 := by
          rw [List.countP_eq_zero]
          intro other member
          rcases List.mem_cons.mp member with rfl | inside
          · simpa using before
          · simpa using (sorted.1 other inside).trans before
        rw [place_cons_of_le before, List.idxOf_cons_self, none]
      · rw [place_cons_of_lt after, List.idxOf_cons_ne _ (Ne.symm fresh.1),
          inductionHypothesis sorted.2 fresh.2, List.countP_cons, if_pos (decide_eq_true after)]

/-- An insertion moves the elements with the same or a smaller measure. -/
theorem idxOf_place_of_mem
    (sorted : list.Pairwise fun one other => measure other ≤ measure one)
    (different : first ≠ element) (member : element ∈ list) :
    (place measure first list).idxOf element =
      list.idxOf element + if measure element ≤ measure first then 1 else 0 := by
  induction list with
  | nil => cases member
  | cons head tail inductionHypothesis =>
      rw [List.pairwise_cons] at sorted
      rcases le_or_gt (measure head) (measure first) with before | after
      · have small : measure element ≤ measure first := by
          rcases List.mem_cons.mp member with rfl | inside
          · exact before
          · exact (sorted.1 element inside).trans before
        rw [place_cons_of_le before, List.idxOf_cons_ne _ different, if_pos small]
      · rw [place_cons_of_lt after]
        by_cases here : head = element
        · subst here
          rw [List.idxOf_cons_self, List.idxOf_cons_self, if_neg after.not_ge]
        · have inside := (List.mem_cons.mp member).resolve_left (Ne.symm here)
          rw [List.idxOf_cons_ne _ here, List.idxOf_cons_ne _ here,
            inductionHypothesis sorted.2 inside, Nat.succ_add]

theorem rank_cons_self : rank measure element (element :: list) =
    list.countP fun other => measure element < measure other := by
  simp [rank]

theorem rank_cons_of_ne (different : first ≠ element) :
    rank measure element (first :: list) =
      rank measure element list + if measure element ≤ measure first then 1 else 0 := by
  have kept : (first :: list).takeWhile (fun other => decide (other ≠ element)) =
      first :: list.takeWhile fun other => other ≠ element :=
    List.takeWhile_cons_of_pos (by simpa using different)
  rw [rank, rank, kept, List.countP_cons, List.countP_cons]
  rcases lt_trichotomy (measure element) (measure first) with less | same | more
  · simp [less, less.le, less.ne']
    omega
  · simp [same]
    omega
  · simp [more.ne, more.not_ge, more.not_gt]

/-- The place of an element is the number of those that come before it. -/
theorem idxOf_ranked (distinct : list.Nodup) (member : element ∈ list) :
    (ranked measure list).idxOf element = rank measure element list := by
  induction list with
  | nil => cases member
  | cons head tail inductionHypothesis =>
      rw [List.nodup_cons] at distinct
      rw [ranked_cons]
      by_cases here : head = element
      · subst here
        rw [idxOf_place_self (pairwise_ranked measure tail)
          (mem_ranked_iff.not.mpr distinct.1), rank_cons_self]
        exact (perm_ranked measure tail).countP_eq _
      · have inside := (List.mem_cons.mp member).resolve_left (Ne.symm here)
        rw [idxOf_place_of_mem (pairwise_ranked measure tail) here
          (mem_ranked_iff.mpr inside), inductionHypothesis distinct.2 inside,
          rank_cons_of_ne here]

/-- The elements among the first ones. -/
theorem mem_take_ranked_iff (distinct : list.Nodup) {count : Nat} :
    element ∈ (ranked measure list).take count ↔
      element ∈ list ∧ rank measure element list < count := by
  constructor
  · intro inside
    have member : element ∈ list := mem_ranked_iff.mp (List.mem_of_mem_take inside)
    rw [List.mem_take_iff_idxOf_lt (mem_ranked_iff.mpr member),
      idxOf_ranked distinct member] at inside
    exact ⟨member, inside⟩
  · rintro ⟨member, early⟩
    rw [List.mem_take_iff_idxOf_lt (mem_ranked_iff.mpr member), idxOf_ranked distinct member]
    exact early

/-- A renaming of the elements keeps their places. -/
theorem rank_map {γ : Type*} [DecidableEq γ] {measure : γ → β} {rename : α → γ}
    (injective : ∀ other ∈ list, rename other = rename element → other = element) :
    rank measure (rename element) (list.map rename) =
      rank (fun other => measure (rename other)) element list := by
  have same : list.takeWhile ((fun other => decide (other ≠ rename element)) ∘ rename) =
      list.takeWhile fun other => other ≠ element := by
    induction list with
    | nil => rfl
    | cons first tail inductionHypothesis =>
        have rest := inductionHypothesis fun other inside =>
          injective other (List.mem_cons_of_mem first inside)
        by_cases here : first = element
        · subst here
          rw [List.takeWhile_cons_of_neg (by simp), List.takeWhile_cons_of_neg (by simp)]
        · have apart : rename first ≠ rename element := fun equal =>
            here (injective first List.mem_cons_self equal)
          rw [List.takeWhile_cons_of_pos (by simpa using apart),
            List.takeWhile_cons_of_pos (by simpa using here), rest]
  rw [rank, rank, List.countP_map, List.takeWhile_map, List.countP_map, same]
  rfl

end OhanaAgent.Store
