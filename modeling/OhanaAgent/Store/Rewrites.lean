import OhanaAgent.Store.Table
import Mathlib.Data.List.Forall2

/-!
# Row-wise rewriting of tables

One table rewrites another when their rows correspond in order under a relation
that keeps the key.  A row of either table has exactly one counterpart, so what
the relation says of a pair of rows is a fact about the two rows of a key.
-/

namespace OhanaAgent.Store

universe u v

namespace Table

variable {α : Type u} {κ : Type v} {key : α → κ}

/-- Corresponding rows that agree on a condition are counted alike. -/
theorem countP_of_forall₂ {R : α → α → Prop} {condition : α → Bool} {first second : List α}
    (related : List.Forall₂ R first second)
    (agree : ∀ {one two}, R one two → condition two = condition one) :
    second.countP condition = first.countP condition := by
  induction related with
  | nil => rfl
  | cons head _ ih => rw [List.countP_cons, List.countP_cons, ih, agree head]

/-- Corresponding rows of which the later one meets a condition only when the
earlier one does. -/
theorem countP_le_of_forall₂ {R : α → α → Prop} {condition : α → Bool} {first second : List α}
    (related : List.Forall₂ R first second)
    (earlier : ∀ {one two}, R one two → condition two = true → condition one = true) :
    second.countP condition ≤ first.countP condition := by
  induction related with
  | nil => exact Nat.le_refl _
  | @cons one two _ _ head _ ih =>
      rw [List.countP_cons, List.countP_cons]
      cases met : condition two with
      | false => exact (Nat.add_le_add ih (Nat.zero_le _))
      | true => simpa [earlier head met] using ih

/-- The rows of two tables correspond in order. -/
def Rewrites (R : α → α → Prop) (before after : Table α key) : Prop :=
  List.Forall₂ R before.rows after.rows

namespace Rewrites

variable {R S : α → α → Prop} {before middle after : Table α key}

theorem refl (reflexive : ∀ row, R row row) (table : Table α key) : Rewrites R table table :=
  List.forall₂_same.mpr fun row _ => reflexive row

theorem of_eq (reflexive : ∀ row, R row row) (equal : after = before) : Rewrites R before after :=
  equal ▸ refl reflexive before

/-- A weaker relation, which may use that the rows are rows of the tables. -/
theorem mono (rewrites : Rewrites R before after)
    (weaker : ∀ {first second}, first ∈ before → second ∈ after → R first second →
      S first second) : Rewrites S before after := by
  have rows : ∀ {first second : List α}, List.Forall₂ R first second →
      (∀ row ∈ first, row ∈ before) → (∀ row ∈ second, row ∈ after) → List.Forall₂ S first second := by
    intro first second related
    induction related with
    | nil => exact fun _ _ => .nil
    | cons head _ ih =>
        intro firstMem secondMem
        refine .cons (weaker (firstMem _ List.mem_cons_self) (secondMem _ List.mem_cons_self) head) ?_
        exact ih (fun row member => firstMem row (List.mem_cons_of_mem _ member))
          fun row member => secondMem row (List.mem_cons_of_mem _ member)
  exact rows rewrites (fun _ member => member) fun _ member => member

/-- Two rewritings compose. -/
theorem comp {T : α → α → Prop} (left : Rewrites R before middle)
    (right : Rewrites S middle after)
    (composed : ∀ {first second third}, R first second → S second third → T first third) :
    Rewrites T before after := by
  have rows : ∀ {first second third : List α}, List.Forall₂ R first second →
      List.Forall₂ S second third → List.Forall₂ T first third := by
    intro first second third leftRows
    induction leftRows generalizing third with
    | nil => intro rightRows; cases rightRows; exact .nil
    | cons head _ ih =>
        intro rightRows
        cases rightRows with
        | cons next rest => exact .cons (composed head next) (ih rest)
  exact rows left right

/-- Every row of the rewritten table comes from a row of the other. -/
theorem source (rewrites : Rewrites R before after) {row : α} (member : row ∈ after) :
    ∃ old ∈ before, R old row := by
  have found : ∀ {first second : List α}, List.Forall₂ R first second → row ∈ second →
      ∃ old ∈ first, R old row := by
    intro first second rows
    induction rows with
    | nil => intro inside; simp at inside
    | cons head _ ih =>
        intro inside
        rcases List.mem_cons.mp inside with rfl | inside
        · exact ⟨_, List.mem_cons_self, head⟩
        · obtain ⟨old, oldMem, related⟩ := ih inside
          exact ⟨old, List.mem_cons_of_mem _ oldMem, related⟩
  exact found rewrites member

/-- Every row goes to a row of the rewritten table. -/
theorem target (rewrites : Rewrites R before after) {row : α} (member : row ∈ before) :
    ∃ new ∈ after, R row new := by
  have flipped : Rewrites (fun first second => R second first) after before :=
    List.Forall₂.flip rewrites
  exact flipped.source member

theorem mapRows {f : α → α} (keeps : ∀ row, key (f row) = key row)
    (related : ∀ row ∈ before, R row (f row)) : Rewrites R before (before.mapRows f keeps) := by
  unfold Rewrites
  rw [rows_mapRows, List.forall₂_map_right_iff, List.forall₂_same]
  exact related

theorem modify [DecidableEq κ] {wanted : κ} {f : α → α} (keeps : ∀ row, key (f row) = key row)
    (same : ∀ row ∈ before, key row ≠ wanted → R row row)
    (related : ∀ row ∈ before, key row = wanted → R row (f row)) :
    Rewrites R before (before.modify wanted f keeps) := by
  refine mapRows _ fun row member => ?_
  split
  · rename_i equal
    exact related row member equal
  · rename_i different
    exact same row member different

/-- A cut of the rewritten table is a cut of the other. -/
theorem split (rewrites : Rewrites R before after) {earlier later : List α} {row : α}
    (cut : after.rows = earlier ++ row :: later) :
    ∃ first source rest, before.rows = first ++ source :: rest ∧ List.Forall₂ R first earlier ∧
      R source row := by
  have rows : ∀ {first second : List α} {earlier : List α}, List.Forall₂ R first second →
      second = earlier ++ row :: later → ∃ left source rest, first = left ++ source :: rest ∧
        List.Forall₂ R left earlier ∧ R source row := by
    intro first second earlier related
    induction earlier generalizing first second with
    | nil =>
        rintro rfl
        cases related with
        | cons head _ => exact ⟨[], _, _, rfl, .nil, head⟩
    | cons skipped earlier ih =>
        rintro rfl
        cases related with
        | cons head tail =>
            obtain ⟨left, source, rest, rfl, same, found⟩ := ih tail rfl
            exact ⟨_ :: left, source, rest, rfl, .cons head same, found⟩
  exact rows rewrites cut

/-- The row of a key is rewritten to the row of the same key. -/
theorem find? [DecidableEq κ] (keeps : ∀ {first second}, R first second → key second = key first)
    (rewrites : Rewrites R before after) {wanted : κ} {row : α}
    (found : before.find? wanted = some row) :
    ∃ new, after.find? wanted = some new ∧ R row new := by
  obtain ⟨member, same⟩ := find?_eq_some_iff.mp found
  obtain ⟨new, newMem, related⟩ := rewrites.target member
  exact ⟨new, find?_eq_some_iff.mpr ⟨newMem, (keeps related).trans same⟩, related⟩

end Rewrites

end Table

end OhanaAgent.Store
