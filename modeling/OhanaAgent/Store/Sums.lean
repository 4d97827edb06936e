import OhanaAgent.Store.Rewrites
import Mathlib.Algebra.BigOperators.Group.List.Basic
import Mathlib.Tactic.Abel

/-!
# Sums over the rows of a table

Each row contributes to a sum.  The sum follows a rewriting that keeps the
contributions, the rewriting of one row and the insertion of a row.
-/

namespace OhanaAgent.Store

universe u v w

namespace Table

variable {α : Type u} {κ : Type v} {M : Type w} {key : α → κ} [AddCommMonoid M]

/-- The sum of the contributions of all rows. -/
def sumOf (contribution : α → M) (table : Table α key) : M :=
  (table.rows.map contribution).sum

@[simp]
theorem sumOf_empty (contribution : α → M) : (∅ : Table α key).sumOf contribution = 0 := rfl

/-- Rows that contribute nothing. -/
theorem sumOf_eq_zero {contribution : α → M} {table : Table α key}
    (nothing : ∀ row ∈ table, contribution row = 0) : table.sumOf contribution = 0 := by
  apply List.sum_eq_zero
  intro value member
  obtain ⟨row, rowMem, rfl⟩ := List.mem_map.mp member
  exact nothing row rowMem

/-- Corresponding rows contribute alike. -/
theorem Rewrites.sumOf {R : α → α → Prop} {contribution : α → M} {before after : Table α key}
    (rewrites : Rewrites R before after)
    (alike : ∀ {row next}, R row next → contribution next = contribution row) :
    after.sumOf contribution = before.sumOf contribution := by
  have rows : ∀ {first second : List α}, List.Forall₂ R first second →
      second.map contribution = first.map contribution := by
    intro first second related
    induction related with
    | nil => rfl
    | cons head _ ih => rw [List.map_cons, List.map_cons, ih, alike head]
  exact congrArg List.sum (rows rewrites)

theorem sumOf_insert? [DecidableEq κ] {contribution : α → M} {table after : Table α key} {row : α}
    (inserted : table.insert? row = some after) :
    after.sumOf contribution = table.sumOf contribution + contribution row := by
  rw [sumOf, (insert?_eq_some_iff.mp inserted).2, List.map_append, List.sum_append]
  simp [sumOf]

/-- Rewriting one row replaces its contribution. -/
theorem sumOf_modify [DecidableEq κ] (contribution : α → M) {table : Table α key} {row : α}
    (member : row ∈ table) (f : α → α) (keeps : ∀ row, key (f row) = key row) :
    (table.modify (key row) f keeps).sumOf contribution + contribution row =
      table.sumOf contribution + contribution (f row) := by
  obtain ⟨before, after, split⟩ := List.append_of_mem (mem_def.mp member)
  have distinct := table.distinct
  rw [split, List.map_append, List.map_cons, List.nodup_append'] at distinct
  obtain ⟨_, later, apart⟩ := distinct
  have kept : ∀ rows : List α, (∀ other ∈ rows, key other ≠ key row) →
      (rows.map fun other => if key other = key row then f other else other) = rows := by
    intro rows different
    conv_rhs => rw [← List.map_id rows]
    exact List.map_congr_left fun other inside => if_neg (different other inside)
  have earlier : ∀ other ∈ before, key other ≠ key row := fun other inside same =>
    apart (List.mem_map_of_mem inside) (same ▸ List.mem_cons_self)
  have rest : ∀ other ∈ after, key other ≠ key row := fun other inside same =>
    (List.nodup_cons.mp later).1 (same ▸ List.mem_map_of_mem inside)
  rw [sumOf, sumOf, rows_modify, split, List.map_append, List.map_cons, if_pos rfl,
    kept before earlier, kept after rest]
  simp only [List.map_append, List.map_cons, List.sum_append, List.sum_cons]
  abel

/-- Two rewritings of one row compose. -/
theorem modify_modify [DecidableEq κ] (table : Table α key) (wanted : κ) (f g : α → α)
    (first : ∀ row, key (f row) = key row) (second : ∀ row, key (g row) = key row) :
    (table.modify wanted f first).modify wanted g second =
      table.modify wanted (fun row => g (f row)) fun row => (second (f row)).trans (first row) := by
  apply Table.ext
  rw [rows_modify, rows_modify, rows_modify, List.map_map]
  apply List.map_congr_left
  intro row _
  by_cases same : key row = wanted
  · simp [same, first]
  · simp [same]

end Table

end OhanaAgent.Store
