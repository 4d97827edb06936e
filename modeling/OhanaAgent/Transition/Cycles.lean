import Mathlib.Data.Set.Finite.Basic
import Mathlib.Logic.Relation
import Mathlib.Order.WellFounded

/-!
# Cycles of a relation

A relation that leads no element back to itself.  On finitely many elements every
path of such a relation ends, so a relation that always leads on has a cycle.
-/

namespace OhanaAgent.Transition

universe u v

variable {α : Type u} {β : Type v} {r : α → α → Prop}

/-- No element leads back to itself. -/
def Acyclic (r : α → α → Prop) : Prop :=
  ∀ element, ¬ Relation.TransGen r element element

/-- A relation along which a rank decreases is acyclic. -/
theorem acyclic_of_rank (rank : α → Nat)
    (decreases : ∀ source target, r source target → rank target < rank source) : Acyclic r := by
  have ranked : ∀ {source target}, Relation.TransGen r source target →
      rank target < rank source := by
    intro source target path
    induction path with
    | single taken => exact decreases _ _ taken
    | tail _ taken ih => exact (decreases _ _ taken).trans ih
  intro element cycle
  exact lt_irrefl _ (ranked cycle)

/-- Every path of an acyclic relation on finitely many elements ends. -/
theorem Acyclic.exists_last [Finite α] (acyclic : Acyclic r) (start : α) :
    ∃ last, Relation.ReflTransGen r start last ∧ ∀ next, ¬ r last next := by
  have : IsTrans α fun later earlier => Relation.TransGen r earlier later :=
    ⟨fun _ _ _ second first => first.trans second⟩
  have : Std.Irrefl fun later earlier : α => Relation.TransGen r earlier later :=
    ⟨acyclic⟩
  have founded : WellFounded fun later earlier : α => Relation.TransGen r earlier later :=
    Finite.wellFounded_of_trans_of_irrefl _
  induction start using founded.induction with
  | _ start ih =>
    by_cases more : ∃ next, r start next
    · obtain ⟨next, taken⟩ := more
      obtain ⟨last, path, ends⟩ := ih next (.single taken)
      exact ⟨last, .head taken path, ends⟩
    · exact ⟨start, .refl, not_exists.mp more⟩

/-- On finitely many elements a relation that always leads on has a cycle. -/
theorem exists_cycle [Finite α] [Nonempty α] (leads : ∀ element, ∃ next, r element next) :
    ∃ element, Relation.TransGen r element element := by
  by_contra none
  obtain ⟨last, _, ends⟩ :=
    Acyclic.exists_last (not_exists.mp none) (Classical.arbitrary α)
  obtain ⟨next, taken⟩ := leads last
  exact ends next taken

/-- A list whose elements all lead on inside the list has a cycle. -/
theorem exists_cycle_of_mem {members : List α} (inhabited : members ≠ [])
    (leads : ∀ element ∈ members, ∃ next ∈ members, r element next) :
    ∃ element ∈ members, Relation.TransGen r element element := by
  obtain ⟨first, member⟩ := List.exists_mem_of_ne_nil members inhabited
  have : Nonempty {element // element ∈ members} := ⟨⟨first, member⟩⟩
  have : Finite {element // element ∈ members} := members.finite_toSet.to_subtype
  obtain ⟨⟨element, inside⟩, cycle⟩ :=
    exists_cycle (r := fun source target : {element // element ∈ members} =>
      r source.1 target.1) fun ⟨element, inside⟩ => by
        obtain ⟨next, known, taken⟩ := leads element inside
        exact ⟨⟨next, known⟩, taken⟩
  exact ⟨element, inside, cycle.lift Subtype.val fun _ _ taken => taken⟩

end OhanaAgent.Transition
