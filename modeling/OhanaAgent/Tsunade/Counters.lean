import OhanaAgent.Store.Sums
import OhanaAgent.Tsunade.Experiences

/-!
# What repairs contribute to experiences

A repair contributes to the experience it refers to: an attempt since it was
executed, and an outcome once it succeeded or failed.  Every operation on the
store is balanced: the counters of an experience move by what the contributions
to it move.
-/

namespace OhanaAgent.Tsunade

open OhanaAgent.Encoding.Json
open OhanaAgent.Store
open OhanaAgent.Time

/-! ## Counters -/

/-- The three counters of an experience. -/
@[ext]
structure Counters where
  attempts : Nat
  successes : Nat
  failures : Nat
  deriving DecidableEq

namespace Counters

instance : Zero Counters := ⟨⟨0, 0, 0⟩⟩

instance : Add Counters :=
  ⟨fun first second => ⟨first.attempts + second.attempts, first.successes + second.successes,
    first.failures + second.failures⟩⟩

@[simp] theorem attempts_zero : (0 : Counters).attempts = 0 := rfl
@[simp] theorem successes_zero : (0 : Counters).successes = 0 := rfl
@[simp] theorem failures_zero : (0 : Counters).failures = 0 := rfl

@[simp]
theorem attempts_add (first second : Counters) :
    (first + second).attempts = first.attempts + second.attempts := rfl

@[simp]
theorem successes_add (first second : Counters) :
    (first + second).successes = first.successes + second.successes := rfl

@[simp]
theorem failures_add (first second : Counters) :
    (first + second).failures = first.failures + second.failures := rfl

instance : AddCommMonoid Counters where
  add_assoc first second third := by ext <;> simp [Nat.add_assoc]
  zero_add counters := by ext <;> simp
  add_zero counters := by ext <;> simp
  add_comm first second := by ext <;> simp [Nat.add_comm]
  nsmul := nsmulRec

instance : IsRightCancelAdd Counters where
  add_right_cancel shared first second equal := by
    have attempts := congrArg Counters.attempts equal
    have successes := congrArg Counters.successes equal
    have failures := congrArg Counters.failures equal
    ext
    · exact Nat.add_right_cancel attempts
    · exact Nat.add_right_cancel successes
    · exact Nat.add_right_cancel failures

/-- Every outcome is that of an attempt. -/
def Consistent (counters : Counters) : Prop :=
  counters.successes + counters.failures ≤ counters.attempts

theorem consistent_zero : (0 : Counters).Consistent := Nat.le_refl 0

theorem Consistent.add {first second : Counters} (left : first.Consistent)
    (right : second.Consistent) : (first + second).Consistent := by
  unfold Consistent at left right ⊢
  simp only [attempts_add, successes_add, failures_add]
  omega

theorem Consistent.sum {counters : List Counters} (each : ∀ one ∈ counters, one.Consistent) :
    counters.sum.Consistent := by
  induction counters with
  | nil => exact consistent_zero
  | cons head tail ih =>
      rw [List.sum_cons]
      exact (each head List.mem_cons_self).add
        (ih fun one member => each one (List.mem_cons_of_mem _ member))

end Counters

/-! ## Contributions -/

/-- The counters of an experience. -/
def ExperienceRow.counters (row : ExperienceRow) : Counters :=
  ⟨row.attemptCount, row.successCount, row.failureCount⟩

namespace RepairStatus

/-- How the execution of a repair ended. -/
def outcome : RepairStatus → Option Bool
  | .succeeded => some true
  | .failed => some false
  | _ => none

/-- The repair was executed, or its execution failed. -/
def isExecuted : RepairStatus → Bool
  | .verifying | .succeeded | .failed | .unverified => true
  | _ => false

theorem eq_of_outcome {first second : RepairStatus} (decided : first.outcome.isSome = true)
    (same : second.outcome = first.outcome) : second = first := by
  revert decided same
  cases first <;> cases second <;> decide

end RepairStatus

namespace RepairRow

/-- What a repair contributes to an experience. -/
def contribution (experienceId : Text) (repair : RepairRow) : Counters :=
  if repair.experienceId = some experienceId then
    ⟨1, if repair.status.outcome = some true then 1 else 0,
      if repair.status.outcome = some false then 1 else 0⟩
  else 0

theorem contribution_of_ne {repair : RepairRow} {experienceId : Text}
    (other : repair.experienceId ≠ some experienceId) : repair.contribution experienceId = 0 :=
  if_neg other

theorem contribution_eq {repair : RepairRow} {experienceId : Text}
    (refers : repair.experienceId = some experienceId) : repair.contribution experienceId =
      ⟨1, if repair.status.outcome = some true then 1 else 0,
        if repair.status.outcome = some false then 1 else 0⟩ :=
  if_pos refers

/-- A repair contributes one attempt at most and one outcome at most. -/
theorem contribution_le (experienceId : Text) (repair : RepairRow) :
    (repair.contribution experienceId).attempts ≤ 1 ∧
      (repair.contribution experienceId).Consistent := by
  unfold contribution Counters.Consistent
  split
  · refine ⟨Nat.le_refl 1, ?_⟩
    cases repair.status <;> decide
  · exact ⟨Nat.zero_le 1, Nat.le_refl 0⟩

/-- A repair contributes to one experience only. -/
theorem contribution_unique {first second : Text} {repair : RepairRow}
    (one : repair.contribution first ≠ 0) (two : repair.contribution second ≠ 0) :
    first = second := by
  have refersFirst : repair.experienceId = some first := by
    by_contra other
    exact one (contribution_of_ne other)
  have refersSecond : repair.experienceId = some second := by
    by_contra other
    exact two (contribution_of_ne other)
  exact Option.some.inj (refersFirst.symm.trans refersSecond)

/-- An executed repair keeps its experience, and a decided outcome stays. -/
structure Follows (row next : RepairRow) : Prop where
  repairId : next.repairId = row.repairId
  executed : row.status.isExecuted = true →
    next.status.isExecuted = true ∧ next.experienceId = row.experienceId
  decided : row.status.outcome.isSome = true → next.status = row.status

theorem Follows.refl (row : RepairRow) : row.Follows row :=
  ⟨rfl, fun executed => ⟨executed, rfl⟩, fun _ => rfl⟩

theorem Follows.trans {first second third : RepairRow} (left : first.Follows second)
    (right : second.Follows third) : first.Follows third where
  repairId := right.repairId.trans left.repairId
  executed := by
    intro executed
    obtain ⟨middle, same⟩ := left.executed executed
    obtain ⟨last, also⟩ := right.executed middle
    exact ⟨last, also.trans same⟩
  decided := by
    intro decided
    have same := left.decided decided
    exact (right.decided (same ▸ decided)).trans same

end RepairRow

namespace Store

/-- What all repairs contribute to an experience. -/
def contributions (experienceId : Text) (store : Store) : Counters :=
  store.repairs.sumOf (RepairRow.contribution experienceId)

/-- The experience exists. -/
def Knows (experienceId : Text) (store : Store) : Prop :=
  ∃ row ∈ store.experiences, row.experienceId = experienceId

/-- A repair that refers to an experience was executed, and the experience
exists. -/
def Linked (store : Store) : Prop :=
  ∀ repair ∈ store.repairs, ∀ experienceId, repair.experienceId = some experienceId →
    repair.status.isExecuted = true ∧ store.Knows experienceId

end Store

/-! ## Balanced changes -/

/-- An experience and its successor, with what moves the counters. -/
def ExperienceRow.Moves (before after : Text → Counters) (row next : ExperienceRow) : Prop :=
  next.experienceId = row.experienceId ∧
    next.counters + before row.experienceId = row.counters + after row.experienceId

/-- The counters of the experiences move by what the contributions move, and the
repairs go on. -/
structure Balanced (before after : Store) : Prop where
  experiences : Table.Rewrites (ExperienceRow.Moves (fun id => before.contributions id)
    fun id => after.contributions id) before.experiences after.experiences
  repairs : ∀ row ∈ before.repairs, ∃ next ∈ after.repairs, row.Follows next

namespace Balanced

variable {first second third before after : Store}

theorem refl (store : Store) : Balanced store store :=
  ⟨Table.Rewrites.refl (fun _ => ⟨rfl, rfl⟩) _, fun row member => ⟨row, member, .refl row⟩⟩

theorem trans (left : Balanced first second) (right : Balanced second third) :
    Balanced first third where
  experiences := by
    refine left.experiences.comp right.experiences ?_
    rintro row middle next ⟨same, moved⟩ ⟨also, moves⟩
    refine ⟨also.trans same, ?_⟩
    rw [same] at moves
    apply add_right_cancel (b := second.contributions row.experienceId)
    calc next.counters + first.contributions row.experienceId +
          second.contributions row.experienceId
        = next.counters + second.contributions row.experienceId +
          first.contributions row.experienceId := by abel
      _ = middle.counters + first.contributions row.experienceId +
          third.contributions row.experienceId := by rw [moves]; abel
      _ = row.counters + third.contributions row.experienceId +
          second.contributions row.experienceId := by rw [moved]; abel
  repairs := by
    intro row member
    obtain ⟨middle, middleMem, follows⟩ := left.repairs row member
    obtain ⟨next, nextMem, also⟩ := right.repairs middle middleMem
    exact ⟨next, nextMem, follows.trans also⟩

/-- A change of other tables. -/
theorem of_same (experiences : after.experiences = before.experiences)
    (repairs : after.repairs = before.repairs) : Balanced before after where
  experiences := by
    refine Table.Rewrites.of_eq (fun row => ⟨rfl, ?_⟩) experiences
    show _ + before.repairs.sumOf _ = _ + after.repairs.sumOf _
    rw [repairs]
  repairs := fun row member => ⟨row, repairs ▸ member, .refl row⟩

theorem knows (balanced : Balanced before after) {experienceId : Text}
    (knows : before.Knows experienceId) : after.Knows experienceId := by
  obtain ⟨row, member, same⟩ := knows
  obtain ⟨next, nextMem, kept, _⟩ := balanced.experiences.target member
  exact ⟨next, nextMem, kept.trans same⟩

/-- One repair is rewritten, and the experiences with it. -/
theorem of_modify {repair : RepairRow} (member : repair ∈ before.repairs)
    {write : RepairRow → RepairRow} {keeps : ∀ row, (write row).repairId = row.repairId}
    (repairs : after.repairs = before.repairs.modify repair.repairId write keeps)
    (experiences : Table.Rewrites (ExperienceRow.Moves (fun id => repair.contribution id)
      fun id => (write repair).contribution id) before.experiences after.experiences)
    (follows : repair.Follows (write repair)) : Balanced before after where
  experiences := by
    refine experiences.mono ?_
    rintro row next _ _ ⟨same, moved⟩
    refine ⟨same, ?_⟩
    have moves := Table.sumOf_modify (RepairRow.contribution row.experienceId) member write keeps
    rw [← repairs] at moves
    apply add_right_cancel (b := repair.contribution row.experienceId)
    calc next.counters + before.contributions row.experienceId +
          repair.contribution row.experienceId
        = next.counters + repair.contribution row.experienceId +
          before.contributions row.experienceId := by abel
      _ = row.counters + (before.contributions row.experienceId +
          (write repair).contribution row.experienceId) := by rw [moved]; abel
      _ = row.counters + (after.contributions row.experienceId +
          repair.contribution row.experienceId) := congrArg _ moves.symm
      _ = row.counters + after.contributions row.experienceId +
          repair.contribution row.experienceId := by abel
  repairs := by
    intro row rowMem
    by_cases same : row.repairId = repair.repairId
    · obtain rfl := Table.key_injective rowMem member same
      exact ⟨write row, repairs ▸ Table.mem_modify.mpr (Or.inl ⟨row, member, rfl, rfl⟩), follows⟩
    · exact ⟨row, repairs ▸ Table.mem_modify.mpr (Or.inr ⟨rowMem, same⟩), .refl row⟩

end Balanced

end OhanaAgent.Tsunade
