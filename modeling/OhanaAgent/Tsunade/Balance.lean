import OhanaAgent.Tsunade.Counters

/-!
# Every operation of the service is balanced

Most operations are steady: they touch no experience, and their repairs keep
what they contribute.  An execution counts the attempt of an unlinked repair, a
failed execution counts the failure with it, and an observation counts the
outcome of the repair it verifies.
-/

namespace OhanaAgent.Tsunade

open OhanaAgent.Encoding.Json
open OhanaAgent.Store
open OhanaAgent.Time

variable {env : Environment} {now : Int} {store : Store}

/-! ## Steady changes -/

/-- A repair keeps its experience, and whether and how its execution ended. -/
structure RepairRow.Steady (row next : RepairRow) : Prop where
  repairId : next.repairId = row.repairId
  experienceId : next.experienceId = row.experienceId
  executed : next.status.isExecuted = row.status.isExecuted
  outcome : next.status.outcome = row.status.outcome

namespace RepairRow.Steady

theorem refl (row : RepairRow) : row.Steady row :=
  ⟨rfl, rfl, rfl, rfl⟩

theorem trans {first second third : RepairRow} (left : first.Steady second)
    (right : second.Steady third) : first.Steady third :=
  ⟨right.repairId.trans left.repairId, right.experienceId.trans left.experienceId,
    right.executed.trans left.executed, right.outcome.trans left.outcome⟩

theorem contribution {row next : RepairRow} (steady : row.Steady next) (experienceId : Text) :
    next.contribution experienceId = row.contribution experienceId := by
  rw [RepairRow.contribution, RepairRow.contribution, steady.experienceId, steady.outcome]

theorem follows {row next : RepairRow} (steady : row.Steady next) : row.Follows next where
  repairId := steady.repairId
  executed := fun executed => ⟨steady.executed.trans executed, steady.experienceId⟩
  decided := fun decided => RepairStatus.eq_of_outcome decided steady.outcome

end RepairRow.Steady

/-- The experiences stay and the repairs are steady. -/
structure Steady (before after : Store) : Prop where
  experiences : after.experiences = before.experiences
  repairs : Table.Rewrites RepairRow.Steady before.repairs after.repairs

namespace Steady

variable {first second third before after : Store}

theorem of_same (experiences : after.experiences = before.experiences)
    (repairs : after.repairs = before.repairs) : Steady before after :=
  ⟨experiences, Table.Rewrites.of_eq RepairRow.Steady.refl repairs⟩

theorem refl (store : Store) : Steady store store :=
  .of_same rfl rfl

theorem trans (left : Steady first second) (right : Steady second third) : Steady first third :=
  ⟨right.experiences.trans left.experiences,
    left.repairs.comp right.repairs RepairRow.Steady.trans⟩

theorem contributions (steady : Steady before after) (experienceId : Text) :
    after.contributions experienceId = before.contributions experienceId :=
  steady.repairs.sumOf fun kept => kept.contribution experienceId

theorem balanced (steady : Steady before after) : Balanced before after where
  experiences := by
    refine Table.Rewrites.of_eq (fun row => ⟨rfl, ?_⟩) steady.experiences
    exact congrArg (row.counters + ·) (steady.contributions row.experienceId).symm
  repairs := by
    intro row member
    obtain ⟨next, nextMem, kept⟩ := steady.repairs.target member
    exact ⟨next, nextMem, kept.follows⟩

theorem linked (steady : Steady before after) (linked : before.Linked) : after.Linked := by
  intro next member experienceId refers
  obtain ⟨row, rowMem, kept⟩ := steady.repairs.source member
  obtain ⟨executed, known⟩ := linked row rowMem experienceId (kept.experienceId ▸ refers)
  exact ⟨kept.executed.trans executed, steady.balanced.knows known⟩

end Steady

/-! ## Reads, requests and records -/

theorem steady_event (incidentId : Text) (kind : EventKind) (at_ : Int) (summary : String)
    (payload : Value) (observation : Option Observation) (store : Store) :
    Steady store (store.event env incidentId kind at_ summary payload observation) :=
  .of_same rfl rfl

theorem steady_expireRepairs (store : Store) : Steady store (store.expireRepairs env now) := by
  have swept := @swept_expireRepairs env now store
  refine ⟨swept.base.experiences, swept.repairs.mono ?_⟩
  rintro row next _ _ (⟨expires, result, rfl⟩ | ⟨lapses, result, rfl⟩ | ⟨_, _, rfl⟩)
  · exact ⟨rfl, rfl, by rw [expires.1]; rfl, by rw [expires.1]; rfl⟩
  · exact ⟨rfl, rfl, by rw [lapses.1]; rfl, by rw [lapses.1]; rfl⟩
  · exact .refl next

theorem steady_get (incidentId : Text) (store : Store) :
    Steady store (store.get env now incidentId).2 := by
  rw [snd_get]
  exact steady_expireRepairs store

theorem steady_getUserRequest {requestId : Text} {row : RequestRow} {after : Store}
    (read : store.getUserRequest now requestId = .ok (row, after)) : Steady store after := by
  simp only [Store.getUserRequest, bind_eq_ok, pure_eq_ok, Prod.mk.injEq] at read
  obtain ⟨_, _, _, rfl⟩ := read
  exact .of_same rfl rfl

theorem steady_deferUserRequest {requestId : Text} {response : Response} {row : RequestRow}
    {after : Store}
    (deferred : store.deferUserRequest env now requestId response = .ok (row, after)) :
    Steady store after := by
  unfold Store.deferUserRequest at deferred
  split at deferred
  · simp at deferred
  · simp only [bind_eq_ok] at deferred
    obtain ⟨request, _, rest⟩ := deferred
    split at rest
    · simp at rest
    · simp only [pure_eq_ok, Prod.mk.injEq] at rest
      obtain ⟨_, rfl⟩ := rest
      exact .of_same rfl rfl

theorem steady_answerUserRequest {requestId : Text} {response : Response} {row : RequestRow}
    {after : Store}
    (answered : store.answerUserRequest env now requestId response = .ok (row, after)) :
    Steady store after := by
  unfold Store.answerUserRequest at answered
  split at answered
  · exact steady_deferUserRequest answered
  · simp only [bind_eq_ok] at answered
    obtain ⟨request, _, rest⟩ := answered
    split at rest
    · simp at rest
    · simp only [pure_eq_ok, Prod.mk.injEq] at rest
      obtain ⟨_, rfl⟩ := rest
      exact .of_same rfl rfl

theorem steady_insertRequest {row : RequestRow} {after : Store}
    (inserted : store.insertRequest row = .ok after) : Steady store after := by
  unfold Store.insertRequest at inserted
  split at inserted
  · simp at inserted
  · obtain rfl := Except.ok.inj inserted
    exact .of_same rfl rfl

theorem steady_proposeFollowup {incidentId originJobId basis : Text} {reason question : String}
    {row : Option FollowupRow} {after : Store}
    (proposed : store.proposeFollowup env now incidentId originJobId basis reason question =
      .ok (row, after)) : Steady store after := by
  unfold Store.proposeFollowup at proposed
  dsimp only at proposed
  cases lookup : store.incidents.find? incidentId with
  | none =>
      simp only [lookup, true_or, if_true, pure_eq_ok, Prod.mk.injEq] at proposed
      exact proposed.2 ▸ .refl store
  | some incident =>
      simp only [lookup] at proposed
      split at proposed
      · exact (Prod.mk.inj (Except.ok.inj proposed)).2 ▸ .refl store
      · split at proposed
        · simp at proposed
        · split at proposed
          · simp at proposed
          · simp only [bind_eq_ok, pure_eq_ok, Prod.mk.injEq] at proposed
            obtain ⟨withRequest, insertion, _, rfl⟩ := proposed
            have inserted := steady_insertRequest insertion
            exact ⟨inserted.experiences, inserted.repairs⟩

theorem steady_answerFollowup {requestId deviceId : Text} {choice : Choice} {planned : Bool}
    {source summary : String} {after : Store}
    (answered : store.answerFollowup env now requestId choice deviceId planned source summary =
      .ok ((), after)) : Steady store after := by
  unfold Store.answerFollowup at answered
  split at answered
  · simp at answered
  · simp only [bind_eq_ok] at answered
    obtain ⟨request, _, rest⟩ := answered
    split at rest
    · simp at rest
    · split at rest
      · simp at rest
      · simp only [pure_eq_ok, Prod.mk.injEq, true_and] at rest
        subst rest
        exact .of_same rfl rfl

theorem steady_updateFollowup {requestId : Text} {status : FollowupStatus}
    {detail : String} {after : Store}
    (updated : store.updateFollowup env now requestId status detail = .ok ((), after)) :
    Steady store after := by
  unfold Store.updateFollowup at updated
  split at updated
  · simp at updated
  · simp only at updated
    split at updated
    · obtain rfl := (Prod.mk.inj (Except.ok.inj updated)).2
      exact .refl store
    · obtain rfl := (Prod.mk.inj (Except.ok.inj updated)).2
      exact .of_same rfl rfl

theorem steady_insertManualAction {row : ManualRow} {after : Store}
    (inserted : store.insertManualAction row = .ok after) : Steady store after := by
  unfold Store.insertManualAction at inserted
  split at inserted
  · simp at inserted
  · obtain rfl := Except.ok.inj inserted
    exact .of_same rfl rfl

theorem steady_declareAfterResolution {incident : IncidentRow} {endedAt : Int}
    {request : Store.ManualRequest} {result : String} {row : ManualRow} {after : Store}
    (declared : store.declareAfterResolution env now incident endedAt request result =
      .ok (row, after)) : Steady store after := by
  unfold Store.declareAfterResolution at declared
  split at declared
  · simp at declared
  · split at declared
    · simp at declared
    · split at declared
      · simp at declared
      · simp only [bind_eq_ok, pure_eq_ok, Prod.mk.injEq] at declared
        obtain ⟨inserted, insertion, _, rfl⟩ := declared
        have kept := steady_insertManualAction insertion
        exact ⟨kept.experiences, kept.repairs⟩

theorem steady_declareManualResolution {incidentId : Text} {request : Store.ManualRequest}
    {lateResult : String} {row : ManualRow} {after : Store}
    (declared : store.declareManualResolution env now incidentId request lateResult =
      .ok (row, after)) : Steady store after := by
  unfold Store.declareManualResolution at declared
  split at declared
  · simp at declared
  · split at declared
    · exact steady_declareAfterResolution declared
    · split at declared
      · simp at declared
      · simp only [bind_eq_ok, pure_eq_ok, Prod.mk.injEq] at declared
        obtain ⟨inserted, insertion, _, rfl⟩ := declared
        have kept := steady_insertManualAction insertion
        exact ⟨kept.experiences, kept.repairs⟩

theorem steady_appendRecord (incidentId : Text) (kind : EventKind) (summary : String)
    (payload : Value) (store : Store) :
    Steady store (store.appendRecord env now incidentId kind summary payload) := by
  unfold Store.appendRecord
  dsimp only
  split <;> exact .of_same rfl rfl

theorem steady_resolveRemovedNetworkDevices (deviceIds : List Text) (occurredAt : Int)
    (store : Store) :
    Steady store (store.resolveRemovedNetworkDevices env now deviceIds occurredAt) := by
  unfold Store.resolveRemovedNetworkDevices
  generalize store.removedIncidents deviceIds = rows
  induction rows generalizing store with
  | nil => exact .refl store
  | cons incident rows ih =>
      have written : Steady store ({ store with
          incidents := store.incidents.modify incident.incidentId
            (IncidentRow.removed occurredAt) fun _ => rfl }.event env incident.incidentId
          .monitoringRemoved occurredAt removedResult
          (object [("reason", string "architecture_removed")]) none) := .of_same rfl rfl
      exact (written.trans (steady_expireRepairs _)).trans (ih _)

theorem steady_resolveLogIncident (occurredAt : Int) (key : Key) (jobId : Text) (result : String)
    (source : Value) (store : Store) :
    Steady store (store.resolveLogIncident env occurredAt key jobId result source) := by
  unfold Store.resolveLogIncident
  split
  · exact .refl store
  · exact .of_same rfl rfl

/-! ## Decisions -/

/-- A decision moves a proposal, and a decided proposal is not executed. -/
theorem steady_decideRepair {incidentId : Text} {decision : Decision} {choice : Choice}
    {write : RepairRow → RepairRow} {keeps : ∀ row, (write row).repairId = row.repairId}
    {kind : EventKind} {summary : String} {payload : Value} {repair : RepairRow} {after : Store}
    (decided : store.decideRepair env now incidentId decision choice write keeps kind summary
      payload = .ok (repair, after))
    (steady : ∀ row : RepairRow, row.status = .proposed → row.Steady (write row)) :
    Steady store after := by
  simp only [Store.decideRepair, bind_eq_ok] at decided
  obtain ⟨⟨row, swept⟩, found, rest⟩ := decided
  obtain ⟨rfl, member, same, _, proposed⟩ := pendingProposal_eq_ok found
  simp only [pure_eq_ok, Prod.mk.injEq] at rest
  obtain ⟨_, rfl⟩ := rest
  refine (steady_expireRepairs store).trans ⟨rfl, ?_⟩
  refine Table.Rewrites.modify keeps (fun other _ _ => .refl other) fun other otherMem equal => ?_
  obtain rfl := Table.key_injective otherMem member (equal.trans same.symm)
  exact steady other proposed

theorem steady_authorizeRepair {incidentId : Text} {decision : Decision} {repair : RepairRow}
    {after : Store}
    (authorized : store.authorizeRepair env now incidentId decision = .ok (repair, after)) :
    Steady store after :=
  steady_decideRepair authorized fun _ proposed =>
    ⟨rfl, rfl, by rw [proposed]; rfl, by rw [proposed]; rfl⟩

theorem steady_refuseRepair {incidentId : Text} {decision : Decision} {repair : RepairRow}
    {after : Store}
    (refused : store.refuseRepair env now incidentId decision = .ok (repair, after)) :
    Steady store after :=
  steady_decideRepair refused fun _ proposed =>
    ⟨rfl, rfl, by rw [proposed]; rfl, by rw [proposed]; rfl⟩

/-! ## Counting -/

/-- An operation keeps the links of the repairs, and is balanced on a store that
has them. -/
structure Accounting (before after : Store) : Prop where
  balanced : before.Linked → Balanced before after
  linked : before.Linked → after.Linked

theorem Steady.accounting {before after : Store} (steady : Steady before after) :
    Accounting before after :=
  ⟨fun _ => steady.balanced, steady.linked⟩

theorem Accounting.of_same {before after : Store}
    (experiences : after.experiences = before.experiences)
    (repairs : after.repairs = before.repairs) : Accounting before after :=
  (Steady.of_same experiences repairs).accounting

theorem Accounting.refl (store : Store) : Accounting store store :=
  (Steady.refl store).accounting

theorem Accounting.trans {first second third : Store} (left : Accounting first second)
    (right : Accounting second third) : Accounting first third :=
  ⟨fun linked => (left.balanced linked).trans (right.balanced (left.linked linked)),
    fun linked => right.linked (left.linked linked)⟩

theorem Accounting.of_linked {before after : Store}
    (both : before.Linked → Balanced before after ∧ after.Linked) : Accounting before after :=
  ⟨fun linked => (both linked).1, fun linked => (both linked).2⟩

/-- A transaction accounts when its success does. -/
theorem Accounting.transact {α : Type} {body : Store → Except Failure (α × Store)}
    (accounts : ∀ answer after, body store = .ok (answer, after) → Accounting store after) :
    Accounting store (commit body store).2 :=
  commit_induction (motive := fun after => Accounting store after) (.refl store) accounts

section Count

variable {after : Store} {repair : RepairRow} (write : RepairRow → RepairRow)
  (keeps : ∀ row, (write row).repairId = row.repairId)

/-- A rewritten repair that refers to an experience was executed. -/
theorem Store.Linked.modify (linked : store.Linked) (balanced : Balanced store after)
    (member : repair ∈ store.repairs)
    (repairs : after.repairs = store.repairs.modify repair.repairId write keeps)
    (executed : (write repair).status.isExecuted = true)
    (known : ∀ id, (write repair).experienceId = some id → store.Knows id) : after.Linked := by
  intro next nextMem experienceId refers
  rw [repairs] at nextMem
  rcases Table.mem_modify.mp nextMem with ⟨source, sourceMem, same, rfl⟩ | ⟨kept, _⟩
  · obtain rfl := Table.key_injective sourceMem member same
    exact ⟨executed, balanced.knows (known experienceId refers)⟩
  · obtain ⟨before, knows⟩ := linked next kept experienceId refers
    exact ⟨before, balanced.knows knows⟩

/-- A repair is rewritten without an experience. -/
theorem accounts_uncounted (linked : store.Linked) (member : repair ∈ store.repairs)
    (unlinked : repair.experienceId = none)
    (repairs : after.repairs = store.repairs.modify repair.repairId write keeps)
    (experiences : after.experiences = store.experiences)
    (still : (write repair).experienceId = none)
    (executed : (write repair).status.isExecuted = true) (follows : repair.Follows (write repair)) :
    Balanced store after ∧ after.Linked := by
  have same : ∀ row ∈ store.experiences, row.counters + repair.contribution row.experienceId =
      row.counters + (write repair).contribution row.experienceId := by
    intro row _
    rw [RepairRow.contribution_of_ne (by simp [unlinked]),
      RepairRow.contribution_of_ne (by simp [still])]
  have balanced : Balanced store after := by
    refine .of_modify member repairs ?_ follows
    rw [experiences]
    exact List.forall₂_same.mpr fun row rowMem => ⟨rfl, same row rowMem⟩
  refine ⟨balanced, linked.modify write keeps balanced member repairs executed ?_⟩
  intro id refers
  rw [still] at refers
  contradiction

/-- A repair is rewritten, and its experience counts the difference. -/
theorem accounts_counted {experienceId : Text} (count : ExperienceRow → ExperienceRow)
    (fixed : ∀ row, (count row).experienceId = row.experienceId) (linked : store.Linked)
    (member : repair ∈ store.repairs) (known : store.Knows experienceId)
    (source : ∀ id, repair.experienceId = some id → id = experienceId)
    (repairs : after.repairs = store.repairs.modify repair.repairId write keeps)
    (experiences : after.experiences = store.experiences.modify experienceId count fixed)
    (target : (write repair).experienceId = some experienceId)
    (executed : (write repair).status.isExecuted = true)
    (counts : ∀ row, (count row).counters + repair.contribution experienceId =
      row.counters + (write repair).contribution experienceId)
    (follows : repair.Follows (write repair)) : Balanced store after ∧ after.Linked := by
  have balanced : Balanced store after := by
    refine .of_modify member repairs ?_ follows
    rw [experiences]
    refine Table.Rewrites.modify fixed (fun row _ other => ⟨rfl, ?_⟩) fun row _ same =>
      ⟨fixed row, same ▸ counts row⟩
    show row.counters + repair.contribution _ = row.counters + (write repair).contribution _
    rw [RepairRow.contribution_of_ne fun refers => other (source _ refers),
      RepairRow.contribution_of_ne fun refers =>
        other (Option.some.inj (refers.symm.trans target))]
  refine ⟨balanced, linked.modify write keeps balanced member repairs executed ?_⟩
  intro id refers
  rw [target] at refers
  exact Option.some.inj refers ▸ known

end Count

/-- The repair with the experience that its execution reproduces. -/
def RepairRow.linkedTo (experienceId : Text) (row : RepairRow) : RepairRow :=
  { row with experienceId := some experienceId }

/-- An execution counts for a known experience, or for none. -/
theorem countExperienceAttempt_cases (repair : RepairRow) (store : Store) :
    store.countExperienceAttempt repair now = store ∨
      ∃ experience ∈ store.experiences, store.countExperienceAttempt repair now = { store with
        experiences := store.experiences.modify experience.experienceId
          (ExperienceRow.attempted now) fun _ => rfl
        repairs := store.repairs.modify repair.repairId
          (RepairRow.linkedTo experience.experienceId) fun _ => rfl } := by
  unfold Store.countExperienceAttempt
  split
  · exact Or.inl rfl
  · rename_i experience found
    refine Or.inr ⟨experience, ?_, rfl⟩
    unfold Store.attemptedExperience at found
    split at found
    · contradiction
    · exact (List.mem_filter.mp (mem_of_newest found)).1

/-- An authorized repair refers to no experience. -/
theorem Store.Linked.unlinked (linked : store.Linked) {repair : RepairRow}
    (member : repair ∈ store.repairs) (waiting : repair.status.isExecuted = false) :
    repair.experienceId = none := by
  cases refers : repair.experienceId with
  | none => rfl
  | some experienceId =>
      obtain ⟨executed, _⟩ := linked repair member experienceId refers
      rw [waiting] at executed
      contradiction

/-- A repair that was not executed has no outcome yet. -/
theorem RepairRow.follows_of_waiting {row next : RepairRow} (same : next.repairId = row.repairId)
    (waiting : row.status.isExecuted = false) : row.Follows next where
  repairId := same
  executed := fun executed => absurd executed (by simp [waiting])
  decided := by
    intro decided
    exfalso
    revert waiting decided
    cases row.status <;> decide

theorem RepairRow.contribution_of_linked {repair : RepairRow} {experienceId : Text}
    (refers : repair.experienceId = some experienceId) (undecided : repair.status.outcome = none) :
    repair.contribution experienceId = ⟨1, 0, 0⟩ := by
  rw [RepairRow.contribution_eq refers, undecided]
  rfl

/-- `mark_repair_executed` counts one attempt. -/
theorem accounting_markRepairExecuted {repairId : Text} {after : Store}
    (executed : store.markRepairExecuted env now repairId = .ok ((), after)) :
    Accounting store after := by
  simp only [Store.markRepairExecuted, bind_eq_ok] at executed
  obtain ⟨repair, required, rest⟩ := executed
  obtain ⟨member, rfl⟩ := requiredRepair_eq_ok required
  split at rest
  · simp at rest
  · rename_i authorized
    have waiting : repair.status.isExecuted = false := by
      rw [not_not.mp (not_or.mp authorized).2]
      rfl
    simp only [pure_eq_ok, Prod.mk.injEq, true_and] at rest
    subst rest
    generalize store.verificationSeconds repair.incidentId = delay
    apply Accounting.of_linked
    intro linked
    have unlinked := linked.unlinked member waiting
    rcases @countExperienceAttempt_cases now repair store with uncounted |
      ⟨experience, known, counted⟩
    · rw [uncounted]
      exact accounts_uncounted (RepairRow.executed now delay) (fun _ => rfl) linked member unlinked
        rfl rfl unlinked rfl (RepairRow.follows_of_waiting rfl waiting)
    · rw [counted]
      refine accounts_counted (fun row => (row.linkedTo experience.experienceId).executed now delay)
        (fun _ => rfl) (ExperienceRow.attempted now) (fun _ => rfl) linked member
        ⟨experience, known, rfl⟩ (by simp [unlinked])
        (Table.modify_modify store.repairs repair.repairId
          (RepairRow.linkedTo experience.experienceId) (RepairRow.executed now delay) (fun _ => rfl)
          fun _ => rfl) rfl rfl rfl ?_
        (RepairRow.follows_of_waiting rfl waiting)
      intro row
      rw [RepairRow.contribution_of_ne (by simp [unlinked]),
        RepairRow.contribution_of_linked rfl rfl]
      rfl

/-- The counters after an outcome. -/
theorem ExperienceRow.counters_concluded (at_ : Int) (succeeded : Bool) (row : ExperienceRow) :
    (row.concluded at_ succeeded).counters =
      row.counters + ⟨0, if succeeded then 1 else 0, if succeeded then 0 else 1⟩ := by
  cases succeeded <;> rfl

/-- `mark_repair_execution_failed` counts an attempt and its failure. -/
theorem accounting_markRepairExecutionFailed {repairId : Text} {error : String} {after : Store}
    (held : store.Authorized repairId)
    (failed : store.markRepairExecutionFailed env now repairId error = .ok ((), after)) :
    Accounting store after := by
  simp only [Store.markRepairExecutionFailed, bind_eq_ok] at failed
  obtain ⟨repair, required, counted, ⟨again, requiredAgain, conclude⟩, rest⟩ := failed
  obtain ⟨member, rfl⟩ := requiredRepair_eq_ok required
  obtain rfl := Except.ok.inj conclude
  simp only [pure_eq_ok, Prod.mk.injEq, true_and] at rest
  subst rest
  generalize String.ofList ((env.redactText error).toList.take 1000) = detail
  have waiting : repair.status.isExecuted = false := by
    obtain ⟨row, rowMem, same, status, _⟩ := held
    obtain rfl := Table.key_injective rowMem member same
    rw [status]
    rfl
  apply Accounting.of_linked
  intro linked
  have unlinked := linked.unlinked member waiting
  rw [if_pos unlinked] at requiredAgain ⊢
  rcases @countExperienceAttempt_cases now repair store with uncounted |
    ⟨experience, known, counted⟩
  · rw [uncounted] at requiredAgain ⊢
    obtain ⟨againMem, same⟩ := requiredRepair_eq_ok requiredAgain
    obtain rfl := Table.key_injective againMem member same
    have silent : store.countExperienceOutcome again now false = store := by
      rw [Store.countExperienceOutcome, unlinked]
    rw [silent]
    exact accounts_uncounted (RepairRow.executionFailed now detail) (fun _ => rfl) linked member
      unlinked rfl rfl unlinked rfl (RepairRow.follows_of_waiting rfl waiting)
  · rw [counted] at requiredAgain ⊢
    obtain ⟨againMem, same⟩ := requiredRepair_eq_ok requiredAgain
    have modified : again ∈ store.repairs.modify repair.repairId
        (RepairRow.linkedTo experience.experienceId) fun _ => rfl := againMem
    have refers : again.experienceId = some experience.experienceId := by
      rcases Table.mem_modify.mp modified with ⟨source, _, _, rfl⟩ | ⟨_, other⟩
      · rfl
      · exact absurd same other
    rw [Store.countExperienceOutcome, refers]
    refine accounts_counted
      (fun row => (row.linkedTo experience.experienceId).executionFailed now detail)
      (fun _ => rfl) (fun row => (row.attempted now).concluded now false) (fun _ => rfl) linked
      member ⟨experience, known, rfl⟩ (by simp [unlinked])
      (Table.modify_modify store.repairs repair.repairId
        (RepairRow.linkedTo experience.experienceId) (RepairRow.executionFailed now detail)
        (fun _ => rfl) fun _ => rfl)
      (Table.modify_modify store.experiences experience.experienceId (ExperienceRow.attempted now)
        (ExperienceRow.concluded now false) (fun _ => rfl)
        (ExperienceRow.experienceId_concluded now false)) rfl rfl ?_
      (RepairRow.follows_of_waiting rfl waiting)
    intro row
    rw [RepairRow.contribution_of_ne (by simp [unlinked]), ExperienceRow.counters_concluded,
      RepairRow.contribution_eq rfl]
    ext <;> rfl

/-- An observation counts the outcome of the repair that it verifies. -/
theorem accounting_verifyPendingRepair (incident : IncidentRow) (observation : Observation)
    (succeeded : Bool) (store : Store) :
    Accounting store (store.verifyPendingRepair env incident observation succeeded) := by
  unfold Store.verifyPendingRepair
  split
  · exact .refl store
  · rename_i repair found
    obtain ⟨member, _, verifying⟩ := verifyingRepair_eq_some found
    have undecided : repair.status.outcome = none := by
      rw [verifying]
      rfl
    split
    · apply Accounting.of_linked
      intro linked
      dsimp only
      generalize (if succeeded = true then _ else _ : String) = result
      have closes : ∀ at_, repair.Follows (repair.closed
          (if succeeded then .succeeded else .failed) at_ result) := by
        intro at_
        refine ⟨rfl, fun _ => ⟨?_, rfl⟩, fun decided => ?_⟩
        · cases succeeded <;> rfl
        · rw [undecided] at decided
          contradiction
      have executed : ∀ at_, (repair.closed (if succeeded then .succeeded else .failed) at_
          result).status.isExecuted = true := by
        intro at_
        cases succeeded <;> rfl
      cases refers : repair.experienceId with
      | none =>
          rw [Store.countExperienceOutcome, refers]
          exact accounts_uncounted (RepairRow.closed _ _ result) (fun _ => rfl) linked member refers
            rfl rfl refers (executed _) (closes _)
      | some experienceId =>
          rw [Store.countExperienceOutcome, refers]
          refine accounts_counted (RepairRow.closed _ _ result) (fun _ => rfl)
            (ExperienceRow.concluded observation.timestamp succeeded)
            (ExperienceRow.experienceId_concluded _ _) linked member
            (linked repair member experienceId refers).2
            (fun id same => Option.some.inj (same.symm.trans refers)) rfl rfl refers (executed _)
            ?_ (closes _)
          intro row
          have target : (repair.closed (if succeeded then .succeeded else .failed)
            observation.timestamp result).experienceId = some experienceId := refers
          rw [ExperienceRow.counters_concluded, RepairRow.contribution_of_linked refers undecided,
            RepairRow.contribution_eq target]
          cases succeeded <;> rfl
    · exact .refl store

/-! ## Observations -/

theorem steady_verifyManualAction (incident : IncidentRow) (observation : Observation)
    (succeeded : Bool) (store : Store) :
    Steady store (store.verifyManualAction env incident observation succeeded) := by
  unfold Store.verifyManualAction
  split
  · exact .refl store
  · split
    · exact .of_same rfl rfl
    · exact .refl store

theorem steady_insertIncident {row : IncidentRow} {after : Store}
    (inserted : store.insertIncident row = .ok after) : Steady store after := by
  unfold Store.insertIncident at inserted
  split at inserted
  · simp at inserted
  · split at inserted
    · simp at inserted
    · obtain rfl := Except.ok.inj inserted
      exact .of_same rfl rfl

theorem steady_openIncident {observation : Observation} {severity : Severity} {previous : String}
    {answer : Option IncidentRow} {after : Store}
    (opened : store.openIncident env now observation severity previous = .ok (answer, after)) :
    Steady store after := by
  simp only [Store.openIncident, bind_eq_ok, pure_eq_ok, Prod.mk.injEq] at opened
  obtain ⟨inserted, insertion, _, rfl⟩ := opened
  have kept := steady_insertIncident insertion
  refine Steady.trans ?_ (steady_expireRepairs _)
  exact ⟨kept.experiences, kept.repairs⟩

theorem steady_updateIncident (incident : IncidentRow) (observation : Observation)
    (severity : Severity) (store : Store) :
    Steady store (store.updateIncident env now incident observation severity).2 := by
  unfold Store.updateIncident
  refine Steady.trans ?_ (steady_expireRepairs _)
  exact .of_same rfl rfl

theorem steady_resolveIncident (incident : IncidentRow) (observation : Observation)
    (store : Store) : Steady store (store.resolveIncident env now incident observation).2 := by
  have ended : Steady store { store with
      incidents := store.incidents.modify incident.incidentId
        (IncidentRow.resolved env observation) fun _ => rfl
      requests := store.requests.mapRows (RequestRow.resolvedWith incident.incidentId)
        (RequestRow.requestId_resolvedWith incident.incidentId) } := .of_same rfl rfl
  exact ended.trans ((steady_expireRepairs _).trans
    ((steady_event _ _ _ _ _ _ _).trans (steady_expireRepairs _)))

theorem accounting_applyObservation {observation : Observation} {answer : Option IncidentRow}
    {after : Store} (applied : store.applyObservation env now observation = .ok (answer, after)) :
    Accounting store after := by
  unfold Store.applyObservation at applied
  split at applied
  · exact (steady_openIncident applied).accounting
  · rename_i severity incident _ _
    have moved : _ = after := congrArg Prod.snd (Except.ok.inj applied)
    exact moved ▸ (accounting_verifyPendingRepair incident observation false store).trans
      ((steady_verifyManualAction _ _ _ _).trans (steady_updateIncident _ _ _ _)).accounting
  · rename_i incident _ _
    split at applied
    · have moved : _ = after := congrArg Prod.snd (Except.ok.inj applied)
      exact moved ▸ (accounting_verifyPendingRepair incident observation true store).trans
        ((steady_verifyManualAction _ _ _ _).trans (steady_resolveIncident _ _ _)).accounting
    · obtain ⟨_, rfl⟩ := Prod.mk.inj (Except.ok.inj applied)
      exact .refl _
  · obtain ⟨_, rfl⟩ := Prod.mk.inj (Except.ok.inj applied)
    exact .refl _

theorem accounting_process (observation : Observation) (store : Store) :
    Accounting store (store.process env now observation).2 := by
  have purged : Steady store (store.purgeProcessedIfDue env now) := by
    unfold Store.purgeProcessedIfDue
    dsimp only
    split <;> exact .of_same rfl rfl
  refine purged.accounting.trans (Accounting.transact ?_)
  intro answer after processed
  unfold Store.processLocked at processed
  split at processed
  · exact (Prod.mk.inj (Except.ok.inj processed)).2 ▸ .refl _
  · split at processed
    · obtain ⟨_, rfl⟩ := Prod.mk.inj (Except.ok.inj processed)
      exact .of_same rfl rfl
    · simp only [bind_eq_ok, pure_eq_ok, Prod.mk.injEq] at processed
      obtain ⟨⟨incident, applied⟩, found, _, rfl⟩ := processed
      exact (accounting_applyObservation found).trans (.of_same rfl rfl)

/-! ## Proposals -/

/-- A proposal inserts a repair that refers to no experience. -/
theorem accounting_proposeRepair {incident : IncidentRow} {spec : RepairSpec} {repair : RepairRow}
    {after : Store} (proposed : store.proposeRepair env now incident spec = .ok (repair, after)) :
    Accounting store after := by
  unfold Store.proposeRepair at proposed
  split at proposed
  · exact (Prod.mk.inj (Except.ok.inj proposed)).2 ▸ .refl store
  · simp only [bind_eq_ok, pure_eq_ok, Prod.mk.injEq] at proposed
    obtain ⟨withRepair, repairInserted, withRequest, requestInserted, _, rfl⟩ := proposed
    obtain ⟨repairs, rows, rfl⟩ := insertRepair_eq_ok repairInserted
    obtain ⟨requests, _, rfl⟩ := insertRequest_eq_ok requestInserted
    apply Accounting.of_linked
    intro linked
    refine ⟨⟨?_, ?_⟩, ?_⟩
    · refine Table.Rewrites.of_eq (fun row => ⟨rfl, ?_⟩) rfl
      show row.counters + (store.repairs.rows.map _).sum = row.counters + (repairs.rows.map _).sum
      rw [rows, List.map_append, List.sum_append, List.map_singleton, List.sum_singleton,
        RepairRow.contribution_of_ne (by simp [RepairSpec.repair]), add_zero]
    · intro row member
      exact ⟨row, Table.mem_def.mpr (rows ▸ List.mem_append_left _ member), .refl row⟩
    · intro row member experienceId refers
      have inside : row ∈ repairs.rows := member
      rw [rows, List.mem_append, List.mem_singleton] at inside
      rcases inside with old | rfl
      · exact linked row old experienceId refers
      · simp [RepairSpec.repair] at refers

/-! ## The service -/

section Act

variable {service : Service}

theorem accounting_readThen {incidentId : Text} {task : IncidentRow → Store → Option Task} :
    Accounting service.store (service.readThen env now incidentId task).store := by
  have read := (@steady_get env now incidentId service.store).accounting
  unfold Service.readThen
  dsimp only
  split
  · exact read
  · split <;> exact read

theorem accounting_answerOf (request : RequestRow) (deviceId : Text) (choice : Choice) :
    Accounting service.store (service.answerOf env now request deviceId choice).store := by
  unfold Service.answerOf
  split
  · exact .refl _
  · split
    · exact .refl _
    · exact .refl _
    · exact .refl _
    · dsimp only
      split
      · exact accounting_readThen
      · split
        · exact accounting_readThen
        · exact .refl _

theorem accounting_respond (requestId deviceId : Text) (choice : Choice) :
    Accounting service.store (service.respond env now requestId deviceId choice).store := by
  unfold Service.respond
  split
  · exact .refl _
  · rename_i request store read
    exact (steady_getUserRequest read).accounting.trans
      (@accounting_answerOf env now { service with store } request deviceId choice)

theorem accounting_resume (sound : service.Sound env) (index : Nat) :
    Accounting service.store (service.resume env now index).store := by
  unfold Service.resume
  split
  · exact .refl _
  · exact .transact fun _ _ => accounting_proposeRepair
  · split
    · exact .refl _
    · rename_i authorized
      exact (steady_authorizeRepair authorized).accounting
  · exact .transact fun _ _ refused => (steady_refuseRepair refused).accounting
  · exact .transact fun _ _ deferred => (steady_deferUserRequest deferred).accounting
  · exact .transact fun _ _ answered => (steady_answerUserRequest answered).accounting
  · exact .refl _
  · exact .transact fun _ _ => accounting_markRepairExecuted
  · rename_i task
    exact .transact fun _ _ => accounting_markRepairExecutionFailed (sound.tasks index _ task)

theorem accounting_execute (index : Nat) (execution : Execution) :
    Accounting service.store (service.execute env now index execution).store := by
  have read : ∀ {incidentId : Text} {reply : Except Failure IncidentRow} {store : Store},
      service.store.get env now incidentId = (reply, store) → Accounting service.store store := by
    intro incidentId reply store found
    have kept := (@steady_get env now incidentId service.store).accounting
    rwa [found] at kept
  unfold Service.execute
  split
  · cases execution with
    | missing => exact .refl _
    | returned =>
        dsimp only
        split <;> exact read ‹_›
    | raised error =>
        dsimp only
        split <;> exact read ‹_›
  · exact .refl _

/-- One transition of the service. -/
theorem accounting_act (sound : service.Sound env) (action : Action) :
    Accounting service.store (service.act env now action).store := by
  cases action with
  | process observation => exact accounting_process observation service.store
  | purgeProcessedObservations => exact .of_same rfl rfl
  | list => exact (steady_expireRepairs _).accounting
  | get incidentId => exact (steady_get incidentId _).accounting
  | listUserRequests => exact .of_same rfl rfl
  | getUserRequest requestId =>
      exact .transact fun _ _ read => (steady_getUserRequest read).accounting
  | propose incidentId spec => exact accounting_readThen
  | authorize incidentId decision => exact accounting_readThen
  | refuse incidentId decision => exact accounting_readThen
  | defer incidentId decision => exact accounting_readThen
  | respond requestId deviceId choice => exact accounting_respond requestId deviceId choice
  | resume index => exact accounting_resume sound index
  | execute index execution => exact accounting_execute index execution
  | declareManualResolution =>
      exact .transact fun _ _ declared => (steady_declareManualResolution declared).accounting
  | appendRecord incidentId kind summary payload =>
      show Accounting _ (service.appendRecord env now incidentId kind summary payload).store
      have read := @steady_get env now incidentId service.store
      unfold Service.appendRecord
      split
      · rename_i store found
        rw [found] at read
        exact read.accounting
      · rename_i incident store found
        rw [found] at read
        exact (read.trans ((steady_appendRecord incident.incidentId kind summary payload store).trans
          (steady_expireRepairs _))).accounting
  | proposeFollowup =>
      exact .transact fun _ _ proposed => (steady_proposeFollowup proposed).accounting
  | answerFollowup => exact .transact fun _ _ answered => (steady_answerFollowup answered).accounting
  | updateFollowup => exact .transact fun _ _ updated => (steady_updateFollowup updated).accounting
  | resolveRemovedNetworkDevices deviceIds occurredAt =>
      exact (steady_resolveRemovedNetworkDevices deviceIds occurredAt _).accounting
  | resolveLogIncident key jobId result source =>
      exact (steady_resolveLogIncident _ key jobId result source _).accounting
  | crash => exact .of_same rfl rfl

end Act

end OhanaAgent.Tsunade
