import OhanaAgent.Tsunade.Authority

/-!
# Operations that only report

Every operation but an observation, a record and the end of a monitored source
leaves the incidents as they are, up to a final result, and only adds events that
report what was done about them.
-/

namespace OhanaAgent.Tsunade

open OhanaAgent.Encoding.Json
open OhanaAgent.Store
open OhanaAgent.Time

variable {env : Environment} {now : Int} {store : Store}

/-! ## Reports -/

/-- The kinds of the events that tell what was done about an incident. -/
def EventKind.isReport : EventKind → Bool
  | .investigation | .action | .decision | .result => true
  | _ => false

/-- The incidents keep all but their final result, and only reports are added. -/
structure Reported (before after : Store) : Prop where
  incidents : Table.Rewrites IncidentRow.Same before.incidents after.incidents
  events : ∃ added, after.events = before.events ++ added ∧
    ∀ event ∈ added, event.kind.isReport = true

namespace Reported

variable {first second third before after : Store}

theorem of_same (incidents : after.incidents = before.incidents)
    (events : after.events = before.events) : Reported before after :=
  ⟨Table.Rewrites.of_eq (fun _ => rfl) incidents, [], by rw [events, List.append_nil], by simp⟩

theorem of_event {event : Event} (incidents : after.incidents = before.incidents)
    (events : after.events = before.events ++ [event]) (report : event.kind.isReport = true) :
    Reported before after :=
  ⟨Table.Rewrites.of_eq (fun _ => rfl) incidents, [event], events, by simpa using report⟩

theorem refl (store : Store) : Reported store store :=
  .of_same rfl rfl

theorem trans (left : Reported first second) (right : Reported second third) :
    Reported first third where
  incidents := left.incidents.comp right.incidents fun {row middle next} one two => by
    rw [IncidentRow.Same] at one two ⊢
    rw [two, one]
  events := by
    obtain ⟨one, oneEvents, oneReports⟩ := left.events
    obtain ⟨two, twoEvents, twoReports⟩ := right.events
    refine ⟨one ++ two, by rw [twoEvents, oneEvents, List.append_assoc], ?_⟩
    intro event member
    rcases List.mem_append.mp member with old | new
    · exact oneReports event old
    · exact twoReports event new

/-- A loop of reports. -/
theorem foldl {ρ : Type} {write : Store → ρ → Store}
    (reports : ∀ store row, Reported store (write store row)) (rows : List ρ) (store : Store) :
    Reported store (rows.foldl write store) := by
  induction rows generalizing store with
  | nil => exact .refl store
  | cons row rows ih => exact (reports store row).trans (ih _)

/-- A transaction reports when its success does. -/
theorem transact {α : Type} {body : Store → Except Failure (α × Store)}
    (reports : ∀ answer after, body store = .ok (answer, after) → Reported store after) :
    Reported store (commit body store).2 :=
  commit_induction (motive := fun after => Reported store after) (.refl store) reports

end Reported

theorem reported_closeRepair (repairId incidentId : Text) (status : RepairStatus) (result : String)
    {kind : EventKind} (report : kind.isReport = true) (store : Store) :
    Reported store (store.closeRepair env repairId incidentId status now result kind) :=
  .of_event rfl rfl report

theorem reported_closeManualAction (actionId incidentId : Text) (status : ManualStatus) (at_ : Int)
    (result : String) (observation : Option Observation) (store : Store) :
    Reported store
      (store.closeManualAction env actionId incidentId status at_ result observation) :=
  .of_event rfl rfl rfl

theorem reported_expireRepairs (store : Store) : Reported store (store.expireRepairs env now) := by
  have proposals : Reported store (store.expireProposals env now) :=
    .foldl (fun store _ => reported_closeRepair _ _ _ _ rfl store) _ store
  have manual : ∀ store : Store, Reported store (store.expireManualActions env now) :=
    fun store => .foldl (fun store _ => reported_closeManualAction _ _ _ _ _ _ store) _ store
  have unverified : ∀ (rows : List RepairRow) (store : Store),
      Reported store (store.closeUnverified env now rows) :=
    fun rows store => .foldl (fun store _ => reported_closeRepair _ _ _ _ rfl store) rows store
  exact (proposals.trans (manual _)).trans (unverified _ _)

theorem reported_get (incidentId : Text) (store : Store) :
    Reported store (store.get env now incidentId).2 := by
  rw [snd_get]
  exact reported_expireRepairs store

theorem reported_getUserRequest {requestId : Text} {row : RequestRow} {after : Store}
    (read : store.getUserRequest now requestId = .ok (row, after)) : Reported store after := by
  simp only [Store.getUserRequest, bind_eq_ok, pure_eq_ok, Prod.mk.injEq] at read
  obtain ⟨_, _, _, rfl⟩ := read
  exact .of_same rfl rfl

theorem reported_deferUserRequest {requestId : Text} {response : Response} {row : RequestRow}
    {after : Store}
    (deferred : store.deferUserRequest env now requestId response = .ok (row, after)) :
    Reported store after := by
  unfold Store.deferUserRequest at deferred
  split at deferred
  · simp at deferred
  · simp only [bind_eq_ok] at deferred
    obtain ⟨request, _, rest⟩ := deferred
    split at rest
    · simp at rest
    · simp only [pure_eq_ok, Prod.mk.injEq] at rest
      obtain ⟨_, rfl⟩ := rest
      exact .of_event rfl rfl rfl

theorem reported_answerUserRequest {requestId : Text} {response : Response} {row : RequestRow}
    {after : Store}
    (answered : store.answerUserRequest env now requestId response = .ok (row, after)) :
    Reported store after := by
  unfold Store.answerUserRequest at answered
  split at answered
  · exact reported_deferUserRequest answered
  · simp only [bind_eq_ok] at answered
    obtain ⟨request, _, rest⟩ := answered
    split at rest
    · simp at rest
    · simp only [pure_eq_ok, Prod.mk.injEq] at rest
      obtain ⟨_, rfl⟩ := rest
      exact .of_event rfl rfl rfl

theorem insertRequest_frame {row : RequestRow} {after : Store}
    (inserted : store.insertRequest row = .ok after) :
    after.incidents = store.incidents ∧ after.events = store.events := by
  unfold Store.insertRequest at inserted
  split at inserted
  · simp at inserted
  · obtain rfl := Except.ok.inj inserted
    exact ⟨rfl, rfl⟩

theorem insertRepair_frame {row : RepairRow} {after : Store}
    (inserted : store.insertRepair row = .ok after) :
    after.incidents = store.incidents ∧ after.events = store.events := by
  unfold Store.insertRepair at inserted
  split at inserted
  · simp at inserted
  · obtain rfl := Except.ok.inj inserted
    exact ⟨rfl, rfl⟩

theorem insertManualAction_frame {row : ManualRow} {after : Store}
    (inserted : store.insertManualAction row = .ok after) :
    after.incidents = store.incidents ∧ after.events = store.events := by
  unfold Store.insertManualAction at inserted
  split at inserted
  · simp at inserted
  · obtain rfl := Except.ok.inj inserted
    exact ⟨rfl, rfl⟩

theorem reported_proposeFollowup {incidentId originJobId basis : Text} {reason question : String}
    {row : Option FollowupRow} {after : Store}
    (proposed : store.proposeFollowup env now incidentId originJobId basis reason question =
      .ok (row, after)) : Reported store after := by
  unfold Store.proposeFollowup at proposed
  dsimp only at proposed
  cases lookup : store.incidents.find? incidentId with
  | none =>
      simp only [lookup, true_or, if_true, pure_eq_ok, Prod.mk.injEq] at proposed
      exact proposed.2 ▸ .refl store
  | some incident =>
      simp only [lookup] at proposed
      split at proposed
      · exact (Prod.mk.inj (Except.ok.inj proposed)).2 ▸ .refl store
      · split at proposed
        · simp at proposed
        · split at proposed
          · simp at proposed
          · simp only [bind_eq_ok, pure_eq_ok, Prod.mk.injEq] at proposed
            obtain ⟨withRequest, insertion, _, rfl⟩ := proposed
            obtain ⟨incidents, events⟩ := insertRequest_frame insertion
            exact .of_event incidents (congrArg (· ++ [_]) events) rfl

theorem reported_answerFollowup {requestId deviceId : Text} {choice : Choice} {planned : Bool}
    {source summary : String} {after : Store}
    (answered : store.answerFollowup env now requestId choice deviceId planned source summary =
      .ok ((), after)) : Reported store after := by
  unfold Store.answerFollowup at answered
  split at answered
  · simp at answered
  · simp only [bind_eq_ok] at answered
    obtain ⟨request, _, rest⟩ := answered
    split at rest
    · simp at rest
    · split at rest
      · simp at rest
      · simp only [pure_eq_ok, Prod.mk.injEq, true_and] at rest
        subst rest
        exact .of_event rfl rfl rfl

theorem reported_updateFollowup {requestId : Text} {status : FollowupStatus}
    {detail : String} {after : Store}
    (updated : store.updateFollowup env now requestId status detail = .ok ((), after)) :
    Reported store after := by
  unfold Store.updateFollowup at updated
  split at updated
  · simp at updated
  · simp only at updated
    split at updated
    · obtain rfl := (Prod.mk.inj (Except.ok.inj updated)).2
      exact .refl store
    · obtain rfl := (Prod.mk.inj (Except.ok.inj updated)).2
      exact .of_event rfl rfl rfl

theorem reported_declareAfterResolution {incident : IncidentRow} {endedAt : Int}
    {request : Store.ManualRequest} {result : String} {row : ManualRow} {after : Store}
    (declared : store.declareAfterResolution env now incident endedAt request result =
      .ok (row, after)) : Reported store after := by
  unfold Store.declareAfterResolution at declared
  split at declared
  · simp at declared
  · split at declared
    · simp at declared
    · split at declared
      · simp at declared
      · simp only [bind_eq_ok, pure_eq_ok, Prod.mk.injEq] at declared
        obtain ⟨inserted, insertion, _, rfl⟩ := declared
        obtain ⟨incidents, events⟩ := insertManualAction_frame insertion
        exact .of_event incidents (congrArg (· ++ [_]) events) rfl

theorem reported_declareManualResolution {incidentId : Text} {request : Store.ManualRequest}
    {lateResult : String} {row : ManualRow} {after : Store}
    (declared : store.declareManualResolution env now incidentId request lateResult =
      .ok (row, after)) : Reported store after := by
  unfold Store.declareManualResolution at declared
  split at declared
  · simp at declared
  · split at declared
    · exact reported_declareAfterResolution declared
    · split at declared
      · simp at declared
      · simp only [bind_eq_ok, pure_eq_ok, Prod.mk.injEq] at declared
        obtain ⟨inserted, insertion, _, rfl⟩ := declared
        obtain ⟨incidents, events⟩ := insertManualAction_frame insertion
        exact .of_event incidents (congrArg (· ++ [_]) events) rfl

/-! ## Repairs -/

theorem reported_proposeRepair {incident : IncidentRow} {spec : RepairSpec} {repair : RepairRow}
    {after : Store} (proposed : store.proposeRepair env now incident spec = .ok (repair, after)) :
    Reported store after := by
  unfold Store.proposeRepair at proposed
  split at proposed
  · exact (Prod.mk.inj (Except.ok.inj proposed)).2 ▸ .refl store
  · simp only [bind_eq_ok, pure_eq_ok, Prod.mk.injEq] at proposed
    obtain ⟨withRepair, repairInserted, withRequest, requestInserted, _, rfl⟩ := proposed
    obtain ⟨repairIncidents, repairEvents⟩ := insertRepair_frame repairInserted
    obtain ⟨requestIncidents, requestEvents⟩ := insertRequest_frame requestInserted
    exact .of_event (requestIncidents.trans repairIncidents)
      (congrArg (· ++ [_]) (requestEvents.trans repairEvents)) rfl

theorem reported_decideRepair {incidentId : Text} {decision : Decision} {choice : Choice}
    {write : RepairRow → RepairRow} {keeps : ∀ row, (write row).repairId = row.repairId}
    {kind : EventKind} {summary : String} {payload : Value} {repair : RepairRow} {after : Store}
    (decided : store.decideRepair env now incidentId decision choice write keeps kind summary
      payload = .ok (repair, after)) (report : kind.isReport = true) : Reported store after := by
  simp only [Store.decideRepair, bind_eq_ok] at decided
  obtain ⟨⟨row, swept⟩, found, rest⟩ := decided
  obtain ⟨rfl, _⟩ := pendingProposal_eq_ok found
  simp only [pure_eq_ok, Prod.mk.injEq] at rest
  obtain ⟨_, rfl⟩ := rest
  exact (reported_expireRepairs store).trans (.of_event rfl rfl report)

theorem reported_countExperienceAttempt (repair : RepairRow) (store : Store) :
    Reported store (store.countExperienceAttempt repair now) := by
  unfold Store.countExperienceAttempt
  split <;> exact .of_same rfl rfl

theorem reported_countExperienceOutcome (repair : RepairRow) (at_ : Int) (succeeded : Bool)
    (store : Store) : Reported store (store.countExperienceOutcome repair at_ succeeded) := by
  unfold Store.countExperienceOutcome
  split <;> exact .of_same rfl rfl

theorem reported_markRepairExecuted {repairId : Text} {after : Store}
    (executed : store.markRepairExecuted env now repairId = .ok ((), after)) :
    Reported store after := by
  simp only [Store.markRepairExecuted, bind_eq_ok] at executed
  obtain ⟨repair, _, rest⟩ := executed
  split at rest
  · simp at rest
  · simp only [pure_eq_ok, Prod.mk.injEq, true_and] at rest
    subst rest
    exact (reported_countExperienceAttempt repair store).trans (.of_event rfl rfl rfl)

theorem reported_markRepairExecutionFailed {repairId : Text} {error : String} {after : Store}
    (failed : store.markRepairExecutionFailed env now repairId error = .ok ((), after)) :
    Reported store after := by
  simp only [Store.markRepairExecutionFailed, bind_eq_ok] at failed
  obtain ⟨repair, _, counted, ⟨again, _, conclude⟩, rest⟩ := failed
  obtain rfl := Except.ok.inj conclude
  simp only [pure_eq_ok, Prod.mk.injEq, true_and] at rest
  subst rest
  have attempted : Reported store
      (if repair.experienceId = none then store.countExperienceAttempt repair now else store) := by
    split
    · exact reported_countExperienceAttempt repair store
    · exact .refl store
  exact (attempted.trans (reported_countExperienceOutcome again now false _)).trans
    (.of_event rfl rfl rfl)

theorem reported_verifyPendingRepair (incident : IncidentRow) (observation : Observation)
    (succeeded : Bool) (store : Store) :
    Reported store (store.verifyPendingRepair env incident observation succeeded) := by
  unfold Store.verifyPendingRepair
  split
  · exact .refl store
  · rename_i row _
    split
    · exact (reported_countExperienceOutcome row observation.timestamp succeeded store).trans
        (.of_event rfl rfl rfl)
    · exact .refl store

theorem reported_verifyManualAction (incident : IncidentRow) (observation : Observation)
    (succeeded : Bool) (store : Store) :
    Reported store (store.verifyManualAction env incident observation succeeded) := by
  unfold Store.verifyManualAction
  split
  · exact .refl store
  · split
    · exact reported_closeManualAction _ _ _ _ _ _ store
    · exact .refl store

/-! ## The service -/

/-- The operations that only report. -/
def Action.reports : Action → Bool
  | .process _ | .appendRecord _ _ _ _ | .resolveRemovedNetworkDevices _ _
  | .resolveLogIncident _ _ _ _ => false
  | _ => true

section Act

variable {service : Service}

theorem reported_readThen {incidentId : Text} {task : IncidentRow → Store → Option Task} :
    Reported service.store (service.readThen env now incidentId task).store := by
  have read := @reported_get env now incidentId service.store
  unfold Service.readThen
  dsimp only
  split
  · exact read
  · split <;> exact read

theorem reported_answerOf (request : RequestRow) (deviceId : Text) (choice : Choice) :
    Reported service.store (service.answerOf env now request deviceId choice).store := by
  unfold Service.answerOf
  split
  · exact .refl _
  · split
    · exact .refl _
    · exact .refl _
    · exact .refl _
    · dsimp only
      split
      · exact reported_readThen
      · split
        · exact reported_readThen
        · exact .refl _

theorem reported_respond (requestId deviceId : Text) (choice : Choice) :
    Reported service.store (service.respond env now requestId deviceId choice).store := by
  unfold Service.respond
  split
  · exact .refl _
  · rename_i request store read
    exact (reported_getUserRequest read).trans
      (@reported_answerOf env now { service with store } request deviceId choice)

theorem reported_resume (index : Nat) :
    Reported service.store (service.resume env now index).store := by
  unfold Service.resume
  split
  · exact .refl _
  · exact .transact fun _ _ => reported_proposeRepair
  · split
    · exact .refl _
    · rename_i authorized
      exact reported_decideRepair authorized rfl
  · exact .transact fun _ _ refused => reported_decideRepair refused rfl
  · exact .transact fun _ _ => reported_deferUserRequest
  · exact .transact fun _ _ => reported_answerUserRequest
  · exact .refl _
  · exact .transact fun _ _ => reported_markRepairExecuted
  · exact .transact fun _ _ => reported_markRepairExecutionFailed

theorem reported_execute (index : Nat) (execution : Execution) :
    Reported service.store (service.execute env now index execution).store := by
  have read : ∀ {incidentId : Text} {reply : Except Failure IncidentRow} {store : Store},
      service.store.get env now incidentId = (reply, store) → Reported service.store store := by
    intro incidentId reply store found
    have kept := @reported_get env now incidentId service.store
    rwa [found] at kept
  unfold Service.execute
  split
  · cases execution with
    | missing => exact .refl _
    | returned =>
        dsimp only
        split <;> exact read ‹_›
    | raised error =>
        dsimp only
        split <;> exact read ‹_›
  · exact .refl _

/-- One transition that only reports. -/
theorem reported_act {action : Action} (reports : action.reports = true) :
    Reported service.store (service.act env now action).store := by
  cases action with
  | process => contradiction
  | purgeProcessedObservations => exact .of_same rfl rfl
  | list => exact reported_expireRepairs _
  | get incidentId => exact reported_get incidentId _
  | listUserRequests => exact .of_same rfl rfl
  | getUserRequest => exact .transact fun _ _ => reported_getUserRequest
  | propose => exact reported_readThen
  | authorize => exact reported_readThen
  | refuse => exact reported_readThen
  | defer => exact reported_readThen
  | respond requestId deviceId choice => exact reported_respond requestId deviceId choice
  | resume index => exact reported_resume index
  | execute index execution => exact reported_execute index execution
  | declareManualResolution => exact .transact fun _ _ => reported_declareManualResolution
  | appendRecord => contradiction
  | proposeFollowup => exact .transact fun _ _ => reported_proposeFollowup
  | answerFollowup => exact .transact fun _ _ => reported_answerFollowup
  | updateFollowup => exact .transact fun _ _ => reported_updateFollowup
  | resolveRemovedNetworkDevices => contradiction
  | resolveLogIncident => contradiction
  | crash => exact .of_same rfl rfl

end Act

end OhanaAgent.Tsunade
