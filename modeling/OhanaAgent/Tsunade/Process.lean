import OhanaAgent.Store.Transaction
import OhanaAgent.Tsunade.Sweep
import Mathlib.Data.List.Sort

/-!
# Applying an observation

`process` deduplicates an observation by its identifier and by the timestamp of
the stored capability state, concludes the verification it can decide, and
opens, updates or resolves the incident of its capability.
-/

namespace OhanaAgent.Tsunade

open OhanaAgent.Encoding.Json
open OhanaAgent.Store
open OhanaAgent.Time

/-! ## Experience counters -/

/-- An experience with one more execution. -/
def ExperienceRow.attempted (now : Int) (row : ExperienceRow) : ExperienceRow :=
  { row with attemptCount := row.attemptCount + 1, lastUsedAt := now }

/-- An experience with one more outcome. -/
def ExperienceRow.concluded (at_ : Int) (succeeded : Bool) (row : ExperienceRow) : ExperienceRow :=
  if succeeded then
    { row with successCount := row.successCount + 1, lastSuccessAt := some at_ }
  else { row with failureCount := row.failureCount + 1, lastFailureAt := some at_ }

theorem ExperienceRow.experienceId_concluded (at_ : Int) (succeeded : Bool) (row : ExperienceRow) :
    (row.concluded at_ succeeded).experienceId = row.experienceId := by
  unfold ExperienceRow.concluded
  split <;> rfl

namespace Store

/-- The active known repair that an execution reproduces. -/
def attemptedExperience (repair : RepairRow) (store : Store) : Option ExperienceRow :=
  match store.incidents.find? repair.incidentId with
  | none => none
  | some incident =>
      newest (fun row => julianday row.lastUsedAt) (store.experiences.rows.filter fun row =>
        row.equipmentId = incident.equipmentId && row.capabilityId = incident.key.capability &&
          row.active && row.operation = some repair.operation && row.target = some repair.target)

/-- `_count_experience_attempt_locked`. -/
def countExperienceAttempt (repair : RepairRow) (now : Int) (store : Store) : Store :=
  match store.attemptedExperience repair with
  | none => store
  | some experience =>
      { store with
        experiences := store.experiences.modify experience.experienceId
          (ExperienceRow.attempted now) fun _ => rfl
        repairs := store.repairs.modify repair.repairId
          (fun row => { row with experienceId := some experience.experienceId }) fun _ => rfl }

/-- `_count_experience_outcome_locked`. -/
def countExperienceOutcome (repair : RepairRow) (at_ : Int) (succeeded : Bool) (store : Store) :
    Store :=
  match repair.experienceId with
  | none => store
  | some experienceId =>
      { store with
        experiences := store.experiences.modify experienceId
          (ExperienceRow.concluded at_ succeeded)
          (ExperienceRow.experienceId_concluded at_ succeeded) }

end Store

/-! ## Verifications -/

/-- `REPAIR_SETTLE_SECONDS` and `MANUAL_SETTLE_SECONDS`. -/
def settleSeconds : Nat := 60

/-- The observation can conclude what started at an instant: it is later, and a
failure is not seen while the service may still be starting. -/
def Observation.Concludes (observation : Observation) (startedAt : Int) (succeeded : Bool) : Prop :=
  startedAt < observation.timestamp ∧
    (succeeded = false → startedAt + seconds settleSeconds ≤ observation.timestamp)

instance (observation : Observation) (startedAt : Int) (succeeded : Bool) :
    Decidable (observation.Concludes startedAt succeeded) :=
  inferInstanceAs (Decidable (_ ∧ _))

namespace Store

/-- The repair of an incident that awaits its verification. -/
def verifyingRepair (incidentId : Text) (store : Store) : Option RepairRow :=
  newest (fun row => julianday (row.executedAt.getD 0)) (store.repairs.rows.filter fun row =>
    row.incidentId = incidentId && row.status = .verifying)

/-- `_verify_pending_repair`. -/
def verifyPendingRepair (env : Environment) (incident : IncidentRow) (observation : Observation)
    (succeeded : Bool) (store : Store) : Store :=
  match store.verifyingRepair incident.incidentId with
  | none => store
  | some row =>
      if observation.Concludes (row.executedAt.getD 0) succeeded then
        let status := if succeeded then RepairStatus.succeeded else .failed
        let result :=
          if succeeded then "Shikamaru confirme que la capacité est redevenue saine."
          else "Shikamaru observe encore une capacité dégradée après la réparation."
        let counted := store.countExperienceOutcome row observation.timestamp succeeded
        { counted with
          repairs := counted.repairs.modify row.repairId
            (RepairRow.closed status observation.timestamp result) fun _ => rfl }.event env
          incident.incidentId .result observation.timestamp result
          (object [("repair_id", .string row.repairId), ("status", string status.text),
            ("verified_by", string "shikamaru")]) (some observation)
      else store

/-- The manual action of an incident that awaits its verification. -/
def verifyingManualAction (incidentId : Text) (store : Store) : Option ManualRow :=
  newest (fun row => julianday row.declaredAt) (store.manualActions.rows.filter fun row =>
    row.incidentId = incidentId && row.status = .verifying)

/-- `_verify_manual_action`. -/
def verifyManualAction (env : Environment) (incident : IncidentRow) (observation : Observation)
    (succeeded : Bool) (store : Store) : Store :=
  match store.verifyingManualAction incident.incidentId with
  | none => store
  | some row =>
      if observation.Concludes row.declaredAt succeeded then
        store.closeManualAction env row.actionId row.incidentId
          (if succeeded then .confirmed else .unconfirmed) observation.timestamp
          (if succeeded then
            "Shikamaru observe un retour à l’état sain après l’action déclarée. " ++
              "Cette succession ne prouve pas à elle seule que l’action en est la cause."
          else "Shikamaru observe encore une capacité dégradée après l’action déclarée.")
          (some observation)
      else store

end Store

/-! ## The incident of a capability -/

/-- `_open` writes this row. -/
def Observation.incident (env : Environment) (observation : Observation) (severity : Severity)
    (incidentId : Text) (recurrence : Nat) : IncidentRow where
  incidentId := incidentId
  key := observation.key
  equipmentId := observation.deviceId.getD observation.key.node
  severity := severity
  startedAt := observation.timestamp
  lastObservedAt := observation.timestamp
  endedAt := none
  lastObservationId := observation.id
  message := env.redactText observation.message
  occurrenceCount := 1
  recurrenceCount := recurrence
  finalResult := none

/-- `_update` writes this row. -/
def IncidentRow.updated (env : Environment) (observation : Observation) (severity : Severity)
    (row : IncidentRow) : IncidentRow :=
  { row with
    severity
    lastObservedAt := observation.timestamp
    lastObservationId := observation.id
    message := env.redactText observation.message
    occurrenceCount := row.occurrenceCount + 1 }

def resolvedResult : String := "La capacité est revenue à un état sain."

/-- `_resolve` writes this row. -/
def IncidentRow.resolved (env : Environment) (observation : Observation) (row : IncidentRow) :
    IncidentRow :=
  { row with
    endedAt := some observation.timestamp
    lastObservedAt := observation.timestamp
    lastObservationId := observation.id
    message := env.redactText observation.message
    finalResult := some resolvedResult }

/-- A pending request of the incident is resolved with it. -/
def RequestRow.resolvedWith (incidentId : Text) (row : RequestRow) : RequestRow :=
  if row.incidentId = incidentId ∧ row.state = .pending then { row with state := .resolved }
  else row

theorem RequestRow.requestId_resolvedWith (incidentId : Text) (row : RequestRow) :
    (row.resolvedWith incidentId).requestId = row.requestId := by
  unfold RequestRow.resolvedWith
  split <;> rfl

namespace Store

/-- `_active`. -/
def active (key : Key) (store : Store) : Option IncidentRow :=
  store.incidents.rows.find? fun row => row.key = key && row.endedAt.isNone

/-- Insert an incident; its capability has no other active one. -/
def insertIncident (row : IncidentRow) (store : Store) : Except Failure Store :=
  if (store.active row.key).isSome then
    .error (.integrity "UNIQUE constraint failed: tsunade_active_capability")
  else
    match store.incidents.insert? row with
    | none => .error (.integrity "UNIQUE constraint failed: tsunade_incidents.incident_id")
    | some incidents => .ok { store with incidents }

/-- `_open`. -/
def openIncident (env : Environment) (now : Int) (observation : Observation) (severity : Severity)
    (previousStatus : String) (store : Store) : Except Failure (Option IncidentRow × Store) := do
  let incidentId := env.uuid store.uuids
  let recurrence := store.incidents.rows.countP fun row => row.key = observation.key
  let inserted ← { store with uuids := store.uuids + 1 }.insertIncident
    (observation.incident env severity incidentId recurrence)
  let swept := (inserted.event env incidentId .opened observation.timestamp
    (env.redactText observation.message)
    (object [("from", string previousStatus), ("to", string severity.text)])
    (some observation)).expireRepairs env now
  return (swept.incidents.find? incidentId, swept)

/-- `_update`. -/
def updateIncident (env : Environment) (now : Int) (incident : IncidentRow)
    (observation : Observation) (severity : Severity) (store : Store) : Option IncidentRow × Store :=
  let kind := if incident.severity = .degraded ∧ severity = .critical then EventKind.escalated
    else .observed
  let swept := ({ store with
    incidents := store.incidents.modify incident.incidentId
      (IncidentRow.updated env observation severity) fun _ => rfl }.event env incident.incidentId
    kind observation.timestamp (env.redactText observation.message)
    (object [("from", string incident.severity.text), ("to", string severity.text)])
    (some observation)).expireRepairs env now
  (swept.incidents.find? incident.incidentId, swept)

/-- `_resolve`. -/
def resolveIncident (env : Environment) (now : Int) (incident : IncidentRow)
    (observation : Observation) (store : Store) : Option IncidentRow × Store :=
  let ended := { store with
    incidents := store.incidents.modify incident.incidentId
      (IncidentRow.resolved env observation) fun _ => rfl
    requests := store.requests.mapRows (RequestRow.resolvedWith incident.incidentId)
      (RequestRow.requestId_resolvedWith incident.incidentId) }
  -- a proposal never outlives its incident: it closes before the event
  let swept := ((ended.expireRepairs env observation.timestamp).event env incident.incidentId
    .resolved observation.timestamp (env.redactText observation.message)
    (object [("from", string incident.severity.text), ("to", string "healthy"),
      ("result", string resolvedResult)]) (some observation)).expireRepairs env now
  (swept.incidents.find? incident.incidentId, swept)

/-- `_write_state`. -/
def writeState (observation : Observation) (store : Store) : Store :=
  { store with
    states := Function.update store.states observation.key
      (some ⟨observation.status, observation.timestamp, observation.id⟩) }

/-- `_mark_processed`. -/
def markProcessed (now : Int) (observationId : Text) (store : Store) : Store :=
  { store with processed := Function.update store.processed observationId (some now) }

/-! ## The purge of identifiers -/

/-- `PROCESSED_OBSERVATION_RETENTION`. -/
def processedRetention : Int := day

/-- `purge_processed_observations`. -/
def purgeProcessedObservations (now : Int) (store : Store) : Store :=
  { store with
    processed := fun id => (store.processed id).filter fun processedAt =>
      julianday (now - processedRetention) ≤ julianday processedAt }

/-- `_purge_processed_if_due`. -/
def purgeProcessedIfDue (env : Environment) (now : Int) (store : Store) : Store :=
  let today := env.paris.wall now / day
  if store.purgedOn = some today then store
  else { store.purgeProcessedObservations now with purgedOn := some today }

/-! ## Processing -/

/-- The observation comes before the stored state of its capability. -/
def Late (observation : Observation) (store : Store) : Prop :=
  ∃ state, store.states observation.key = some state ∧ observation.timestamp < state.observedAt

instance (observation : Observation) (store : Store) : Decidable (store.Late observation) :=
  match found : store.states observation.key with
  | none => isFalse (by simp [Late, found])
  | some state =>
      decidable_of_iff (observation.timestamp < state.observedAt) (by simp [Late, found])

/-- What an accepted observation does to the incident of its capability. -/
def applyObservation (env : Environment) (now : Int) (observation : Observation) (store : Store) :
    Except Failure (Option IncidentRow × Store) :=
  match observation.status.fault?, store.active observation.key with
  | some severity, none =>
      store.openIncident env now observation severity
        (match store.states observation.key with
          | none => "unknown"
          | some state => state.status.text)
  | some severity, some incident =>
      .ok (((store.verifyPendingRepair env incident observation false).verifyManualAction env
        incident observation false).updateIncident env now incident observation severity)
  | none, some incident =>
      if observation.status = .healthy then
        .ok (((store.verifyPendingRepair env incident observation true).verifyManualAction env
          incident observation true).resolveIncident env now incident observation)
      else .ok (none, store)
  | none, none => .ok (none, store)

/-- The transaction of `process`. -/
def processLocked (env : Environment) (now : Int) (observation : Observation) (store : Store) :
    Except Failure (Option IncidentRow × Store) :=
  if (store.processed observation.id).isSome then .ok (none, store)
  else if store.Late observation then .ok (none, store.markProcessed now observation.id)
  else do
    let (incident, applied) ← store.applyObservation env now observation
    return (incident, (applied.writeState observation).markProcessed now observation.id)

/-- `process`. -/
def process (env : Environment) (now : Int) (observation : Observation) (store : Store) :
    Except Failure (Option IncidentRow) × Store :=
  commit (processLocked env now observation) (store.purgeProcessedIfDue env now)

end Store

/-! ## The active incident -/

theorem active_eq_some {store : Store} {key : Key} {incident : IncidentRow}
    (found : store.active key = some incident) :
    incident ∈ store.incidents ∧ incident.key = key ∧ incident.endedAt = none := by
  have holds := List.find?_some found
  simp only [Bool.and_eq_true, decide_eq_true_eq, Option.isNone_iff_eq_none] at holds
  exact ⟨List.mem_of_find?_eq_some found, holds⟩

theorem active_eq_none {store : Store} {key : Key} (idle : store.active key = none) :
    ¬ ∃ row ∈ store.incidents, row.key = key ∧ row.endedAt = none := by
  rintro ⟨row, member, same, ongoing⟩
  simpa [same, ongoing] using List.find?_eq_none.mp idle row member

end OhanaAgent.Tsunade
