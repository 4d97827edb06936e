import OhanaAgent.Tsunade.Schema

/-!
# Deadlines applied by the sweep

Reads close the repairs and manual actions whose time has passed, each with an
event.  A proposal closes with its incident or its authorization request; an
executed repair and a declared action close at their verification deadline.
-/

namespace OhanaAgent.Tsunade

open OhanaAgent.Encoding.Json
open OhanaAgent.Store
open OhanaAgent.Time

/-- A JSON object written with string keys. -/
def object (fields : List (String × Value)) : Value :=
  .object (.ofList (fields.map fun field => (field.1.toList, field.2)))

/-- A JSON string. -/
def string (content : String) : Value :=
  .string content.toList

/-- A JSON boolean. -/
def boolean (flag : Bool) : Value :=
  .atom (if flag then .true else .false)

namespace Store

/-- `_event`. -/
def event (env : Environment) (incidentId : Text) (kind : EventKind) (occurredAt : Int)
    (summary : String) (payload : Value) (observation : Option Observation) (store : Store) :
    Store :=
  { store with
    events := store.events ++ [{
      incidentId
      kind
      occurredAt
      observationId := observation.map Observation.id
      status := observation.map Observation.status
      summary := env.redactText summary
      payload := env.redactValue payload }] }

end Store

/-! ## Repairs -/

/-- `REPAIR_VERIFICATION_SECONDS`. -/
def repairVerificationSeconds : Nat := 900

/-- A repair row that `_close_repair_locked` wrote. -/
def RepairRow.closed (status : RepairStatus) (now : Int) (result : String) (row : RepairRow) :
    RepairRow :=
  { row with status, verifiedAt := some now, result := some result }

/-- A pending request that refers to the action expires with it. -/
def RequestRow.expiredWith (reference : Text) (row : RequestRow) : RequestRow :=
  if row.actionReference = some reference ∧ row.state = .pending then
    { row with state := .expired }
  else row

theorem RequestRow.requestId_expiredWith (reference : Text) (row : RequestRow) :
    (row.expiredWith reference).requestId = row.requestId := by
  unfold RequestRow.expiredWith
  split <;> rfl

/-- The request is over, or its time has passed. -/
def RequestRow.over (now : Int) (row : RequestRow) : Bool :=
  match row.state with
  | .expired | .resolved | .cancelled => true
  | .pending => julianday row.expiresAt ≤ julianday now
  | .answered => false

/-- The verification deadline has passed; a row without one keeps the fixed
delay. -/
def RepairRow.overdue (now : Int) (row : RepairRow) : Bool :=
  match row.verificationDeadline, row.executedAt with
  | some deadline, _ => julianday deadline ≤ julianday now
  | none, some executedAt =>
      julianday executedAt ≤ julianday (now - seconds repairVerificationSeconds)
  | none, none => false

/-- `round` of a duration in minutes: to the even one in the middle. -/
def roundMinutes (duration : Int) : Int :=
  let whole := duration / minute
  let rest := 2 * (duration % minute)
  if rest < minute ∨ (rest = minute ∧ whole % 2 = 0) then whole else whole + 1

/-- The minutes an unverified repair reports. -/
def RepairRow.delayMinutes (row : RepairRow) : Int :=
  max 1 (roundMinutes (match row.verificationDeadline, row.executedAt with
    | some deadline, some executedAt => deadline - executedAt
    | _, _ => seconds repairVerificationSeconds))

namespace Store

/-- `_close_repair_locked`. -/
def closeRepair (env : Environment) (repairId incidentId : Text) (status : RepairStatus) (now : Int)
    (result : String) (kind : EventKind) (store : Store) : Store :=
  { store with
    repairs := store.repairs.modify repairId (RepairRow.closed status now result) fun _ => rfl
    requests := store.requests.mapRows (RequestRow.expiredWith repairId)
      (RequestRow.requestId_expiredWith repairId) }.event env incidentId kind now result
    (object [("repair_id", .string repairId), ("status", string status.text)]) none

/-- The requests joined to a repair, or one empty row. -/
def joinedRequests (store : Store) (repairId : Text) : List (Option RequestRow) :=
  match store.requests.rows.filter fun row => row.actionReference = some repairId with
  | [] => [none]
  | rows => rows.map some

/-- The proposals that can no longer be authorized, with their incidents. -/
def staleProposals (now : Int) (store : Store) : List (RepairRow × IncidentRow) :=
  store.repairs.rows.flatMap fun repair =>
    match store.incidents.find? repair.incidentId with
    | none => []
    | some incident =>
        (store.joinedRequests repair.repairId).flatMap fun request =>
          if repair.status = .proposed ∧
              (incident.endedAt.isSome = true ∨ request.any (RequestRow.over now) = true) then
            [(repair, incident)]
          else []

/-- The executed repairs past their deadline. -/
def overdueRepairs (now : Int) (store : Store) : List RepairRow :=
  store.repairs.rows.filter fun repair => repair.status = .verifying && repair.overdue now

end Store

/-! ## Manual actions -/

/-- A manual action that `_close_manual_action_locked` wrote. -/
def ManualRow.closed (status : ManualStatus) (now : Int) (result : String)
    (observation : Option Observation) (row : ManualRow) : ManualRow :=
  { row with
    status
    verifiedAt := some now
    result := some result
    observationId := observation.map Observation.id }

/-- The verification deadline has passed. -/
def ManualRow.overdue (now : Int) (row : ManualRow) : Bool :=
  julianday row.verificationDeadline ≤ julianday now

namespace Store

/-- `_close_manual_action_locked`. -/
def closeManualAction (env : Environment) (actionId incidentId : Text) (status : ManualStatus)
    (now : Int) (result : String) (observation : Option Observation) (store : Store) : Store :=
  { store with
    manualActions := store.manualActions.modify actionId
      (ManualRow.closed status now result observation) fun _ => rfl }.event env incidentId .result
    now result
    (object [("manual_action_id", .string actionId), ("status", string status.text),
      ("verified_by", string "shikamaru")]) observation

/-- The declared actions past their deadline. -/
def overdueManualActions (now : Int) (store : Store) : List ManualRow :=
  store.manualActions.rows.filter fun row => row.status = .verifying && row.overdue now

/-- `_expire_manual_actions_locked`. -/
def expireManualActions (env : Environment) (now : Int) (store : Store) : Store :=
  (store.overdueManualActions now).foldl (fun store row =>
    store.closeManualAction env row.actionId row.incidentId .unconfirmed now
      "Aucune observation Shikamaru n’a confirmé le retour à l’état sain après l’action déclarée."
      none) store

/-! ## The sweep -/

/-- The first loop of `_expire_repairs_locked`. -/
def expireProposals (env : Environment) (now : Int) (store : Store) : Store :=
  (store.staleProposals now).foldl (fun store row =>
    store.closeRepair env row.1.repairId row.1.incidentId .expired now
      (if row.2.endedAt.isSome then
        "L’incident s’est résolu avant toute autorisation ; aucune action n’a été exécutée."
      else "La demande d’autorisation a expiré ; aucune action n’a été exécutée.")
      .decision) store

/-- The last loop of `_expire_repairs_locked`, over the rows it selected. -/
def closeUnverified (env : Environment) (now : Int) (overdue : List RepairRow) (store : Store) :
    Store :=
  overdue.foldl (fun store row =>
    store.closeRepair env row.repairId row.incidentId .unverified now
      ("Aucune observation Shikamaru n’a confirmé le résultat dans les " ++
        toString row.delayMinutes ++ " minutes suivant l’exécution. La réparation " ++
        "n’est pas répétée automatiquement.")
      .result) store

/-- `_expire_repairs_locked`. -/
def expireRepairs (env : Environment) (now : Int) (store : Store) : Store :=
  let expired := store.expireProposals env now
  (expired.expireManualActions env now).closeUnverified env now (expired.overdueRepairs now)

end Store

/-! ## User requests -/

/-- The status a follow-up takes from its request. -/
def FollowupStatus.ofRequest : RequestState → FollowupStatus
  | .pending => .pending
  | .answered => .answered
  | .expired => .expired
  | .cancelled => .cancelled
  | .resolved => .resolved

/-- A pending request past its expiry. -/
def RequestRow.expiredAt (now : Int) (row : RequestRow) : RequestRow :=
  if row.state = .pending ∧ julianday row.expiresAt ≤ julianday now then
    { row with state := .expired }
  else row

theorem RequestRow.requestId_expiredAt (now : Int) (row : RequestRow) :
    (row.expiredAt now).requestId = row.requestId := by
  unfold RequestRow.expiredAt
  split <;> rfl

/-- A pending follow-up whose request is over takes its state. -/
def FollowupRow.followed (requests : Table RequestRow RequestRow.requestId) (row : FollowupRow) :
    FollowupRow :=
  match requests.find? row.requestId with
  | some request =>
      if row.status = .pending ∧ request.state ≠ .pending then
        { row with status := .ofRequest request.state }
      else row
  | none => row

theorem FollowupRow.requestId_followed (requests : Table RequestRow RequestRow.requestId)
    (row : FollowupRow) : (row.followed requests).requestId = row.requestId := by
  unfold FollowupRow.followed
  split
  · split <;> rfl
  · rfl

/-- `_expire_user_requests_locked`. -/
def Store.expireUserRequests (now : Int) (store : Store) : Store :=
  let requests := store.requests.mapRows (RequestRow.expiredAt now)
    (RequestRow.requestId_expiredAt now)
  { store with
    requests
    followups := store.followups.mapRows (FollowupRow.followed requests)
      (FollowupRow.requestId_followed requests) }

end OhanaAgent.Tsunade
