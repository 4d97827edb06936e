import OhanaAgent.Tsunade.Repairs

/-!
# User requests, follow-ups, manual resolutions and other closings

The remaining repository methods that write the requests, the manual actions or
the incidents.  Each definition is the transaction of one method.
-/

namespace OhanaAgent.Tsunade

open OhanaAgent.Encoding.Json
open OhanaAgent.Store
open OhanaAgent.Time

/-- `TsunadeUserRequestResponse`. -/
structure Response where
  choice : Choice
  source : ValidationSource
  answeredBy : Text

/-- A request that a response answered. -/
def RequestRow.answered (now : Int) (choice : Choice) (source : String) (answeredBy : Text)
    (row : RequestRow) : RequestRow :=
  { row with
    state := .answered
    answeredAt := some now
    answer := some choice
    answerSource := some source
    answeredBy := some answeredBy
    deferredUntil := none }

/-- A request whose decision was reported. -/
def RequestRow.deferred (until_ : Int) (row : RequestRow) : RequestRow :=
  { row with deferredUntil := some until_ }

/-- A pending follow-up takes the status of its answer. -/
def FollowupRow.settled (status : FollowupStatus) (row : FollowupRow) : FollowupRow :=
  if row.status = .pending then { row with status } else row

theorem FollowupRow.requestId_settled (status : FollowupStatus) (row : FollowupRow) :
    (row.settled status).requestId = row.requestId := by
  unfold FollowupRow.settled
  split <;> rfl

/-- An incident with the result of a record. -/
def IncidentRow.recorded (result : String) (row : IncidentRow) : IncidentRow :=
  { row with finalResult := some result }

def removedResult : String :=
  "La surveillance de cette capacité a été retirée de l’architecture."

/-- An incident whose capability is no longer monitored. -/
def IncidentRow.removed (occurredAt : Int) (row : IncidentRow) : IncidentRow :=
  { row with
    endedAt := some occurredAt
    message := removedResult
    finalResult := some removedResult }

/-- An incident that a log review closed. -/
def IncidentRow.logResolved (occurredAt : Int) (jobId : Text) (result : String)
    (row : IncidentRow) : IncidentRow :=
  { row with
    endedAt := some occurredAt
    lastObservedAt := occurredAt
    lastObservationId := jobId
    message := result
    finalResult := some result }

theorem RequestRow.requestId_resolvedBy (incident : IncidentRow) (row : RequestRow) :
    (RequestRow.resolvedWith incident.incidentId row).requestId = row.requestId :=
  requestId_resolvedWith incident.incidentId row

theorem IncidentRow.incidentId_logResolved (occurredAt : Int) (jobId : Text) (result : String)
    (row : IncidentRow) : (row.logResolved occurredAt jobId result).incidentId = row.incidentId :=
  rfl

namespace Store

/-! ## User requests -/

/-- `_required_user_request`. -/
def requiredUserRequest (requestId : Text) (store : Store) : Except Failure RequestRow :=
  match store.requests.find? requestId with
  | none => .error (.lookup "Demande Tsunade inconnue")
  | some row => .ok row

/-- `_required_pending_user_request`; what it writes before it raises is rolled
back with the transaction. -/
def requiredPendingUserRequest (requestId : Text) (store : Store) : Except Failure RequestRow := do
  let row ← store.requiredUserRequest requestId
  if row.state ≠ .pending then
    throw (.value "Cette demande Tsunade n’attend plus de réponse")
  else
    match store.incidents.find? row.incidentId with
    | none => throw (.value "L’incident est déjà résolu")
    | some incident =>
        if incident.endedAt.isSome then throw (.value "L’incident est déjà résolu")
        else return row

/-- `get_user_request`. -/
def getUserRequest (now : Int) (requestId : Text) (store : Store) :
    Except Failure (RequestRow × Store) := do
  let expired := store.expireUserRequests now
  let row ← expired.requiredUserRequest requestId
  return (row, expired)

/-- The payload of a decision event. -/
def responsePayload (requestId : Text) (response : Response) : Value :=
  object [("request_id", .string requestId), ("choice", string response.choice.text),
    ("source", string response.source.text), ("answered_by", .string response.answeredBy)]

/-- `defer_user_request`. -/
def deferUserRequest (env : Environment) (now : Int) (requestId : Text) (response : Response)
    (store : Store) : Except Failure (RequestRow × Store) := do
  if response.choice ≠ .later then
    throw (.value "Cette réponse ne constitue pas un report")
  else
    let expired := store.expireUserRequests now
    let row ← expired.requiredPendingUserRequest requestId
    if response.choice ∉ row.choices then
      throw (.value "Cette réponse n’est pas proposée par Tsunade")
    else
      let write := RequestRow.deferred (min (now + hour) row.expiresAt)
      return (write row, { expired with
        requests := expired.requests.modify requestId write fun _ => rfl }.event env
        row.incidentId .decision now "La décision a été reportée par l’utilisateur."
        (responsePayload requestId response) none)

/-- `answer_user_request`. -/
def answerUserRequest (env : Environment) (now : Int) (requestId : Text) (response : Response)
    (store : Store) : Except Failure (RequestRow × Store) :=
  if response.choice = .later then store.deferUserRequest env now requestId response
  else do
    let expired := store.expireUserRequests now
    let row ← expired.requiredPendingUserRequest requestId
    if response.choice ∉ row.choices then
      throw (.value "Cette réponse n’est pas proposée par Tsunade")
    else
      let answer := RequestRow.answered now response.choice response.source.text
        response.answeredBy
      return (answer row, { expired with
        requests := expired.requests.modify requestId answer fun _ => rfl }.event env
        row.incidentId .decision now
        ("Réponse utilisateur enregistrée : " ++ response.choice.text ++ ".")
        (responsePayload requestId response) none)

/-! ## Follow-ups -/

/-- A follow-up that is not over. -/
def followupActive : FollowupStatus → Bool
  | .pending | .authorized | .queued | .reviewing => true
  | _ => false

/-- `propose_followup`, with the texts of its request. -/
def proposeFollowup (env : Environment) (now : Int) (incidentId originJobId basis : Text)
    (reason question : String) (store : Store) :
    Except Failure (Option FollowupRow × Store) := do
  let requestId := env.uuid store.uuids
  let known : Bool := match store.incidents.find? incidentId with
    | none => false
    | some incident => incident.endedAt.isNone
  let taken := store.followups.rows.any fun row => row.incidentId = incidentId &&
    (row.basis = basis || row.originJobId = originJobId || followupActive row.status)
  if known = false ∨ taken = true then return (none, store)
  else if store.followups.rows.any fun row => row.originJobId = originJobId then
    throw (.integrity "UNIQUE constraint failed: tsunade_followups.origin_job_id")
  else
    let followup : FollowupRow := ⟨requestId, incidentId, basis, originJobId, .pending, now,
      none⟩
    match store.followups.insert? followup with
    | none => throw (.integrity "UNIQUE constraint failed: tsunade_followups.request_id")
    | some followups =>
        let withRequest ← { store with followups, uuids := store.uuids + 1 }.insertRequest {
          requestId
          incidentId
          kind := .investigationAuthorization
          context := reason
          question
          choices := [.authorize, .refuse, .later]
          risk := "low".toList
          state := .pending
          createdAt := now
          expiresAt := now + day
          deferredUntil := none
          answeredAt := none
          answer := none
          answerSource := none
          answeredBy := none
          actionReference := some requestId }
        return (some followup, withRequest.event env incidentId .action now
          "Une collecte complémentaire attend votre autorisation."
          (object [("request_id", .string requestId), ("operation", string "logs.investigate"),
            ("status", string "pending"), ("authorized", boolean false)]) none)

/-- `answer_followup`; `source` is the answer source and `summary` the text of
its event. -/
def answerFollowup (env : Environment) (now : Int) (requestId : Text) (choice : Choice)
    (deviceId : Text) (planned : Bool) (source summary : String) (store : Store) :
    Except Failure (Unit × Store) := do
  if choice ≠ .authorize ∧ choice ≠ .refuse then
    throw (.value "Cette réponse n’est pas valable pour l’investigation")
  else
    let expired := store.expireUserRequests now
    let row ← expired.requiredPendingUserRequest requestId
    if row.kind ≠ .investigationAuthorization then
      throw (.value "Cette demande ne concerne pas une investigation")
    else if choice = .authorize ∧ planned = false then
      throw (.value "Le plan d’investigation est indisponible")
    else
      let status := if choice = .authorize then FollowupStatus.authorized else .refused
      return ((), { expired with
        followups := expired.followups.modify requestId
          (FollowupRow.settled status) (FollowupRow.requestId_settled status)
        requests := expired.requests.modify requestId
          (RequestRow.answered now choice source deviceId) fun _ => rfl }.event env
        row.incidentId .decision now summary
        (object [("request_id", .string requestId),
          ("authorized", boolean (choice = Choice.authorize)), ("source", string source),
          ("answered_by", .string deviceId)]) none)

/-- The detail of a follow-up, as `_followup` gives it. -/
def shownDetail (env : Environment) (row : FollowupRow) : Option String :=
  row.detail.map fun detail => if detail = "" then "" else env.redactText detail

/-- `update_followup`; an update that changes nothing tells nothing. -/
def updateFollowup (env : Environment) (now : Int) (requestId : Text) (status : FollowupStatus)
    (detail : String) (store : Store) : Except Failure (Unit × Store) :=
  match store.followups.find? requestId with
  | none => .error (.lookup "Investigation complémentaire inconnue")
  | some row =>
      let safe := env.redactText detail
      if row.status = status ∧ shownDetail env row = some safe then .ok ((), store)
      else .ok ((), { store with
        followups := store.followups.modify requestId
          (fun row => { row with status, detail := some safe }) fun _ => rfl
        }.event env row.incidentId .investigation now safe
        (object [("request_id", .string requestId), ("status", string status.text)]) none)

/-! ## Manual resolutions -/

/-- `TsunadeManualResolutionRequest`. -/
structure ManualRequest where
  description : String
  declaredBy : Option Text
  source : ValidationSource

/-- Insert a manual action. -/
def insertManualAction (row : ManualRow) (store : Store) : Except Failure Store :=
  match store.manualActions.insert? row with
  | none => .error (.integrity "UNIQUE constraint failed: tsunade_manual_actions.action_id")
  | some manualActions => .ok { store with manualActions }

/-- `MANUAL_LATE_DECLARATION_SECONDS`. -/
def manualLateDeclarationSeconds : Nat := 600

/-- `_declare_after_resolution_locked`; `result` says when the recovery was
seen. -/
def declareAfterResolution (env : Environment) (now : Int) (incident : IncidentRow) (endedAt : Int)
    (request : ManualRequest) (result : String) (store : Store) :
    Except Failure (ManualRow × Store) := do
  if seconds manualLateDeclarationSeconds < now - endedAt then
    throw (.value ("Une résolution manuelle se déclare au plus tard 10 minutes " ++
      "après la résolution de l’incident"))
  else if store.manualActions.rows.any (fun row => row.incidentId = incident.incidentId) then
    throw (.value "Une action manuelle est déjà déclarée sur cet incident")
  else if store.repairs.rows.any (fun row => row.incidentId = incident.incidentId &&
      row.status = .succeeded) then
    throw (.value "Cet incident a été résolu par une réparation supervisée vérifiée")
  else
    let action : ManualRow := {
      actionId := env.uuid store.uuids
      incidentId := incident.incidentId
      description := env.redactText request.description
      declaredAt := now
      declaredBy := request.declaredBy
      source := request.source
      status := .confirmed
      verificationDeadline := now
      verifiedAt := some endedAt
      result := some result
      observationId := some incident.lastObservationId }
    let inserted ← { store with uuids := store.uuids + 1 }.insertManualAction action
    return (action, inserted.event env incident.incidentId .action now
      ("Action manuelle déclarée après la résolution : « " ++ action.description ++
        " ». Ohana n’exécute rien.")
      (object [("manual_action_id", .string action.actionId), ("status", string "confirmed")]) none)

/-- `declare_manual_resolution`. -/
def declareManualResolution (env : Environment) (now : Int) (incidentId : Text)
    (request : ManualRequest) (lateResult : String) (store : Store) :
    Except Failure (ManualRow × Store) :=
  match store.incidents.find? incidentId with
  | none => .error (.lookup "Unknown incident")
  | some incident =>
      match incident.endedAt with
      | some endedAt => store.declareAfterResolution env now incident endedAt request lateResult
      | none => do
          if store.manualActions.rows.any (fun row => row.incidentId = incidentId &&
              row.status = .verifying) then
            throw (.value "Une action manuelle attend déjà la vérification de Shikamaru")
          else
            let delay := store.verificationSeconds incidentId
            let action : ManualRow := {
              actionId := env.uuid store.uuids
              incidentId := incidentId
              description := env.redactText request.description
              declaredAt := now
              declaredBy := request.declaredBy
              source := request.source
              status := .verifying
              verificationDeadline := now + seconds delay
              verifiedAt := none
              result := none
              observationId := none }
            let inserted ← { store with uuids := store.uuids + 1 }.insertManualAction action
            return (action, inserted.event env incidentId .action now
              ("Action manuelle déclarée : « " ++ action.description ++ " ». Ohana n’exécute " ++
                "rien ; Shikamaru doit vérifier le retour à l’état sain.")
              (object [("manual_action_id", .string action.actionId),
                ("status", string "verifying"),
                ("verification_seconds", .number (.ofNat delay))]) none)

/-! ## Records and other closings -/

/-- The transaction of `append_record`. -/
def appendRecord (env : Environment) (now : Int) (incidentId : Text) (kind : EventKind)
    (summary : String) (payload : Value) (store : Store) : Store :=
  let recorded := store.event env incidentId kind now (env.redactText summary)
    (env.redactValue payload) none
  if kind = .result then
    { recorded with
      incidents := recorded.incidents.modify incidentId
        (IncidentRow.recorded (env.redactText summary)) fun _ => rfl }
  else recorded

/-- The presence incidents of the removed devices that are still active. -/
def removedIncidents (deviceIds : List Text) (store : Store) : List IncidentRow :=
  store.incidents.rows.filter fun row =>
    row.key.capability = "network.reachable".toList && row.endedAt.isNone &&
      deviceIds.contains row.key.service

/-- `resolve_removed_network_devices`; each closing ends with a read. -/
def resolveRemovedNetworkDevices (env : Environment) (now : Int) (deviceIds : List Text)
    (occurredAt : Int) (store : Store) : Store :=
  (store.removedIncidents deviceIds).foldl (fun store incident =>
    ({ store with
      incidents := store.incidents.modify incident.incidentId
        (IncidentRow.removed occurredAt) fun _ => rfl }.event env incident.incidentId
      .monitoringRemoved occurredAt removedResult
      (object [("reason", string "architecture_removed")]) none).expireRepairs env now) store

/-- `_resolve_log_incident` on the active incident of a log source. -/
def resolveLogIncident (env : Environment) (occurredAt : Int) (key : Key) (jobId : Text)
    (result : String) (source : Value) (store : Store) : Store :=
  match store.active key with
  | none => store
  | some incident =>
      { store with
        incidents := store.incidents.modify incident.incidentId
          (IncidentRow.logResolved occurredAt jobId result)
          (IncidentRow.incidentId_logResolved occurredAt jobId result)
        requests := store.requests.mapRows (RequestRow.resolvedWith incident.incidentId)
          (RequestRow.requestId_resolvedBy incident) }.event env incident.incidentId
        .resolved occurredAt result
        (object [("job_id", .string jobId), ("result", source)]) none

end Store

end OhanaAgent.Tsunade
