import OhanaAgent.Tsunade.Process

/-!
# Supervised repairs

A proposal waits for a human decision, an authorized repair for its executor,
and an executed repair for an observation.  Each definition is the locked part
of one repository method; its failure rolls the transaction back.
-/

namespace OhanaAgent.Tsunade

open OhanaAgent.Encoding.Json
open OhanaAgent.Store
open OhanaAgent.Time

namespace Store

/-- `get`: the sweep is committed whether the incident is known or not. -/
def get (env : Environment) (now : Int) (incidentId : Text) (store : Store) :
    Except Failure IncidentRow × Store :=
  let swept := store.expireRepairs env now
  match swept.incidents.find? incidentId with
  | none => (.error (.lookup "Unknown incident"), swept)
  | some incident => (.ok incident, swept)

/-- `_required_repair`. -/
def requiredRepair (repairId : Text) (store : Store) : Except Failure RepairRow :=
  match store.repairs.find? repairId with
  | none => .error (.lookup "Réparation inconnue")
  | some row => .ok row

/-- Insert a repair. -/
def insertRepair (row : RepairRow) (store : Store) : Except Failure Store :=
  match store.repairs.insert? row with
  | none => .error (.integrity "UNIQUE constraint failed: tsunade_repairs.repair_id")
  | some repairs => .ok { store with repairs }

/-- Insert a user request. -/
def insertRequest (row : RequestRow) (store : Store) : Except Failure Store :=
  match store.requests.insert? row with
  | none => .error (.integrity "UNIQUE constraint failed: tsunade_user_requests.request_id")
  | some requests => .ok { store with requests }

end Store

/-! ## Proposals -/

/-- The repair a proposal inserts. -/
def RepairSpec.repair (spec : RepairSpec) (repairId incidentId : Text) (now : Int)
    (known : Option KnownRepair) : RepairRow where
  repairId := repairId
  incidentId := incidentId
  operation := spec.operation
  target := spec.target
  risk := spec.risk
  status := .proposed
  proposedAt := now
  authorizedAt := none
  authorizationSource := none
  authorizedBy := none
  executedAt := none
  verificationDeadline := none
  verifiedAt := none
  result := none
  knownRepair := known
  experienceId := none

/-- The sentence that a known repair adds. -/
def trackRecord (known : Option KnownRepair) : String :=
  match known with
  | none => ""
  | some known => " " ++ known.trackRecord

/-- The authorization request a proposal inserts. -/
def RepairSpec.request (spec : RepairSpec) (requestId repairId : Text) (incident : IncidentRow)
    (now : Int) (known : Option KnownRepair) : RequestRow where
  requestId := requestId
  incidentId := incident.incidentId
  kind := .repairAuthorization
  context := String.ofList incident.equipmentId ++ " : " ++ incident.message ++ " Tsunade propose " ++
    spec.action ++ "." ++ trackRecord known
  question := spec.question
  choices := [.authorize, .refuse, .later]
  risk := spec.risk
  state := .pending
  createdAt := now
  expiresAt := now + 7 * day
  deferredUntil := none
  answeredAt := none
  answer := none
  answerSource := none
  answeredBy := none
  actionReference := some repairId

namespace Store

/-- The proposal or verification that keeps an incident from another one. -/
def existingRepair (incidentId : Text) (store : Store) : Option RepairRow :=
  newest (fun row => julianday row.proposedAt) (store.repairs.rows.filter fun row =>
    row.incidentId = incidentId && (row.status = .proposed || row.status = .verifying))

/-- The locked part of `propose_repair`. -/
def proposeRepair (env : Environment) (now : Int) (incident : IncidentRow) (spec : RepairSpec)
    (store : Store) : Except Failure (RepairRow × Store) :=
  match store.existingRepair incident.incidentId with
  | some existing => .ok (existing, store)
  | none => do
      let repairId := env.uuid store.uuids
      let requestId := env.uuid (store.uuids + 1)
      let known := env.knownRepair store.events store.experiences.rows incident spec
      let repair := spec.repair repairId incident.incidentId now known
      let withRepair ← { store with uuids := store.uuids + 2 }.insertRepair repair
      let withRequest ← withRepair.insertRequest (spec.request requestId repairId incident now known)
      return (repair, withRequest.event env incident.incidentId .action now
        ("Tsunade propose " ++ spec.action ++ "." ++ trackRecord known)
        (object [("repair_id", .string repairId),
          ("known_experience_id", match known with
            | none => .atom .null
            | some known => .string known.experienceId),
          ("operation", .string spec.operation), ("target", .string spec.target),
          ("risk", .string spec.risk), ("status", string "proposed"),
          ("authorized", boolean false), ("request_id", .string requestId)]) none)

/-! ## Decisions -/

/-- `_pending_proposal_locked`. -/
def pendingProposal (env : Environment) (now : Int) (repairId incidentId : Text) (store : Store) :
    Except Failure (RepairRow × Store) :=
  let swept := store.expireRepairs env now
  match swept.repairs.find? repairId with
  | none => .error (.lookup "Proposition de réparation inconnue")
  | some row =>
      if row.incidentId ≠ incidentId then .error (.lookup "Proposition de réparation inconnue")
      else if row.status = .expired then
        .error (.value
          "Cette proposition de réparation a expiré ; aucune action n’a été exécutée")
      else if row.status ≠ .proposed then
        .error (.value "Cette réparation n’attend plus de validation")
      else .ok (row, swept)

end Store

/-- The human decision on a proposal. -/
structure Decision where
  repairId : Text
  source : ValidationSource
  answeredBy : Text

/-- A repair that `authorize_repair` wrote. -/
def RepairRow.authorized (now : Int) (decision : Decision) (row : RepairRow) : RepairRow :=
  { row with
    status := .authorized
    authorizedAt := some now
    authorizationSource := some decision.source
    authorizedBy := some decision.answeredBy }

/-- A repair that `refuse_repair` wrote. -/
def RepairRow.refused (now : Int) (decision : Decision) (row : RepairRow) : RepairRow :=
  { row with
    status := .refused
    authorizedAt := some now
    authorizationSource := some decision.source
    authorizedBy := some decision.answeredBy
    result := some "Réparation refusée par l’utilisateur." }

/-- The pending requests of a decided repair are answered. -/
def RequestRow.decided (now : Int) (decision : Decision) (choice : Choice) (row : RequestRow) :
    RequestRow :=
  if row.actionReference = some decision.repairId ∧ row.state = .pending then
    { row with
      state := .answered
      answeredAt := some now
      answer := some choice
      answerSource := some decision.source.text
      answeredBy := some decision.answeredBy
      deferredUntil := none }
  else row

theorem RequestRow.requestId_decided (now : Int) (decision : Decision) (choice : Choice)
    (row : RequestRow) : (row.decided now decision choice).requestId = row.requestId := by
  unfold RequestRow.decided
  split <;> rfl

namespace Store

/-- What both decisions write: the repair, its requests and an event. -/
def decideRepair (env : Environment) (now : Int) (incidentId : Text) (decision : Decision)
    (choice : Choice) (write : RepairRow → RepairRow)
    (keeps : ∀ row, (write row).repairId = row.repairId) (kind : EventKind) (summary : String)
    (payload : Value) (store : Store) : Except Failure (RepairRow × Store) := do
  let (row, swept) ← store.pendingProposal env now decision.repairId incidentId
  return (write row, { swept with
    repairs := swept.repairs.modify decision.repairId write keeps
    requests := swept.requests.mapRows (RequestRow.decided now decision choice)
      (RequestRow.requestId_decided now decision choice) }.event env incidentId kind now summary
    payload none)

/-- The locked part of `authorize_repair`. -/
def authorizeRepair (env : Environment) (now : Int) (incidentId : Text) (decision : Decision) :
    Store → Except Failure (RepairRow × Store) :=
  decideRepair env now incidentId decision .authorize (RepairRow.authorized now decision)
    (fun _ => rfl) .action ("Réparation autorisée depuis " ++ decision.source.title ++ ".")
    (object [("repair_id", .string decision.repairId), ("authorized", boolean true),
      ("authorization_source", string decision.source.text),
      ("authorized_by", .string decision.answeredBy)])

/-- The locked part of `refuse_repair`. -/
def refuseRepair (env : Environment) (now : Int) (incidentId : Text) (decision : Decision) :
    Store → Except Failure (RepairRow × Store) :=
  decideRepair env now incidentId decision .refuse (RepairRow.refused now decision)
    (fun _ => rfl) .decision ("Réparation refusée depuis " ++ decision.source.title ++ ".")
    (object [("repair_id", .string decision.repairId), ("authorized", boolean false),
      ("authorization_source", string decision.source.text),
      ("answered_by", .string decision.answeredBy)])

/-! ## Execution -/

/-- The observation events of an incident, latest first. -/
def observedEvents (incidentId : Text) (store : Store) : List Event :=
  (store.events.filter fun event =>
    event.incidentId = incidentId && event.observationId.isSome).insertionSort fun first second =>
      julianday second.occurredAt ≤ julianday first.occurredAt

/-- `_verification_seconds_locked`. -/
def verificationSeconds (incidentId : Text) (store : Store) : Nat :=
  match store.observedEvents incidentId with
  | latest :: previous :: _ =>
      let interval := latest.occurredAt - previous.occurredAt
      if interval ≤ 0 then repairVerificationSeconds
      else (min (max (3 * interval) (seconds 300)) (seconds 1800) / second).toNat
  | _ => repairVerificationSeconds

end Store

/-- A repair that `mark_repair_executed` wrote. -/
def RepairRow.executed (now : Int) (delay : Nat) (row : RepairRow) : RepairRow :=
  { row with
    status := .verifying
    executedAt := some now
    verificationDeadline := some (now + seconds delay) }

/-- A repair that `mark_repair_execution_failed` wrote. -/
def RepairRow.executionFailed (now : Int) (detail : String) (row : RepairRow) : RepairRow :=
  { row with
    status := .failed
    executedAt := some now
    verifiedAt := some now
    result := some detail }

namespace Store

/-- The transaction of `mark_repair_executed`. -/
def markRepairExecuted (env : Environment) (now : Int) (repairId : Text) (store : Store) :
    Except Failure (Unit × Store) := do
  let row ← store.requiredRepair repairId
  if row.authorizedAt = none ∨ row.status ≠ .authorized then
    throw (.value "La réparation n’est pas autorisée")
  else
    let delay := store.verificationSeconds row.incidentId
    let counted := store.countExperienceAttempt row now
    return ((), { counted with
      repairs := counted.repairs.modify repairId (RepairRow.executed now delay)
        fun _ => rfl }.event env row.incidentId .action now
      "Réparation exécutée ; Shikamaru doit maintenant vérifier la capacité."
      (object [("repair_id", .string repairId), ("status", string "verifying"),
        ("verification_seconds", .number (.ofNat delay))]) none)

/-- The transaction of `mark_repair_execution_failed`; it does not look at the
status of the repair. -/
def markRepairExecutionFailed (env : Environment) (now : Int) (repairId : Text) (error : String)
    (store : Store) : Except Failure (Unit × Store) := do
  let detail := String.ofList ((env.redactText error).toList.take 1000)
  let row ← store.requiredRepair repairId
  let counted := if row.experienceId = none then store.countExperienceAttempt row now else store
  let counted ← counted.requiredRepair repairId >>= fun row =>
    .ok (counted.countExperienceOutcome row now false)
  return ((), { counted with
    repairs := counted.repairs.modify repairId (RepairRow.executionFailed now detail)
      fun _ => rfl }.event env row.incidentId .result now
    ("Échec de l’exécution de la réparation : " ++ detail)
    (object [("repair_id", .string repairId), ("status", string "failed")]) none)

end Store

end OhanaAgent.Tsunade
