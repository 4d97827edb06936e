import OhanaAgent.Tsunade.Requests
import OhanaAgent.Transition.Run

/-!
# The service and its clients

The administration and companion clients call the service concurrently.  A call
that first reads and then writes is a task between its two locked parts, and an
authorized repair is a task while its executor runs.  A transition is one locked
part, one call of an executor, or a crash that loses every task.  The reviews of
the logs, the acceptance of their findings and the confirmation of experiences
are modelled apart.
-/

namespace OhanaAgent.Tsunade

open OhanaAgent.Encoding.Json
open OhanaAgent.Store
open OhanaAgent.Time
open OhanaAgent.Transition

/-- A call between two of its parts. -/
inductive Task where
  /-- `propose_repair` after its read of the incident. -/
  | proposing (incident : IncidentRow) (spec : RepairSpec)
  /-- `authorize_repair` after its read. -/
  | authorizing (incidentId : Text) (decision : Decision)
  /-- `refuse_repair` after its read. -/
  | refusing (incidentId : Text) (decision : Decision)
  /-- A deferral that knows its request. -/
  | deferring (requestId : Text) (response : Response)
  /-- An answer to a request that no executor serves. -/
  | answering (requestId : Text) (response : Response)
  /-- `authorize_incident_repair` before the call of the executor. -/
  | executing (repairId incidentId : Text)
  /-- The executor returned, or raised an error. -/
  | concluding (repairId : Text) (error : Option String)

/-- What the search for an executor and its call come to. -/
inductive Execution where
  | missing
  | returned
  | raised (error : String)

/-- One transition of the service. -/
inductive Action where
  | process (observation : Observation)
  | purgeProcessedObservations
  | list
  | get (incidentId : Text)
  | listUserRequests
  | getUserRequest (requestId : Text)
  | propose (incidentId : Text) (spec : RepairSpec)
  | authorize (incidentId : Text) (decision : Decision)
  | refuse (incidentId : Text) (decision : Decision)
  | defer (incidentId : Text) (decision : Decision)
  | respond (requestId deviceId : Text) (choice : Choice)
  | resume (task : Nat)
  | execute (task : Nat) (execution : Execution)
  | declareManualResolution (incidentId : Text) (request : Store.ManualRequest)
      (lateResult : String)
  | appendRecord (incidentId : Text) (kind : EventKind) (summary : String) (payload : Value)
  | proposeFollowup (incidentId originJobId basis : Text) (reason question : String)
  | answerFollowup (requestId : Text) (choice : Choice) (deviceId : Text) (planned : Bool)
      (source summary : String)
  | updateFollowup (requestId : Text) (status : FollowupStatus) (detail : String)
  | resolveRemovedNetworkDevices (deviceIds : List Text) (occurredAt : Int)
  | resolveLogIncident (key : Key) (jobId : Text) (result : String) (source : Value)
  | crash

/-- The operations that end an incident without an observation. -/
def Action.closes : Action → Bool
  | .resolveRemovedNetworkDevices _ _ | .resolveLogIncident _ _ _ _ => true
  | _ => false

/-- The store and the calls in flight. -/
structure Service where
  store : Store
  tasks : Nat → Option Task
  started : Nat

namespace Service

/-- A service on a new database that knows some experiences. -/
def start (experiences : Table ExperienceRow ExperienceRow.experienceId) : Service where
  store := { Store.empty with experiences }
  tasks := fun _ => none
  started := 0

/-- Put a task in flight. -/
def spawn (task : Task) (service : Service) : Service :=
  { service with
    tasks := Function.update service.tasks service.started (some task)
    started := service.started + 1 }

/-- Replace or end a task. -/
def advance (index : Nat) (task : Option Task) (service : Service) : Service :=
  { service with tasks := Function.update service.tasks index task }

/-- Run a transaction on the store. -/
def transact {α : Type} (body : Store → Except Failure (α × Store)) (service : Service) : Service :=
  { service with store := (commit body service.store).2 }

/-- `get`, then a task when it answers. -/
def readThen (env : Environment) (now : Int) (incidentId : Text)
    (task : IncidentRow → Store → Option Task) (service : Service) : Service :=
  let (reply, store) := service.store.get env now incidentId
  let read := { service with store }
  match reply with
  | .error _ => read
  | .ok incident =>
      match task incident store with
      | none => read
      | some task => read.spawn task

/-- `propose_repair` requires an active incident. -/
def proposal (spec : RepairSpec) (incident : IncidentRow) : Option Task :=
  if incident.endedAt.isSome then none else some (.proposing incident spec)

/-- The repairs that an incident shows, the latest twenty. -/
def shownRepairs (incidentId : Text) (store : Store) : List RepairRow :=
  ((store.repairs.rows.filter fun row => row.incidentId = incidentId).insertionSort
    fun first second => julianday second.proposedAt ≤ julianday first.proposedAt).take 20

/-- `repair_request_id`. -/
def repairRequestId (repairId : Text) (store : Store) : Option Text :=
  (store.requests.rows.find? fun row =>
    row.actionReference = some repairId && row.state = .pending).map RequestRow.requestId

/-- `defer_incident_repair` looks for the proposal and its pending request. -/
def deferral (decision : Decision) (incident : IncidentRow) (store : Store) : Option Task := do
  let repair ← (shownRepairs incident.incidentId store).find? fun row =>
    row.repairId = decision.repairId
  let requestId ← repairRequestId repair.repairId store
  if repair.status = .proposed then
    some (.deferring requestId ⟨.later, decision.source, decision.answeredBy⟩)
  else none

/-- `respond_companion_request` after it read the request: the answer goes where
its kind says.  An authorization or a refusal starts with its own read. -/
def answerOf (env : Environment) (now : Int) (request : RequestRow) (deviceId : Text)
    (choice : Choice) (service : Service) : Service :=
  if choice = .later then
    service.spawn (.deferring request.requestId ⟨.later, .shizune, deviceId⟩)
  else
    match request.kind, request.actionReference with
    -- the follow-up component answers with `answer_followup`
    | .investigationAuthorization, _ => service
    | .experienceConfirmation, _ =>
        service.spawn (.answering request.requestId ⟨choice, .shizune, deviceId⟩)
    | .repairAuthorization, none => service
    | .repairAuthorization, some repairId =>
        let decision : Decision := ⟨repairId, .shizune, deviceId⟩
        if choice = .authorize then
          service.readThen env now request.incidentId fun incident _ =>
            some (.authorizing incident.incidentId decision)
        else if choice = .refuse then
          service.readThen env now request.incidentId fun incident _ =>
            some (.refusing incident.incidentId decision)
        else service

/-- `respond_companion_request`. -/
def respond (env : Environment) (now : Int) (requestId deviceId : Text) (choice : Choice)
    (service : Service) : Service :=
  match service.store.getUserRequest now requestId with
  | .error _ => service
  | .ok (request, store) => { service with store }.answerOf env now request deviceId choice

/-- The locked part that a task comes to next. -/
def resume (env : Environment) (now : Int) (index : Nat) (service : Service) : Service :=
  match service.tasks index with
  | none => service
  | some (.proposing incident spec) =>
      (service.transact (Store.proposeRepair env now incident spec)).advance index none
  | some (.authorizing incidentId decision) =>
      match service.store.authorizeRepair env now incidentId decision with
      | .error _ => service.advance index none
      | .ok (repair, store) =>
          { service with store }.advance index (some (.executing repair.repairId incidentId))
  | some (.refusing incidentId decision) =>
      (service.transact (Store.refuseRepair env now incidentId decision)).advance index none
  | some (.deferring requestId response) =>
      (service.transact (Store.deferUserRequest env now requestId response)).advance index none
  | some (.answering requestId response) =>
      (service.transact (Store.answerUserRequest env now requestId response)).advance index none
  | some (.executing _ _) => service
  | some (.concluding repairId none) =>
      (service.transact (Store.markRepairExecuted env now repairId)).advance index none
  | some (.concluding repairId (some error)) =>
      (service.transact (Store.markRepairExecutionFailed env now repairId error)).advance index none

/-- The middle of `authorize_incident_repair`: find the executor, read the
incident for it, and call it. -/
def execute (env : Environment) (now : Int) (index : Nat) (execution : Execution)
    (service : Service) : Service :=
  match service.tasks index with
  | some (.executing repairId incidentId) =>
      match execution with
      | .missing =>
          service.advance index
            (some (.concluding repairId (some "Aucun exécuteur pour cette réparation")))
      | .returned =>
          match service.store.get env now incidentId with
          | (.error _, store) =>
              { service with store }.advance index
                (some (.concluding repairId (some "Unknown incident")))
          | (.ok _, store) =>
              { service with store }.advance index (some (.concluding repairId none))
      | .raised error =>
          match service.store.get env now incidentId with
          | (.error _, store) =>
              { service with store }.advance index
                (some (.concluding repairId (some "Unknown incident")))
          | (.ok _, store) =>
              { service with store }.advance index (some (.concluding repairId (some error)))
  | _ => service

/-- `append_record`, between two reads. -/
def appendRecord (env : Environment) (now : Int) (incidentId : Text) (kind : EventKind)
    (summary : String) (payload : Value) (service : Service) : Service :=
  match service.store.get env now incidentId with
  | (.error _, store) => { service with store }
  | (.ok incident, store) =>
      { service with
        store := (store.appendRecord env now incident.incidentId kind summary payload).expireRepairs
          env now }

/-- One transition at a reading of the clock. -/
def act (env : Environment) (now : Int) (action : Action) (service : Service) : Service :=
  match action with
  | .process observation => { service with store := (service.store.process env now observation).2 }
  | .purgeProcessedObservations =>
      { service with store := service.store.purgeProcessedObservations now }
  | .list => { service with store := service.store.expireRepairs env now }
  | .get incidentId => { service with store := (service.store.get env now incidentId).2 }
  | .listUserRequests => { service with store := service.store.expireUserRequests now }
  | .getUserRequest requestId => service.transact (Store.getUserRequest now requestId)
  | .propose incidentId spec =>
      service.readThen env now incidentId fun incident _ => proposal spec incident
  | .authorize incidentId decision =>
      service.readThen env now incidentId fun incident _ =>
        some (.authorizing incident.incidentId decision)
  | .refuse incidentId decision =>
      service.readThen env now incidentId fun incident _ =>
        some (.refusing incident.incidentId decision)
  | .defer incidentId decision => service.readThen env now incidentId (deferral decision)
  | .respond requestId deviceId choice => service.respond env now requestId deviceId choice
  | .resume index => service.resume env now index
  | .execute index execution => service.execute env now index execution
  | .declareManualResolution incidentId request lateResult =>
      service.transact (Store.declareManualResolution env now incidentId request lateResult)
  | .appendRecord incidentId kind summary payload =>
      service.appendRecord env now incidentId kind summary payload
  | .proposeFollowup incidentId originJobId basis reason question =>
      service.transact (Store.proposeFollowup env now incidentId originJobId basis reason question)
  | .answerFollowup requestId choice deviceId planned source summary =>
      service.transact (Store.answerFollowup env now requestId choice deviceId planned source
        summary)
  | .updateFollowup requestId status detail =>
      service.transact (Store.updateFollowup env now requestId status detail)
  | .resolveRemovedNetworkDevices deviceIds occurredAt =>
      { service with
        store := service.store.resolveRemovedNetworkDevices env now deviceIds occurredAt }
  | .resolveLogIncident key jobId result source =>
      { service with store := service.store.resolveLogIncident env now key jobId result source }
  | .crash => { service with store := { service.store with purgedOn := none }, tasks := fun _ => none }

end Service

/-- A transition with the clock reading of its part. -/
structure Label where
  now : Int
  action : Action

/-- The step relation of the service. -/
def Step (env : Environment) (service : Service) (label : Label) (after : Service) : Prop :=
  service.act env label.now label.action = after

/-- The state after a list of transitions. -/
def execute (env : Environment) (labels : List Label) (service : Service) : Service :=
  labels.foldl (fun service label => service.act env label.now label.action) service

theorem run_execute (env : Environment) (labels : List Label) (service : Service) :
    Run (Step env) service labels (execute env labels service) := by
  induction labels generalizing service with
  | nil => exact .nil service
  | cons label labels ih => exact .cons rfl (ih _)

/-! ## A deployment -/

/-- Paris in summer, identifiers that count, and texts without secrets. -/
def summerEnvironment : Environment where
  paris := ⟨fun _ => 2 * hour⟩
  uuid := fun n => List.replicate (n + 1) '1'
  uuid_injective := fun first second equal => by simpa using congrArg List.length equal
  redactText := id
  redactValue := id
  knownRepair := fun _ _ _ _ => none

/-- The third of July 2024, at 11:46:40 in Paris. -/
def summerMorning : Int := 1720000000 * second

/-- The DHCP service of a node. -/
def dhcpKey : Key := ⟨['r', 'p', 'i'], ['d', 'h', 'c', 'p'], ['l', 'e', 'a', 's', 'e']⟩

def dhcpObservation (id : Text) (status : ObservationStatus) (timestamp : Int) : Observation :=
  ⟨id, dhcpKey, status, timestamp, "dnsmasq", none⟩

/-- The catalogue entry `dnsmasq.restart`. -/
def dnsmasqRestart : RepairSpec where
  key := "dnsmasq.restart".toList
  operation := "restart_service".toList
  target := "dnsmasq.service".toList
  risk := "low".toList
  action := "le redémarrage supervisé de dnsmasq"
  question := "Autoriser le redémarrage supervisé de dnsmasq ?"

/-- A transition some minutes into the morning. -/
def minutesIn (n : Nat) (action : Action) : Label :=
  ⟨summerMorning + n * minute, action⟩

/-- A fault, a proposal and its authorization; the executor is not called yet. -/
def authorizedRestart : List Label :=
  [minutesIn 0 (.process (dhcpObservation ['a'] .unhealthy summerMorning)),
    minutesIn 1 (.propose (summerEnvironment.uuid 0) dnsmasqRestart),
    minutesIn 1 (.resume 0),
    minutesIn 2 (.authorize (summerEnvironment.uuid 0)
      ⟨summerEnvironment.uuid 1, .vision, ['a', 'd', 'm', 'i', 'n']⟩),
    minutesIn 2 (.resume 1)]

end OhanaAgent.Tsunade
