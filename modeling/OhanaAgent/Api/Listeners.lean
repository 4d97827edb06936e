import OhanaAgent.Companions.Repository
import OhanaAgent.Jobs.Repository
import OhanaAgent.Privacy.SessionPaths
import OhanaAgent.Transition.Encounters

/-!
# The HTTP listeners

The administration, worker and companion listeners route a request by an ordered
table, in which a guard authorizes the routes after it.  A handler is a program
whose effects are the authorizations of the repositories and the calls of the
service; other requests run between two of them.
-/

namespace OhanaAgent.Api

open OhanaAgent.Encoding (trim)
open OhanaAgent.Encoding.Json (Text Value Fields loads)
open OhanaAgent.Privacy (isWhitespace)
open OhanaAgent.Transition

/-! ## The service -/

/-- The methods of the administration service that the routes name. -/
inductive ServiceMethod where
  | capabilities | readInfrastructure | writeInfrastructure | readDhcp | writeDhcp
  | listPlugins | readPlugin | writePlugin | testPlugin | connectBackupIcloud | runBackup
  | readNetwork | writeNetwork | confirmNetwork | rollbackNetwork
  | readAdguardSync | writeAdguardSync | activateAdguardSync
  | listWorkers | readWakeOnLan | writeWakeOnLan | wakeWorker
  | listWorkerPairings | createWorkerPairing | pollWorkerPairing | approveWorkerPairing
  | rejectWorkerPairing | readWorkerTrust
  | registerWorker | reportWorkerRuntimes | reportWorkerPower
  | claimJob | nextWorkerJob | heartbeatJob | completeJob | readJob | createJob | cancelJob
  | receiveBackupArtifact | openBackupSource | readLogSource | readHistorySource
  | listCompanionPairings | createCompanionPairing | pollCompanionPairing
  | approveCompanionPairing | rejectCompanionPairing | listCompanionDevices
  | revokeCompanionDevice | registerCompanionNotifications
  | readCompanionSummary | readCompanionRequests | readCompanionActivity
  | requestCompanionDiagnosis | respondCompanionRequest
  | readLogAnalysis | writeLogAnalysis | listAcceptedLogSignatures | acceptLogSignature
  | revokeLogSignature | acceptLogComponent | revokeLogComponent | requestManualLogHealthCheck
  | requestLogInvestigation | extendLogInvestigationWindow
  | listIncidents | readIncident | readIncidentTimeline | readSimilarIncidents
  | readEquipmentHistory | searchIncidentHistory | diagnoseIncident | appendIncidentRecord
  | authorizeIncidentRepair | refuseIncidentRepair | deferIncidentRepair
  | proposeIncidentRepair | readRepairStatistics | confirmIncidentExperience
  | setExperienceState | listExperiences | declareManualResolution
  | listInvestigations | executeInvestigation
  | readPreventiveSummary | requestPreventiveBackfill | mutePreventive | unmutePreventive
  | readRestoreTests | declareRestoreTest | requestArchiveCheck
  | readAgentVitals | readSystemUpdates | requestSystemUpdate
  | readMemoryDiagnostics | controlMemoryTrace
  deriving DecidableEq

/-- One argument of a call. -/
inductive Argument where
  | text (value : Text)
  | integer (value : Int)
  | document (payload : Fields)
  | stream
  | absent

/-- An argument that may be `None`. -/
def Argument.ofOption : Option Text → Argument
  | none => absent
  | some value => text value

/-- A method of the service with its arguments. -/
structure Invocation where
  method : ServiceMethod
  arguments : List Argument

/-- Where a method finds the worker under whose identity it acts: in an argument,
or in the model of a document. -/
inductive WorkerPlace where
  | argument (index : Nat)
  | document (index : Nat)
  deriving DecidableEq

def ServiceMethod.workerPlace : ServiceMethod → Option WorkerPlace
  | .receiveBackupArtifact => some (.argument 1)
  | .openBackupSource => some (.argument 1)
  | .readLogSource => some (.argument 1)
  | .readHistorySource => some (.argument 1)
  | .registerWorker => some (.document 0)
  | .reportWorkerRuntimes => some (.document 0)
  | .reportWorkerPower => some (.document 0)
  | .claimJob => some (.document 0)
  | .nextWorkerJob => some (.document 0)
  | .heartbeatJob => some (.document 1)
  | .completeJob => some (.document 1)
  | _ => none

/-- The `worker_id` of a document, as its contract strips it. -/
def documentWorker (payload : Fields) : Option Text :=
  match payload.lookup "worker_id".toList with
  | some (.string workerId) => some (Companions.strip workerId)
  | _ => none

/-- The worker under whose identity a call acts. -/
def Invocation.worker (invocation : Invocation) : Option Text :=
  match invocation.method.workerPlace with
  | some (.argument index) =>
      match invocation.arguments[index]? with
      | some (.text workerId) => some workerId
      | _ => none
  | some (.document index) =>
      match invocation.arguments[index]? with
      | some (.document payload) => documentWorker payload
      | _ => none
  | none => none

/-- The argument that names the device under whose identity a method acts. -/
def ServiceMethod.devicePlace : ServiceMethod → Option Nat
  | .registerCompanionNotifications => some 0
  | .requestCompanionDiagnosis => some 1
  | .respondCompanionRequest => some 1
  | _ => none

/-- The classes of exceptions that a handler tells apart. -/
inductive ExceptionClass where
  | lookupError
  | companionConflictError
  | distributedJobConflictError
  | tsunadeExpertiseConflictError
  | dhcpConfigurationError
  | networkAdministrationError
  | backupExecutionError
  | validationError
  | valueError
  | osError
  | runtimeError
  deriving DecidableEq

/-- An exception: the classes it is an instance of, its text and its `stage`,
`unknown` when it has none. -/
structure Raised where
  classes : List ExceptionClass
  message : Text
  stage : Text

/-- `isinstance`. -/
def Raised.isInstance (error : Raised) (classes : List ExceptionClass) : Bool :=
  classes.any fun class_ => class_ ∈ error.classes

/-! ## Requests and responses -/

structure Request where
  method : Text
  rawPath : Text
  headers : List (Text × Text)
  contentLength : Option Int
  /-- The decoded body, `none` when it is not UTF-8. -/
  body : Option Text

/-- The first header of a name, in any case, or the empty text. -/
def Request.header (request : Request) (name : String) : Text :=
  match request.headers.find? fun header =>
      header.1.map Char.toLower = name.toList.map Char.toLower with
  | some header => header.2
  | none => []

def maximumRequestBytes : Int := 1024 * 1024

/-- `bearer_token`. -/
def Request.bearerToken (request : Request) : Option Text :=
  let authorization := request.header "Authorization"
  if "Bearer ".toList.isPrefixOf authorization then some (authorization.drop 7) else none

/-- `request.raw_path.split("?", 1)[0]`. -/
def Request.path (request : Request) : Text :=
  request.rawPath.takeWhile fun c => c != '?'

/-- A JSON document with its status, or a stream that was or was not ended. -/
inductive Response where
  | json (status : Nat) (content : Value)
  | stream (complete : Bool)
  deriving DecidableEq

def Response.status : Response → Nat
  | .json status _ => status
  | .stream _ => 200

/-- `_error_response`. -/
def errorResponse (status : Nat) (detail : Text) : Response :=
  .json status (.object (.ofList [("detail".toList, .string detail)]))

/-- `_Rejected`, or another exception that leaves the handler. -/
inductive Failure where
  | rejected (status : Nat) (detail : String)
  | raised
  deriving DecidableEq

/-! ## Effects -/

/-- How the stream of a backup source ends. -/
inductive StreamEnd where
  | complete
  | failed (started : Bool) (error : Raised)

/-- What a handler asks of the repositories, of the service and of the
connection. -/
inductive Effect where
  | authorizeWorker (workerId token : Text) (previousWorkerId : Option Text)
  | authorizeCompanion (deviceId token : Text)
  | run (invocation : Invocation)
  | send

@[reducible]
def Effect.Answer : Effect → Type
  | authorizeWorker _ _ _ => Bool
  | authorizeCompanion _ _ => Bool
  | run _ => Except Raised Value
  | send => StreamEnd

/-- The programs of the handlers. -/
abbrev Handling (α : Type) : Type :=
  Program Effect Effect.Answer Failure α

/-- The environments of the two repositories and `int` of a text, `none` for its
`ValueError`. -/
structure Environment where
  jobs : Jobs.Environment
  jobsConfig : Jobs.Config
  companions : Companions.Environment
  int : Text → Option Int

/-- A job repository in a state that its calls reach. -/
structure JobRepository (env : Environment) where
  db : Jobs.Database
  reached : ∃ calls, Jobs.execute env.jobs env.jobsConfig calls Jobs.Database.empty = db

/-- The state that an effect meets: the repositories of the service, the clock
and everything else. -/
structure Service (env : Environment) (S : Type) where
  jobRepository : Option (JobRepository env)
  companionRepository : Option Companions.Database
  now : Companions.Instant
  rest : S

/-- What the methods of the service answer, and how a stream ends. -/
structure Behaviour (env : Environment) (S : Type) where
  run : Invocation → Service env S → Except Raised Value
  send : Service env S → StreamEnd

/-- The answer of a state to an effect; without a repository nothing is
authorized. -/
def Behaviour.answer {env : Environment} {S : Type} (behaviour : Behaviour env S) :
    (effect : Effect) → Service env S → effect.Answer
  | .authorizeWorker workerId token previousWorkerId, service =>
      match service.jobRepository with
      | none => false
      | some repository => repository.db.authorizeWorker env.jobs workerId token previousWorkerId
  | .authorizeCompanion deviceId token, service =>
      match service.companionRepository with
      | none => false
      | some db => (db.authorize env.companions service.now deviceId token).1
  | .run invocation, service => behaviour.run invocation service
  | .send, service => behaviour.send service

/-! ## Servers -/

inductive Role where
  | administration
  | worker
  | companion
  deriving DecidableEq

/-- The fields of `AdministrationHTTPServer` that a request reads. -/
structure Server where
  token : Text
  workerToken : Option Text
  role : Role
  companionCaSha256 : Option Text
  companionCaCertificatePem : Option Text
  token_nonempty : token ≠ []
  tokens_different : ∀ shared ∈ workerToken, shared ≠ [] → shared ≠ token

/-- `AdministrationHTTPServer(…)`, where the tokens are ASCII. -/
def Server.new (token : Text) (workerToken : Option Text) (workerOnly companionOnly : Bool)
    (companionCaSha256 companionCaCertificatePem : Option Text) : Except String Server :=
  let normalized := trim isWhitespace token
  let shared := (workerToken.filter fun shared => shared ≠ []).map (trim isWhitespace)
  if token_nonempty : normalized ≠ [] then
    if tokens_different : ∀ given ∈ shared, given ≠ [] → given ≠ normalized then
      if workerOnly && companionOnly then
        .error "A listener cannot be worker-only and companion-only"
      else
        .ok
          { token := normalized
            workerToken := shared
            role := if workerOnly then .worker else if companionOnly then .companion
              else .administration
            companionCaSha256, companionCaCertificatePem, token_nonempty, tokens_different }
    else .error "Worker and administration tokens must be different."
  else .error "Administration token cannot be empty."

/-- `_Call`. -/
structure Call where
  server : Server
  request : Request
  companionId : Option Text

/-- `hmac.compare_digest` of two texts, which raises on other than ASCII. -/
def compareDigest (first second : Text) : Except Failure Bool :=
  if (first ++ second).all fun c => c.toNat < 128 then .ok (first = second) else .error .raised

namespace Call

/-- `json`. -/
def json (call : Call) : Except Failure Fields :=
  let contentLength := call.request.contentLength.getD 0
  if contentLength ≤ 0 ∨ maximumRequestBytes < contentLength then
    .error (.rejected 400 "Administration request body size is invalid")
  else
    match call.request.body.bind loads with
    | none => .error (.rejected 400 "Administration request body must be valid JSON")
    | some (.object payload) => .ok payload
    | some _ => .error (.rejected 400 "Administration request body must be a JSON object")

/-- `_OPERATION_ERROR_STATUSES`: the first match wins. -/
def operationErrorStatuses : List (List ExceptionClass × Nat) := [
  ([.lookupError], 404),
  ([.companionConflictError, .distributedJobConflictError, .tsunadeExpertiseConflictError], 409),
  ([.dhcpConfigurationError, .networkAdministrationError, .backupExecutionError,
    .validationError, .valueError], 422)]

/-- `execute`. -/
def execute (method : ServiceMethod) (arguments : List Argument) : Handling Response := do
  let result : Except Raised Value ← Program.ask (Effect.run ⟨method, arguments⟩)
  match result with
  | .ok content => return .json 200 content
  | .error error =>
      if error.isInstance [.osError] then
        return errorResponse 500
          ("Unable to apply administration operation: ".toList ++ error.message)
      else
        match operationErrorStatuses.find? fun entry => error.isInstance entry.1 with
        | some (_, status) => return errorResponse status error.message
        | none => Program.fail .raised

/-- `authorize_administration`. -/
def authorizeAdministration (call : Call) : Handling Call :=
  let rejection := Failure.rejected 401 "A valid administration token is required"
  match call.request.bearerToken with
  | none => Program.fail rejection
  | some token =>
      match compareDigest token call.server.token with
      | .error failure => Program.fail failure
      | .ok false => Program.fail rejection
      | .ok true => Program.done call

/-- The comparison with the shared token of the workers. -/
def sharedMatches (call : Call) : Except Failure Bool :=
  match call.server.workerToken, call.request.bearerToken with
  | some expected, some token => compareDigest token expected
  | _, _ => .ok false

/-- The credential of the worker that a document names. -/
def pairedMatches (call : Call) (payload : Fields) (previousWorkerId : Option Text) :
    Handling Bool :=
  match payload.lookup "worker_id".toList, call.request.bearerToken with
  | some (.string workerId), some token =>
      Program.ask (Effect.authorizeWorker workerId token previousWorkerId)
  | _, _ => Program.done false

/-- `authorize_worker`. -/
def authorizeWorker (call : Call) (payload : Fields) (previousWorkerId : Option Text) :
    Handling Unit := do
  let shared ← Program.ofExcept call.sharedMatches
  let paired ← call.pairedMatches payload previousWorkerId
  if if previousWorkerId.isSome then paired else shared || paired then return ()
  else Program.fail (.rejected 401 "A valid worker token is required")

/-- `authorize_companion`. -/
def authorizeCompanion (call : Call) : Handling Call :=
  let rejection := Failure.rejected 401 "A valid companion session is required"
  let deviceId := trim isWhitespace (call.request.header "X-Ohana-Companion-Id")
  match call.request.bearerToken with
  | none => Program.fail rejection
  | some token =>
      if deviceId = [] then Program.fail rejection
      else do
        let authorized : Bool ← Program.ask (Effect.authorizeCompanion deviceId token)
        if authorized then return { call with companionId := some deviceId }
        else Program.fail rejection

/-- `worker_transfer_identity`. -/
def workerTransferIdentity (env : Environment) (call : Call) : Handling (Text × Int) := do
  let workerId := trim isWhitespace (call.request.header "X-Ohana-Worker-Id")
  let given := call.request.header "X-Ohana-Attempt"
  let attempt := if given = [] then 0 else (env.int given).getD 0
  if workerId = [] then Program.fail (.rejected 400 "Worker ID is required")
  else if attempt < 1 then Program.fail (.rejected 400 "Invalid job attempt")
  else do
    call.authorizeWorker (.ofList [("worker_id".toList, .string workerId)]) none
    return (workerId, attempt)

end Call

/-! ## Handlers -/

/-- The parameters of a path, by name and in order. -/
abbrev Parameters : Type := List (Text × Text)

/-- `parameters[name]`. -/
def Parameters.required (parameters : Parameters) (name : String) : Except Failure Text :=
  match parameters.find? fun parameter => parameter.1 = name.toList with
  | some parameter => .ok parameter.2
  | none => .error .raised

/-- `parameters.values()`. -/
def Parameters.arguments (parameters : Parameters) : List Argument :=
  parameters.map fun parameter => .text parameter.2

/-- The handlers that the tables name, the first four with the method they call. -/
inductive Handler where
  | call (method : ServiceMethod) (fixed : List String)
  | callWithBody (method : ServiceMethod)
  | workerCallWithBody (method : ServiceMethod)
  | companionCallWithBody (method : ServiceMethod)
  | registerWorker
  | readSource (method : ServiceMethod)
  | uploadBackupArtifact
  | downloadBackupSource
  | companionTrust
  | companionDiagnosis
  | respondCompanionRequest
  deriving DecidableEq

/-- `_source_preparation_error`. -/
def sourcePreparationError (error : Raised) : Except Failure Response :=
  if error.isInstance [.lookupError] then .ok (errorResponse 404 error.message)
  else if error.isInstance [.distributedJobConflictError] then
    .ok (errorResponse 409 error.message)
  else if !error.isInstance [.runtimeError, .osError] then .error .raised
  else
    .ok (errorResponse (if error.stage = "storage".toList then 507 else 500)
      ("Distributed backup source preparation failed: ".toList ++ error.message))

namespace Handler

/-- `_register_worker`. -/
def runRegisterWorker (call : Call) : Handling Response := do
  let payload ← Program.ofExcept call.json
  let previous := trim isWhitespace (call.request.header "X-Ohana-Previous-Worker-Id")
  let previousWorkerId := if previous = [] then none else some previous
  call.authorizeWorker payload previousWorkerId
  Call.execute .registerWorker [.document payload, .ofOption previousWorkerId]

/-- `_read_log_source` and `_read_history_source`. -/
def runReadSource (env : Environment) (method : ServiceMethod) (call : Call)
    (parameters : Parameters) : Handling Response := do
  let (workerId, attempt) ← call.workerTransferIdentity env
  let jobId ← Program.ofExcept (parameters.required "job_id")
  let sourceId ← Program.ofExcept (parameters.required "source_id")
  Call.execute method [.text jobId, .text workerId, .integer attempt, .text sourceId]

/-- `_upload_backup_artifact`. -/
def runUploadBackupArtifact (env : Environment) (call : Call) (parameters : Parameters) :
    Handling Response := do
  let (workerId, attempt) ← call.workerTransferIdentity env
  let contentLength := call.request.contentLength.getD 0
  let sha256 := (trim isWhitespace (call.request.header "X-Ohana-SHA256")).map Char.toLower
  let jobId ← Program.ofExcept (parameters.required "job_id")
  Call.execute .receiveBackupArtifact
    [.text jobId, .text workerId, .integer attempt, .stream, .integer contentLength, .text sha256]

/-- `_download_backup_source`: an error after the first byte breaks the stream. -/
def runDownloadBackupSource (env : Environment) (call : Call) (parameters : Parameters) :
    Handling Response := do
  let jobId ← Program.ofExcept (parameters.required "job_id")
  let (workerId, attempt) ← call.workerTransferIdentity env
  let opened : Except Raised Value ← Program.ask
    (Effect.run ⟨.openBackupSource, [.text jobId, .text workerId, .integer attempt]⟩)
  match opened with
  | .error error => Program.ofExcept (sourcePreparationError error)
  | .ok _ =>
      let sent : StreamEnd ← Program.ask Effect.send
      match sent with
      | .complete => return .stream true
      | .failed true _ => return .stream false
      | .failed false error => Program.ofExcept (sourcePreparationError error)

/-- `_companion_trust`. -/
def runCompanionTrust (call : Call) : Except Failure Response :=
  match call.server.companionCaSha256 with
  | none => .error (.rejected 404 "Companion trust is unavailable")
  | some sha256 =>
      .ok (.json 200 (.object (.ofList [
        ("schema_version".toList, .number (.ofNat 1)),
        ("tls_ca_sha256".toList, .string sha256),
        ("tls_ca_certificate_pem".toList,
          match call.server.companionCaCertificatePem with
          | none => .atom .null
          | some pem => .string pem)])))

/-- `_companion_diagnosis`. -/
def runCompanionDiagnosis (call : Call) (parameters : Parameters) : Handling Response := do
  let payload ← Program.ofExcept call.json
  if payload.keys = [] then
    let incidentId ← Program.ofExcept (parameters.required "incident_id")
    Call.execute .requestCompanionDiagnosis [.text incidentId, .ofOption call.companionId]
  else
    Program.fail (.rejected 400 "No parameters are accepted")

/-- `_respond_companion_request`. -/
def runRespondCompanionRequest (call : Call) (parameters : Parameters) : Handling Response := do
  let payload ← Program.ofExcept call.json
  let requestId ← Program.ofExcept (parameters.required "request_id")
  Call.execute .respondCompanionRequest
    [.text requestId, .ofOption call.companionId, .document payload]

/-- Run a handler. -/
def run (env : Environment) : Handler → Call → Parameters → Handling Response
  | call method fixed, _, parameters =>
      Call.execute method ((fixed.map fun value => .text value.toList) ++ parameters.arguments)
  | callWithBody method, request, parameters => do
      let payload ← Program.ofExcept request.json
      Call.execute method (parameters.arguments ++ [.document payload])
  | workerCallWithBody method, request, parameters => do
      let payload ← Program.ofExcept request.json
      request.authorizeWorker payload none
      Call.execute method (parameters.arguments ++ [.document payload])
  | companionCallWithBody method, request, parameters => do
      let payload ← Program.ofExcept request.json
      Call.execute method
        (parameters.arguments ++ [.ofOption request.companionId, .document payload])
  | registerWorker, request, _ => runRegisterWorker request
  | readSource method, request, parameters => runReadSource env method request parameters
  | uploadBackupArtifact, request, parameters => runUploadBackupArtifact env request parameters
  | downloadBackupSource, request, parameters => runDownloadBackupSource env request parameters
  | companionTrust, request, _ => Program.ofExcept (runCompanionTrust request)
  | companionDiagnosis, request, parameters => runCompanionDiagnosis request parameters
  | respondCompanionRequest, request, parameters => runRespondCompanionRequest request parameters

end Handler

/-! ## Routes -/

/-- One segment of a template: a word, or a parameter. -/
inductive Segment where
  | literal (word : Text)
  | parameter (name : Text)
  deriving DecidableEq

/-- A segment `{name}` is a parameter. -/
def Segment.read (segment : Text) : Segment :=
  match segment with
  | '\x7b' :: rest =>
      if rest.getLast? = some '\x7d' then parameter rest.dropLast else literal segment
  | _ => literal segment

/-- Match one segment; `$` also stands before a line feed that ends the path. -/
def Segment.accept (last : Bool) (part : Text) : Segment → Option Parameters
  | literal word =>
      if part = word ∨ (last = true ∧ part = word ++ ['\n']) then some [] else none
  | parameter name => if part = [] then none else some [(name, part)]

/-- Match the segments of a template with the parts of a path. -/
def matchSegments : List Segment → List Text → Option Parameters
  | [], [] => some []
  | segment :: pattern, part :: parts =>
      match segment.accept parts.isEmpty part, matchSegments pattern parts with
      | some first, some rest => some (first ++ rest)
      | _, _ => none
  | _, _ => none

structure Route where
  pattern : List Segment
  handler : Handler
  deriving DecidableEq

/-- `pattern.match(path)`. -/
def Route.parameters (route : Route) (path : Text) : Option Parameters :=
  matchSegments route.pattern (path.splitOn '/')

/-- `_route`. -/
def route (template : String) (handler : Handler) : Route :=
  ⟨(template.toList.splitOn '/').map Segment.read, handler⟩

/-- The checks of `_Guard`. -/
inductive Guard where
  | administration
  | companion

def Guard.check : Guard → Call → Handling Call
  | administration, call => call.authorizeAdministration
  | companion, call => call.authorizeCompanion

/-- An entry of a table. -/
inductive Entry where
  | route (route : Route)
  | guard (guard : Guard)

/-- `_call`. -/
def call (method : ServiceMethod) : Handler := .call method []

/-- `_worker_routes`. -/
def workerRoutes : List Route := [
  route "/v1/jobs/\x7bjob_id\x7d/artifact" .uploadBackupArtifact,
  route "/v1/jobs/workers/pairings" (.callWithBody .createWorkerPairing),
  route "/v1/jobs/workers/pairings/\x7bpairing_id\x7d/poll" (.callWithBody .pollWorkerPairing),
  route "/v1/jobs/workers/register" .registerWorker,
  route "/v1/jobs/workers/runtimes" (.workerCallWithBody .reportWorkerRuntimes),
  route "/v1/jobs/workers/power" (.workerCallWithBody .reportWorkerPower),
  route "/v1/jobs/claim" (.workerCallWithBody .claimJob),
  route "/v1/jobs/next" (.workerCallWithBody .nextWorkerJob),
  route "/v1/jobs/\x7bjob_id\x7d/heartbeat" (.workerCallWithBody .heartbeatJob),
  route "/v1/jobs/\x7bjob_id\x7d/complete" (.workerCallWithBody .completeJob)]

/-- The `GET` routes of `_administration_routes`, after its guard. -/
def administrationGet : List Route := [
  route "/v1/capabilities" (call .capabilities),
  route "/v1/infrastructure" (call .readInfrastructure),
  route "/v1/dhcp" (call .readDhcp),
  route "/v1/plugins" (call .listPlugins),
  route "/v1/system/network" (call .readNetwork),
  route "/v1/system/adguard-sync" (call .readAdguardSync),
  route "/v1/jobs/workers" (call .listWorkers),
  route "/v1/jobs/wake-on-lan" (call .readWakeOnLan),
  route "/v1/incidents/logs" (call .readLogAnalysis),
  route "/v1/incidents/logs/accepted" (call .listAcceptedLogSignatures),
  route "/v1/jobs/workers/pairings" (call .listWorkerPairings),
  route "/v1/pairings/companions" (call .listCompanionPairings),
  route "/v1/companions" (call .listCompanionDevices),
  route "/v1/incidents" (call .listIncidents),
  route "/v1/incidents/resolved" (.call .listIncidents ["resolved"]),
  route "/v1/incidents/all" (.call .listIncidents ["all"]),
  route "/v1/investigations" (call .listInvestigations),
  route "/v1/experiences" (call .listExperiences),
  route "/v1/preventive" (call .readPreventiveSummary),
  route "/v1/backups/restore-tests" (call .readRestoreTests),
  route "/v1/vitals" (call .readAgentVitals),
  route "/v1/system/updates" (call .readSystemUpdates),
  route "/v1/diagnostics/memory" (call .readMemoryDiagnostics),
  route "/v1/incidents/timeline" (call .readIncidentTimeline),
  route "/v1/repairs/statistics" (call .readRepairStatistics),
  route "/v1/equipment/\x7bequipment_id\x7d/history" (call .readEquipmentHistory),
  route "/v1/incidents/\x7bincident_id\x7d/similar" (call .readSimilarIncidents),
  route "/v1/plugins/\x7bidentifier\x7d" (call .readPlugin),
  route "/v1/jobs/\x7bjob_id\x7d" (call .readJob),
  route "/v1/incidents/\x7bincident_id\x7d" (call .readIncident)]

/-- The `PUT` routes of `_administration_routes`, after its guard. -/
def administrationPut : List Route := [
  route "/v1/infrastructure" (.callWithBody .writeInfrastructure),
  route "/v1/dhcp" (.callWithBody .writeDhcp),
  route "/v1/system/network" (.callWithBody .writeNetwork),
  route "/v1/system/adguard-sync" (.callWithBody .writeAdguardSync),
  route "/v1/system/adguard-sync/activation" (.callWithBody .activateAdguardSync),
  route "/v1/jobs/wake-on-lan" (.callWithBody .writeWakeOnLan),
  route "/v1/incidents/logs" (.callWithBody .writeLogAnalysis),
  route "/v1/plugins/\x7bidentifier\x7d" (.callWithBody .writePlugin)]

/-- The `POST` routes of `_administration_routes`, after its guard. -/
def administrationPost : List Route := [
  route "/v1/pairings/companions/\x7bpairing_id\x7d/approve" (call .approveCompanionPairing),
  route "/v1/pairings/companions/\x7bpairing_id\x7d/reject" (call .rejectCompanionPairing),
  route "/v1/companions/\x7bdevice_id\x7d/revoke" (call .revokeCompanionDevice),
  route "/v1/jobs/workers/\x7bworker_id\x7d/wake" (call .wakeWorker),
  route "/v1/jobs" (.callWithBody .createJob),
  route "/v1/investigations" (.callWithBody .executeInvestigation),
  route "/v1/incidents/logs/check" (call .requestManualLogHealthCheck),
  route "/v1/preventive/backfill" (call .requestPreventiveBackfill),
  route "/v1/preventive/mute" (.callWithBody .mutePreventive),
  route "/v1/diagnostics/memory/trace" (.callWithBody .controlMemoryTrace),
  route "/v1/system/updates/refresh" (.call .requestSystemUpdate ["refresh"]),
  route "/v1/system/updates/apply" (.call .requestSystemUpdate ["upgrade"]),
  route "/v1/backups/archives/verify" (.callWithBody .requestArchiveCheck),
  route "/v1/backups/restore-tests/declare" (.callWithBody .declareRestoreTest),
  route "/v1/incidents/history" (.callWithBody .searchIncidentHistory),
  route "/v1/preventive/unmute" (.callWithBody .unmutePreventive),
  route "/v1/incidents/logs/accepted" (.callWithBody .acceptLogSignature),
  route "/v1/incidents/logs/accepted/revoke" (.callWithBody .revokeLogSignature),
  route "/v1/incidents/logs/accepted-components" (.callWithBody .acceptLogComponent),
  route "/v1/incidents/logs/accepted-components/revoke" (.callWithBody .revokeLogComponent),
  route "/v1/incidents/\x7bincident_id\x7d/logs/investigate"
    (.callWithBody .requestLogInvestigation),
  route "/v1/incidents/\x7bincident_id\x7d/logs/investigate/extend"
    (.callWithBody .extendLogInvestigationWindow),
  route "/v1/incidents/\x7bincident_id\x7d/repairs/authorize"
    (.callWithBody .authorizeIncidentRepair),
  route "/v1/incidents/\x7bincident_id\x7d/repairs/refuse" (.callWithBody .refuseIncidentRepair),
  route "/v1/incidents/\x7bincident_id\x7d/repairs/defer" (.callWithBody .deferIncidentRepair),
  route "/v1/incidents/\x7bincident_id\x7d/repairs" (.callWithBody .proposeIncidentRepair),
  route "/v1/incidents/\x7bincident_id\x7d/experience"
    (.callWithBody .confirmIncidentExperience),
  route "/v1/experiences/\x7bexperience_id\x7d/state" (.callWithBody .setExperienceState),
  route "/v1/incidents/\x7bincident_id\x7d/manual-resolution"
    (.callWithBody .declareManualResolution),
  route "/v1/incidents/\x7bincident_id\x7d/diagnose" (call .diagnoseIncident),
  route "/v1/incidents/\x7bincident_id\x7d/records" (.callWithBody .appendIncidentRecord),
  route "/v1/jobs/workers/pairings/\x7bpairing_id\x7d/approve" (call .approveWorkerPairing),
  route "/v1/jobs/workers/pairings/\x7bpairing_id\x7d/reject" (call .rejectWorkerPairing),
  route "/v1/jobs/\x7bjob_id\x7d/cancel" (call .cancelJob),
  route "/v1/plugins/\x7bidentifier\x7d/test" (call .testPlugin),
  route "/v1/plugins/backup/icloud/connect" (.callWithBody .connectBackupIcloud),
  route "/v1/plugins/backup/targets/\x7btarget_id\x7d/run" (call .runBackup),
  route "/v1/system/network/\x7btransaction_id\x7d/confirm" (call .confirmNetwork),
  route "/v1/system/network/\x7btransaction_id\x7d/rollback" (call .rollbackNetwork)]

/-- The `GET` routes of `_worker_listener_routes`. -/
def workerGet : List Route := [
  route "/v1/jobs/\x7bjob_id\x7d/input" .downloadBackupSource,
  route "/v1/jobs/\x7bjob_id\x7d/log-source/\x7bsource_id\x7d" (.readSource .readLogSource),
  route "/v1/jobs/\x7bjob_id\x7d/history-source/\x7bsource_id\x7d"
    (.readSource .readHistorySource),
  route "/v1/jobs/workers/trust" (call .readWorkerTrust)]

/-- The `GET` routes of `_companion_listener_routes` before its guard. -/
def companionOpenGet : List Route := [
  route "/v1/pairings/companions/trust" .companionTrust]

/-- The `GET` routes of `_companion_listener_routes` after its guard. -/
def companionGet : List Route := [
  route "/v1/incidents/summary" (call .readCompanionSummary),
  route "/v1/incidents/requests" (call .readCompanionRequests),
  route "/v1/incidents/requests/all" (.call .readCompanionRequests ["all"]),
  route "/v1/incidents/activity" (call .readCompanionActivity)]

/-- The `POST` routes of `_companion_listener_routes` before its guard. -/
def companionOpenPost : List Route := [
  route "/v1/pairings/companions" (.callWithBody .createCompanionPairing),
  route "/v1/pairings/companions/\x7bpairing_id\x7d/poll" (.callWithBody .pollCompanionPairing)]

/-- The `POST` routes of `_companion_listener_routes` after its guard. -/
def companionPost : List Route := [
  route "/v1/companions/notifications"
    (.companionCallWithBody .registerCompanionNotifications),
  route "/v1/incidents/\x7bincident_id\x7d/diagnose" .companionDiagnosis,
  route "/v1/incidents/requests/\x7brequest_id\x7d/response" .respondCompanionRequest]

/-- The table of a listener for a method; `none` for any other method. -/
def Role.routes (role : Role) (method : Text) : Option (List Entry) :=
  if method = "GET".toList then
    match role with
    | administration => some (.guard .administration :: administrationGet.map .route)
    | worker => some (workerGet.map .route)
    | companion =>
        some (companionOpenGet.map .route ++ .guard .companion :: companionGet.map .route)
  else if method = "PUT".toList then
    match role with
    | administration => some (.guard .administration :: administrationPut.map .route)
    | worker => some []
    | companion => some []
  else if method = "POST".toList then
    match role with
    | administration =>
        some (workerRoutes.map .route ++ .guard .administration :: administrationPost.map .route)
    | worker => some (workerRoutes.map .route)
    | companion =>
        some (companionOpenPost.map .route ++ .guard .companion :: companionPost.map .route)
  else none

def Role.notFound : Role → String
  | administration => "Administration endpoint not found"
  | worker => "Worker endpoint not found"
  | companion => "Companion endpoint not found"

/-- The loop of `_dispatch` over a table. -/
def consult (env : Environment) (call : Call) : List Entry → Handling Response
  | [] => Program.fail (.rejected 404 call.server.role.notFound)
  | .guard guard :: entries => do
      let call ← guard.check call
      consult env call entries
  | .route route :: entries =>
      match route.parameters call.request.path with
      | some parameters => route.handler.run env call parameters
      | none => consult env call entries

/-- The response to what left the loop. -/
def Failure.response : Failure → Response
  | rejected status detail => errorResponse status detail.toList
  | raised => errorResponse 500 "Unexpected administration failure".toList

/-- `_dispatch`. -/
def dispatch (env : Environment) (server : Server) (request : Request) : Handling Response :=
  match server.role.routes request.method with
  | none => Program.done (errorResponse 501 "Unsupported method".toList)
  | some entries =>
      (consult env ⟨server, request, none⟩ entries).recover fun failure =>
        Program.done failure.response

end OhanaAgent.Api
