import OhanaAgent.Encoding.Comparison
import OhanaAgent.Jobs.Pairings

/-!
# The distributed job repository

Every operation that writes is one transaction: its body maps a database to an
answer and a database, or fails and leaves the database as it was.  The clock
reading is an argument, so a run may present any sequence of readings.
-/

namespace OhanaAgent.Jobs

open OhanaAgent.Encoding.Json
open OhanaAgent.Store
open OhanaAgent.Time

/-- `_digest`. -/
def digest (env : Environment) (value : Value) : Text :=
  env.sha256 (json value)

/-- `_validate_parameters` and `_validate_result` look the models of a type up. -/
def requireType (name : Text) : Except Failure JobType :=
  match JobType.ofText name with
  | some type => .ok type
  | none => .error (.value ("unsupported distributed job type: " ++ String.ofList name))

/-- The error of a per-type model is a `ValueError`. -/
def validated (checked : Except String Value) : Except Failure Value :=
  match checked with
  | .ok value => .ok value
  | .error message => .error (.value message)

/-- The timeout a creation stores: before 05:00 in Paris a job of a type that
wakes the worker lasts at least until the batch ends. -/
def effectiveTimeout (env : Environment) (now : Int) (type : JobType) (timeout : Nat) : Nat :=
  if type.automaticWake ∧ env.paris.hourOfDay now < 5 then
    max timeout ((5 * hour - env.paris.timeOfDay now) / second + 1).toNat
  else timeout

/-- A creation request after its checks: what its transaction needs. -/
structure NewJob where
  request : JobCreate
  type : JobType
  parameters : Value
  timeout : Nat
  requestSha256 : Text

/-- The part of `create` before its transaction. -/
def prepareCreate (env : Environment) (now : Int) (payload : CreatePayload) :
    Except Failure NewJob := do
  let request ← JobCreate.validate payload
  let type ← requireType request.type
  let parameters ← validated (env.parametersModel type (.object request.parameters))
  let timeout := effectiveTimeout env now type request.timeout
  if now + 5 * minute < request.createdAt then
    throw (.value "created_at cannot be more than five minutes in the future")
  else if request.createdAt + seconds request.timeout ≤ now then
    throw (.value "job timeout has already elapsed")
  else
    return ⟨request, type, parameters, timeout,
      digest env (request.modelDump parameters timeout)⟩

/-- The row `create` inserts. -/
def NewJob.row (job : NewJob) (now : Int) : JobRow where
  jobId := job.request.jobId
  protocolVersion := 1
  type := job.type
  createdAt := job.request.createdAt
  parametersJson := json job.parameters
  timeoutSeconds := job.timeout
  status := .queued
  startedAt := none
  finishedAt := none
  resultJson := none
  resultSha256 := none
  errorJson := none
  workerId := none
  attempt := 0
  leaseExpiresAt := none
  requestSha256 := job.requestSha256
  updatedAt := now
  progressJson := none
  completionProcessed := true

/-- The rows that count against `max_active_jobs`. -/
def activeRows (rows : List JobRow) : List JobRow :=
  rows.filter fun row => !row.status.terminal

/-- `_require_attempt_owner`. -/
def requireAttemptOwner (row : JobRow) (workerId : Text) (attempt : Nat) : Except Failure Unit :=
  if row.workerId ≠ some workerId ∨ row.attempt ≠ attempt then
    .error (.conflict "worker does not own this job attempt")
  else .ok ()

/-- `_require_owner`. -/
def requireOwner (row : JobRow) (workerId : Text) (attempt : Nat) : Except Failure Unit :=
  if row.status ≠ .running then
    .error (.conflict ("job is not running (current status: " ++ row.status.text ++ ")"))
  else requireAttemptOwner row workerId attempt

/-- The lease of a claim or a renewal. -/
def leaseUntil (config : Config) (now : Int) (row : JobRow) : Int :=
  min row.deadline (now + seconds config.leaseSeconds)

/-- The columns `claim` writes. -/
def JobRow.claimed (config : Config) (now : Int) (workerId : Text) (row : JobRow) : JobRow :=
  { row with
    status := .running
    startedAt := row.startedAt.or (some now)
    workerId := some workerId
    attempt := row.attempt + 1
    leaseExpiresAt := some (leaseUntil config now row)
    updatedAt := now }

@[simp]
theorem JobRow.jobId_claimed (config : Config) (now : Int) (workerId : Text) (row : JobRow) :
    (row.claimed config now workerId).jobId = row.jobId := rfl

/-- The columns `heartbeat` writes. -/
def JobRow.renewed (config : Config) (now : Int) (progress : Option Value) (row : JobRow) :
    JobRow :=
  { row with
    leaseExpiresAt := some (leaseUntil config now row)
    progressJson := (progress.map json).or row.progressJson
    updatedAt := now }

@[simp]
theorem JobRow.jobId_renewed (config : Config) (now : Int) (progress : Option Value)
    (row : JobRow) : (row.renewed config now progress).jobId = row.jobId := rfl

/-- A terminal payload after its checks: what `complete` stores. -/
structure Completed where
  status : JobStatus
  result : Option Value
  resultSha256 : Option Text
  error : Option Value

/-- The columns `complete` writes. -/
def JobRow.completed (now : Int) (stored : Completed) (row : JobRow) : JobRow :=
  { row with
    status := stored.status
    finishedAt := some now
    resultJson := stored.result.map json
    resultSha256 := stored.resultSha256
    errorJson := stored.error.map json
    leaseExpiresAt := none
    updatedAt := now
    completionProcessed := if row.type.completionProcessed then false else row.completionProcessed }

@[simp]
theorem JobRow.jobId_completed (now : Int) (stored : Completed) (row : JobRow) :
    (row.completed now stored).jobId = row.jobId := rfl

/-- The check of the terminal payload inside the transaction of `complete`. -/
def checkOutcome (env : Environment) (type : JobType) : Outcome → Except Failure Completed
  | .succeeded result => do
      let result ← validated (env.resultModel type (.object result))
      return ⟨.succeeded, some result, some (digest env result), none⟩
  | .failed error => .ok ⟨.failed, none, none, some error.modelDump⟩

/-- Two optional JSON documents are equal as dictionaries. -/
def sameDocument (stored : Option Text) (value : Option Value) : Bool :=
  match stored, value with
  | none, none => true
  | some text, some value => (loads text).any fun read => (sortKeys read).same (sortKeys value)
  | _, _ => false

/-- `_same_completion`. -/
def sameCompletion (row : JobRow) (stored : Completed) : Bool :=
  row.status = stored.status && sameDocument row.resultJson stored.result &&
    sameDocument row.errorJson stored.error

/-- The order in which jobs are dispatched. -/
def dispatchOrder (first second : JobRow) : Prop :=
  julianday first.createdAt < julianday second.createdAt ∨
    (julianday first.createdAt = julianday second.createdAt ∧ first.jobId ≤ second.jobId)

instance : DecidableRel dispatchOrder := fun _ _ => inferInstanceAs (Decidable (_ ∨ _))

/-- The oldest of some rows. -/
def oldest (rows : List JobRow) : Option JobRow :=
  (rows.insertionSort dispatchOrder).head?

/-- The newest rows first. -/
def newestFirst (rows : List JobRow) : List JobRow :=
  rows.insertionSort fun first second => dispatchOrder second first

/-- The order of pending completions: unfinished rows first. -/
def finishedOrder (first second : JobRow) : Bool :=
  match first.finishedAt, second.finishedAt with
  | none, none => first.jobId ≤ second.jobId
  | none, some _ => true
  | some _, none => false
  | some earlier, some later =>
      julianday earlier < julianday later ||
        (julianday earlier = julianday later && first.jobId ≤ second.jobId)

/-- The incident a job's parameters name. -/
def targetsIncident (incidentId : Option Text) (row : JobRow) : Bool :=
  match loads row.parametersJson with
  | some (.object fields) =>
      match fields.lookup "incident_id".toList with
      | none | some (.atom .null) => incidentId = none
      | some (.string text) => incidentId = some text
      | some _ => false
  | _ => false

/-- `DistributedJobPollResult`. -/
structure ClaimResult where
  job : Option JobDocument
  shutdownRequested : Bool

namespace Database

variable (env : Environment) (config : Config) (now : Int)

/-- The transaction of `create`. -/
def enqueue (job : NewJob) (db : Database) : Except Failure (JobDocument × Database) := do
  let db := db.recover env config now
  match db.select job.request.jobId with
  | some existing =>
      if existing.requestSha256 ≠ job.requestSha256 then
        throw (.conflict "job_id already exists with a different request")
      else
        let answer ← document existing false
        return (answer, db)
  | none =>
      if config.maxActiveJobs ≤ (activeRows db.jobs.rows).length then
        throw (.value "distributed job active queue limit reached")
      else
        match db.jobs.insert? (job.row now) with
        | none => throw (.integrity "UNIQUE constraint failed: distributed_jobs.job_id")
        | some jobs =>
            let db := ({ db with jobs := jobs }.event job.request.jobId none .created now
              "accepted").event job.request.jobId (some .created) .queued now "queued"
            let row ← db.selectRequired job.request.jobId
            let answer ← document row false
            return (answer, db)

/-- `create`. -/
def create (payload : CreatePayload) (db : Database) :
    Except Failure (JobDocument × Database) := do
  let job ← prepareCreate env now payload
  db.enqueue env config now job

/-- `get`. -/
def get (jobId : Text) (db : Database) : Except Failure (JobDocument × Database) := do
  let db := db.recover env config now
  let row ← db.selectRequired jobId
  let answer ← document row false
  return (answer, db)

/-- `cancel`. -/
def cancel (jobId : Text) (db : Database) : Except Failure (JobDocument × Database) := do
  let db := db.recover env config now
  let row ← db.selectRequired jobId
  if row.status = .cancelled then
    let answer ← document row false
    return (answer, db)
  else if row.status.terminal then
    throw (.conflict ("job is already terminal with status " ++ row.status.text))
  else
    let db := db.transition row
      { status := .cancelled
        detail := "cancelled by Tsunade"
        finishedAt := some now
        clearLease := true } now
    let row ← db.selectRequired jobId
    let answer ← document row false
    return (answer, db)

/-- The write of a claim and its event. -/
def lease (workerId : Text) (row : JobRow) (db : Database) : Database :=
  (db.updateJob row.jobId (JobRow.claimed config now workerId)
    (JobRow.jobId_claimed config now workerId)).event row.jobId (some row.status) .running now
    ("claimed by " ++ String.ofList workerId ++ "; attempt " ++ toString (row.attempt + 1))

/-- The transaction of `claim`, with the compatible types. -/
def claimOldest (workerId : Text) (compatible : List JobType) (shutdownAfterCompletion settle : Bool)
    (db : Database) : Except Failure (ClaimResult × Database) := do
  let db := (db.recover env config now).touchWorker workerId now
  match oldest (db.jobs.rows.filter fun row =>
      row.status.claimable && row.type ∈ compatible) with
  | none =>
      if settle && shutdownAfterCompletion then
        let (shutdown, db) := db.idleShutdown workerId now
        return (⟨none, shutdown⟩, db)
      else return (⟨none, false⟩, db)
  | some row =>
      let db := db.lease config now workerId row
      let shutdown := shutdownAfterCompletion && !settle &&
        db.shouldShutdownAfterClaim workerId row.jobId compatible
      let row ← db.selectRequired row.jobId
      let answer ← document row shutdown
      return (⟨some answer, false⟩, db)

/-- `claim`. -/
def claim (workerId : Text) (supportedTypes : List Text) (shutdownAfterCompletion settle : Bool)
    (db : Database) : Except Failure (ClaimResult × Database) := do
  let claim ← JobClaim.validate workerId supportedTypes
  let compatible := claim.supportedTypes.filterMap JobType.ofText
  if compatible.isEmpty then return (⟨none, false⟩, db)
  else db.claimOldest env config now claim.workerId compatible shutdownAfterCompletion settle

/-- `authorize_job_transfer`. -/
def authorizeJobTransfer (jobId workerId : Text) (attempt : Nat) (permitted : List Text)
    (db : Database) : Except Failure (JobDocument × Database) := do
  let db := db.recover env config now
  let row ← db.selectRequired jobId
  requireOwner row workerId attempt
  if row.type.text ∈ permitted then
    let answer ← document row false
    return (answer, db.touchWorker workerId now)
  else
    throw (.conflict ("job type does not permit this transfer: " ++ String.ofList row.type.text))

/-- The transaction of `heartbeat`. -/
def renew (jobId : Text) (heartbeat : JobHeartbeat) (db : Database) :
    Except Failure (JobDocument × Database) := do
  let db := db.recover env config now
  let row ← db.selectRequired jobId
  if row.status = .cancelled ∨ row.status = .timeout then
    requireAttemptOwner row heartbeat.workerId heartbeat.attempt
    let answer ← document row false
    return (answer, db)
  else
    requireOwner row heartbeat.workerId heartbeat.attempt
    let db := (db.touchWorker heartbeat.workerId now).updateJob jobId
      (JobRow.renewed config now heartbeat.progress)
      (JobRow.jobId_renewed config now heartbeat.progress)
    let row ← db.selectRequired jobId
    let answer ← document row false
    return (answer, db)

/-- `heartbeat`. -/
def heartbeat (jobId workerId : Text) (attempt : Int) (progress : Option Value) (db : Database) :
    Except Failure (JobDocument × Database) := do
  let heartbeat ← JobHeartbeat.validate workerId attempt progress
  db.renew env config now jobId heartbeat

/-- The transaction of `complete`. -/
def finish (jobId : Text) (completion : JobCompletion) (db : Database) :
    Except Failure (JobDocument × Database) := do
  let db := db.recover env config now
  let row ← db.selectRequired jobId
  let stored ← checkOutcome env row.type completion.outcome
  if row.status = .succeeded ∨ row.status = .failed then
    if sameCompletion row stored then
      let answer ← document row false
      return (answer, db)
    else throw (.conflict "job already has a different result")
  else
    requireOwner row completion.workerId completion.attempt
    let db := (db.updateJob jobId (JobRow.completed now stored)
      (JobRow.jobId_completed now stored)).event jobId
      (some .running) stored.status now
      ("completed by " ++ String.ofList completion.workerId)
    let row ← db.selectRequired jobId
    let answer ← document row false
    return (answer, db)

/-- `complete`. -/
def complete (jobId : Text) (payload : CompletionPayload) (db : Database) :
    Except Failure (JobDocument × Database) := do
  let completion ← JobCompletion.validate payload
  db.finish env config now jobId completion

/-- `pending_completions`. -/
def pendingCompletions (failuresOnly : Bool) (db : Database) :
    Except Failure (List JobDocument × Database) := do
  let db := db.recover env config now
  let pending := db.jobs.rows.filter fun row =>
    !row.completionProcessed &&
      (!failuresOnly || row.status = .failed || row.status = .timeout || row.status = .cancelled)
  let ordered := pending.insertionSort fun first second => finishedOrder first second
  let answer ← (ordered.take 16).mapM fun row => document row false
  return (answer, db)

/-- `mark_completion_processed`. -/
def markCompletionProcessed (jobId : Text) (db : Database) : Database :=
  db.updateJob jobId (fun row => { row with completionProcessed := true }) fun _ => rfl

/-- The rows of a type, after recovery: the transaction of the `latest` reads. -/
def recoveredRows (type : JobType) (db : Database) : List JobRow × Database :=
  let db := db.recover env config now
  (db.jobs.rows.filter fun row => row.type = type, db)

/-- `latest`: the document is built after the transaction. -/
def latest (typeName : Text) (db : Database) :
    Except Failure (Option JobDocument) × Database :=
  match requireType typeName with
  | .error failure => (.error failure, db)
  | .ok type =>
      let (rows, db) := db.recoveredRows env config now type
      match (newestFirst rows).head? with
      | none => (.ok none, db)
      | some row => ((document row false).map some, db)

/-- `latest_for_incident`. -/
def latestForIncident (typeName : Text) (incidentId : Option Text) (status : Option JobStatus)
    (db : Database) : Except Failure (Option JobDocument) × Database :=
  match requireType typeName with
  | .error failure => (.error failure, db)
  | .ok type =>
      let (rows, db) := db.recoveredRows env config now type
      let candidates := newestFirst (rows.filter fun row => status = none ∨ status = some row.status)
      match (candidates.take 100).find? (targetsIncident incidentId) with
      | none => (.ok none, db)
      | some row => ((document row false).map some, db)

/-- `active_for_incident`. -/
def activeForIncident (typeName : Text) (incidentId : Option Text) (db : Database) :
    Except Failure (Option JobDocument × Database) := do
  let type ← requireType typeName
  let (rows, db) := db.recoveredRows env config now type
  let ordered := (activeRows rows).insertionSort fun first second =>
    julianday first.createdAt ≤ julianday second.createdAt
  match ordered.find? (targetsIncident incidentId) with
  | none => return (none, db)
  | some row =>
      let answer ← document row false
      return (some answer, db)

/-- `wake_ready_job_types`: the waiting types, the oldest first. -/
def wakeReadyJobTypes (batchWindowSeconds : Nat) (jobTypes : Option (List JobType))
    (createdAfter createdBefore : Option Int) (db : Database) :
    Except Failure (List JobType × Database) :=
  if 3600 < batchWindowSeconds then
    .error (.value "batch_window_seconds must be between 0 and 3600")
  else if jobTypes = some [] then .ok ([], db)
  else
    let db := db.recover env config now
    let ready := db.jobs.rows.filter fun row =>
      row.status.claimable &&
        env.timestamp row.createdAt ≤ env.timestamp (now - seconds batchWindowSeconds) &&
        decide (∀ types ∈ jobTypes, row.type ∈ types) &&
        decide (∀ after ∈ createdAfter, env.timestamp after ≤ env.timestamp row.createdAt) &&
        decide (∀ before ∈ createdBefore, env.timestamp row.createdAt ≤ env.timestamp before)
    let ordered := ready.insertionSort fun first second =>
      env.timestamp first.createdAt < env.timestamp second.createdAt ∨
        (env.timestamp first.createdAt = env.timestamp second.createdAt ∧
          first.type.text ≤ second.type.text)
    .ok ((ordered.map fun row => row.type).reverse.dedup.reverse, db)

end Database

/-! ## Operations and steps -/

/-- A call of the repository, with its inputs. -/
inductive Operation where
  | create (payload : CreatePayload)
  | get (jobId : Text)
  | latest (typeName : Text)
  | latestForIncident (typeName : Text) (incidentId : Option Text) (status : Option JobStatus)
  | activeForIncident (typeName : Text) (incidentId : Option Text)
  | cancel (jobId : Text)
  | claim (workerId : Text) (supportedTypes : List Text) (shutdownAfterCompletion settle : Bool)
  | pendingCompletions (failuresOnly : Bool)
  | markCompletionProcessed (jobId : Text)
  | authorizeJobTransfer (jobId workerId : Text) (attempt : Nat) (permitted : List Text)
  | heartbeat (jobId workerId : Text) (attempt : Int) (progress : Option Value)
  | complete (jobId : Text) (payload : CompletionPayload)
  | wakeReadyJobTypes (batchWindowSeconds : Nat) (jobTypes : Option (List JobType))
      (createdAfter createdBefore : Option Int)
  | registerWorker (payload : RegistrationPayload) (previousWorkerId : Option Text)
  | reportWorkerRuntimes (workerId : Text) (runtimes : List (Text × Value)) (host : Option Value)
  | markWorkerWaking (workerId : Text) (timeoutSeconds : Nat) (trigger : Text)
  | reportWorkerPower (workerId : Text) (started : Bool) (detail : Value)
  | settleUnansweredWakes (maxAttempts : Nat)
  | recordWakeFailure (workerId error trigger : Text)
  | createPairing (payload : RegistrationPayload) (pairingId pollingSecret verificationCode : Text)
  | listPairings
  | approvePairing (pairingId : Text)
  | rejectPairing (pairingId : Text)
  | pollPairing (pairingId pollingSecret workerToken : Text)

/-- What a call answers. -/
inductive Answer where
  | job (document : JobDocument)
  | jobOption (document : Option JobDocument)
  | jobs (documents : List JobDocument)
  | claim (result : ClaimResult)
  | types (types : List JobType)
  | worker (row : Option WorkerRow)
  | runtimes (kept : List (Text × Value))
  | pairing (row : PairingRow) (token : Option Text)
  | pairings (rows : List PairingRow)
  | done

/-- An answer or the exception the caller sees. -/
abbrev Reply := Except Failure Answer

/-- Commit a body and wrap its answer. -/
def answering {α : Type} (wrap : α → Answer) (body : Database → Except Failure (α × Database))
    (db : Database) : Reply × Database :=
  let outcome := commit body db
  (outcome.1.map wrap, outcome.2)

/-- Run one call at a clock reading. -/
def Operation.run (env : Environment) (config : Config) (now : Int) (db : Database) :
    Operation → Reply × Database
  | .create payload => answering .job (Database.create env config now payload) db
  | .get jobId => answering .job (Database.get env config now jobId) db
  | .latest typeName =>
      let outcome := db.latest env config now typeName
      (outcome.1.map .jobOption, outcome.2)
  | .latestForIncident typeName incidentId status =>
      let outcome := db.latestForIncident env config now typeName incidentId status
      (outcome.1.map .jobOption, outcome.2)
  | .activeForIncident typeName incidentId =>
      answering .jobOption (Database.activeForIncident env config now typeName incidentId) db
  | .cancel jobId => answering .job (Database.cancel env config now jobId) db
  | .claim workerId supportedTypes shutdownAfterCompletion settle =>
      answering .claim
        (Database.claim env config now workerId supportedTypes shutdownAfterCompletion settle) db
  | .pendingCompletions failuresOnly =>
      answering .jobs (Database.pendingCompletions env config now failuresOnly) db
  | .markCompletionProcessed jobId => (.ok .done, db.markCompletionProcessed jobId)
  | .authorizeJobTransfer jobId workerId attempt permitted =>
      answering .job
        (Database.authorizeJobTransfer env config now jobId workerId attempt permitted) db
  | .heartbeat jobId workerId attempt progress =>
      answering .job (Database.heartbeat env config now jobId workerId attempt progress) db
  | .complete jobId payload => answering .job (Database.complete env config now jobId payload) db
  | .wakeReadyJobTypes batchWindowSeconds jobTypes createdAfter createdBefore =>
      answering .types (Database.wakeReadyJobTypes env config now batchWindowSeconds jobTypes
        createdAfter createdBefore) db
  | .registerWorker payload previousWorkerId =>
      answering (fun row => .worker (some row)) (fun db => do
        let registration ← Registration.validate payload
        db.registerWorker now registration previousWorkerId) db
  | .reportWorkerRuntimes workerId runtimes host =>
      answering .runtimes (Database.reportWorkerRuntimes now workerId runtimes host) db
  | .markWorkerWaking workerId timeoutSeconds trigger =>
      answering .worker (Database.markWorkerWaking config now workerId timeoutSeconds trigger) db
  | .reportWorkerPower workerId started detail =>
      answering (fun _ => .done) (Database.reportWorkerPower now workerId started detail) db
  | .settleUnansweredWakes maxAttempts =>
      (.ok .done, db.settleUnansweredWakes config now maxAttempts)
  | .recordWakeFailure workerId error trigger =>
      (.ok .done, db.recordWakeFailure now workerId error trigger)
  | .createPairing payload pairingId pollingSecret verificationCode =>
      answering (fun row => .pairing row none) (fun db => do
        let registration ← Registration.validate payload
        db.createPairing env config now registration pairingId pollingSecret verificationCode) db
  | .listPairings =>
      let outcome := db.listPairings env now
      (.ok (.pairings outcome.1), outcome.2)
  | .approvePairing pairingId =>
      answering (fun row => .pairing row none) (Database.approvePairing env now pairingId) db
  | .rejectPairing pairingId =>
      answering (fun row => .pairing row none) (Database.rejectPairing env now pairingId) db
  | .pollPairing pairingId pollingSecret workerToken =>
      answering (fun outcome => .pairing outcome.1 outcome.2)
        (Database.pollPairing env now pairingId pollingSecret workerToken) db

/-- A call at a clock reading, as a label of a run. -/
structure Call where
  now : Int
  operation : Operation

/-- One step of the repository. -/
def Step (env : Environment) (config : Config) (db : Database) (call : Call) (after : Database) :
    Prop :=
  (call.operation.run env config call.now db).2 = after

/-- Run a list of calls. -/
def execute (env : Environment) (config : Config) (calls : List Call) (db : Database) : Database :=
  calls.foldl (fun db call => (call.operation.run env config call.now db).2) db

end OhanaAgent.Jobs
