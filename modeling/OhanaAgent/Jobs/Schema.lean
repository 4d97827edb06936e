import OhanaAgent.Encoding.JsonRoundTrip
import OhanaAgent.Store.Table
import OhanaAgent.Time.Zone

/-!
# The distributed job database

Job types, statuses, the rows of the six tables and the configuration of the
repository.  Timestamps are instants; where the source compares their stored
texts the operations do so through `Environment.timestamp`.
-/

namespace OhanaAgent.Jobs

open OhanaAgent.Encoding.Json
open OhanaAgent.Store
open OhanaAgent.Time

/-- The keys of `JOB_TYPE_MODELS`. -/
inductive JobType where
  | systemHealth
  | backupCompress
  | backupEncrypt
  | backupVerify
  | backupInfra
  | logsHealthCheck
  | logsInvestigate
  | aiInference
  | trendsHistoryBackfill
  deriving DecidableEq, Repr

namespace JobType

def all : List JobType :=
  [.systemHealth, .backupCompress, .backupEncrypt, .backupVerify, .backupInfra,
    .logsHealthCheck, .logsInvestigate, .aiInference, .trendsHistoryBackfill]

def text : JobType → Text
  | .systemHealth => "system.health".toList
  | .backupCompress => "backup.compress".toList
  | .backupEncrypt => "backup.encrypt".toList
  | .backupVerify => "backup.verify".toList
  | .backupInfra => "backup.infra".toList
  | .logsHealthCheck => "logs.health_check".toList
  | .logsInvestigate => "logs.investigate".toList
  | .aiInference => "ai.inference".toList
  | .trendsHistoryBackfill => "trends.history_backfill".toList

/-- Look a type name up in `JOB_TYPE_MODELS`. -/
def ofText (name : Text) : Option JobType :=
  all.find? fun type => type.text = name

/-- `AUTOMATIC_WAKE_JOB_TYPES`. -/
def automaticWake : JobType → Bool
  | .backupInfra | .logsHealthCheck | .logsInvestigate | .aiInference => true
  | _ => false

/-- `DEFERRED_TO_BATCH_JOB_TYPES`. -/
def deferredToBatch : JobType → Bool
  | .logsHealthCheck | .logsInvestigate | .aiInference => true
  | _ => false

/-- `COMPLETION_PROCESSED_TYPES`. -/
def completionProcessed : JobType → Bool
  | .logsHealthCheck | .logsInvestigate | .aiInference | .trendsHistoryBackfill => true
  | _ => false

/-- The types whose every terminal transition waits for its processing. -/
def settledByTsunade : JobType → Bool
  | .aiInference | .logsInvestigate => true
  | _ => false

end JobType

/-- `DistributedJobStatus`. -/
inductive JobStatus where
  | created
  | queued
  | waitingWorker
  | running
  | succeeded
  | failed
  | cancelled
  | timeout
  deriving DecidableEq, Repr

namespace JobStatus

/-- Membership in `TERMINAL_STATUSES`. -/
def terminal : JobStatus → Bool
  | .succeeded | .failed | .cancelled | .timeout => true
  | _ => false

/-- The statuses recovery looks at. -/
def recoverable : JobStatus → Bool
  | .queued | .waitingWorker | .running => true
  | _ => false

/-- The statuses a worker can claim. -/
def claimable : JobStatus → Bool
  | .queued | .waitingWorker => true
  | _ => false

def text : JobStatus → String
  | .created => "CREATED"
  | .queued => "QUEUED"
  | .waitingWorker => "WAITING_WORKER"
  | .running => "RUNNING"
  | .succeeded => "SUCCEEDED"
  | .failed => "FAILED"
  | .cancelled => "CANCELLED"
  | .timeout => "TIMEOUT"

end JobStatus

/-- A row of `distributed_jobs`. -/
structure JobRow where
  jobId : Text
  protocolVersion : Nat
  type : JobType
  createdAt : Int
  parametersJson : Text
  timeoutSeconds : Nat
  status : JobStatus
  startedAt : Option Int
  finishedAt : Option Int
  resultJson : Option Text
  resultSha256 : Option Text
  errorJson : Option Text
  workerId : Option Text
  attempt : Nat
  leaseExpiresAt : Option Int
  requestSha256 : Text
  updatedAt : Int
  progressJson : Option Text
  completionProcessed : Bool
  deriving DecidableEq

/-- `_deadline`. -/
def JobRow.deadline (row : JobRow) : Int :=
  row.createdAt + seconds row.timeoutSeconds

/-- A row of `distributed_job_events`. -/
structure JobEvent where
  eventId : Nat
  jobId : Text
  occurredAt : Int
  previousStatus : Option JobStatus
  status : JobStatus
  detail : String
  deriving DecidableEq

/-- A row of `distributed_workers`. -/
structure WorkerRow where
  workerId : Text
  protocolVersion : Nat
  capabilities : List JobType
  platform : Text
  workerVersion : Text
  registeredAt : Int
  lastSeenAt : Int
  wokenByOhana : Bool
  wakeRequestedAt : Option Int
  wakeDeadlineAt : Option Int
  wakeOnLanMacAddress : Option Text
  runtimesJson : Option Text
  runtimesReportedAt : Option Int
  hostJson : Option Text
  deriving DecidableEq

/-- `DistributedWorkerPowerEventKind`. -/
inductive PowerEventKind where
  | wakeSent
  | wakeFailed
  | wakeTimeout
  | wakeAbandoned
  | workerOnline
  | shutdownGranted
  | shutdownStarted
  | shutdownVetoed
  deriving DecidableEq, Repr

/-- A row of `distributed_worker_power_events`. -/
structure PowerEvent where
  eventId : Nat
  workerId : Text
  occurredAt : Int
  kind : PowerEventKind
  detail : Value
  deriving DecidableEq

/-- The status of a pairing request. -/
inductive PairingStatus where
  | pending
  | approved
  | consumed
  | expired
  | rejected
  deriving DecidableEq, Repr

/-- Membership in `('PENDING', 'APPROVED')`. -/
def PairingStatus.live : PairingStatus → Bool
  | .pending | .approved => true
  | _ => false

def PairingStatus.text : PairingStatus → String
  | .pending => "PENDING"
  | .approved => "APPROVED"
  | .consumed => "CONSUMED"
  | .expired => "EXPIRED"
  | .rejected => "REJECTED"

/-- A row of `distributed_worker_pairings`. -/
structure PairingRow where
  pairingId : Text
  workerId : Text
  protocolVersion : Nat
  capabilities : List JobType
  platform : Text
  workerVersion : Text
  pollingSecretSha256 : Text
  verificationCode : Text
  status : PairingStatus
  createdAt : Int
  expiresAt : Int
  approvedAt : Option Int
  consumedAt : Option Int
  deriving DecidableEq

/-- A row of `distributed_worker_credentials`. -/
structure CredentialRow where
  workerId : Text
  tokenSha256 : Text
  createdAt : Int
  revokedAt : Option Int
  deriving DecidableEq

/-- The tables, and the sequences of the two journals. -/
structure Database where
  jobs : Table JobRow JobRow.jobId
  events : List JobEvent
  nextEvent : Nat
  workers : Table WorkerRow WorkerRow.workerId
  powerEvents : List PowerEvent
  nextPowerEvent : Nat
  pairings : Table PairingRow PairingRow.pairingId
  credentials : Table CredentialRow CredentialRow.workerId

/-- The database `_initialize` creates. -/
def Database.empty : Database where
  jobs := ∅
  events := []
  nextEvent := 1
  workers := ∅
  powerEvents := []
  nextPowerEvent := 1
  pairings := ∅
  credentials := ∅

/-- The constructor arguments of the repository, with the bounds it checks. -/
structure Config where
  leaseSeconds : Nat
  waitingWorkerAfterSeconds : Nat
  retentionDays : Nat
  maxActiveJobs : Nat
  pairingTtlSeconds : Nat
  maxPendingPairings : Nat
  workerAvailableSeconds : Nat
  maxAttempts : Nat
  lease_ge : 10 ≤ leaseSeconds
  retention_ge : 1 ≤ retentionDays
  active_ge : 1 ≤ maxActiveJobs
  pairingTtl_bounds : 60 ≤ pairingTtlSeconds ∧ pairingTtlSeconds ≤ 3600
  pairings_bounds : 1 ≤ maxPendingPairings ∧ maxPendingPairings ≤ 100
  available_bounds : 10 ≤ workerAvailableSeconds ∧ workerAvailableSeconds ≤ 600
  attempts_bounds : 1 ≤ maxAttempts ∧ maxAttempts ≤ 10

/-- The default arguments. -/
def Config.default : Config where
  leaseSeconds := 60
  waitingWorkerAfterSeconds := 30
  retentionDays := 30
  maxActiveJobs := 1000
  pairingTtlSeconds := 600
  maxPendingPairings := 10
  workerAvailableSeconds := 30
  maxAttempts := 3
  lease_ge := by decide
  retention_ge := by decide
  active_ge := by decide
  pairingTtl_bounds := by decide
  pairings_bounds := by decide
  available_bounds := by decide
  attempts_bounds := by decide

/-- What the repository takes from outside: the Paris time zone, SHA-256 as a
hexadecimal digest, and the per-type models that check parameters and results
and write them back as JSON values. -/
structure Environment where
  paris : Zone
  sha256 : Text → Text
  parametersModel : JobType → Value → Except String Value
  resultModel : JobType → Value → Except String Value

/-- `_timestamp`: the stored text of an instant. -/
def Environment.timestamp (env : Environment) (instant : Int) : Text :=
  env.paris.isoformat instant

/-- The exceptions an operation raises. -/
inductive Failure where
  | value (message : String)
  | conflict (message : String)
  | lookup (message : String)
  | decode (message : String)
  | integrity (message : String)
  deriving DecidableEq, Repr

end OhanaAgent.Jobs
