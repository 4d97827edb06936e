import OhanaAgent.Jobs.Schema
import OhanaAgent.Jobs.StoredJson
import OhanaAgent.Store.Transaction

/-!
# Request and response models of the job protocol

The contracts the repository validates before it opens a transaction, and the
document it answers with.  A validated request is a structure that carries the
bounds its model checks.
-/

namespace OhanaAgent.Jobs

open OhanaAgent.Encoding.Json
open OhanaAgent.Store
open OhanaAgent.Time

def isLower (c : Char) : Bool :=
  'a' ≤ c && c ≤ 'z'

def isUpper (c : Char) : Bool :=
  'A' ≤ c && c ≤ 'Z'

/-- One segment of a type name: `[a-z][a-z0-9_]*`. -/
def isTypeSegment : Text → Bool
  | [] => false
  | c :: rest => isLower c && rest.all fun d => isLower d || d.isDigit || d == '_'

/-- Split a text at every full stop. -/
def segments : Text → List Text
  | [] => [[]]
  | '.' :: rest => [] :: segments rest
  | c :: rest =>
      match segments rest with
      | [] => [[c]]
      | first :: others => (c :: first) :: others

/-- `^[a-z][a-z0-9_]*(?:\.[a-z][a-z0-9_]*)+$`. -/
def isTypeName (name : Text) : Bool :=
  2 ≤ (segments name).length && (segments name).all isTypeSegment

/-- `^[A-Za-z0-9_.:-]+$` with a length from 1 to 80. -/
def isWorkerId (name : Text) : Bool :=
  1 ≤ name.length && name.length ≤ 80 &&
    name.all fun c => isLower c || isUpper c || c.isDigit || c == '_' || c == '.' ||
      c == ':' || c == '-'

/-- `^[a-z0-9_.-]+$` with a length from 1 to 80. -/
def isCode (code : Text) : Bool :=
  1 ≤ code.length && code.length ≤ 80 &&
    code.all fun c => isLower c || c.isDigit || c == '_' || c == '.' || c == '-'

/-- A datetime of a request: an instant with its UTC offset, or local fields
without one. -/
inductive Stamp where
  | aware (instant : Int) (offset : Int)
  | naive (local_ : Int)
  deriving DecidableEq

/-- The JSON text of an aware datetime; UTC is written as `Z`. -/
def stampText (instant offset : Int) : Text :=
  localText (instant + offset) ++ if offset = 0 then ['Z'] else offsetText offset

/-- The body of a creation request, before its model checks it. -/
structure CreatePayload where
  protocolVersion : Nat
  jobId : Text
  type : Text
  createdAt : Stamp
  parameters : Fields
  timeout : Int

/-- `DistributedJobCreate`. -/
structure JobCreate where
  jobId : Text
  type : Text
  createdAt : Int
  createdOffset : Int
  parameters : Fields
  timeout : Nat
  typeName : isTypeName type = true
  timeout_bounds : 1 ≤ timeout ∧ timeout ≤ 86400

/-- `DistributedJobCreate.model_validate`. -/
def JobCreate.validate (payload : CreatePayload) : Except Failure JobCreate :=
  if payload.protocolVersion ≠ 1 then .error (.value "protocol_version: Input should be 1")
  else
    if typeName : isTypeName payload.type = true then
      match payload.createdAt with
      | .naive _ => .error (.value "created_at must include a timezone")
      | .aware instant offset =>
          if bounds : 1 ≤ payload.timeout ∧ payload.timeout ≤ 86400 then
            .ok
              { jobId := payload.jobId
                type := payload.type
                createdAt := instant
                createdOffset := offset
                parameters := payload.parameters
                timeout := payload.timeout.toNat
                typeName := typeName
                timeout_bounds := by omega }
          else .error (.value "timeout: Input should be between 1 and 86400")
    else .error (.value "type: String should match pattern")

/-- `request.model_copy(update=…).model_dump(mode="json")`, with the validated
parameters and the normalized timeout. -/
def JobCreate.modelDump (request : JobCreate) (parameters : Value) (timeout : Nat) : Value :=
  .object (.ofList [
    ("protocol_version".toList, .number (.ofNat 1)),
    ("job_id".toList, .string request.jobId),
    ("type".toList, .string request.type),
    ("created_at".toList, .string (stampText request.createdAt request.createdOffset)),
    ("parameters".toList, parameters),
    ("timeout".toList, .number (.ofNat timeout))])

/-- `DistributedJobClaim`. -/
structure JobClaim where
  workerId : Text
  supportedTypes : List Text
  worker_valid : isWorkerId workerId = true
  types_bounds : 1 ≤ supportedTypes.length ∧ supportedTypes.length ≤ 32

/-- `DistributedJobClaim.model_validate`. -/
def JobClaim.validate (workerId : Text) (supportedTypes : List Text) :
    Except Failure JobClaim :=
  if worker_valid : isWorkerId workerId = true then
    if types_bounds : 1 ≤ supportedTypes.length ∧ supportedTypes.length ≤ 32 then
      .ok ⟨workerId, supportedTypes, worker_valid, types_bounds⟩
    else .error (.value "supported_types: List should have between 1 and 32 items")
  else .error (.value "worker_id: String should match pattern")

/-- `DistributedJobHeartbeat`; the progress is the dump of its model. -/
structure JobHeartbeat where
  workerId : Text
  attempt : Nat
  progress : Option Value
  worker_valid : isWorkerId workerId = true
  attempt_ge : 1 ≤ attempt

/-- `DistributedJobHeartbeat.model_validate`. -/
def JobHeartbeat.validate (workerId : Text) (attempt : Int) (progress : Option Value) :
    Except Failure JobHeartbeat :=
  if worker_valid : isWorkerId workerId = true then
    if positive : 1 ≤ attempt then
      .ok ⟨workerId, attempt.toNat, progress, worker_valid, by omega⟩
    else .error (.value "attempt: Input should be greater than or equal to 1")
  else .error (.value "worker_id: String should match pattern")

/-- `DistributedJobError`. -/
structure JobError where
  code : Text
  message : Text
  retryable : Bool
  deriving DecidableEq

/-- `DistributedJobError.model_dump(mode="json")`. -/
def JobError.modelDump (error : JobError) : Value :=
  .object (.ofList [
    ("code".toList, .string error.code),
    ("message".toList, .string error.message),
    ("retryable".toList, .atom (if error.retryable then .true else .false))])

/-- The body of a completion, before its model checks it. -/
structure CompletionPayload where
  workerId : Text
  attempt : Int
  status : JobStatus
  result : Option Fields
  error : Option JobError

/-- The terminal payload a completion carries. -/
inductive Outcome where
  | succeeded (result : Fields)
  | failed (error : JobError)

/-- The status an outcome asks for. -/
def Outcome.status : Outcome → JobStatus
  | .succeeded _ => .succeeded
  | .failed _ => .failed

/-- `DistributedJobCompletion`. -/
structure JobCompletion where
  workerId : Text
  attempt : Nat
  outcome : Outcome
  worker_valid : isWorkerId workerId = true
  attempt_ge : 1 ≤ attempt

/-- `validate_terminal_payload`: exactly the payload of the terminal state. -/
def CompletionPayload.outcome (payload : CompletionPayload) : Except Failure Outcome :=
  match payload.status, payload.result, payload.error with
  | .succeeded, some result, none => .ok (.succeeded result)
  | .succeeded, _, _ => .error (.value "SUCCEEDED requires result and forbids error")
  | .failed, none, some error =>
      if isCode error.code && 1 ≤ error.message.length && error.message.length ≤ 1000 then
        .ok (.failed error)
      else .error (.value "error: String should match pattern")
  | .failed, _, _ => .error (.value "FAILED requires error and forbids result")
  | _, _, _ => .error (.value "status: Input should be 'SUCCEEDED' or 'FAILED'")

/-- `DistributedJobCompletion.model_validate`. -/
def JobCompletion.validate (payload : CompletionPayload) : Except Failure JobCompletion :=
  if worker_valid : isWorkerId payload.workerId = true then
    if positive : 1 ≤ payload.attempt then
      payload.outcome.map fun outcome =>
        ⟨payload.workerId, payload.attempt.toNat, outcome, worker_valid, by omega⟩
    else .error (.value "attempt: Input should be greater than or equal to 1")
  else .error (.value "worker_id: String should match pattern")

/-- `DistributedJobDocument`. -/
structure JobDocument where
  protocolVersion : Nat
  jobId : Text
  type : JobType
  createdAt : Int
  parameters : Value
  timeout : Nat
  status : JobStatus
  startedAt : Option Int
  finishedAt : Option Int
  result : Option Value
  resultSha256 : Option Text
  error : Option Value
  workerId : Option Text
  attempt : Nat
  leaseExpiresAt : Option Int
  progress : Option Value
  shutdownAfterCompletion : Bool

/-- Decode a column that must hold a JSON object. -/
def decodeObject (reader : Text → Option Value) (text : Text) : Except Failure Value :=
  match reader text with
  | some (.object fields) => .ok (.object fields)
  | some _ => .error (.value "Input should be a valid dictionary")
  | none => .error (.decode "invalid JSON document")

/-- Decode a nullable column. -/
def decodeColumn (reader : Text → Option Value) : Option Text → Except Failure (Option Value)
  | none => .ok none
  | some text => (decodeObject reader text).map some

/-- `_document`: results are read through the session mask. -/
def document (row : JobRow) (shutdownAfterCompletion : Bool) : Except Failure JobDocument := do
  let parameters ← decodeObject loads row.parametersJson
  let result ← decodeColumn storedJson row.resultJson
  let error ← decodeColumn loads row.errorJson
  let progress ← decodeColumn loads row.progressJson
  return {
    protocolVersion := row.protocolVersion
    jobId := row.jobId
    type := row.type
    createdAt := row.createdAt
    parameters := parameters
    timeout := row.timeoutSeconds
    status := row.status
    startedAt := row.startedAt
    finishedAt := row.finishedAt
    result := result
    resultSha256 := row.resultSha256
    error := error
    workerId := row.workerId
    attempt := row.attempt
    leaseExpiresAt := row.leaseExpiresAt
    progress := progress
    shutdownAfterCompletion := shutdownAfterCompletion }

/-- The row can be shown. -/
def Decodable (row : JobRow) : Prop :=
  ∃ answer, document row false = .ok answer

/-- The four JSON columns of a row decide whether it can be shown. -/
theorem decodable_iff {row : JobRow} :
    Decodable row ↔ (∃ value, decodeObject loads row.parametersJson = .ok value) ∧
      (∃ value, decodeColumn storedJson row.resultJson = .ok value) ∧
      (∃ value, decodeColumn loads row.errorJson = .ok value) ∧
      (∃ value, decodeColumn loads row.progressJson = .ok value) := by
  simp only [Decodable, document, bind_eq_ok, pure_eq_ok]
  constructor
  · rintro ⟨_, parameters, first, result, second, error, third, progress, fourth, _⟩
    exact ⟨⟨parameters, first⟩, ⟨result, second⟩, ⟨error, third⟩, ⟨progress, fourth⟩⟩
  · rintro ⟨⟨parameters, first⟩, ⟨result, second⟩, ⟨error, third⟩, ⟨progress, fourth⟩⟩
    exact ⟨_, parameters, first, result, second, error, third, progress, fourth, rfl⟩

theorem decodeColumn_error (error : JobError) :
    ∃ value, decodeColumn loads (some (json error.modelDump)) = .ok value := by
  have distinct : DistinctKeys error.modelDump := by
    simp [JobError.modelDump, Fields.ofList, DistinctKeys, DistinctFields, Fields.keys]
  have read : loads (json error.modelDump) = some (sortKeys error.modelDump) := loads_dumps distinct
  obtain ⟨fields, shape⟩ : ∃ fields, sortKeys error.modelDump = .object fields := ⟨_, rfl⟩
  rw [shape] at read
  exact ⟨some (.object fields), by simp [decodeColumn, decodeObject, read, Except.map]⟩

end OhanaAgent.Jobs
