import OhanaAgent.Api.Routing

/-!
# What a handler knows when it calls

One rule for each step of a handler, and one specification of every handler: what
it knows of the credentials when it calls the service, and the text of the only
answer 401 that it gives.
-/

namespace OhanaAgent.Api

open OhanaAgent.Encoding.Json (Text Value Fields)
open OhanaAgent.Transition
open OhanaAgent.Transition.Program

variable {env : Environment} {S : Type} {behaviour : Behaviour env S} {call : Call}
  {text : String}

/-- The encounters so far. -/
abbrev Past (env : Environment) (S : Type) : Type :=
  List (Encounter Effect (Service env S))

/-- Calls of the service need permission, all other effects are free. -/
def Permits (permitted : Past env S → Invocation → Prop) (past : Past env S) : Effect → Prop
  | .run invocation => permitted past invocation
  | _ => True

/-- A rejection with the status 401 has this text. -/
def Failure.Refuses (text : String) : Failure → Prop
  | rejected status detail => status = 401 → detail = text
  | raised => True

/-- A value satisfies the condition, and a failure refuses with this text only. -/
def Yields {α : Type} (text : String) (condition : α → Past env S → Prop) :
    Except Failure α → Past env S → Prop
  | .ok value, past => condition value past
  | .error failure, _ => failure.Refuses text

/-- A response that is no answer 401. -/
def Admits (response : Response) (_ : Past env S) : Prop :=
  response.status ≠ 401

/-- The repository has accepted a worker. -/
def WorkerAccepted (behaviour : Behaviour env S) (workerId token : Text)
    (previousWorkerId : Option Text) (past : Past env S) : Prop :=
  ∃ met, ⟨.authorizeWorker workerId token previousWorkerId, met⟩ ∈ past ∧
    behaviour.answer (.authorizeWorker workerId token previousWorkerId) met = true

/-- Where no token is shared, the repository has accepted the worker that a
document names. -/
def PayloadAccepted (behaviour : Behaviour env S) (call : Call) (payload : Fields)
    (previousWorkerId : Option Text) (past : Past env S) : Prop :=
  call.server.workerToken = none → ∃ workerId token,
    payload.lookup "worker_id".toList = some (.string workerId) ∧
      call.request.bearerToken = some token ∧
      WorkerAccepted behaviour workerId token previousWorkerId past

/-- The document that `worker_transfer_identity` authorizes. -/
def transferPayload (workerId : Text) : Fields :=
  .ofList [("worker_id".toList, .string workerId)]

/-- What a handler knows when it makes a call. -/
inductive Knows (behaviour : Behaviour env S) (call : Call) (parameters : Parameters)
    (past : Past env S) : Handler → Invocation → Prop where
  | call {method : ServiceMethod} {fixed : List String} :
      Knows behaviour call parameters past (.call method fixed)
        ⟨method, (fixed.map fun value => .text value.toList) ++ parameters.arguments⟩
  | callWithBody {method : ServiceMethod} (payload : Fields) :
      Knows behaviour call parameters past (.callWithBody method)
        ⟨method, parameters.arguments ++ [.document payload]⟩
  | workerCallWithBody {method : ServiceMethod} {payload : Fields}
      (accepted : PayloadAccepted behaviour call payload none past) :
      Knows behaviour call parameters past (.workerCallWithBody method)
        ⟨method, parameters.arguments ++ [.document payload]⟩
  | companionCallWithBody {method : ServiceMethod} (payload : Fields) :
      Knows behaviour call parameters past (.companionCallWithBody method)
        ⟨method, parameters.arguments ++ [.ofOption call.companionId, .document payload]⟩
  | registerWorker {payload : Fields} {previousWorkerId : Option Text}
      (accepted : PayloadAccepted behaviour call payload previousWorkerId past) :
      Knows behaviour call parameters past .registerWorker
        ⟨.registerWorker, [.document payload, .ofOption previousWorkerId]⟩
  | readSource {method : ServiceMethod} {workerId : Text} (jobId : Text) (rest : List Argument)
      (accepted : PayloadAccepted behaviour call (transferPayload workerId) none past) :
      Knows behaviour call parameters past (.readSource method)
        ⟨method, .text jobId :: .text workerId :: rest⟩
  | uploadBackupArtifact {workerId : Text} (jobId : Text) (rest : List Argument)
      (accepted : PayloadAccepted behaviour call (transferPayload workerId) none past) :
      Knows behaviour call parameters past .uploadBackupArtifact
        ⟨.receiveBackupArtifact, .text jobId :: .text workerId :: rest⟩
  | downloadBackupSource {workerId : Text} (jobId : Text) (rest : List Argument)
      (accepted : PayloadAccepted behaviour call (transferPayload workerId) none past) :
      Knows behaviour call parameters past .downloadBackupSource
        ⟨.openBackupSource, .text jobId :: .text workerId :: rest⟩
  | companionDiagnosis (incidentId : Text) :
      Knows behaviour call parameters past .companionDiagnosis
        ⟨.requestCompanionDiagnosis, [.text incidentId, .ofOption call.companionId]⟩
  | respondCompanionRequest (requestId : Text) (payload : Fields) :
      Knows behaviour call parameters past .respondCompanionRequest
        ⟨.respondCompanionRequest,
          [.text requestId, .ofOption call.companionId, .document payload]⟩

theorem Knows.method {parameters : Parameters} {past : Past env S} {handler : Handler}
    {invocation : Invocation} (knows : Knows behaviour call parameters past handler invocation) :
    handler.method = some invocation.method := by
  cases knows <;> rfl

/-! ## The steps of a handler -/

section Steps

variable {α β : Type} {permitted : Past env S → Invocation → Prop} {past : Past env S}
  {condition : α → Past env S → Prop} {goal : β → Past env S → Prop}

/-- The rule of sequence. -/
theorem traces_then {first : Handling α} {rest : α → Handling β}
    (traces : Traces behaviour.answer (Permits permitted) (Yields text condition) first past)
    (continues : ∀ value later, condition value later →
      Traces behaviour.answer (Permits permitted) (Yields text goal) (rest value) later) :
    Traces behaviour.answer (Permits permitted) (Yields text goal) (first >>= rest) past :=
  traces_bind traces continues fun _ _ refuses => refuses

/-- Continue after a computation without effects. -/
theorem traces_computed {computed : Except Failure α} {rest : α → Handling β}
    (fails : ∀ failure, computed = .error failure → failure.Refuses text)
    (continues : ∀ value, computed = .ok value →
      Traces behaviour.answer (Permits permitted) (Yields text goal) (rest value) past) :
    Traces behaviour.answer (Permits permitted) (Yields text goal)
      (ofExcept computed >>= rest) past := by
  cases equal : computed with
  | ok value => exact continues value equal
  | error failure => exact fails failure equal

theorem refuses_json (failure : Failure) (failed : call.json = .error failure) :
    failure.Refuses text := by
  unfold Call.json at failed
  dsimp only at failed
  split at failed
  · cases failed
    simp [Failure.Refuses]
  · split at failed
    · cases failed
      simp [Failure.Refuses]
    · contradiction
    · cases failed
      simp [Failure.Refuses]

theorem refuses_required {parameters : Parameters} {name : String} (failure : Failure)
    (failed : parameters.required name = .error failure) : failure.Refuses text := by
  unfold Parameters.required at failed
  split at failed
  · contradiction
  · cases failed
    trivial

theorem refuses_compareDigest {first second : Text} (failure : Failure)
    (failed : compareDigest first second = .error failure) : failure.Refuses text := by
  unfold compareDigest at failed
  split at failed
  · contradiction
  · cases failed
    trivial

theorem compareDigest_eq_true {first second : Text}
    (equal : compareDigest first second = .ok true) : first = second := by
  unfold compareDigest at equal
  split at equal
  · simpa using equal
  · contradiction

theorem operationErrorStatuses_ne :
    ∀ entry ∈ Call.operationErrorStatuses, entry.2 ≠ 401 := by
  decide

/-- `execute` gives no answer 401. -/
theorem traces_execute {method : ServiceMethod} {arguments : List Argument}
    (granted : permitted past ⟨method, arguments⟩) :
    Traces behaviour.answer (Permits permitted) (Yields text Admits)
      (Call.execute method arguments) past := by
  constructor
  · exact granted
  · intro state
    cases behaviour.answer (.run ⟨method, arguments⟩) state with
    | ok content =>
        show (200 : Nat) ≠ 401
        decide
    | error error =>
        dsimp only [Program.bind]
        split
        · show (500 : Nat) ≠ 401
          decide
        · split
          · rename_i entry found
            exact operationErrorStatuses_ne _ (List.mem_of_find?_eq_some found)
          · trivial

/-- `_source_preparation_error` gives no answer 401. -/
theorem traces_sourcePreparationError (error : Raised) :
    Traces behaviour.answer (Permits permitted) (Yields text Admits)
      (ofExcept (sourcePreparationError error)) past := by
  apply traces_ofExcept
  unfold sourcePreparationError
  split
  · show (404 : Nat) ≠ 401
    decide
  · split
    · show (409 : Nat) ≠ 401
      decide
    · split
      · trivial
      · show (if error.stage = "storage".toList then 507 else 500 : Nat) ≠ 401
        split
        · decide
        · decide

/-! ## Authorizations -/

/-- The text with which `authorize_worker` refuses. -/
def workerRefusal : String := "A valid worker token is required"

theorem refuses_sharedMatches (failure : Failure) (failed : call.sharedMatches = .error failure) :
    failure.Refuses text := by
  unfold Call.sharedMatches at failed
  split at failed
  · exact refuses_compareDigest failure failed
  · contradiction

/-- The answer of the repository about the worker that a document names. -/
theorem traces_pairedMatches {payload : Fields} {previousWorkerId : Option Text} :
    Traces behaviour.answer (Permits permitted)
      (Yields text fun paired later => paired = true → ∃ workerId token,
        payload.lookup "worker_id".toList = some (.string workerId) ∧
          call.request.bearerToken = some token ∧
          WorkerAccepted behaviour workerId token previousWorkerId later)
      (call.pairedMatches payload previousWorkerId) past := by
  unfold Call.pairedMatches
  split
  · rename_i workerId token named presented
    apply traces_ask
    · trivial
    · intro state accepted
      exact ⟨workerId, token, named, presented, state, List.mem_append_right _ List.mem_cons_self,
        accepted⟩
  · exact fun impossible => absurd impossible Bool.false_ne_true

/-- `authorize_worker` returns where the repository has accepted the worker. -/
theorem traces_authorizeWorker {payload : Fields} {previousWorkerId : Option Text} :
    Traces behaviour.answer (Permits permitted)
      (Yields workerRefusal fun _ => PayloadAccepted behaviour call payload previousWorkerId)
      (call.authorizeWorker payload previousWorkerId) past := by
  unfold Call.authorizeWorker
  apply traces_computed refuses_sharedMatches
  intro shared sharedEqual
  apply traces_then traces_pairedMatches
  intro paired later accepted
  cases authorized : if previousWorkerId.isSome then paired else shared || paired with
  | true =>
      intro unshared
      have absent : shared = false := by
        unfold Call.sharedMatches at sharedEqual
        rw [unshared] at sharedEqual
        exact (Except.ok.inj sharedEqual).symm
      apply accepted
      rw [absent, Bool.false_or, ite_self] at authorized
      exact authorized
  | false => exact fun _ => rfl

/-- `worker_transfer_identity` returns an accepted worker. -/
theorem traces_workerTransferIdentity :
    Traces behaviour.answer (Permits permitted)
      (Yields workerRefusal fun identity =>
        PayloadAccepted behaviour call (transferPayload identity.1) none)
      (call.workerTransferIdentity env) past := by
  unfold Call.workerTransferIdentity
  extract_lets workerId given attempt
  split
  · exact fun impossible => absurd impossible (by decide)
  · split
    · exact fun impossible => absurd impossible (by decide)
    · apply traces_then traces_authorizeWorker
      intro _ later accepted
      exact accepted

end Steps

/-! ## The handlers -/

variable {parameters : Parameters} {past : Past env S}

/-- Every handler calls the service with what it knows, and it refuses only as
`authorize_worker` does. -/
theorem traces_handler (handler : Handler)
    (refuses : handler.authorizes = true → text = workerRefusal) :
    Traces behaviour.answer
      (Permits fun later => Knows behaviour call parameters later handler)
      (Yields text Admits) (handler.run env call parameters) past := by
  cases handler with
  | call method fixed => exact traces_execute .call
  | callWithBody method =>
      apply traces_computed refuses_json
      intro payload _
      exact traces_execute (.callWithBody payload)
  | workerCallWithBody method =>
      obtain rfl := refuses rfl
      apply traces_computed refuses_json
      intro payload _
      apply traces_then traces_authorizeWorker
      intro _ later accepted
      exact traces_execute (.workerCallWithBody accepted)
  | companionCallWithBody method =>
      apply traces_computed refuses_json
      intro payload _
      exact traces_execute (.companionCallWithBody payload)
  | registerWorker =>
      obtain rfl := refuses rfl
      apply traces_computed refuses_json
      intro payload _
      apply traces_then traces_authorizeWorker
      intro _ later accepted
      exact traces_execute (.registerWorker accepted)
  | readSource method =>
      obtain rfl := refuses rfl
      apply traces_then traces_workerTransferIdentity
      rintro ⟨workerId, attempt⟩ later accepted
      apply traces_computed refuses_required
      intro jobId _
      apply traces_computed refuses_required
      intro sourceId _
      exact traces_execute (.readSource jobId _ accepted)
  | uploadBackupArtifact =>
      obtain rfl := refuses rfl
      apply traces_then traces_workerTransferIdentity
      rintro ⟨workerId, attempt⟩ later accepted
      apply traces_computed refuses_required
      intro jobId _
      exact traces_execute (.uploadBackupArtifact jobId _ accepted)
  | downloadBackupSource =>
      obtain rfl := refuses rfl
      apply traces_computed refuses_required
      intro jobId _
      apply traces_then traces_workerTransferIdentity
      rintro ⟨workerId, attempt⟩ later accepted
      constructor
      · exact .downloadBackupSource jobId _ accepted
      · intro state
        dsimp only [Program.bind]
        split
        · exact traces_sourcePreparationError _
        · constructor
          · trivial
          · intro sent
            dsimp only [Program.bind]
            split
            · show (200 : Nat) ≠ 401
              decide
            · show (200 : Nat) ≠ 401
              decide
            · exact traces_sourcePreparationError _
  | companionTrust =>
      apply traces_ofExcept
      unfold Handler.runCompanionTrust
      split
      · exact fun impossible => absurd impossible (by decide)
      · show (200 : Nat) ≠ 401
        decide
  | companionDiagnosis =>
      apply traces_computed refuses_json
      intro payload _
      split
      · apply traces_computed refuses_required
        intro incidentId _
        exact traces_execute (.companionDiagnosis incidentId)
      · exact fun impossible => absurd impossible (by decide)
  | respondCompanionRequest =>
      apply traces_computed refuses_json
      intro payload _
      apply traces_computed refuses_required
      intro requestId _
      exact traces_execute (.respondCompanionRequest requestId payload)

end OhanaAgent.Api
