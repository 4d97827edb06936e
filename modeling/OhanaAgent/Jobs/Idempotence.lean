import OhanaAgent.Jobs.Fencing
import Mathlib.Logic.Equiv.Basic

/-!
# Creating a job again

`create` compares the digest of a request whose timeout it first raised to the
end of the 05:00 batch.  The raise depends on the clock, so a later submission
of the same bytes can be compared under another normal form.  This file says
exactly when that does not happen, under a digest without collisions.
-/

namespace OhanaAgent.Jobs

open OhanaAgent.Encoding.Json
open OhanaAgent.Store
open OhanaAgent.Time
open OhanaAgent.Transition

variable {env : Environment} {config : Config} {now : Int} {db after : Database}

/-! ## The normalized timeout -/

/-- The shortest timeout a creation stores at a clock reading: the seconds
until 05:00 in Paris for a type that wakes the worker before that hour. -/
def batchFloor (env : Environment) (now : Int) (type : JobType) : Nat :=
  if type.automaticWake ∧ env.paris.hourOfDay now < 5 then
    ((5 * hour - env.paris.timeOfDay now) / second + 1).toNat
  else 0

theorem effectiveTimeout_eq_max (env : Environment) (now : Int) (type : JobType) (timeout : Nat) :
    effectiveTimeout env now type timeout = max timeout (batchFloor env now type) := by
  unfold effectiveTimeout batchFloor
  split
  · rfl
  · exact (Nat.max_zero timeout).symm

/-! ## Request documents -/

theorem sortKeys_modelDump (request : JobCreate) (parameters : Value) (timeout : Nat) :
    sortKeys (request.modelDump parameters timeout) = .object (.ofList [
      ("created_at".toList, .string (stampText request.createdAt request.createdOffset)),
      ("job_id".toList, .string request.jobId),
      ("parameters".toList, sortKeys parameters),
      ("protocol_version".toList, .number (.ofNat 1)),
      ("timeout".toList, .number (.ofNat timeout)),
      ("type".toList, .string request.type)]) :=
  rfl

theorem distinctKeys_modelDump (request : JobCreate) {parameters : Value} (timeout : Nat)
    (distinct : DistinctKeys parameters) : DistinctKeys (request.modelDump parameters timeout) := by
  simp [JobCreate.modelDump, Fields.ofList, DistinctKeys, DistinctFields, Fields.keys, distinct]

/-- The request as it was submitted, with its validated parameters. -/
def NewJob.submitted (job : NewJob) : Value :=
  job.request.modelDump job.parameters job.request.timeout

/-- Two submissions of the same request. -/
def SameSubmission (first second : NewJob) : Prop :=
  sortKeys first.submitted = sortKeys second.submitted

/-- Two submissions that differ at most in their timeout. -/
structure SameButTimeout (first second : NewJob) : Prop where
  jobId : first.request.jobId = second.request.jobId
  type : first.request.type = second.request.type
  createdAt : stampText first.request.createdAt first.request.createdOffset =
    stampText second.request.createdAt second.request.createdOffset
  parameters : sortKeys first.parameters = sortKeys second.parameters

theorem sortKeys_modelDump_eq_iff {first second : NewJob} {firstTimeout secondTimeout : Nat} :
    sortKeys (first.request.modelDump first.parameters firstTimeout) =
        sortKeys (second.request.modelDump second.parameters secondTimeout) ↔
      SameButTimeout first second ∧ firstTimeout = secondTimeout := by
  rw [sortKeys_modelDump, sortKeys_modelDump]
  simp only [Fields.ofList, Value.object.injEq, Fields.cons.injEq, Value.string.injEq,
    Value.number.injEq, true_and, and_true]
  constructor
  · rintro ⟨created, jobId, parameters, timeout, type⟩
    exact ⟨⟨jobId, type, created, parameters⟩, Number.ofNat_injective timeout⟩
  · rintro ⟨same, rfl⟩
    exact ⟨same.createdAt, same.jobId, same.parameters, rfl, same.type⟩

theorem sameSubmission_iff {first second : NewJob} :
    SameSubmission first second ↔
      SameButTimeout first second ∧ first.request.timeout = second.request.timeout :=
  sortKeys_modelDump_eq_iff

/-! ## Preparing a request -/

/-- What a request that passed its checks has become. -/
structure Prepared (env : Environment) (now : Int) (payload : CreatePayload) (job : NewJob) :
    Prop where
  request : JobCreate.validate payload = .ok job.request
  type : JobType.ofText job.request.type = some job.type
  parameters : env.parametersModel job.type (.object job.request.parameters) = .ok job.parameters
  timeout : job.timeout = effectiveTimeout env now job.type job.request.timeout
  digest : job.requestSha256 = digest env (job.request.modelDump job.parameters job.timeout)
  started : job.request.createdAt ≤ now + 5 * minute
  pending : now < job.request.createdAt + seconds job.request.timeout

theorem requireType_eq_ok {name : Text} {type : JobType} :
    requireType name = .ok type ↔ JobType.ofText name = some type := by
  unfold requireType
  cases JobType.ofText name <;> simp

theorem validated_eq_ok {checked : Except String Value} {value : Value} :
    validated checked = .ok value ↔ checked = .ok value := by
  unfold validated
  cases checked <;> simp

theorem prepareCreate_eq_ok {payload : CreatePayload} {job : NewJob} :
    prepareCreate env now payload = .ok job ↔ Prepared env now payload job := by
  simp only [prepareCreate, bind_eq_ok, requireType_eq_ok, validated_eq_ok]
  constructor
  · rintro ⟨request, valid, type, found, parameters, checked, done⟩
    split at done
    · simp at done
    · rename_i started
      split at done
      · simp at done
      · rename_i pending
        simp only [pure_eq_ok] at done
        subst done
        exact ⟨valid, found, checked, rfl, rfl, Int.not_lt.mp started, Int.not_le.mp pending⟩
  · intro prepared
    refine ⟨job.request, prepared.request, job.type, prepared.type, job.parameters,
      prepared.parameters, ?_⟩
    rw [if_neg (Int.not_lt.mpr prepared.started), if_neg (Int.not_le.mpr prepared.pending),
      pure_eq_ok, ← prepared.timeout, ← prepared.digest]

/-- A payload that was accepted is still prepared until its own deadline. -/
theorem Prepared.later {payload : CreatePayload} {job : NewJob}
    (prepared : Prepared env now payload job) {then_ : Int} (later : now ≤ then_)
    (pending : then_ < job.request.createdAt + seconds job.request.timeout) :
    ∃ again, Prepared env then_ payload again ∧ again.request = job.request ∧
      again.type = job.type ∧ again.parameters = job.parameters := by
  refine ⟨⟨job.request, job.type, job.parameters,
    effectiveTimeout env then_ job.type job.request.timeout,
    Jobs.digest env (job.request.modelDump job.parameters
      (effectiveTimeout env then_ job.type job.request.timeout))⟩, ?_, rfl, rfl, rfl⟩
  have started := prepared.started
  exact ⟨prepared.request, prepared.type, prepared.parameters, rfl, rfl, by
    dsimp only; omega, pending⟩

section Digests

variable (collisionFree : Function.Injective env.sha256)
  (dumped : ∀ type value out, env.parametersModel type value = .ok out → DistinctKeys out)

include collisionFree dumped

/-- Two prepared requests have the same digest exactly when they agree up to
the timeouts and their normalized timeouts are equal. -/
theorem Prepared.digest_eq_iff {firstNow secondNow : Int} {firstPayload secondPayload : CreatePayload}
    {first second : NewJob} (firstPrepared : Prepared env firstNow firstPayload first)
    (secondPrepared : Prepared env secondNow secondPayload second) :
    first.requestSha256 = second.requestSha256 ↔
      SameButTimeout first second ∧
        max first.request.timeout (batchFloor env firstNow first.type) =
          max second.request.timeout (batchFloor env secondNow second.type) := by
  have firstDistinct := distinctKeys_modelDump first.request first.timeout
    (dumped _ _ _ firstPrepared.parameters)
  have secondDistinct := distinctKeys_modelDump second.request second.timeout
    (dumped _ _ _ secondPrepared.parameters)
  rw [firstPrepared.digest, secondPrepared.digest, ← effectiveTimeout_eq_max,
    ← effectiveTimeout_eq_max, ← firstPrepared.timeout, ← secondPrepared.timeout,
    ← sortKeys_modelDump_eq_iff, ← dumps_eq_iff firstDistinct secondDistinct]
  exact collisionFree.eq_iff

end Digests

/-! ## The stored digest -/

/-- Every stored row of the job has this request digest. -/
def DigestIs (jobId sha256 : Text) (jobs : JobTable) : Prop :=
  ∀ row ∈ jobs, row.jobId = jobId → row.requestSha256 = sha256

theorem DigestIs.path {jobId sha256 : Text} {before after : JobTable}
    (stored : DigestIs jobId sha256 before) (path : Path env config now before after) :
    DigestIs jobId sha256 after := by
  intro next member sameId
  obtain ⟨row, rowMem, moves⟩ := path.source member
  have rowId : row.jobId = jobId := moves.sameRequest.jobId.symm.trans sameId
  exact moves.sameRequest.requestSha256.trans (stored row rowMem rowId)

theorem DigestIs.step {jobId sha256 : Text} {call : Call} (stored : DigestIs jobId sha256 db.jobs)
    (step : StepWithoutInsertion env config jobId db call after) :
    DigestIs jobId sha256 after.jobs := by
  rcases step_effect step.1 with path | ⟨job, insertion⟩
  · exact stored.path path
  · intro row member sameId
    rw [Table.mem_def, insertion.rows, List.mem_append, List.mem_singleton] at member
    rcases member with member | rfl
    · exact stored.path insertion.recovered row member sameId
    · exact absurd sameId (step.2 job insertion)

theorem Insertion.digestIs {call : Call} {job : NewJob}
    (insertion : Insertion env config call db after job) :
    DigestIs job.request.jobId job.requestSha256 after.jobs := by
  intro row member sameId
  rw [Table.mem_def, insertion.rows, List.mem_append, List.mem_singleton] at member
  rcases member with member | rfl
  · exact absurd sameId (Table.find?_eq_none_iff.mp insertion.absent row member)
  · rfl

/-- A creation that meets its job answers with it when the digests agree, and
conflicts otherwise. -/
theorem create_existing {payload : CreatePayload} {job : NewJob} {row : JobRow}
    (prepared : Prepared env now payload job)
    (found : (db.recover env config now).jobs.find? job.request.jobId = some row)
    (shown : Decodable row) :
    (row.requestSha256 = job.requestSha256 ∧ ∃ answer, document row false = .ok answer ∧
      (Operation.create payload).run env config now db =
        (.ok (.job answer), db.recover env config now)) ∨
    (row.requestSha256 ≠ job.requestSha256 ∧
      (Operation.create payload).run env config now db =
        (.error (.conflict "job_id already exists with a different request"), db)) := by
  have ready := prepareCreate_eq_ok.mpr prepared
  by_cases same : row.requestSha256 = job.requestSha256
  · obtain ⟨answer, read⟩ := shown
    have done : Database.create env config now payload db =
        .ok (answer, db.recover env config now) := by
      rw [Database.create, ready]
      simp only [Database.enqueue, Database.select, bind, Except.bind, found, same, ne_eq,
        not_true_eq_false, if_false, read]
      rfl
    refine Or.inl ⟨same, answer, read, ?_⟩
    simp [Operation.run, answering, commit_of_ok done, Except.map]
  · have failed : Database.create env config now payload db =
        .error (.conflict "job_id already exists with a different request") := by
      rw [Database.create, ready]
      simp only [Database.enqueue, Database.select, bind, Except.bind, found, ne_eq, same,
        not_false_eq_true, if_true]
      rfl
    refine Or.inr ⟨same, ?_⟩
    simp [Operation.run, answering, commit_of_error failed, Except.map]

/-- The row that a creation inserted and that no later creation replaced has the
digest of its request, and can be shown. -/
theorem stored_row {calls between : List Call} {middle last : Database} {call : Call}
    {job : NewJob} (run : Run (Step env config) Database.empty calls db)
    (step : Step env config db call middle) (insertion : Insertion env config call db middle job)
    (rest : Run (StepWithoutInsertion env config job.request.jobId) middle between last)
    {row : JobRow}
    (found : (last.recover env config now).jobs.find? job.request.jobId = some row) :
    row.requestSha256 = job.requestSha256 ∧ Decodable row := by
  obtain ⟨member, sameId⟩ := Table.find?_eq_some_iff.mp found
  have digests : DigestIs job.request.jobId job.requestSha256 last.jobs :=
    rest.invariant (P := fun db => DigestIs job.request.jobId job.requestSha256 db.jobs)
      (fun stored taken => stored.step taken) insertion.digestIs
  have whole : Run (Step env config) Database.empty (calls ++ call :: between) last :=
    run.append (.cons step (rest.mono fun taken => taken.1))
  have valid : TableInvariant config (last.recover env config now).jobs :=
    (tableInvariant_of_run whole).path (recover_path last)
  exact ⟨digests.path (recover_path last) row member sameId, valid.shown row member⟩

/-- A job is created at one instant and not created again until a later one at
which its row is still stored.  Submitting the same payload again returns the
stored job and changes nothing but what recovery does, exactly when the batch
floor of both instants is the same or raises neither timeout; and a submission
under its identifier conflicts exactly when it is another request, if and only
if the floors do not hide or make a difference of the timeouts. -/
theorem create_again_iff (env : Environment) (config : Config)
    (collisionFree : Function.Injective env.sha256)
    (dumped : ∀ type value out, env.parametersModel type value = .ok out → DistinctKeys out)
    {calls between : List Call} {db middle last : Database} {first : NewJob} {row : JobRow}
    {firstNow secondNow : Int} {payload : CreatePayload}
    (run : Run (Step env config) Database.empty calls db)
    (step : Step env config db ⟨firstNow, .create payload⟩ middle)
    (insertion : Insertion env config ⟨firstNow, .create payload⟩ db middle first)
    (rest : Run (StepWithoutInsertion env config first.request.jobId) middle between last)
    (later : firstNow ≤ secondNow)
    (stored : (last.recover env config secondNow).jobs.find? first.request.jobId = some row) :
    (secondNow < first.request.createdAt + seconds first.request.timeout →
      ((∃ answer, document row false = .ok answer ∧
          (Operation.create payload).run env config secondNow last =
            (.ok (.job answer), last.recover env config secondNow)) ↔
        batchFloor env firstNow first.type = batchFloor env secondNow first.type ∨
          (batchFloor env firstNow first.type ≤ first.request.timeout ∧
            batchFloor env secondNow first.type ≤ first.request.timeout))) ∧
    (∀ other second, prepareCreate env secondNow other = .ok second →
      second.request.jobId = first.request.jobId →
      (((∃ message, ((Operation.create other).run env config secondNow last).1 =
            .error (.conflict message)) ↔ ¬ SameSubmission first second) ↔
        (SameButTimeout first second →
          (max first.request.timeout (batchFloor env firstNow first.type) =
              max second.request.timeout (batchFloor env secondNow second.type) ↔
            first.request.timeout = second.request.timeout)))) := by
  obtain ⟨sha, shown⟩ := stored_row run step insertion rest stored
  obtain ⟨_, equal, accepted⟩ := insertion.created
  cases equal
  have prepared : Prepared env firstNow payload first := prepareCreate_eq_ok.mp accepted
  constructor
  · intro pending
    obtain ⟨again, repeated, sameRequest, sameType, sameParameters⟩ :=
      prepared.later later pending
    have agree : SameButTimeout first again := by
      constructor <;> simp [sameRequest, sameParameters]
    have digests := Prepared.digest_eq_iff collisionFree dumped prepared repeated
    rw [sameRequest, sameType] at digests
    have sameId : again.request.jobId = first.request.jobId := by rw [sameRequest]
    rcases create_existing repeated (sameId ▸ stored) shown with
      ⟨same, answer, read, outcome⟩ | ⟨different, outcome⟩
    · have equal := (digests.mp (sha.symm.trans same)).2
      exact ⟨fun _ => by omega, fun _ => ⟨answer, read, outcome⟩⟩
    · rw [sha, Ne, digests] at different
      constructor
      · rintro ⟨answer, _, other⟩
        rw [outcome] at other
        simp at other
      · intro floors
        exact absurd ⟨agree, by omega⟩ different
  · intro other second ready sameId
    have repeated := prepareCreate_eq_ok.mp ready
    have digests := Prepared.digest_eq_iff collisionFree dumped prepared repeated
    have conflicts : (∃ message, ((Operation.create other).run env config secondNow last).1 =
        .error (.conflict message)) ↔ ¬ first.requestSha256 = second.requestSha256 := by
      rcases create_existing repeated (sameId ▸ stored) shown with
        ⟨same, answer, _, outcome⟩ | ⟨different, outcome⟩
      · rw [sha] at same
        simp [outcome, same]
      · rw [sha] at different
        simp [outcome, different]
    rw [conflicts, digests, sameSubmission_iff]
    tauto

/-! ## A request repeated within its timeout -/

/-- Winter time in Paris, and parameter models that only know the empty
object. -/
def bareEnvironment : Environment :=
  { winterEnvironment with
    parametersModel := fun _ value =>
      match value with
      | .object .nil => .ok (.object .nil)
      | _ => .error "extra_forbidden" }

theorem bareEnvironment_dumped (type : JobType) (value out : Value)
    (checked : bareEnvironment.parametersModel type value = .ok out) : DistinctKeys out := by
  simp only [bareEnvironment] at checked
  split at checked <;> simp only [Except.ok.injEq, reduceCtorEq] at checked
  subst checked
  simp [DistinctKeys, DistinctFields]

theorem healthTimeout_bounds : 1 ≤ 900 ∧ 900 ≤ 86400 := by
  decide

/-- The job of `healthRequest`. -/
def healthNewJob : NewJob where
  request := ⟨healthJob, "system.health".toList, healthTime, 0, .nil, 900, by decide,
    healthTimeout_bounds⟩
  type := .systemHealth
  parameters := .object .nil
  timeout := 900
  requestSha256 := "626a0fdca44e80b1f2048a0258b3e8818107a8108c17a49aea19446c423f0a5e".toList

theorem prepareCreate_healthRequest :
    prepareCreate bareEnvironment healthTime healthRequest = .ok healthNewJob :=
  prepareCreate_eq_ok.mpr
    ⟨by rfl, by decide +kernel, by rfl, by decide +kernel, by decide +kernel, by decide +kernel,
      by decide +kernel⟩

/-- The database after the first creation. -/
def oneHealthCheck : Database :=
  execute bareEnvironment Config.default [⟨healthTime, .create healthRequest⟩] Database.empty

theorem oneHealthCheck_rows : oneHealthCheck.jobs.rows = [healthNewJob.row healthTime] := by
  decide +kernel

theorem oneHealthCheck_insertion :
    Insertion bareEnvironment Config.default ⟨healthTime, .create healthRequest⟩ Database.empty
      oneHealthCheck healthNewJob where
  created := ⟨healthRequest, rfl, prepareCreate_healthRequest⟩
  recovered := recover_path _
  absent := by decide +kernel
  room := by decide +kernel
  rows := oneHealthCheck_rows
  shown := (tableInvariant_of_run (run_execute _ _)).shown _ (by
    rw [Table.mem_def]
    exact oneHealthCheck_rows ▸ List.mem_singleton_self _)

/-- The health check submitted again a second later is answered with its job. -/
theorem healthRequest_again :
    ∃ answer, document (healthNewJob.row healthTime) false = .ok answer ∧
      (Operation.create healthRequest).run bareEnvironment .default (healthTime + second)
          oneHealthCheck =
        (.ok (.job answer), oneHealthCheck.recover bareEnvironment .default (healthTime + second)) :=
  ((create_again_iff bareEnvironment .default (Equiv.injective _) bareEnvironment_dumped
    (run_execute [] Database.empty) rfl oneHealthCheck_insertion (.nil _) (by decide)
    (by decide +kernel)).1 (by decide +kernel)).mpr (.inl (by decide +kernel))

/-- 2026-01-15T03:00:00Z, 04:00 in Paris. -/
def backupTime : Int := 1768446000 * second

/-- The request of a backup before the batch, with its timeout as stored. -/
def backupRequestText (timeout : String) : Text :=
  ("\x7b\"created_at\":\"2026-01-15T03:00:00Z\"," ++
    "\"job_id\":\"00000000-0000-4000-8000-000000000002\",\"parameters\":\x7b" ++
    "\"backup_id\":\"20260115T030000Z\",\"compression_level\":6," ++
    "\"recipient\":\"age1qqqqqqqqqqqqqqqqqqqq\"\x7d," ++
    "\"protocol_version\":1,\"timeout\":" ++ timeout ++ ",\"type\":\"backup.infra\"\x7d").toList

/-- Winter time in Paris, and the digests of the backup request at 03:00:00Z and
at 03:01:00Z. -/
def backupEnvironment : Environment :=
  { winterEnvironment with
    sha256 := fun text => if text = backupRequestText "3601" then
        "c9d578e166a37ad12e9dc045e3abe5ca55b4b2cdf3f3651c204f9f7f4b4aee84".toList
      else if text = backupRequestText "3541" then
        "b49eff780607bc3205074c5791ece4e814c887353d250aae729ce7d72f62002a".toList
      else text }

def backupRequest : CreatePayload where
  protocolVersion := 1
  jobId := "00000000-0000-4000-8000-000000000002".toList
  type := "backup.infra".toList
  createdAt := .aware backupTime 0
  parameters := .ofList [
    ("backup_id".toList, .string "20260115T030000Z".toList),
    ("compression_level".toList, .number (.ofNat 6)),
    ("recipient".toList, .string "age1qqqqqqqqqqqqqqqqqqqq".toList)]
  timeout := 900

/-- The failure of a refused call. -/
def refusal (reply : Reply) : Option Failure :=
  match reply with
  | .ok _ => none
  | .error failure => some failure

/-- The database after the backup was requested. -/
def oneBackup : Database :=
  execute backupEnvironment Config.default [⟨backupTime, .create backupRequest⟩] Database.empty

/-- A backup requested at 04:00 in Paris conflicts with itself a minute later,
while its job waits and its own timeout has not elapsed. -/
theorem backup_conflicts_with_itself :
    (oneBackup.recover backupEnvironment .default (backupTime + minute)).jobs.rows.map
        (fun row => (row.jobId, row.status, row.timeoutSeconds)) =
      [(backupRequest.jobId, .waitingWorker, 3601)] ∧
    backupTime + minute < backupTime + seconds backupRequest.timeout.toNat ∧
    refusal ((Operation.create backupRequest).run backupEnvironment .default
        (backupTime + minute) oneBackup).1 =
      some (.conflict "job_id already exists with a different request") := by
  decide +kernel

end OhanaAgent.Jobs
