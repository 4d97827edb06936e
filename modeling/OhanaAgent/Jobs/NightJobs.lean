import OhanaAgent.Jobs.Idempotence
import OhanaAgent.Time.Clock

/-!
# Jobs created before the batch

A request of a type that wakes the worker, created before 05:00 in Paris, is
given a timeout that lasts until then.  The seconds are counted from the clock
reading, the deadline from the `created_at` of the request, so that the job
survives until the batch only under a condition on the two.
-/

namespace OhanaAgent.Jobs

open OhanaAgent.Encoding.Json
open OhanaAgent.Store
open OhanaAgent.Time
open OhanaAgent.Transition

variable {env : Environment} {config : Config} {now five : Int} {db after : Database}

/-! ## Stamps -/

/-- A stamp that `datetime` can hold. -/
def Stamp.Held : Stamp → Prop
  | .aware instant offset => Representable (instant + offset) ∧ Shift offset
  | .naive _ => True

theorem closing_offsetText (offset : Int) : Closing (offsetText offset) := by
  rcases offsetText_tail offset with ⟨c, rest, same, before⟩
  exact ⟨c, rest, same, fun dot => absurd (dot ▸ before) (by decide)⟩

/-- The JSON text of a stamp shows one instant. -/
theorem stampText_inj {first second firstOffset secondOffset : Int}
    (firstHeld : (Stamp.aware first firstOffset).Held)
    (secondHeld : (Stamp.aware second secondOffset).Held)
    (same : stampText first firstOffset = stampText second secondOffset) : first = second := by
  have closing : ∀ offset : Int, Closing (if offset = 0 then ['Z'] else offsetText offset) := by
    intro offset
    split
    · exact ⟨'Z', [], rfl, by decide⟩
    · exact closing_offsetText offset
  have notUtc : ∀ offset : Int, offsetText offset ≠ ['Z'] := by
    intro offset utc
    rcases offsetText_tail offset with ⟨c, rest, text, before⟩
    rw [text, List.cons_eq_cons] at utc
    exact absurd (utc.1 ▸ before) (by decide)
  rcases localText_append_inj firstHeld.1 secondHeld.1 (closing _) (closing _) same with
    ⟨shown, suffix⟩
  have offsets : firstOffset = secondOffset := by
    split at suffix
    · rename_i firstUtc
      split at suffix
      · rename_i secondUtc
        rw [firstUtc, secondUtc]
      · exact absurd suffix.symm (notUtc secondOffset)
    · split at suffix
      · exact absurd suffix (notUtc firstOffset)
      · exact offsetText_inj firstHeld.2 secondHeld.2 suffix
  omega

/-- A creation whose stamp `datetime` can hold, or another call. -/
def Call.Held (call : Call) : Prop :=
  ∀ payload, call.operation = .create payload → payload.createdAt.Held

/-- A step whose stamp `datetime` can hold. -/
def StepHeld (env : Environment) (config : Config) (db : Database) (call : Call)
    (after : Database) : Prop :=
  Step env config db call after ∧ call.Held

theorem Prepared.stamp {payload : CreatePayload} {job : NewJob}
    (prepared : Prepared env now payload job) :
    payload.createdAt = .aware job.request.createdAt job.request.createdOffset ∧
      payload.jobId = job.request.jobId ∧ payload.type = job.request.type ∧
      payload.timeout = job.request.timeout := by
  have valid := prepared.request
  unfold JobCreate.validate at valid
  split at valid
  · simp at valid
  · split at valid
    · split at valid
      · simp at valid
      · rename_i stamp
        split at valid
        · rename_i bounds
          simp only [Except.ok.injEq] at valid
          rw [← valid]
          refine ⟨stamp, rfl, rfl, ?_⟩
          simp only
          omega
        · simp at valid
    · simp at valid

/-! ## Stored requests -/

/-- The row is that of a prepared request. -/
structure Recorded (env : Environment) (row : JobRow) (created : Int) (payload : CreatePayload)
    (job : NewJob) : Prop where
  prepared : Prepared env created payload job
  held : payload.createdAt.Held
  createdAt : row.createdAt = job.request.createdAt
  timeout : row.timeoutSeconds = job.timeout
  digest : row.requestSha256 = job.requestSha256

/-- Every row is that of a prepared request. -/
def AllRecorded (env : Environment) (jobs : JobTable) : Prop :=
  ∀ row ∈ jobs, ∃ created payload job, Recorded env row created payload job

theorem Recorded.moved {row next : JobRow} {created : Int} {payload : CreatePayload} {job : NewJob}
    (recorded : Recorded env row created payload job) (same : SameRequest row next) :
    Recorded env next created payload job where
  prepared := recorded.prepared
  held := recorded.held
  createdAt := same.createdAt.trans recorded.createdAt
  timeout := same.timeoutSeconds.trans recorded.timeout
  digest := same.requestSha256.trans recorded.digest

theorem AllRecorded.path {before next : JobTable} (stored : AllRecorded env before)
    (path : Path env config now before next) : AllRecorded env next := by
  intro row member
  rcases path.source member with ⟨source, sourceMem, moves⟩
  rcases stored source sourceMem with ⟨created, payload, job, recorded⟩
  exact ⟨created, payload, job, recorded.moved moves.sameRequest⟩

theorem AllRecorded.step {call : Call} (stored : AllRecorded env db.jobs)
    (step : StepHeld env config db call after) : AllRecorded env after.jobs := by
  rcases step_effect step.1 with path | ⟨job, insertion⟩
  · exact stored.path path
  · intro row member
    rw [Table.mem_def, insertion.rows, List.mem_append, List.mem_singleton] at member
    rcases member with member | rfl
    · exact stored.path insertion.recovered row member
    · rcases insertion.created with ⟨payload, operation, ready⟩
      exact ⟨call.now, payload, job, prepareCreate_eq_ok.mp ready, step.2 payload operation,
        rfl, rfl, rfl⟩

theorem allRecorded_of_run {calls : List Call}
    (run : Run (StepHeld env config) Database.empty calls db) : AllRecorded env db.jobs :=
  run.invariant (P := fun db => AllRecorded env db.jobs) (fun stored step => stored.step step)
    fun row member => absurd member (Table.not_mem_empty row)

/-- An accepted creation leaves a row with the instant of its request and the
timeout it was given now, also when the row was there before. -/
theorem accepted_row (collisionFree : Function.Injective env.sha256)
    (dumped : ∀ type value out, env.parametersModel type value = .ok out → DistinctKeys out)
    {payload : CreatePayload} {answer : Answer} (stored : AllRecorded env db.jobs)
    (held : payload.createdAt.Held)
    (accepted : (Operation.create payload).run env config now db = (.ok answer, after)) :
    ∃ job row, Prepared env now payload job ∧ after.jobs.find? payload.jobId = some row ∧
      row.createdAt = job.request.createdAt ∧ row.timeoutSeconds = job.timeout := by
  simp only [Operation.run, answering, Prod.mk.injEq] at accepted
  rcases commit_cases (Database.create env config now payload) db with
    ⟨document, next, done, committed⟩ | ⟨failure, _, refused⟩
  · rw [committed] at accepted
    rcases create_eq_ok done with ⟨job, ready, enqueued⟩
    have prepared := prepareCreate_eq_ok.mp ready
    have sameAfter : next = after := accepted.2
    subst sameAfter
    refine ⟨job, ?_⟩
    rw [prepared.stamp.2.1]
    rcases enqueue_eq_ok enqueued with ⟨row, found, sameDigest, _, rfl⟩ | ⟨absent, _, rows, _⟩
    · refine ⟨row, prepared, found, ?_⟩
      have member := (Table.find?_eq_some_iff.mp found).1
      have path : Path env config now db.jobs (db.recover env config now).jobs := recover_path db
      rcases stored.path path row member with ⟨created, first, firstJob, recorded⟩
      have agree := (Prepared.digest_eq_iff collisionFree dumped recorded.prepared prepared).mp
        (recorded.digest.symm.trans sameDigest)
      have instants : firstJob.request.createdAt = job.request.createdAt := by
        apply stampText_inj (recorded.prepared.stamp.1 ▸ recorded.held)
          (prepared.stamp.1 ▸ held) agree.1.createdAt
      constructor
      · exact recorded.createdAt.trans instants
      · rw [recorded.timeout, recorded.prepared.timeout, prepared.timeout, effectiveTimeout_eq_max,
          effectiveTimeout_eq_max]
        exact agree.2
    · refine ⟨job.row now, prepared, Table.find?_eq_some_iff.mpr ⟨?_, rfl⟩, rfl, rfl⟩
      rw [Table.mem_def, rows]
      exact List.mem_append_right _ (List.mem_singleton_self _)
  · simp [refused, Except.map] at accepted

/-! ## The end of the batch -/

/-- 05:00 in Paris on the day of a clock reading. -/
def BatchEnd (env : Environment) (now five : Int) : Prop :=
  env.paris.wall five = env.paris.wall now / day * day + 5 * hour

instance (env : Environment) (now five : Int) : Decidable (BatchEnd env now five) :=
  inferInstanceAs (Decidable (_ = _))

/-- What a timeout in whole seconds gains over the time until 05:00: the
microseconds of the clock reading, a second when there are none. -/
def roundingGain (env : Environment) (now : Int) : Int :=
  if env.paris.wall now % second = 0 then second else env.paris.wall now % second

/-- The request itself lasts until 05:00, or the time since its `created_at`,
with the time the clock is put back until 05:00, is made up by the rounding. -/
def LastsUntil (env : Environment) (now five created : Int) (timeout : Nat) : Prop :=
  five ≤ created + seconds timeout ∨
    now - created + (env.paris.utcOffset now - env.paris.utcOffset five) ≤ roundingGain env now

theorem seconds_batchFloor {type : JobType} (automatic : type.automaticWake = true)
    (night : env.paris.hourOfDay now < 5) (batch : BatchEnd env now five) :
    seconds (batchFloor env now type) =
      five - now - (env.paris.utcOffset now - env.paris.utcOffset five) + roundingGain env now := by
  unfold batchFloor
  rw [if_pos ⟨automatic, night⟩]
  unfold BatchEnd Zone.wall at batch
  unfold roundingGain seconds
  unfold Zone.hourOfDay at night
  unfold Zone.timeOfDay Zone.wall at *
  unfold day hour minute second at *
  split <;> omega

theorem lasts_iff {type : JobType} {created : Int} {timeout : Nat}
    (automatic : type.automaticWake = true) (night : env.paris.hourOfDay now < 5)
    (batch : BatchEnd env now five) :
    five ≤ created + seconds (effectiveTimeout env now type timeout) ↔
      LastsUntil env now five created timeout := by
  have floor := seconds_batchFloor automatic night batch
  rw [effectiveTimeout_eq_max]
  unfold LastsUntil
  rcases Nat.le_total timeout (batchFloor env now type) with short | long
  · have seconds_le : seconds timeout ≤ seconds (batchFloor env now type) := by
      unfold seconds second
      omega
    rw [Nat.max_eq_right short]
    omega
  · have seconds_le : seconds (batchFloor env now type) ≤ seconds timeout := by
      unfold seconds second
      omega
    rw [Nat.max_eq_left long]
    omega

/-- A request of a type that wakes the worker, accepted before 05:00 in Paris,
is stored with a deadline that is not before 05:00 exactly when it lasts until
then by itself or is not older than what rounding its timeout makes up. -/
theorem night_deadline_iff (env : Environment) (config : Config)
    (collisionFree : Function.Injective env.sha256)
    (dumped : ∀ type value out, env.parametersModel type value = .ok out → DistinctKeys out)
    {calls : List Call} {db after : Database} {now five created offset : Int}
    {payload : CreatePayload} {type : JobType} {answer : Answer}
    (run : Run (StepHeld env config) Database.empty calls db)
    (stamp : payload.createdAt = .aware created offset) (held : payload.createdAt.Held)
    (accepted : (Operation.create payload).run env config now db = (.ok answer, after))
    (named : JobType.ofText payload.type = some type) (automatic : type.automaticWake = true)
    (night : env.paris.hourOfDay now < 5) (batch : BatchEnd env now five) :
    ∃ row, after.jobs.find? payload.jobId = some row ∧
      (five ≤ row.deadline ↔ LastsUntil env now five created payload.timeout.toNat) := by
  rcases accepted_row collisionFree dumped (allRecorded_of_run run) held accepted with
    ⟨job, row, prepared, found, createdAt, timeout⟩
  rcases prepared.stamp with ⟨sameStamp, _, sameType, sameTimeout⟩
  refine ⟨row, found, ?_⟩
  have instants : created = job.request.createdAt := by
    rw [stamp] at sameStamp
    exact (Stamp.aware.inj sameStamp).1
  have types : type = job.type := by
    rw [sameType, prepared.type] at named
    exact (Option.some.inj named).symm
  subst types
  rw [JobRow.deadline, createdAt, timeout, prepared.timeout, ← instants, sameTimeout,
    Int.toNat_natCast]
  exact lasts_iff automatic night batch

/-! ## Backups asked for before the batch -/

/-- The validated parameters of `backupRequest`. -/
def backupParameters : Value :=
  .object backupRequest.parameters

/-- Winter time in Paris, the digest of the backup request stored at 04:00, and
the model of its parameters. -/
def nightEnvironment : Environment :=
  { winterEnvironment with
    sha256 := Equiv.swap (backupRequestText "3601")
      "c9d578e166a37ad12e9dc045e3abe5ca55b4b2cdf3f3651c204f9f7f4b4aee84".toList
    parametersModel := fun _ value =>
      if value = backupParameters then .ok value else .error "extra_forbidden" }

theorem nightEnvironment_dumped (type : JobType) (value out : Value)
    (checked : nightEnvironment.parametersModel type value = .ok out) : DistinctKeys out := by
  simp only [nightEnvironment] at checked
  split at checked
  · rename_i known
    rw [Except.ok.injEq, known] at checked
    rw [← checked]
    simp [backupParameters, backupRequest, Fields.ofList, DistinctKeys, DistinctFields, Fields.keys]
  · simp at checked

/-- 05:00 in Paris on the day of `backupTime`. -/
def backupBatch : Int := backupTime + hour

theorem backupRequest_held : backupRequest.createdAt.Held :=
  ⟨by decide, by decide⟩

theorem backupBatch_end : BatchEnd nightEnvironment backupTime backupBatch := by
  decide

theorem backupRequest_type : JobType.ofText backupRequest.type = some .backupInfra := by
  decide +kernel

/-- The job of a backup asked for at 04:00 for now is stored until the batch. -/
theorem backup_lasts : ∃ answer row,
    (Operation.create backupRequest).run nightEnvironment .default backupTime .empty =
      (.ok answer, execute nightEnvironment .default [⟨backupTime, .create backupRequest⟩] .empty) ∧
    (execute nightEnvironment .default [⟨backupTime, .create backupRequest⟩] .empty).jobs.find?
      backupRequest.jobId = some row ∧
    (backupBatch ≤ row.deadline ↔
      LastsUntil nightEnvironment backupTime backupBatch backupTime 900) := by
  have accepted : ((Operation.create backupRequest).run nightEnvironment .default backupTime
      .empty).1.toBool = true := by
    decide +kernel
  cases replied : ((Operation.create backupRequest).run nightEnvironment .default backupTime
      .empty).1 with
  | error failure => simp [replied, Except.toBool] at accepted
  | ok answer =>
      rcases night_deadline_iff nightEnvironment .default (Equiv.injective _)
        nightEnvironment_dumped (.nil Database.empty) rfl backupRequest_held
        (Prod.ext replied rfl) backupRequest_type rfl (by decide) backupBatch_end with
        ⟨row, found, deadline⟩
      exact ⟨answer, row, Prod.ext replied rfl, found, deadline⟩

/-- The backup request with a `created_at` an hour earlier and a longer timeout. -/
def lateBackupRequest : CreatePayload :=
  { backupRequest with createdAt := .aware (backupTime - hour) 0, timeout := 4000 }

/-- Accepted at 04:00, the request created at 03:00 ends at 04:06:40. -/
theorem late_backup_ends_before_batch :
    let outcome :=
      (Operation.create lateBackupRequest).run nightEnvironment .default backupTime .empty
    outcome.1.toBool = true ∧ nightEnvironment.paris.hourOfDay backupTime = 4 ∧
      BatchEnd nightEnvironment backupTime backupBatch ∧
      outcome.2.jobs.rows.map JobRow.deadline = [backupTime + seconds 400] ∧
      ¬ backupBatch ≤ backupTime + seconds 400 := by
  decide +kernel

end OhanaAgent.Jobs
