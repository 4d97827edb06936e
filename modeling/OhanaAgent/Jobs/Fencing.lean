import OhanaAgent.Jobs.Invariant

/-!
# Lease fencing

Attempt numbers grow from claim to claim as long as the job is not created
again, and a heartbeat or a completion acts only for the worker and the attempt
that hold the job in time.  Every other message is refused and rolled back, or
answered with no more than the recovery that was due at its clock reading.
-/

namespace OhanaAgent.Jobs

open OhanaAgent.Encoding.Json
open OhanaAgent.Store
open OhanaAgent.Time
open OhanaAgent.Transition

variable {env : Environment} {config : Config} {now : Int} {db after : Database}

/-! ## Attempts -/

/-- The job and the attempt a claim answers with. -/
def claimedJob : Reply → Option (Text × Nat)
  | .ok (.claim ⟨some answer, _⟩) => some (answer.jobId, answer.attempt)
  | _ => none

/-- The call is a claim that gets an attempt of a job. -/
def Claimed (env : Environment) (config : Config) (db : Database) (call : Call) (jobId : Text)
    (attempt : Nat) : Prop :=
  (∃ workerId supportedTypes shutdown settle,
    call.operation = .claim workerId supportedTypes shutdown settle) ∧
  claimedJob (call.operation.run env config call.now db).1 = some (jobId, attempt)

/-- A step that does not insert a row for the job. -/
def StepWithoutInsertion (env : Environment) (config : Config) (jobId : Text) (db : Database)
    (call : Call) (after : Database) : Prop :=
  Step env config db call after ∧
    ∀ job, Insertion env config call db after job → job.request.jobId ≠ jobId

/-- A successful claim takes the next attempt of a stored row, and writes it. -/
theorem Claimed.row {call : Call} {jobId : Text} {attempt : Nat}
    (claimed : Claimed env config db call jobId attempt) (step : Step env config db call after) :
    ∃ row ∈ (db.recover env config call.now).jobs, row.jobId = jobId ∧
      attempt = row.attempt + 1 ∧ ∀ next ∈ after.jobs, next.jobId = jobId → attempt = next.attempt := by
  obtain ⟨now, operation⟩ := call
  obtain ⟨⟨workerId, supportedTypes, shutdown, settle, same⟩, answered⟩ := claimed
  dsimp only at same
  subst same
  unfold Step at step
  dsimp only at step answered ⊢
  rcases commit_cases (Database.claim env config now workerId supportedTypes shutdown settle) db with
    ⟨result, next, done, committed⟩ | ⟨failure, _, committed⟩
  · simp only [Operation.run, answering, committed] at step answered
    subst step
    rcases claim_eq_ok done with ⟨none, _⟩ | ⟨row, member, _, rfl, answer, found, sameId, sameAttempt⟩
    · obtain ⟨job, requested⟩ := result
      dsimp only at none
      subst none
      contradiction
    · obtain ⟨job, requested⟩ := result
      dsimp only at found
      subst found
      simp only [Except.map, claimedJob, Option.some.injEq, Prod.mk.injEq] at answered
      refine ⟨row, member, sameId.symm.trans answered.1, answered.2.symm.trans sameAttempt, ?_⟩
      intro next nextMem nextId
      rw [jobs_lease, Table.mem_modify] at nextMem
      rcases nextMem with ⟨source, sourceMem, sourceId, rfl⟩ | ⟨_, other⟩
      · have equal := (db.recover env config now).jobs.key_injective sourceMem member sourceId
        rw [equal, ← answered.2, sameAttempt]
        rfl
      · exact absurd (nextId.trans (answered.1.symm.trans sameId)) other
  · simp [Operation.run, answering, committed, Except.map, claimedJob] at answered

/-- Every stored row of the job has had at least this many attempts. -/
def AttemptsFrom (jobId : Text) (attempt : Nat) (jobs : JobTable) : Prop :=
  ∀ row ∈ jobs, row.jobId = jobId → attempt ≤ row.attempt

theorem AttemptsFrom.path {jobId : Text} {attempt : Nat} {before after : JobTable}
    (from_ : AttemptsFrom jobId attempt before) (path : Path env config now before after) :
    AttemptsFrom jobId attempt after := by
  intro next member sameId
  obtain ⟨row, rowMem, moves⟩ := path.source member
  have rowId : row.jobId = jobId := moves.sameRequest.jobId.symm.trans sameId
  exact (from_ row rowMem rowId).trans moves.attempt_le

theorem AttemptsFrom.step {jobId : Text} {attempt : Nat} {call : Call}
    (from_ : AttemptsFrom jobId attempt db.jobs)
    (step : StepWithoutInsertion env config jobId db call after) :
    AttemptsFrom jobId attempt after.jobs := by
  rcases step_effect step.1 with path | ⟨job, insertion⟩
  · exact from_.path path
  · intro row member sameId
    rw [Table.mem_def, insertion.rows, List.mem_append, List.mem_singleton] at member
    rcases member with member | rfl
    · exact from_.path insertion.recovered row member sameId
    · exact absurd sameId (step.2 job insertion)

/-- Between two claims of a job that was not created again in between, the
attempt grows. -/
theorem claimed_attempt_lt {jobId : Text} {first second : Nat} {firstCall secondCall : Call}
    {calls : List Call} {middle last : Database} (claimed : Claimed env config db firstCall jobId first)
    (step : Step env config db firstCall middle)
    (run : Run (StepWithoutInsertion env config jobId) middle calls last)
    (again : Claimed env config last secondCall jobId second) : first < second := by
  obtain ⟨_, _, _, _, written⟩ := claimed.row step
  have start : AttemptsFrom jobId first middle.jobs := fun row member sameId =>
    (written row member sameId).le
  have finish : AttemptsFrom jobId first last.jobs :=
    run.invariant (P := fun db => AttemptsFrom jobId first db.jobs)
      (fun from_ taken => from_.step taken) start
  obtain ⟨row, member, sameId, next, _⟩ := again.row rfl
  have reached := finish.path (recover_path last) row member sameId
  omega

/-! ## Messages -/

/-- The worker and the attempt hold the job: it is running for them, and
neither its lease nor its deadline has come. -/
def Holds (now : Int) (db : Database) (jobId workerId : Text) (attempt : Int) : Prop :=
  ∃ row ∈ db.jobs, row.jobId = jobId ∧ row.status = .running ∧ row.workerId = some workerId ∧
    (row.attempt : Int) = attempt ∧ (∃ lease, row.leaseExpiresAt = some lease ∧ now < lease) ∧
    now < row.deadline

theorem dueTransition_ne_running {row : JobRow} {change : Transition}
    (due : dueTransition config now row = some change) : change.status ≠ .running := by
  unfold dueTransition at due
  split at due
  · cases due
    simp [timeoutTransition]
  · split at due
    · split at due
      · cases due
        simp [giveUpTransition]
      · cases due
        simp [retryTransition]
    · split at due
      · cases due
        simp [waitingTransition]
      · contradiction

/-- A row that runs after recovery ran before it, in time. -/
theorem running_of_recover (valid : TableInvariant config db.jobs) {row : JobRow}
    (member : row ∈ (db.recover env config now).jobs) (running : row.status = .running) :
    row ∈ db.jobs ∧ (∃ lease, row.leaseExpiresAt = some lease ∧ now < lease) ∧
      now < row.deadline := by
  obtain ⟨⟨source, sourceMem, equal⟩, _⟩ := mem_recover.mp member
  unfold JobRow.recovered at equal
  split at equal
  · split at equal
    · rename_i change due
      subst equal
      exact absurd running (dueTransition_ne_running due)
    · rename_i none
      subst equal
      obtain ⟨lease, found⟩ := Option.isSome_iff_exists.mp
        ((valid.rows source sourceMem).running_iff.mp running)
      unfold dueTransition at none
      split at none
      · contradiction
      · rename_i early
        split at none
        · split at none <;> contradiction
        · rename_i held
          refine ⟨sourceMem, ⟨lease, found, ?_⟩, by omega⟩
          by_contra late
          exact held ⟨running, lease, found, by omega⟩
  · rename_i live
    subst equal
    simp [running, JobStatus.recoverable] at live

theorem holds_of_recover (valid : TableInvariant config db.jobs) {row : JobRow}
    {jobId workerId : Text} {attempt : Nat}
    (found : (db.recover env config now).jobs.find? jobId = some row)
    (running : row.status = .running) (owner : row.workerId = some workerId)
    (same : row.attempt = attempt) : Holds now db jobId workerId attempt := by
  obtain ⟨member, sameId⟩ := Table.find?_eq_some_iff.mp found
  obtain ⟨stored, lease, early⟩ := running_of_recover valid member running
  exact ⟨row, stored, sameId, running, owner, by rw [same], lease, early⟩

/-- What a heartbeat can do. -/
theorem heartbeat_outcome (valid : TableInvariant config db.jobs) (jobId workerId : Text)
    (attempt : Int) (progress : Option Value) :
    let outcome := (Operation.heartbeat jobId workerId attempt progress).run env config now db
    (∃ failure, outcome = (.error failure, db)) ∨
    (∃ answer row, outcome = (.ok (.job answer), db.recover env config now) ∧
      row ∈ (db.recover env config now).jobs ∧ row.jobId = jobId ∧
      (row.status = .cancelled ∨ row.status = .timeout) ∧ row.workerId = some workerId ∧
      (row.attempt : Int) = attempt) ∨
    (∃ answer heartbeat, Holds now db jobId workerId attempt ∧
      outcome = (.ok (.job answer),
        renewedDatabase config now jobId heartbeat (db.recover env config now)) ∧
      heartbeat.workerId = workerId) := by
  dsimp only
  rcases commit_cases (Database.heartbeat env config now jobId workerId attempt progress) db with
    ⟨answer, next, done, committed⟩ | ⟨failure, _, committed⟩
  · obtain ⟨heartbeat, rfl, rfl, renewed⟩ := heartbeat_eq_ok done
    obtain ⟨row, found, owner, same, ⟨ended, rfl⟩ | ⟨running, _, rfl⟩⟩ := renew_eq_ok renewed
    · obtain ⟨member, sameId⟩ := Table.find?_eq_some_iff.mp found
      refine Or.inr (Or.inl ⟨answer, row, ?_, member, sameId, ended, owner, by rw [same]⟩)
      simp [Operation.run, answering, committed, Except.map]
    · refine Or.inr (Or.inr ⟨answer, heartbeat, holds_of_recover valid found running owner same,
        ?_, rfl⟩)
      simp [Operation.run, answering, committed, Except.map]
  · refine Or.inl ⟨failure, ?_⟩
    simp [Operation.run, answering, committed, Except.map]

/-- What a completion can do. -/
theorem complete_outcome (valid : TableInvariant config db.jobs) (jobId : Text)
    (payload : CompletionPayload) :
    let outcome := (Operation.complete jobId payload).run env config now db
    (∃ failure, outcome = (.error failure, db)) ∨
    (∃ answer row terminal stored, outcome = (.ok (.job answer), db.recover env config now) ∧
      row ∈ (db.recover env config now).jobs ∧ row.jobId = jobId ∧
      payload.outcome = .ok terminal ∧ checkOutcome env row.type terminal = .ok stored ∧
      sameCompletion row stored = true) ∨
    (∃ answer completion stored, Holds now db jobId payload.workerId payload.attempt ∧
      outcome = (.ok (.job answer),
        completedDatabase now jobId completion stored (db.recover env config now)) ∧
      completion.workerId = payload.workerId ∧ payload.outcome = .ok completion.outcome) := by
  dsimp only
  rcases commit_cases (Database.complete env config now jobId payload) db with
    ⟨answer, next, done, committed⟩ | ⟨failure, _, committed⟩
  · obtain ⟨completion, worker, attempt, terminal, finished⟩ := complete_eq_ok done
    obtain ⟨row, stored, found, checked, ⟨_, same, rfl⟩ | ⟨running, owner, same, _, rfl⟩⟩ :=
      finish_eq_ok finished
    · obtain ⟨member, sameId⟩ := Table.find?_eq_some_iff.mp found
      refine Or.inr (Or.inl ⟨answer, row, completion.outcome, stored, ?_, member, sameId, terminal,
        checked, same⟩)
      simp [Operation.run, answering, committed, Except.map]
    · have holds := holds_of_recover valid found running owner same
      rw [worker, attempt] at holds
      refine Or.inr (Or.inr ⟨answer, completion, stored, holds, ?_, worker, terminal⟩)
      simp [Operation.run, answering, committed, Except.map]
  · refine Or.inl ⟨failure, ?_⟩
    simp [Operation.run, answering, committed, Except.map]

/-- Lease fencing in every reachable database.  Attempts grow from claim to
claim until the job is created again; a heartbeat or a completion that fails
leaves every table as it was; one that answers leaves what the recovery due at
its clock reading leaves, and writes to the job only for the holder. -/
theorem reachable_lease_fencing (env : Environment) (config : Config) {calls : List Call}
    {db : Database} (run : Run (Step env config) Database.empty calls db) :
    (∀ (firstCall secondCall : Call) (jobId : Text) (first second : Nat) (between : List Call)
        (middle last : Database), Claimed env config db firstCall jobId first →
        Step env config db firstCall middle →
        Run (StepWithoutInsertion env config jobId) middle between last →
        Claimed env config last secondCall jobId second → first < second) ∧
    (∀ (now : Int) (jobId workerId : Text) (attempt : Int) (progress : Option Value),
      let outcome := (Operation.heartbeat jobId workerId attempt progress).run env config now db
      (∃ failure, outcome = (.error failure, db)) ∨
      (∃ answer row, outcome = (.ok (.job answer), db.recover env config now) ∧
        row ∈ (db.recover env config now).jobs ∧ row.jobId = jobId ∧
        (row.status = .cancelled ∨ row.status = .timeout) ∧ row.workerId = some workerId ∧
        (row.attempt : Int) = attempt) ∨
      (∃ answer heartbeat, Holds now db jobId workerId attempt ∧
        outcome = (.ok (.job answer),
          renewedDatabase config now jobId heartbeat (db.recover env config now)) ∧
        heartbeat.workerId = workerId)) ∧
    (∀ (now : Int) (jobId : Text) (payload : CompletionPayload),
      let outcome := (Operation.complete jobId payload).run env config now db
      (∃ failure, outcome = (.error failure, db)) ∨
      (∃ answer row terminal stored, outcome = (.ok (.job answer), db.recover env config now) ∧
        row ∈ (db.recover env config now).jobs ∧ row.jobId = jobId ∧
        payload.outcome = .ok terminal ∧ checkOutcome env row.type terminal = .ok stored ∧
        sameCompletion row stored = true) ∨
      (∃ answer completion stored, Holds now db jobId payload.workerId payload.attempt ∧
        outcome = (.ok (.job answer),
          completedDatabase now jobId completion stored (db.recover env config now)) ∧
        completion.workerId = payload.workerId ∧ payload.outcome = .ok completion.outcome)) := by
  have valid := tableInvariant_of_run run
  refine ⟨?_, ?_, ?_⟩
  · intro firstCall secondCall jobId first second between middle last claimed step rest again
    exact claimed_attempt_lt claimed step rest again
  · intro now jobId workerId attempt progress
    exact heartbeat_outcome valid jobId workerId attempt progress
  · intro now jobId payload
    exact complete_outcome valid jobId payload

/-- The first two calls of `healthCalls`: a job is running. -/
def runningHealthCheck : Database :=
  execute winterEnvironment Config.default (healthCalls.take 2) Database.empty

/-- The holder of the running job renews its lease in time. -/
theorem runningHealthCheck_fencing :
    runningHealthCheck.jobs.rows.map (fun row => (row.status, row.workerId, row.attempt)) =
      [(.running, some "katsuyu".toList, 1)] ∧
    ∀ (now : Int) (jobId workerId : Text) (attempt : Int) (progress : Option Value),
      let outcome := (Operation.heartbeat jobId workerId attempt progress).run winterEnvironment
        Config.default now runningHealthCheck
      (∃ failure, outcome = (.error failure, runningHealthCheck)) ∨
      (∃ answer row,
        outcome = (.ok (.job answer), runningHealthCheck.recover winterEnvironment .default now) ∧
        row ∈ (runningHealthCheck.recover winterEnvironment .default now).jobs ∧
        row.jobId = jobId ∧ (row.status = .cancelled ∨ row.status = .timeout) ∧
        row.workerId = some workerId ∧ (row.attempt : Int) = attempt) ∨
      (∃ answer heartbeat, Holds now runningHealthCheck jobId workerId attempt ∧
        outcome = (.ok (.job answer), renewedDatabase .default now jobId heartbeat
          (runningHealthCheck.recover winterEnvironment .default now)) ∧
        heartbeat.workerId = workerId) :=
  ⟨by decide +kernel,
    (reachable_lease_fencing winterEnvironment Config.default (run_execute _ _)).2.1⟩

/-- The request of `healthRequest`, a month later under the same identifier. -/
def laterHealthRequest : CreatePayload :=
  { healthRequest with createdAt := .aware (healthTime + 31 * day) 0 }

/-- The database after the first job ended, was purged and was created again. -/
def renewedHealthCheck : Database :=
  execute winterEnvironment Config.default
    (healthCalls ++ [⟨healthTime + 31 * day, .create laterHealthRequest⟩]) Database.empty

/-- A heartbeat of the owner at the deadline of its job. -/
def lateHeartbeat : Reply × Database :=
  (Operation.heartbeat healthJob "katsuyu".toList 1 none).run winterEnvironment Config.default
    (healthTime + seconds 900) runningHealthCheck

/-- The first claim of the job. -/
def firstClaim : Reply × Database :=
  (Operation.claim "katsuyu".toList ["system.health".toList] true false).run winterEnvironment
    Config.default (healthTime + second)
    (execute winterEnvironment Config.default (healthCalls.take 1) Database.empty)

/-- The claim of the job that was created again. -/
def laterClaim : Reply × Database :=
  (Operation.claim "katsuyu".toList ["system.health".toList] true false).run winterEnvironment
    Config.default (healthTime + 31 * day + second) renewedHealthCheck

/-- A heartbeat of the owner at the deadline is answered and times the job out,
and a job created again after its purge restarts its attempts. -/
theorem heartbeat_times_out_and_attempts_restart :
    (runningHealthCheck.jobs.rows.map (fun row => (row.status, row.workerId, row.attempt)) =
        [(.running, some "katsuyu".toList, 1)] ∧
      lateHeartbeat.1.toBool = true ∧ lateHeartbeat.2.jobs.rows.map JobRow.status = [.timeout]) ∧
    claimedJob firstClaim.1 = some (healthJob, 1) ∧
      claimedJob laterClaim.1 = some (healthJob, 1) := by
  decide +kernel

end OhanaAgent.Jobs
