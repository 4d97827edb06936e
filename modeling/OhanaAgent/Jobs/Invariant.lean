import OhanaAgent.Jobs.Effects
import OhanaAgent.Transition.Run
import Mathlib.Logic.Equiv.Basic

/-!
# The job row invariant

What every stored job satisfies in every reachable database, and what a call may
do to a terminal one.  The row invariant is a property of rows that every move
keeps; the bound on active jobs follows from the check of `create`, because no
move makes a terminal row active again.
-/

namespace OhanaAgent.Jobs

open OhanaAgent.Encoding.Json
open OhanaAgent.Store
open OhanaAgent.Time
open OhanaAgent.Transition

variable {env : Environment} {config : Config} {now : Int}

/-- Executing a list of calls is a run. -/
theorem run_execute (calls : List Call) (db : Database) :
    Run (Step env config) db calls (execute env config calls db) := by
  induction calls generalizing db with
  | nil => exact .nil db
  | cons call calls ih => exact .cons rfl (ih _)

/-- The columns of a job row are consistent with its status. -/
structure RowInvariant (config : Config) (row : JobRow) : Prop where
  running_iff : row.status = .running ↔ row.leaseExpiresAt.isSome = true
  running_owned : row.status = .running → row.workerId.isSome = true ∧ 1 ≤ row.attempt
  lease_le : ∀ lease, row.leaseExpiresAt = some lease → lease ≤ row.deadline
  waiting : row.status = .queued ∨ row.status = .waitingWorker →
    row.workerId = none ∧ row.attempt < config.maxAttempts
  attempt_le : row.attempt ≤ config.maxAttempts
  terminal_iff : row.status.terminal = true ↔ row.finishedAt.isSome = true
  result_iff : row.status = .succeeded ↔ row.resultJson.isSome = true
  digest_iff : row.status = .succeeded ↔ row.resultSha256.isSome = true
  failed_error : row.status = .failed → row.errorJson.isSome = true

theorem rowInvariant_row (job : NewJob) : RowInvariant config (job.row now) where
  running_iff := by simp [NewJob.row]
  running_owned := by simp [NewJob.row]
  lease_le := by simp [NewJob.row]
  waiting := fun _ => ⟨rfl, config.attempts_bounds.1⟩
  attempt_le := Nat.zero_le _
  terminal_iff := by simp [NewJob.row, JobStatus.terminal]
  result_iff := by simp [NewJob.row]
  digest_iff := by simp [NewJob.row]
  failed_error := by simp [NewJob.row]

namespace RowInvariant

variable {row : JobRow}

theorem result_none (valid : RowInvariant config row) (other : row.status ≠ .succeeded) :
    row.resultJson = none := by
  have absent : ¬ row.resultJson.isSome = true := fun present => other (valid.result_iff.mpr present)
  simpa using absent

theorem digest_none (valid : RowInvariant config row) (other : row.status ≠ .succeeded) :
    row.resultSha256 = none := by
  have absent : ¬ row.resultSha256.isSome = true := fun present =>
    other (valid.digest_iff.mpr present)
  simpa using absent

theorem finished_none (valid : RowInvariant config row) (live : row.status.terminal = false) :
    row.finishedAt = none := by
  have absent : ¬ row.finishedAt.isSome = true := by
    rw [← valid.terminal_iff, live]
    exact Bool.false_ne_true
  simpa using absent

theorem ne_succeeded_of_live (live : row.status.terminal = false) : row.status ≠ .succeeded := by
  intro succeeded
  simp [succeeded, JobStatus.terminal] at live

/-- A transition to another end than success, with its time and without a
lease. -/
theorem ended (valid : RowInvariant config row) (live : row.status.terminal = false)
    {change : Transition} (terminal : change.status.terminal = true)
    (other : change.status ≠ .succeeded) (finished : change.finishedAt.isSome = true)
    (cleared : change.clearLease = true)
    (explained : change.status = .failed → change.error.isSome = true) :
    RowInvariant config (row.transition change now) := by
  have noResult := valid.result_none (ne_succeeded_of_live live)
  have noDigest := valid.digest_none (ne_succeeded_of_live live)
  obtain ⟨instant, finishedEq⟩ := Option.isSome_iff_exists.mp finished
  constructor
  · simp only [JobRow.transition, cleared, if_true, Option.isSome_none, Bool.false_eq_true, iff_false]
    intro running
    simp [running, JobStatus.terminal] at terminal
  · intro running
    have status : change.status = .running := running
    simp [status, JobStatus.terminal] at terminal
  · simp [JobRow.transition, cleared]
  · rintro (queued | waiting)
    · have status : change.status = .queued := queued
      simp [status, JobStatus.terminal] at terminal
    · have status : change.status = .waitingWorker := waiting
      simp [status, JobStatus.terminal] at terminal
  · exact valid.attempt_le
  · simp [JobRow.transition, finishedEq, terminal]
  · simp [JobRow.transition, noResult, other]
  · simp [JobRow.transition, noDigest, other]
  · intro failed
    obtain ⟨error, errorEq⟩ := Option.isSome_iff_exists.mp (explained failed)
    simp [JobRow.transition, errorEq]

/-- Every move keeps the invariant. -/
theorem move (valid : RowInvariant config row) {next : JobRow} (move : Move config now row next) :
    RowInvariant config next := by
  cases move with
  | timeout live _ =>
      exact valid.ended (not_terminal_of_recoverable live) rfl (by simp [timeoutTransition]) rfl rfl
        (by simp [timeoutTransition])
  | giveUp running _ =>
      exact valid.ended (by simp [running, JobStatus.terminal]) rfl (by simp [giveUpTransition])
        rfl rfl fun _ => rfl
  | cancel live =>
      exact valid.ended live rfl (by simp [cancelTransition]) rfl rfl (by simp [cancelTransition])
  | retry running left =>
      have live : row.status.terminal = false := by simp [running, JobStatus.terminal]
      have noResult := valid.result_none (ne_succeeded_of_live live)
      have noDigest := valid.digest_none (ne_succeeded_of_live live)
      have unfinished := valid.finished_none live
      constructor
      · simp [JobRow.transition, retryTransition]
      · simp [JobRow.transition, retryTransition]
      · simp [JobRow.transition, retryTransition]
      · exact fun _ => ⟨rfl, left⟩
      · exact valid.attempt_le
      · simp [JobRow.transition, retryTransition, unfinished, JobStatus.terminal]
      · simp [JobRow.transition, retryTransition, noResult]
      · simp [JobRow.transition, retryTransition, noDigest]
      · simp [JobRow.transition, retryTransition]
  | wait queued =>
      have live : row.status.terminal = false := by simp [queued, JobStatus.terminal]
      have noResult := valid.result_none (ne_succeeded_of_live live)
      have noDigest := valid.digest_none (ne_succeeded_of_live live)
      have unfinished := valid.finished_none live
      have noLease : row.leaseExpiresAt.isSome = false := by
        have other : ¬ row.status = .running := by simp [queued]
        rw [valid.running_iff] at other
        simpa using other
      constructor
      · simp [JobRow.transition, waitingTransition, noLease]
      · simp [JobRow.transition, waitingTransition]
      · exact valid.lease_le
      · exact fun _ => valid.waiting (Or.inl queued)
      · exact valid.attempt_le
      · simp [JobRow.transition, waitingTransition, unfinished, JobStatus.terminal]
      · simp [JobRow.transition, waitingTransition, noResult]
      · simp [JobRow.transition, waitingTransition, noDigest]
      · simp [JobRow.transition, waitingTransition]
  | claim workerId claimable =>
      have live := not_terminal_of_claimable claimable
      have noResult := valid.result_none (ne_succeeded_of_live live)
      have noDigest := valid.digest_none (ne_succeeded_of_live live)
      have unfinished := valid.finished_none live
      have waiting : row.status = .queued ∨ row.status = .waitingWorker := by
        cases status : row.status <;> simp_all [JobStatus.claimable]
      have left := (valid.waiting waiting).2
      constructor
      · simp [JobRow.claimed]
      · exact fun _ => ⟨rfl, Nat.le_add_left 1 row.attempt⟩
      · rintro lease equal
        cases equal
        exact min_le_left row.deadline _
      · simp [JobRow.claimed]
      · exact left
      · simp [JobRow.claimed, unfinished, JobStatus.terminal]
      · simp [JobRow.claimed, noResult]
      · simp [JobRow.claimed, noDigest]
      · simp [JobRow.claimed]
  | renew progress running _ =>
      constructor
      · simp [JobRow.renewed, running]
      · exact valid.running_owned
      · rintro lease equal
        cases equal
        exact min_le_left row.deadline _
      · exact valid.waiting
      · exact valid.attempt_le
      · exact valid.terminal_iff
      · exact valid.result_iff
      · exact valid.digest_iff
      · exact valid.failed_error
  | complete stored running sound _ =>
      have terminal : stored.status.terminal = true := by
        rcases sound with ⟨status, _⟩ | ⟨status, _⟩ <;> simp [status, JobStatus.terminal]
      have notRunning : stored.status ≠ .running := by
        intro status
        simp [status, JobStatus.terminal] at terminal
      have notWaiting : ¬ (stored.status = .queued ∨ stored.status = .waitingWorker) := by
        rintro (status | status) <;> simp [status, JobStatus.terminal] at terminal
      constructor
      · simp [JobRow.completed, notRunning]
      · exact fun status => absurd status notRunning
      · simp [JobRow.completed]
      · exact fun status => absurd status notWaiting
      · exact valid.attempt_le
      · simp [JobRow.completed, terminal]
      · rcases sound with ⟨status, result, _⟩ | ⟨status, result, _⟩ <;>
          simp [JobRow.completed, status, result]
      · rcases sound with ⟨status, _, digest⟩ | ⟨status, _, digest, _⟩ <;>
          simp [JobRow.completed, status, digest]
      · intro failed
        rcases sound with ⟨status, _⟩ | ⟨_, _, _, error⟩
        · have same : stored.status = .failed := failed
          simp [status] at same
        · simpa [JobRow.completed] using error
  | settle =>
      exact ⟨valid.running_iff, valid.running_owned, valid.lease_le, valid.waiting,
        valid.attempt_le, valid.terminal_iff, valid.result_iff, valid.digest_iff,
        valid.failed_error⟩
  | rename next owned =>
      refine ⟨valid.running_iff, fun running => ⟨rfl, (valid.running_owned running).2⟩,
        valid.lease_le, fun waiting => ?_, valid.attempt_le, valid.terminal_iff,
        valid.result_iff, valid.digest_iff, valid.failed_error⟩
      have free := (valid.waiting waiting).1
      simp [free] at owned

theorem moves (valid : RowInvariant config row) {next : JobRow}
    (moves : Moves config now row next) : RowInvariant config next := by
  induction moves with
  | refl => exact valid
  | tail _ step ih => exact ih.move step

end RowInvariant

/-- The invariant of the job table. -/
structure TableInvariant (config : Config) (jobs : JobTable) : Prop where
  rows : ∀ row ∈ jobs, RowInvariant config row
  active : (activeRows jobs.rows).length ≤ config.maxActiveJobs
  shown : ∀ row ∈ jobs, Decodable row

theorem tableInvariant_empty : TableInvariant config Database.empty.jobs where
  rows := fun row member => absurd member (Table.not_mem_empty row)
  active := Nat.zero_le _
  shown := fun row member => absurd member (Table.not_mem_empty row)

theorem TableInvariant.path {before after : JobTable} (valid : TableInvariant config before)
    (path : Path env config now before after) : TableInvariant config after where
  rows := by
    intro next member
    obtain ⟨row, rowMem, moves⟩ := path.source member
    exact (valid.rows row rowMem).moves moves
  active := path.active_le.trans valid.active
  shown := by
    intro next member
    obtain ⟨row, rowMem, moves⟩ := path.source member
    exact moves.decodable (valid.shown row rowMem)

theorem TableInvariant.step {db after : Database} {call : Call}
    (valid : TableInvariant config db.jobs) (step : Step env config db call after) :
    TableInvariant config after.jobs := by
  rcases step_effect step with path | ⟨job, insertion⟩
  · exact valid.path path
  · have recovered := valid.path insertion.recovered
    constructor
    · intro row member
      rw [Table.mem_def, insertion.rows, List.mem_append, List.mem_singleton] at member
      rcases member with member | rfl
      · exact recovered.rows row member
      · exact rowInvariant_row job
    · have counted : activeRows [job.row call.now] = [job.row call.now] := rfl
      have room := insertion.room
      rw [insertion.rows]
      unfold activeRows at counted room ⊢
      rw [List.filter_append, counted, List.length_append, List.length_singleton]
      exact room
    · intro row member
      rw [Table.mem_def, insertion.rows, List.mem_append, List.mem_singleton] at member
      rcases member with member | rfl
      · exact recovered.shown row member
      · exact insertion.shown

theorem tableInvariant_of_run {calls : List Call} {db : Database}
    (run : Run (Step env config) Database.empty calls db) : TableInvariant config db.jobs :=
  run.invariant (P := fun db => TableInvariant config db.jobs)
    (fun valid step => valid.step step) tableInvariant_empty

/-! ## Terminal rows -/

/-- A row that a call removed: its retention was over, and a row with its
identifier can only be the one the call itself created. -/
def Purged (env : Environment) (config : Config) (call : Call) (db after : Database)
    (row : JobRow) : Prop :=
  expiredRow env config call.now row = true ∧ ∀ next ∈ after.jobs, next.jobId = row.jobId →
    ∃ job, Insertion env config call db after job ∧ next = job.row call.now

theorem expiredRow_congr {row next : JobRow} (same : SameOutcome row next) :
    expiredRow env config now next = expiredRow env config now row := by
  unfold expiredRow
  rw [same.status, same.finishedAt]

/-- After a path a terminal row is there with its outcome, or its identifier is
gone because its retention was over. -/
theorem Path.terminal {before after : JobTable} (path : Path env config now before after)
    {row : JobRow} (member : row ∈ before) (terminal : row.status.terminal = true) :
    (∃ next ∈ after, next.jobId = row.jobId ∧ SameOutcome row next) ∨
      (expiredRow env config now row = true ∧ ∀ next ∈ after, next.jobId ≠ row.jobId) := by
  by_cases present : ∃ next ∈ after, next.jobId = row.jobId
  · obtain ⟨next, nextMem, sameId⟩ := present
    obtain ⟨source, sourceMem, moves⟩ := path.source nextMem
    have sourceId : source.jobId = row.jobId := moves.sameRequest.jobId.symm.trans sameId
    have sourceRow := before.key_injective sourceMem member sourceId
    subst sourceRow
    exact Or.inl ⟨next, nextMem, sameId, moves.sameOutcome terminal⟩
  · push Not at present
    rcases path.target member with ⟨next, nextMem, moves⟩ | ⟨next, moves, expired⟩
    · exact absurd moves.sameRequest.jobId (present next nextMem)
    · rw [expiredRow_congr (moves.sameOutcome terminal)] at expired
      exact Or.inr ⟨expired, present⟩

theorem terminal_step {db after : Database} {call : Call} (step : Step env config db call after)
    {row : JobRow} (member : row ∈ db.jobs) (terminal : row.status.terminal = true) :
    (∃ next ∈ after.jobs, next.jobId = row.jobId ∧ SameOutcome row next) ∨
      Purged env config call db after row := by
  rcases step_effect step with path | ⟨job, insertion⟩
  · rcases path.terminal member terminal with kept | ⟨expired, gone⟩
    · exact Or.inl kept
    · exact Or.inr ⟨expired, fun next nextMem sameId => absurd sameId (gone next nextMem)⟩
  · rcases insertion.recovered.terminal member terminal with
      ⟨next, nextMem, sameId, same⟩ | ⟨expired, gone⟩
    · refine Or.inl ⟨next, ?_, sameId, same⟩
      rw [Table.mem_def, insertion.rows]
      exact List.mem_append_left _ nextMem
    · refine Or.inr ⟨expired, fun next nextMem sameId => ⟨job, insertion, ?_⟩⟩
      rw [Table.mem_def, insertion.rows, List.mem_append, List.mem_singleton] at nextMem
      exact nextMem.resolve_left fun kept => gone next kept sameId

/-- In every reachable database every job row satisfies the row invariant, the
active jobs respect their limit, and every call keeps the outcome of every
terminal row that it does not purge. -/
theorem reachable_jobRow_invariant (env : Environment) (config : Config) {calls : List Call}
    {db : Database} (run : Run (Step env config) Database.empty calls db) :
    (∀ row ∈ db.jobs, RowInvariant config row) ∧
      (activeRows db.jobs.rows).length ≤ config.maxActiveJobs ∧
      ∀ call after, Step env config db call after → ∀ row ∈ db.jobs,
        row.status.terminal = true →
          (∃ next ∈ after.jobs, next.jobId = row.jobId ∧ SameOutcome row next) ∨
            Purged env config call db after row := by
  have valid := tableInvariant_of_run run
  exact ⟨valid.rows, valid.active, fun call after step row member terminal =>
    terminal_step step member terminal⟩

/-! ## A health check in January -/

/-- The text of the request of `healthRequest`. -/
def healthRequestText : Text :=
  ("\x7b\"created_at\":\"2026-01-15T09:00:00Z\"," ++
    "\"job_id\":\"00000000-0000-4000-8000-000000000001\",\"parameters\":\x7b\x7d," ++
    "\"protocol_version\":1,\"timeout\":900,\"type\":\"system.health\"\x7d").toList

/-- Winter time in Paris, the digest of the request above, and models that accept
their value as it is. -/
def winterEnvironment : Environment where
  paris := ⟨fun _ => hour⟩
  sha256 := Equiv.swap healthRequestText
    "626a0fdca44e80b1f2048a0258b3e8818107a8108c17a49aea19446c423f0a5e".toList
  parametersModel := fun _ value => .ok value
  resultModel := fun _ value => .ok value

/-- The identifier of the job. -/
def healthJob : Text := "00000000-0000-4000-8000-000000000001".toList

/-- 2026-01-15T09:00:00Z. -/
def healthTime : Int := 1768467600 * second

def healthRequest : CreatePayload where
  protocolVersion := 1
  jobId := healthJob
  type := "system.health".toList
  createdAt := .aware healthTime 0
  parameters := .nil
  timeout := 900

def healthCalls : List Call :=
  [⟨healthTime, .create healthRequest⟩,
    ⟨healthTime + second, .claim "katsuyu".toList ["system.health".toList] true false⟩,
    ⟨healthTime + 2 * second, .complete healthJob
      ⟨"katsuyu".toList, 1, .succeeded, some .nil, none⟩⟩]

/-- The invariant at the end of a run that creates, claims and completes a
job. -/
theorem healthCalls_jobRow_invariant :
    let db := execute winterEnvironment Config.default healthCalls Database.empty
    db.jobs.rows.map JobRow.status = [.succeeded] ∧
      (∀ row ∈ db.jobs, RowInvariant Config.default row) ∧
      (activeRows db.jobs.rows).length ≤ Config.default.maxActiveJobs ∧
      ∀ call after, Step winterEnvironment Config.default db call after → ∀ row ∈ db.jobs,
        row.status.terminal = true →
          (∃ next ∈ after.jobs, next.jobId = row.jobId ∧ SameOutcome row next) ∨
            Purged winterEnvironment Config.default call db after row :=
  ⟨by decide +kernel,
    reachable_jobRow_invariant winterEnvironment Config.default (run_execute healthCalls _)⟩

end OhanaAgent.Jobs
