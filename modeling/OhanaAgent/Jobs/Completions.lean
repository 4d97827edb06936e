import Mathlib.Data.List.Induction
import OhanaAgent.Jobs.Invariant

/-!
# Completions waiting for Tsunade

A job whose result Tsunade must record carries a flag until it is marked
processed.  No call but the mark sets the flag, and every end of such a job
clears it; what can still lose a completion is the retention purge, which deletes
ended jobs by their age alone.
-/

namespace OhanaAgent.Jobs

open OhanaAgent.Encoding.Json
open OhanaAgent.Store
open OhanaAgent.Time

variable {env : Environment} {config : Config} {now : Int} {db after : Database} {call : Call}
  {jobId : Text}

/-! ## The flag of a row -/

/-- The row is the same job, its flag was not set, and it was cleared if the job
ended and is one that Tsunade settles. -/
structure Flagged (row next : JobRow) : Prop where
  jobId : next.jobId = row.jobId
  type : next.type = row.type
  waits : row.completionProcessed = false → next.completionProcessed = false
  ends : row.type.settledByTsunade = true → row.status.terminal = false →
    next.status.terminal = true → next.completionProcessed = false

theorem Flagged.refl (row : JobRow) : Flagged row row :=
  ⟨rfl, rfl, id, fun _ live terminal => absurd terminal (by simp [live])⟩

theorem Flagged.trans {first second third : JobRow} (left : Flagged first second)
    (right : Flagged second third) : Flagged first third where
  jobId := right.jobId.trans left.jobId
  type := right.type.trans left.type
  waits waiting := right.waits (left.waits waiting)
  ends settled live terminal := by
    cases middle : second.status.terminal with
    | true => exact right.waits (left.ends settled live middle)
    | false => exact right.ends (left.type ▸ settled) middle terminal

theorem flagged_transition (row : JobRow) (change : Transition) :
    Flagged row (row.transition change now) where
  jobId := rfl
  type := rfl
  waits waiting := by simp [JobRow.transition, waiting]
  ends settled _ terminal := by
    have ended : change.status.terminal = true := terminal
    simp [JobRow.transition, ended, settled]

theorem flagged_recovered (row : JobRow) : Flagged row (row.recovered config now) := by
  unfold JobRow.recovered
  split
  · split
    · exact flagged_transition row _
    · exact Flagged.refl row
  · exact Flagged.refl row

theorem completionProcessed_of_settled {type : JobType} (settled : type.settledByTsunade = true) :
    type.completionProcessed = true := by
  cases type <;> simp_all [JobType.settledByTsunade, JobType.completionProcessed]

theorem flagged_completed (row : JobRow) (stored : Completed) :
    Flagged row (row.completed now stored) where
  jobId := rfl
  type := rfl
  waits waiting := by simp [JobRow.completed, waiting]
  ends settled _ _ := by simp [JobRow.completed, completionProcessed_of_settled settled]

/-- Every row of a table comes from a row that it continues. -/
def Carries (before after : JobTable) : Prop :=
  ∀ next ∈ after, ∃ row ∈ before, Flagged row next

theorem Carries.refl (table : JobTable) : Carries table table :=
  fun row member => ⟨row, member, Flagged.refl row⟩

theorem Carries.trans {first second third : JobTable} (left : Carries first second)
    (right : Carries second third) : Carries first third := by
  intro next member
  obtain ⟨middle, middleMem, later⟩ := right next member
  obtain ⟨row, rowMem, earlier⟩ := left middle middleMem
  exact ⟨row, rowMem, earlier.trans later⟩

theorem Carries.of_eq {before after : JobTable} (same : after = before) : Carries before after :=
  same ▸ Carries.refl before

theorem carries_modify {table : JobTable} {f : JobRow → JobRow}
    (each : ∀ row ∈ table, Flagged row (f row)) (keeps : ∀ row, (f row).jobId = row.jobId) :
    Carries table (table.modify jobId f keeps) := by
  intro next member
  rcases Table.mem_modify.mp member with ⟨row, rowMem, _, rfl⟩ | ⟨rowMem, _⟩
  · exact ⟨row, rowMem, each row rowMem⟩
  · exact ⟨next, rowMem, Flagged.refl next⟩

theorem carries_recover (db : Database) :
    Carries db.jobs (db.recover env config now).jobs := by
  intro next member
  obtain ⟨⟨row, rowMem, rfl⟩, _⟩ := mem_recover.mp member
  exact ⟨row, rowMem, flagged_recovered row⟩

/-! ## The flags after a call -/

theorem carries_cancel {answer : JobDocument}
    (done : db.cancel env config now jobId = .ok (answer, after)) :
    Carries db.jobs after.jobs := by
  rcases cancel_eq_ok done with rfl | ⟨row, _, _, rfl⟩
  · exact carries_recover db
  · rw [jobs_transition]
    exact (carries_recover db).trans (carries_modify (fun row _ => flagged_transition row _) _)

theorem carries_claim {workerId : Text} {supportedTypes : List Text} {shutdown settle : Bool}
    {result : ClaimResult}
    (done : db.claim env config now workerId supportedTypes shutdown settle =
      .ok (result, after)) : Carries db.jobs after.jobs := by
  rcases claim_eq_ok done with ⟨_, rfl | same⟩ | ⟨row, _, _, rfl, _⟩
  · exact Carries.refl _
  · rw [same.jobs]
    exact carries_recover db
  · refine (carries_recover db).trans
      (carries_modify (f := JobRow.claimed config now workerId) ?_ fun _ => rfl)
    exact fun row _ => ⟨rfl, rfl, id, by simp [JobRow.claimed, JobStatus.terminal]⟩

theorem carries_renew {heartbeat : JobHeartbeat} {answer : JobDocument}
    (done : db.renew env config now jobId heartbeat = .ok (answer, after)) :
    Carries db.jobs after.jobs := by
  obtain ⟨row, _, _, _, ⟨_, rfl⟩ | ⟨_, _, rfl⟩⟩ := renew_eq_ok done
  · exact carries_recover db
  · refine (carries_recover db).trans
      (carries_modify (f := JobRow.renewed config now heartbeat.progress) ?_ fun _ => rfl)
    intro row _
    refine ⟨rfl, rfl, id, fun _ live terminal => ?_⟩
    have ended : row.status.terminal = true := terminal
    simp [live] at ended

theorem carries_finish {completion : JobCompletion} {answer : JobDocument}
    (done : db.finish env config now jobId completion = .ok (answer, after)) :
    Carries db.jobs after.jobs := by
  obtain ⟨row, stored, _, _, ⟨_, _, rfl⟩ | ⟨_, _, _, _, rfl⟩⟩ := finish_eq_ok done
  · exact carries_recover db
  · exact (carries_recover db).trans (carries_modify (f := JobRow.completed now stored)
      (fun row _ => flagged_completed row stored) fun _ => rfl)

theorem carries_registerWorker {registration : Registration} {previous : Option Text}
    {row : WorkerRow} (done : db.registerWorker now registration previous = .ok (row, after)) :
    Carries db.jobs after.jobs := by
  obtain ⟨migrated, migration, same⟩ := registerWorker_eq_ok done
  rw [same.jobs]
  unfold Database.migrateIfRenamed at migration
  split at migration
  · cases migration
    exact Carries.refl db.jobs
  · split at migration
    · unfold Database.migrateWorkerIdentity at migration
      split at migration
      · simp at migration
      · split at migration
        · simp at migration
        · split at migration
          · simp at migration
          · split at migration
            · simp only [pure_eq_ok] at migration
              subst migration
              intro next member
              obtain ⟨source, sourceMem, rfl⟩ := List.mem_map.mp member
              refine ⟨source, sourceMem, ?_⟩
              split
              · exact ⟨rfl, rfl, id, fun _ live terminal => absurd terminal (by simp [live])⟩
              · exact Flagged.refl source
            · simp at migration
    · cases migration
      exact Carries.refl db.jobs

/-- A body whose success carries the table carries it. -/
theorem answering_carries {α : Type} {wrap : α → Answer}
    {body : Database → Except Failure (α × Database)}
    (carries : ∀ answer next, body db = .ok (answer, next) → Carries db.jobs next.jobs) :
    Carries db.jobs (answering wrap body db).2.jobs :=
  answering_induction (Carries.refl db.jobs) carries

/-- Only creations add jobs, and only the mark sets a flag. -/
theorem carries_run {operation : Operation} (creation : ∀ payload, operation ≠ .create payload)
    (mark : ∀ jobId, operation ≠ .markCompletionProcessed jobId) :
    Carries db.jobs (operation.run env config now db).2.jobs := by
  cases operation with
  | create payload => exact absurd rfl (creation payload)
  | markCompletionProcessed jobId => exact absurd rfl (mark jobId)
  | get jobId =>
      refine answering_carries fun answer next done => ?_
      obtain ⟨_, _, _, rfl⟩ := get_eq_ok.mp done
      exact carries_recover db
  | latest typeName =>
      simp only [Operation.run, Database.latest]
      split
      · exact Carries.refl db.jobs
      · dsimp only [Database.recoveredRows]
        split <;> exact carries_recover db
  | latestForIncident typeName incidentId status =>
      simp only [Operation.run, Database.latestForIncident]
      split
      · exact Carries.refl db.jobs
      · dsimp only [Database.recoveredRows]
        split <;> exact carries_recover db
  | activeForIncident typeName incidentId =>
      refine answering_carries fun answer next done => ?_
      simp only [Database.activeForIncident, bind_eq_ok, Database.recoveredRows] at done
      obtain ⟨_, _, done⟩ := done
      split at done
      · simp only [pure_eq_ok, Prod.mk.injEq] at done
        obtain ⟨_, rfl⟩ := done
        exact carries_recover db
      · simp only [bind_eq_ok, pure_eq_ok, Prod.mk.injEq] at done
        obtain ⟨_, _, _, rfl⟩ := done
        exact carries_recover db
  | cancel jobId => exact answering_carries fun answer next done => carries_cancel done
  | claim workerId supportedTypes shutdownAfterCompletion settle =>
      exact answering_carries fun answer next done => carries_claim done
  | pendingCompletions failuresOnly =>
      refine answering_carries fun answer next done => ?_
      simp only [Database.pendingCompletions, bind_eq_ok, pure_eq_ok, Prod.mk.injEq] at done
      obtain ⟨_, _, _, rfl⟩ := done
      exact carries_recover db
  | authorizeJobTransfer jobId workerId attempt permitted =>
      refine answering_carries fun answer next done => ?_
      rw [(authorizeJobTransfer_eq_ok done).jobs]
      exact carries_recover db
  | heartbeat jobId workerId attempt progress =>
      refine answering_carries fun answer next done => ?_
      obtain ⟨heartbeat, _, _, renewed⟩ := heartbeat_eq_ok done
      exact carries_renew renewed
  | complete jobId payload =>
      refine answering_carries fun answer next done => ?_
      obtain ⟨completion, _, _, _, finished⟩ := complete_eq_ok done
      exact carries_finish finished
  | wakeReadyJobTypes batchWindowSeconds jobTypes createdAfter createdBefore =>
      refine answering_carries fun answer next done => ?_
      unfold Database.wakeReadyJobTypes at done
      split at done
      · contradiction
      · split at done
        · cases done
          exact Carries.refl db.jobs
        · cases done
          exact carries_recover db
  | registerWorker payload previousWorkerId =>
      refine answering_carries fun answer next done => ?_
      obtain ⟨registration, _, registered⟩ := bind_eq_ok.mp done
      exact carries_registerWorker registered
  | reportWorkerRuntimes workerId runtimes host =>
      exact answering_carries fun answer next done =>
        Carries.of_eq (workersOnly_reportWorkerRuntimes done).jobs
  | markWorkerWaking workerId timeoutSeconds trigger =>
      exact answering_carries fun answer next done =>
        Carries.of_eq (workersOnly_markWorkerWaking done).jobs
  | reportWorkerPower workerId started detail =>
      exact answering_carries fun answer next done =>
        Carries.of_eq (workersOnly_reportWorkerPower done).jobs
  | settleUnansweredWakes maxAttempts =>
      exact Carries.of_eq (workersOnly_settleUnansweredWakes maxAttempts db).jobs
  | recordWakeFailure workerId error trigger => exact Carries.refl db.jobs
  | createPairing payload pairingId pollingSecret verificationCode =>
      refine answering_carries fun answer next done => ?_
      obtain ⟨registration, _, created⟩ := bind_eq_ok.mp done
      exact Carries.of_eq (pairingsOnly_createPairing created).jobs
  | listPairings => exact Carries.refl db.jobs
  | approvePairing pairingId =>
      exact answering_carries fun answer next done =>
        Carries.of_eq (pairingsOnly_approvePairing done).jobs
  | rejectPairing pairingId =>
      exact answering_carries fun answer next done =>
        Carries.of_eq (pairingsOnly_rejectPairing done).jobs
  | pollPairing pairingId pollingSecret workerToken =>
      exact answering_carries fun answer next done =>
        Carries.of_eq (pairingsOnly_pollPairing done).jobs

/-- A creation carries the table or appends a job to it after recovery. -/
theorem carries_create (env : Environment) (config : Config) (now : Int)
    (payload : CreatePayload) :
    let created := ((Operation.create payload).run env config now db).2
    Carries db.jobs created.jobs ∨ ∃ job : NewJob, created.jobs.rows =
      (db.recover env config now).jobs.rows ++ [job.row now] := by
  refine answering_induction (motive := fun next => Carries db.jobs next.jobs ∨ ∃ job : NewJob,
    next.jobs.rows = (db.recover env config now).jobs.rows ++ [job.row now])
    (Or.inl (Carries.refl db.jobs)) fun answer next done => ?_
  obtain ⟨job, _, enqueued⟩ := create_eq_ok done
  rcases enqueue_eq_ok enqueued with ⟨_, _, _, _, rfl⟩ | ⟨_, _, rows, _⟩
  · exact Or.inl (carries_recover db)
  · exact Or.inr ⟨job, rows⟩

/-! ## Completions that wait -/

/-- The call ended the job: `complete` met the running job of a type whose results
Tsunade records, or the job is of a type that Tsunade settles however it ends. -/
def Ends (env : Environment) (config : Config) (jobId : Text) (db : Database) (call : Call) :
    Prop :=
  ∃ row ∈ db.jobs, ∃ next ∈ (call.operation.run env config call.now db).2.jobs,
    row.jobId = jobId ∧ next.jobId = jobId ∧ row.status.terminal = false ∧
      next.status.terminal = true ∧
      (row.type.settledByTsunade = true ∨
        (∃ payload, call.operation = .complete jobId payload) ∧
          (row.recovered config call.now).status = .running ∧
          row.type.completionProcessed = true)

/-- The job ended in the run and was not marked processed since. -/
def Awaits (env : Environment) (config : Config) (calls : List Call) (jobId : Text) : Prop :=
  ∃ earlier call later, calls = earlier ++ call :: later ∧
    Ends env config jobId (execute env config earlier Database.empty) call ∧
    ∀ other ∈ later, other.operation ≠ .markCompletionProcessed jobId

/-- The job is stored with its end and with `completion_processed=0`. -/
def Database.Pending (db : Database) (jobId : Text) : Prop :=
  ∃ row ∈ db.jobs, row.jobId = jobId ∧ row.status.terminal = true ∧
    row.completionProcessed = false

/-- No job with `completion_processed=0` is past the retention. -/
def Spares (env : Environment) (config : Config) (now : Int) (db : Database) : Prop :=
  ∀ row ∈ db.jobs, row.completionProcessed = false → expiredRow env config now row = false

/-- A job whose completion is marked processed. -/
def JobRow.recorded (row : JobRow) : JobRow :=
  { row with completionProcessed := true }

theorem rows_markCompletionProcessed (jobId : Text) (db : Database) :
    (db.markCompletionProcessed jobId).jobs.rows =
      db.jobs.rows.map fun row => if row.jobId = jobId then row.recorded else row := rfl

theorem recovered_of_terminal {row : JobRow} (terminal : row.status.terminal = true) :
    row.recovered config now = row := by
  unfold JobRow.recovered
  rw [if_neg]
  intro live
  rw [not_terminal_of_recoverable live] at terminal
  contradiction

/-- Recovery keeps a completion that it spares. -/
theorem mem_recover_of_terminal {row : JobRow} (member : row ∈ db.jobs)
    (terminal : row.status.terminal = true) (spared : expiredRow env config now row = false) :
    row ∈ (db.recover env config now).jobs :=
  mem_recover.mpr ⟨⟨row, member, recovered_of_terminal terminal⟩, spared⟩

/-- A call that spares the completions and does not mark this one leaves it
waiting. -/
theorem pending_next (pending : db.Pending jobId) (spares : Spares env config call.now db)
    (unmarked : call.operation ≠ .markCompletionProcessed jobId) :
    (call.operation.run env config call.now db).2.Pending jobId := by
  obtain ⟨row, member, rfl, terminal, waits⟩ := pending
  have spared := spares row member waits
  obtain ⟨now, operation⟩ := call
  by_cases creation : ∃ payload, operation = .create payload
  · obtain ⟨payload, rfl⟩ := creation
    have kept := mem_recover_of_terminal member terminal spared
    refine answering_induction (motive := fun next => next.Pending row.jobId)
      ⟨row, member, rfl, terminal, waits⟩ fun answer next done => ?_
    obtain ⟨job, _, enqueued⟩ := create_eq_ok done
    rcases enqueue_eq_ok enqueued with ⟨_, _, _, _, rfl⟩ | ⟨_, _, rows, _⟩
    · exact ⟨row, kept, rfl, terminal, waits⟩
    · refine ⟨row, ?_, rfl, terminal, waits⟩
      rw [Table.mem_def, rows]
      exact List.mem_append_left _ kept
  · push Not at creation
    by_cases marking : ∃ other, operation = .markCompletionProcessed other
    · obtain ⟨other, rfl⟩ := marking
      have different : row.jobId ≠ other := fun same => unmarked (same ▸ rfl)
      refine ⟨row, ?_, rfl, terminal, waits⟩
      simp only [Operation.run, Table.mem_def, rows_markCompletionProcessed]
      exact List.mem_map.mpr ⟨row, member, if_neg different⟩
    · push Not at marking
      have path : Path env config now db.jobs (operation.run env config now db).2.jobs :=
        run_path creation
      rcases path.target member with
        ⟨next, nextMem, moves⟩ | ⟨next, moves, expired⟩
      · obtain ⟨source, sourceMem, flagged⟩ := carries_run creation marking next nextMem
        have same : source = row := db.jobs.key_injective sourceMem member
          (flagged.jobId.symm.trans moves.sameRequest.jobId)
        subst same
        refine ⟨next, nextMem, moves.sameRequest.jobId, ?_, flagged.waits waits⟩
        rw [(moves.sameOutcome terminal).status]
        exact terminal
      · rw [expiredRow_congr (moves.sameOutcome terminal), spared] at expired
        contradiction

/-- A terminal job after a call that marks nothing comes from a job before it. -/
theorem exists_flagged {operation : Operation}
    (unmarked : ∀ other, operation ≠ .markCompletionProcessed other) {next : JobRow}
    (member : next ∈ (operation.run env config now db).2.jobs)
    (terminal : next.status.terminal = true) : ∃ row ∈ db.jobs, Flagged row next := by
  by_cases creation : ∃ payload, operation = .create payload
  · obtain ⟨payload, rfl⟩ := creation
    rcases carries_create env config now payload with carries | ⟨job, rows⟩
    · exact carries next member
    · rw [Table.mem_def, rows, List.mem_append, List.mem_singleton] at member
      rcases member with old | rfl
      · exact carries_recover db next old
      · contradiction
  · push Not at creation
    exact carries_run creation unmarked next member

/-- A completion that is stored waits for its processing. -/
theorem waits_of_complete {payload : CompletionPayload} {row next : JobRow} (member : row ∈ db.jobs)
    (nextMem : next ∈ ((Operation.complete row.jobId payload).run env config now db).2.jobs)
    (sameId : next.jobId = row.jobId) (terminal : next.status.terminal = true)
    (running : (row.recovered config now).status = .running)
    (recorded : row.type.completionProcessed = true) : next.completionProcessed = false := by
  rcases commit_cases (Database.complete env config now row.jobId payload) db with
    ⟨answer, after, done, outcome⟩ | ⟨failure, _, outcome⟩
  · simp only [Operation.run, answering, outcome] at nextMem
    obtain ⟨completion, _, _, _, finished⟩ := complete_eq_ok done
    obtain ⟨found, stored, read, _, ended | ⟨_, _, _, _, rfl⟩⟩ := finish_eq_ok finished
    all_goals
      obtain ⟨foundMem, foundId⟩ := Table.find?_eq_some_iff.mp read
      obtain ⟨⟨source, sourceMem, rfl⟩, _⟩ := mem_recover.mp foundMem
      have same : source = row := db.jobs.key_injective sourceMem member
        ((recovered_jobId source).symm.trans foundId)
      subst same
    · simp [running] at ended
    · have written : next ∈ (db.recover env config now).jobs.modify source.jobId
          (JobRow.completed now stored) (JobRow.jobId_completed now stored) := nextMem
      rcases Table.mem_modify.mp written with ⟨other, otherMem, otherId, rfl⟩ | ⟨_, different⟩
      · rw [(db.recover env config now).jobs.key_injective otherMem foundMem
          (otherId.trans foundId.symm)]
        have type : (source.recovered config now).type = source.type :=
          (flagged_recovered source).type
        simp [JobRow.completed, type, recorded]
      · exact absurd sameId different
  · simp only [Operation.run, answering, outcome] at nextMem
    rw [db.jobs.key_injective nextMem member sameId] at terminal
    rw [recovered_of_terminal terminal] at running
    simp [running, JobStatus.terminal] at terminal

/-- The end of such a job clears its flag. -/
theorem pending_of_ends (ends : Ends env config jobId db call) :
    (call.operation.run env config call.now db).2.Pending jobId := by
  obtain ⟨row, member, next, nextMem, rfl, sameId, live, terminal, waits⟩ := ends
  refine ⟨next, nextMem, sameId, terminal, ?_⟩
  obtain ⟨now, operation⟩ := call
  rcases waits with settled | ⟨⟨payload, rfl⟩, running, recorded⟩
  · by_cases marking : ∃ other, operation = .markCompletionProcessed other
    · obtain ⟨other, rfl⟩ := marking
      simp only [Operation.run, Table.mem_def, rows_markCompletionProcessed] at nextMem
      obtain ⟨source, sourceMem, rfl⟩ := List.mem_map.mp nextMem
      have kept : (if source.jobId = other then source.recorded else source).status =
          source.status ∧
          (if source.jobId = other then source.recorded else source).jobId = source.jobId := by
        split <;> exact ⟨rfl, rfl⟩
      rw [kept.2] at sameId
      rw [kept.1, db.jobs.key_injective sourceMem member sameId, live] at terminal
      contradiction
    · push Not at marking
      obtain ⟨source, sourceMem, flagged⟩ := exists_flagged marking nextMem terminal
      have same : source = row := db.jobs.key_injective sourceMem member
        (flagged.jobId.symm.trans sameId)
      subst same
      exact flagged.ends settled live terminal
  · exact waits_of_complete member nextMem sameId terminal running recorded

theorem execute_concat (env : Environment) (config : Config) (calls : List Call) (call : Call)
    (db : Database) :
    execute env config (calls ++ [call]) db =
      (call.operation.run env config call.now (execute env config calls db)).2 := by
  simp [execute, List.foldl_append]

/-- In a run whose calls spare the completions, a completion waits until it is
marked. -/
theorem pending_of_awaits (calls : List Call)
    (spares : ∀ earlier call later, calls = earlier ++ call :: later →
      Spares env config call.now (execute env config earlier Database.empty))
    (awaits : Awaits env config calls jobId) :
    (execute env config calls Database.empty).Pending jobId := by
  obtain ⟨earlier, call, later, rfl, ends, unmarked⟩ := awaits
  induction later using List.reverseRecOn with
  | nil =>
      rw [execute_concat]
      exact pending_of_ends ends
  | append_singleton later last ih =>
      rw [← List.cons_append, ← List.append_assoc, execute_concat]
      apply pending_next
      · apply ih
        · intro first other rest split
          exact spares first other (rest ++ [last]) (by
            rw [← List.cons_append, ← List.append_assoc, split, List.append_assoc, List.cons_append])
        · exact fun other member => unmarked other (List.mem_append_left _ member)
      · exact spares (earlier ++ call :: later) last [] (by simp)
      · exact unmarked last (by simp)

/-! ## Reading the completions -/

/-- `SELECT … WHERE completion_processed=0` without a limit, in its order. -/
def pendingRows (failuresOnly : Bool) (rows : List JobRow) : List JobRow :=
  (rows.filter fun row => !row.completionProcessed && (!failuresOnly || row.status = .failed ||
    row.status = .timeout || row.status = .cancelled)).insertionSort
      fun first second => finishedOrder first second

theorem mapM_document (rows : List JobRow) (shown : ∀ row ∈ rows, Decodable row) :
    ∃ documents, rows.mapM (fun row => document row false) = .ok documents ∧
      documents.map JobDocument.jobId = rows.map JobRow.jobId := by
  induction rows with
  | nil => exact ⟨[], rfl, rfl⟩
  | cons row rows ih =>
      obtain ⟨documents, read, same⟩ := ih fun other member =>
        shown other (List.mem_cons_of_mem row member)
      obtain ⟨answer, first⟩ := shown row List.mem_cons_self
      refine ⟨answer :: documents, ?_, ?_⟩
      · simp only [List.mapM_cons, bind_eq_ok, pure_eq_ok]
        exact ⟨answer, first, documents, read, rfl⟩
      · simp only [document, bind_eq_ok, pure_eq_ok] at first
        obtain ⟨_, _, _, _, _, _, _, _, rfl⟩ := first
        simp [same]

/-- `pending_completions` answers with the first sixteen. -/
theorem pendingCompletions_eq (env : Environment) (now : Int)
    (valid : TableInvariant config db.jobs) (failuresOnly : Bool) :
    ∃ documents, db.pendingCompletions env config now failuresOnly =
        .ok (documents, db.recover env config now) ∧
      documents.map JobDocument.jobId = ((pendingRows failuresOnly
        (db.recover env config now).jobs.rows).take 16).map JobRow.jobId := by
  have path : Path env config now db.jobs (db.recover env config now).jobs := recover_path db
  have recovered := valid.path path
  obtain ⟨documents, read, same⟩ := mapM_document ((pendingRows failuresOnly
      (db.recover env config now).jobs.rows).take 16) fun row member => by
    have sorted := List.mem_of_mem_take member
    rw [pendingRows, List.mem_insertionSort] at sorted
    exact recovered.shown row (List.mem_filter.mp sorted).1
  refine ⟨documents, ?_, same⟩
  simp only [Database.pendingCompletions, bind_eq_ok, pure_eq_ok]
  exact ⟨documents, read, rfl⟩

/-- The database after marking completions. -/
def Database.marked (marks : List Text) (db : Database) : Database :=
  marks.foldl (fun db jobId => db.markCompletionProcessed jobId) db

theorem rows_marked (marks : List Text) (db : Database) :
    (db.marked marks).jobs.rows =
      db.jobs.rows.map fun row => if row.jobId ∈ marks then row.recorded else row := by
  induction marks generalizing db with
  | nil => simp [Database.marked]
  | cons jobId marks ih =>
      have rest : (db.marked (jobId :: marks)).jobs.rows =
          ((db.markCompletionProcessed jobId).marked marks).jobs.rows := rfl
      rw [rest, ih, rows_markCompletionProcessed, List.map_map]
      refine List.map_congr_left fun row _ => ?_
      by_cases first : row.jobId = jobId
      · by_cases again : jobId ∈ marks <;> simp [first, again, JobRow.recorded]
      · simp [first]

/-- A job that recovery left alive is not ended by a second recovery at the same
time. -/
theorem live_of_dueTransition {row : JobRow} {change : Transition}
    (live : (row.recovered config now).status.recoverable = true)
    (due : dueTransition config now (row.recovered config now) = some change) :
    change.status.terminal = false := by
  unfold JobRow.recovered at live due
  split at due
  · rename_i recoverable
    rw [if_pos recoverable] at live
    cases first : dueTransition config now row with
    | none =>
        simp only [first] at due
        contradiction
    | some earlier =>
        simp only [first] at due live
        unfold dueTransition at first
        split at first
        · cases first
          contradiction
        · rename_i running
          split at first
          · split at first
            · cases first
              contradiction
            · -- a job sent back to the queue can only start to wait for a worker
              cases first
              unfold dueTransition at due
              rw [if_neg (by exact running), if_neg (by simp [JobRow.transition, retryTransition])]
                at due
              split at due
              · cases due
                rfl
              · contradiction
          · split at first
            · cases first
              unfold dueTransition at due
              rw [if_neg (by exact running), if_neg (by simp [JobRow.transition, waitingTransition]),
                if_neg (by simp [JobRow.transition, waitingTransition])] at due
              contradiction
            · contradiction
  · rename_i settled
    rw [if_neg settled] at live
    exact absurd live settled

/-- Recovery keeps a flag that is set when it does not end the job. -/
theorem recovered_processed {row : JobRow} (processed : row.completionProcessed = true)
    (stays : row.status.recoverable = true → ∀ change,
      dueTransition config now row = some change → change.status.terminal = false) :
    (row.recovered config now).completionProcessed = true := by
  unfold JobRow.recovered
  split
  · rename_i live
    split
    · rename_i change due
      simp [JobRow.transition, stays live change due, processed]
    · exact processed
  · exact processed

/-- A sequence of reads and marks at one time ends with a read of the completion;
the marks are of other jobs. -/
def Exposed (env : Environment) (config : Config) (now : Int) (db : Database) (jobId : Text) :
    Prop :=
  ∃ marks : List Text, jobId ∉ marks ∧
    ∃ documents, ((Operation.pendingCompletions false).run env config now
        (execute env config (⟨now, .pendingCompletions false⟩ ::
          marks.map fun other => ⟨now, .markCompletionProcessed other⟩) db)).1 =
      .ok (.jobs documents) ∧ ∃ document ∈ documents, document.jobId = jobId

/-- Once the other jobs are marked, only the completion that waits has a cleared
flag. -/
theorem waiting_of_marked {row : JobRow} (member : row ∈ db.jobs)
    (terminal : row.status.terminal = true) (waits : row.completionProcessed = false)
    (spared : expiredRow env config now row = false) {marks : List Text}
    (all : ∀ other ∈ (db.recover env config now).jobs, other.jobId ∈ marks ↔
      other.jobId ≠ row.jobId) {next : JobRow}
    (nextMem : next ∈ (((db.recover env config now).marked marks).recover env config now).jobs) :
    next = row ∨ next.jobId ≠ row.jobId ∧ next.completionProcessed = true := by
  obtain ⟨⟨source, sourceMem, rfl⟩, _⟩ := mem_recover.mp nextMem
  rw [Table.mem_def, rows_marked] at sourceMem
  obtain ⟨first, firstMem, rfl⟩ := List.mem_map.mp sourceMem
  by_cases same : first.jobId = row.jobId
  · left
    have kept := mem_recover_of_terminal member terminal spared
    have equal : first = row := (db.recover env config now).jobs.key_injective firstMem kept same
    subst equal
    rw [if_neg fun marked => (all first firstMem).mp marked rfl]
    exact recovered_of_terminal terminal
  · right
    rw [if_pos ((all first firstMem).mpr same)]
    have sameId : (first.recorded.recovered config now).jobId = first.jobId :=
      recovered_jobId first.recorded
    refine ⟨fun equal => same (sameId.symm.trans equal), ?_⟩
    apply recovered_processed rfl
    intro live change due
    obtain ⟨⟨origin, _, rfl⟩, _⟩ := mem_recover.mp firstMem
    exact live_of_dueTransition live due

theorem pendingRows_marked {row : JobRow} (member : row ∈ db.jobs)
    (terminal : row.status.terminal = true) (waits : row.completionProcessed = false)
    (spared : expiredRow env config now row = false) {marks : List Text}
    (all : ∀ other ∈ (db.recover env config now).jobs, other.jobId ∈ marks ↔
      other.jobId ≠ row.jobId) :
    pendingRows false (((db.recover env config now).marked marks).recover env config now).jobs.rows =
      [row] := by
  have kept := mem_recover_of_terminal member terminal spared
  have unmarked : row ∈ ((db.recover env config now).marked marks).jobs := by
    rw [Table.mem_def, rows_marked]
    exact List.mem_map.mpr ⟨row, kept, if_neg fun marked => (all row kept).mp marked rfl⟩
  have still := mem_recover_of_terminal unmarked terminal spared
  have found := Table.find?_eq_some_iff.mpr ⟨still, rfl⟩
  have only : (((db.recover env config now).marked marks).recover env config now).jobs.rows.filter
      (fun row => !row.completionProcessed && (!false || row.status = .failed ||
        row.status = .timeout || row.status = .cancelled)) = [row] := by
    rw [← Option.toList_some, ← found, ← Table.filter_key]
    refine List.filter_congr fun next nextMem => ?_
    rcases waiting_of_marked member terminal waits spared all nextMem with rfl | ⟨other, processed⟩
    · simp [waits]
    · simp [other, processed]
  unfold pendingRows
  rw [only]
  rfl

theorem execute_marks (env : Environment) (config : Config) (now : Int) (marks : List Text)
    (db : Database) :
    execute env config (marks.map fun other => ⟨now, .markCompletionProcessed other⟩) db =
      db.marked marks := by
  rw [execute, List.foldl_map]
  rfl

theorem TableInvariant.marked (env : Environment) (now : Int)
    (valid : TableInvariant config db.jobs) (marks : List Text) :
    TableInvariant config (db.marked marks).jobs := by
  induction marks generalizing db with
  | nil => exact valid
  | cons jobId marks ih =>
      have path : Path env config now db.jobs (db.markCompletionProcessed jobId).jobs :=
        markCompletionProcessed_path jobId
      exact ih (valid.path path)

/-- A waiting completion can be read as long as nothing waiting is past the
retention. -/
theorem exposed_of_pending (valid : TableInvariant config db.jobs) (pending : db.Pending jobId)
    (spares : Spares env config now db) : Exposed env config now db jobId := by
  obtain ⟨row, member, rfl, terminal, waits⟩ := pending
  have spared := spares row member waits
  let marks := ((db.recover env config now).jobs.rows.map JobRow.jobId).filter
    fun other => other ≠ row.jobId
  have all : ∀ other ∈ (db.recover env config now).jobs, other.jobId ∈ marks ↔
      other.jobId ≠ row.jobId := by
    intro other otherMem
    have present : other.jobId ∈ (db.recover env config now).jobs.rows.map JobRow.jobId :=
      List.mem_map_of_mem otherMem
    simp [marks, List.mem_filter, present]
  obtain ⟨first, firstRead, _⟩ := pendingCompletions_eq env now valid false
  have path : Path env config now db.jobs (db.recover env config now).jobs := recover_path db
  obtain ⟨documents, read, ids⟩ := pendingCompletions_eq env now
    ((valid.path path).marked env now marks) false
  rw [pendingRows_marked member terminal waits spared all] at ids
  obtain ⟨answer, answerMem, sameId⟩ : ∃ answer ∈ documents, answer.jobId = row.jobId := by
    have listed : row.jobId ∈ documents.map JobDocument.jobId := by
      rw [ids]
      exact List.mem_singleton_self _
    simpa using listed
  refine ⟨marks, by simp [marks], documents, ?_, answer, answerMem, sameId⟩
  have reached : execute env config (⟨now, .pendingCompletions false⟩ ::
      marks.map fun other => ⟨now, .markCompletionProcessed other⟩) db =
        (db.recover env config now).marked marks := by
    rw [← execute_marks env config now marks, execute, List.foldl_cons]
    simp only [Operation.run, answering, commit_of_ok firstRead]
    rfl
  rw [reached]
  simp [Operation.run, answering, commit_of_ok read, Except.map]

def inferenceJob : Text := "00000000-0000-4000-8000-000000000003".toList

/-- A diagnosis that no worker takes. -/
def inferenceRequest : CreatePayload where
  protocolVersion := 1
  jobId := inferenceJob
  type := "ai.inference".toList
  createdAt := .aware healthTime 0
  parameters := .ofList [
    ("evidence".toList, .array (.ofList [.object (.ofList [
      ("content".toList, .string "The service does not answer.".toList),
      ("source".toList, .string "http".toList)])])),
    ("incident_id".toList, .string "00000000-0000-4000-8000-0000000000aa".toList),
    ("max_output_tokens".toList, .number (.ofNat 8192)),
    ("question".toList, .string "Why?".toList),
    ("task".toList, .string "technical.diagnosis".toList)]
  timeout := 900

/-- The diagnosis is requested, and two days later it has timed out. -/
def inferenceCalls : List Call :=
  [⟨healthTime, .create inferenceRequest⟩, ⟨healthTime + 2 * day, .pendingCompletions false⟩]

/-- Forty days after its creation the completion is read again. -/
def lateCall : Call :=
  ⟨healthTime + 40 * day, .pendingCompletions false⟩

/-- The diagnosis after its creation, after its timeout and after the purge. -/
theorem inference_tables :
    let created := execute winterEnvironment Config.default
      [⟨healthTime, .create inferenceRequest⟩] Database.empty
    let ended := execute winterEnvironment Config.default inferenceCalls Database.empty
    let purged := execute winterEnvironment Config.default (inferenceCalls ++ [lateCall])
      Database.empty
    (∀ row ∈ created.jobs.rows, row.jobId = inferenceJob ∧ row.status.terminal = false ∧
      row.type.settledByTsunade = true ∧ ∃ next ∈ ended.jobs.rows,
        next.jobId = inferenceJob ∧ next.status.terminal = true) ∧
      created.jobs.rows ≠ [] ∧ purged.jobs.rows = [] := by
  decide +kernel

theorem inference_ends :
    Ends winterEnvironment Config.default inferenceJob
      (execute winterEnvironment Config.default [⟨healthTime, .create inferenceRequest⟩]
        Database.empty) ⟨healthTime + 2 * day, .pendingCompletions false⟩ := by
  obtain ⟨created, some, _⟩ := inference_tables
  obtain ⟨row, member⟩ := List.exists_mem_of_ne_nil _ some
  obtain ⟨sameId, live, settled, next, nextMem, nextId, terminal⟩ := created row member
  have concat := execute_concat winterEnvironment Config.default
    [⟨healthTime, .create inferenceRequest⟩] ⟨healthTime + 2 * day, .pendingCompletions false⟩
    Database.empty
  rw [inferenceCalls, ← List.singleton_append, concat, ← Table.mem_def] at nextMem
  exact ⟨row, member, next, nextMem, sameId, nextId, live, terminal, Or.inl settled⟩

end OhanaAgent.Jobs
