import OhanaAgent.Jobs.Lifecycle

/-!
# What each operation does

One specification lemma for each body: the answers it gives and the database it
leaves.  At the end, every call leaves the job table on a path of changes, or it
is a creation that appends one new row after such a path.
-/

namespace OhanaAgent.Jobs

open OhanaAgent.Encoding.Json
open OhanaAgent.Store
open OhanaAgent.Time

variable {env : Environment} {config : Config} {now : Int} {db after : Database}

theorem selectRequired_eq_ok {jobId : Text} {row : JobRow} :
    db.selectRequired jobId = .ok row ↔ db.jobs.find? jobId = some row := by
  unfold Database.selectRequired Database.select
  cases db.jobs.find? jobId <;> simp

theorem requireAttemptOwner_eq_ok {row : JobRow} {workerId : Text} {attempt : Nat} {done : Unit} :
    requireAttemptOwner row workerId attempt = .ok done ↔
      row.workerId = some workerId ∧ row.attempt = attempt := by
  unfold requireAttemptOwner
  split
  · rename_i other
    constructor
    · intro equal
      contradiction
    · rintro ⟨owner, same⟩
      rcases other with other | other
      · exact absurd owner other
      · exact absurd same other
  · rename_i owner
    push Not at owner
    exact ⟨fun _ => owner, fun _ => rfl⟩

theorem requireOwner_eq_ok {row : JobRow} {workerId : Text} {attempt : Nat} {done : Unit} :
    requireOwner row workerId attempt = .ok done ↔
      row.status = .running ∧ row.workerId = some workerId ∧ row.attempt = attempt := by
  unfold requireOwner
  split
  · rename_i other
    constructor
    · intro equal
      contradiction
    · rintro ⟨running, _⟩
      exact absurd running other
  · rename_i running
    rw [requireAttemptOwner_eq_ok]
    exact ⟨fun owner => ⟨not_not.mp running, owner⟩, fun owner => owner.2⟩

/-! ## Frames -/

/-- The jobs and their journal are as they were. -/
structure SameJobs (before after : Database) : Prop where
  jobs : after.jobs = before.jobs
  events : after.events = before.events
  nextEvent : after.nextEvent = before.nextEvent

/-- The pairing requests and the credentials are as they were. -/
structure SamePairings (before after : Database) : Prop where
  pairings : after.pairings = before.pairings
  credentials : after.credentials = before.credentials

/-- Only the workers and their power journal may differ. -/
structure WorkersOnly (before after : Database) : Prop extends
  SameJobs before after, SamePairings before after

/-- Only the pairing requests and the credentials may differ. -/
structure PairingsOnly (before after : Database) : Prop extends SameJobs before after where
  workers : after.workers = before.workers

theorem SameJobs.refl (db : Database) : SameJobs db db :=
  ⟨rfl, rfl, rfl⟩

theorem SameJobs.trans {first second third : Database} (left : SameJobs first second)
    (right : SameJobs second third) : SameJobs first third :=
  ⟨right.jobs.trans left.jobs, right.events.trans left.events,
    right.nextEvent.trans left.nextEvent⟩

theorem SamePairings.refl (db : Database) : SamePairings db db :=
  ⟨rfl, rfl⟩

theorem SamePairings.trans {first second third : Database} (left : SamePairings first second)
    (right : SamePairings second third) : SamePairings first third :=
  ⟨right.pairings.trans left.pairings, right.credentials.trans left.credentials⟩

theorem PairingsOnly.trans {first second third : Database} (left : PairingsOnly first second)
    (right : PairingsOnly second third) : PairingsOnly first third :=
  ⟨left.toSameJobs.trans right.toSameJobs, right.workers.trans left.workers⟩

theorem WorkersOnly.refl (db : Database) : WorkersOnly db db :=
  ⟨.refl db, .refl db⟩

theorem WorkersOnly.trans {first second third : Database} (left : WorkersOnly first second)
    (right : WorkersOnly second third) : WorkersOnly first third :=
  ⟨left.toSameJobs.trans right.toSameJobs, left.toSamePairings.trans right.toSamePairings⟩

@[simp]
theorem jobs_touchWorker (workerId : Text) (now : Int) :
    (db.touchWorker workerId now).jobs = db.jobs := rfl

theorem workersOnly_touchWorker (workerId : Text) (now : Int) (db : Database) :
    WorkersOnly db (db.touchWorker workerId now) :=
  ⟨⟨rfl, rfl, rfl⟩, ⟨rfl, rfl⟩⟩

theorem workersOnly_powerEvent (workerId : Text) (kind : PowerEventKind) (now : Int)
    (detail : Value) (db : Database) : WorkersOnly db (db.powerEvent workerId kind now detail) :=
  ⟨⟨rfl, rfl, rfl⟩, ⟨rfl, rfl⟩⟩

theorem workersOnly_recordWorkerOnline (workerId : Text) (requested now : Int) (expired : Bool)
    (db : Database) : WorkersOnly db (db.recordWorkerOnline workerId requested now expired) := by
  unfold Database.recordWorkerOnline
  split
  · exact .refl db
  · split
    · exact workersOnly_powerEvent _ _ _ _ db
    · exact .refl db

theorem workersOnly_idleShutdown (workerId : Text) (now : Int) (db : Database) :
    WorkersOnly db (db.idleShutdown workerId now).2 := by
  unfold Database.idleShutdown
  split
  · exact .refl db
  · split
    · split
      · exact .refl db
      · split
        · split
          · exact .refl db
          · exact workersOnly_powerEvent _ _ _ _ db
        · exact workersOnly_powerEvent _ _ _ _ db
    · exact .refl db

theorem workersOnly_settleUnansweredWake (maxAttempts : Nat) (row : WorkerRow) (db : Database) :
    WorkersOnly db (db.settleUnansweredWake config now maxAttempts row) := by
  unfold Database.settleUnansweredWake
  split
  · split
    · exact .refl db
    · dsimp only
      split
      · exact (workersOnly_powerEvent _ _ _ _ db).trans (workersOnly_powerEvent _ _ _ _ _)
      · exact workersOnly_powerEvent _ _ _ _ db
  · exact .refl db

theorem workersOnly_settleUnansweredWakes (maxAttempts : Nat) (db : Database) :
    WorkersOnly db (db.settleUnansweredWakes config now maxAttempts) := by
  unfold Database.settleUnansweredWakes
  generalize db.workers.rows.filter (fun row => row.wakeDeadlineAt.isSome) = rows
  induction rows generalizing db with
  | nil => exact .refl db
  | cons row rows ih => exact (workersOnly_settleUnansweredWake maxAttempts row db).trans (ih _)

theorem pairingsOnly_expirePairings (db : Database) : PairingsOnly db (db.expirePairings env now) :=
  ⟨⟨rfl, rfl, rfl⟩, rfl⟩

theorem pairingsOnly_updatePairing (pairingId : Text) (f : PairingRow → PairingRow)
    (keeps : ∀ row, (f row).pairingId = row.pairingId) (db : Database) :
    PairingsOnly db (db.updatePairing pairingId f keeps) :=
  ⟨⟨rfl, rfl, rfl⟩, rfl⟩

theorem find?_updateJob (jobId : Text) (f : JobRow → JobRow)
    (keeps : ∀ row, (f row).jobId = row.jobId) :
    (db.updateJob jobId f keeps).jobs.find? jobId = (db.jobs.find? jobId).map f := by
  rw [jobs_updateJob, Table.find?_modify_self]

@[simp]
theorem jobs_lease (workerId : Text) (row : JobRow) :
    (db.lease config now workerId row).jobs =
      db.jobs.modify row.jobId (JobRow.claimed config now workerId)
        (JobRow.jobId_claimed config now workerId) := rfl

theorem find?_lease (workerId : Text) (row : JobRow) :
    (db.lease config now workerId row).jobs.find? row.jobId =
      (db.jobs.find? row.jobId).map (JobRow.claimed config now workerId) :=
  find?_updateJob row.jobId (JobRow.claimed config now workerId)
    (JobRow.jobId_claimed config now workerId)

/-! ## Specifications -/

/-- `create` finds the job or appends it. -/
theorem enqueue_eq_ok {job : NewJob} {answer : JobDocument}
    (done : db.enqueue env config now job = .ok (answer, after)) :
    (∃ existing, (db.recover env config now).jobs.find? job.request.jobId = some existing ∧
      existing.requestSha256 = job.requestSha256 ∧ document existing false = .ok answer ∧
      after = db.recover env config now) ∨
    ((db.recover env config now).jobs.find? job.request.jobId = none ∧
      (activeRows (db.recover env config now).jobs.rows).length < config.maxActiveJobs ∧
      after.jobs.rows = (db.recover env config now).jobs.rows ++ [job.row now] ∧
      document (job.row now) false = .ok answer) := by
  unfold Database.enqueue Database.select at done
  dsimp only at done
  split at done
  · rename_i existing found
    split at done
    · simp at done
    · rename_i same
      simp only [bind_eq_ok, pure_eq_ok, Prod.mk.injEq] at done
      obtain ⟨_, shown, rfl, rfl⟩ := done
      exact Or.inl ⟨existing, found, not_not.mp same, shown, rfl⟩
  · rename_i absent
    split at done
    · simp at done
    · rename_i room
      split at done
      · simp at done
      · rename_i jobs inserted
        simp only [bind_eq_ok, pure_eq_ok, Prod.mk.injEq, selectRequired_eq_ok] at done
        obtain ⟨row, found, _, shown, rfl, rfl⟩ := done
        have rows := (Table.insert?_eq_some_iff.mp inserted).2
        have written : jobs.find? job.request.jobId = some (job.row now) := by
          rw [Table.find?_eq_some_iff, Table.mem_def, rows]
          exact ⟨List.mem_append_right _ List.mem_cons_self, rfl⟩
        have same : row = job.row now := Option.some.inj (found.symm.trans written)
        exact Or.inr ⟨absent, Nat.lt_of_not_le room, rows, same ▸ shown⟩

theorem create_eq_ok {payload : CreatePayload} {answer : JobDocument}
    (done : db.create env config now payload = .ok (answer, after)) :
    ∃ job, prepareCreate env now payload = .ok job ∧
      db.enqueue env config now job = .ok (answer, after) :=
  bind_eq_ok.mp done

theorem get_eq_ok {jobId : Text} {answer : JobDocument} :
    db.get env config now jobId = .ok (answer, after) ↔
      ∃ row, (db.recover env config now).jobs.find? jobId = some row ∧
        document row false = .ok answer ∧ db.recover env config now = after := by
  simp only [Database.get, bind_eq_ok, pure_eq_ok, Prod.mk.injEq, selectRequired_eq_ok]
  constructor
  · rintro ⟨row, found, _, shown, rfl, rfl⟩
    exact ⟨row, found, shown, rfl⟩
  · rintro ⟨row, found, shown, rfl⟩
    exact ⟨row, found, answer, shown, rfl, rfl⟩

theorem cancel_eq_ok {jobId : Text} {answer : JobDocument}
    (done : db.cancel env config now jobId = .ok (answer, after)) :
    after = db.recover env config now ∨
      ∃ row ∈ (db.recover env config now).jobs, row.status.terminal = false ∧
        after = (db.recover env config now).transition row (cancelTransition now) now := by
  simp only [Database.cancel, bind_eq_ok, selectRequired_eq_ok] at done
  obtain ⟨row, found, done⟩ := done
  split at done
  · simp only [bind_eq_ok, pure_eq_ok, Prod.mk.injEq] at done
    obtain ⟨_, _, _, rfl⟩ := done
    exact Or.inl rfl
  · split at done
    · simp at done
    · rename_i live
      simp only [bind_eq_ok, pure_eq_ok, Prod.mk.injEq] at done
      obtain ⟨_, _, _, _, _, rfl⟩ := done
      exact Or.inr ⟨row, (Table.find?_eq_some_iff.mp found).1, by simpa using live, rfl⟩

theorem mem_of_oldest {rows : List JobRow} {row : JobRow} (found : oldest rows = some row) :
    row ∈ rows :=
  (List.mem_insertionSort dispatchOrder).mp (List.mem_of_head? found)

theorem workerId_of_validateClaim {workerId : Text} {supportedTypes : List Text}
    {checked : JobClaim} (valid : JobClaim.validate workerId supportedTypes = .ok checked) :
    checked.workerId = workerId := by
  unfold JobClaim.validate at valid
  split at valid
  · split at valid
    · cases valid
      rfl
    · contradiction
  · contradiction

/-- A successful claim answers with no job, or leases the oldest compatible
one. -/
theorem claim_eq_ok {workerId : Text} {supportedTypes : List Text} {shutdown settle : Bool}
    {result : ClaimResult}
    (done : db.claim env config now workerId supportedTypes shutdown settle =
      .ok (result, after)) :
    (result.job = none ∧ (after = db ∨ WorkersOnly (db.recover env config now) after)) ∨
      ∃ row ∈ (db.recover env config now).jobs, row.status.claimable = true ∧
        after = (((db.recover env config now).touchWorker workerId now).lease config now
          workerId row) ∧
        ∃ answer, result.job = some answer ∧ answer.jobId = row.jobId ∧
          answer.attempt = row.attempt + 1 := by
  simp only [Database.claim, bind_eq_ok] at done
  obtain ⟨checked, valid, done⟩ := done
  have sameWorker : checked.workerId = workerId := workerId_of_validateClaim valid
  split at done
  · simp only [pure_eq_ok, Prod.mk.injEq] at done
    obtain ⟨rfl, rfl⟩ := done
    exact Or.inl ⟨rfl, Or.inl rfl⟩
  · rw [sameWorker] at done
    unfold Database.claimOldest at done
    dsimp only at done
    split at done
    · split at done
      · simp only [pure_eq_ok, Prod.mk.injEq] at done
        obtain ⟨rfl, rfl⟩ := done
        exact Or.inl ⟨rfl, Or.inr ((workersOnly_touchWorker workerId now _).trans
          (workersOnly_idleShutdown workerId now _))⟩
      · simp only [pure_eq_ok, Prod.mk.injEq] at done
        obtain ⟨rfl, rfl⟩ := done
        exact Or.inl ⟨rfl, Or.inr (workersOnly_touchWorker workerId now _)⟩
    · rename_i row chosen
      simp only [bind_eq_ok, pure_eq_ok, Prod.mk.injEq, selectRequired_eq_ok] at done
      obtain ⟨written, found, answer, shown, rfl, rfl⟩ := done
      obtain ⟨member, fits⟩ := List.mem_filter.mp (mem_of_oldest chosen)
      simp only [Bool.and_eq_true] at fits
      refine Or.inr ⟨row, member, fits.1, rfl, answer, rfl, ?_⟩
      have writtenRow : written = row.claimed config now workerId := by
        have stored : ((db.recover env config now).touchWorker workerId now).jobs.find?
            row.jobId = some row := Table.find?_eq_some_iff.mpr ⟨member, rfl⟩
        rw [find?_lease, stored] at found
        exact (Option.some.inj found).symm
      simp only [document, bind_eq_ok, pure_eq_ok] at shown
      obtain ⟨_, _, _, _, _, _, _, _, rfl⟩ := shown
      rw [writtenRow]
      exact ⟨rfl, rfl⟩

theorem jobId_renewed_heartbeat (config : Config) (now : Int) (heartbeat : JobHeartbeat)
    (row : JobRow) : (row.renewed config now heartbeat.progress).jobId = row.jobId := rfl

/-- What `heartbeat` leaves after its transaction renewed a lease. -/
def renewedDatabase (config : Config) (now : Int) (jobId : Text) (heartbeat : JobHeartbeat)
    (db : Database) : Database :=
  (db.touchWorker heartbeat.workerId now).updateJob jobId
    (JobRow.renewed config now heartbeat.progress)
    (jobId_renewed_heartbeat config now heartbeat)

/-- A successful heartbeat meets a cancelled or timed out attempt of the same
worker, or renews the lease of the running one. -/
theorem renew_eq_ok {jobId : Text} {heartbeat : JobHeartbeat} {answer : JobDocument}
    (done : db.renew env config now jobId heartbeat = .ok (answer, after)) :
    ∃ row, (db.recover env config now).jobs.find? jobId = some row ∧
      row.workerId = some heartbeat.workerId ∧ row.attempt = heartbeat.attempt ∧
      (((row.status = .cancelled ∨ row.status = .timeout) ∧
          after = db.recover env config now) ∨
        (row.status = .running ∧ Decodable (row.renewed config now heartbeat.progress) ∧
          after = renewedDatabase config now jobId heartbeat (db.recover env config now))) := by
  simp only [Database.renew, bind_eq_ok, selectRequired_eq_ok] at done
  obtain ⟨row, found, done⟩ := done
  split at done
  · rename_i ended
    simp only [bind_eq_ok, pure_eq_ok, Prod.mk.injEq, requireAttemptOwner_eq_ok] at done
    obtain ⟨_, ⟨owner, same⟩, _, _, _, rfl⟩ := done
    exact ⟨row, found, owner, same, Or.inl ⟨ended, rfl⟩⟩
  · simp only [bind_eq_ok, pure_eq_ok, Prod.mk.injEq, requireOwner_eq_ok,
      selectRequired_eq_ok] at done
    obtain ⟨_, ⟨running, owner, same⟩, written, read, answer, shown, _, rfl⟩ := done
    rw [find?_updateJob, jobs_touchWorker, found, Option.map_some, Option.some.injEq] at read
    exact ⟨row, found, owner, same, Or.inr ⟨running, ⟨answer, read ▸ shown⟩, rfl⟩⟩

theorem heartbeat_eq_ok {jobId workerId : Text} {attempt : Int} {progress : Option Value}
    {answer : JobDocument}
    (done : db.heartbeat env config now jobId workerId attempt progress = .ok (answer, after)) :
    ∃ heartbeat : JobHeartbeat, heartbeat.workerId = workerId ∧
      (heartbeat.attempt : Int) = attempt ∧
      db.renew env config now jobId heartbeat = .ok (answer, after) := by
  simp only [Database.heartbeat, bind_eq_ok] at done
  obtain ⟨heartbeat, valid, done⟩ := done
  unfold JobHeartbeat.validate at valid
  split at valid
  · split at valid
    · rename_i positive
      cases valid
      exact ⟨_, rfl, Int.toNat_of_nonneg (by omega), done⟩
    · contradiction
  · contradiction

theorem checkOutcome_sound {type : JobType} {outcome : Outcome} {stored : Completed}
    (checked : checkOutcome env type outcome = .ok stored) : stored.Sound := by
  cases outcome with
  | succeeded result =>
      simp only [checkOutcome, bind_eq_ok, pure_eq_ok] at checked
      obtain ⟨value, _, rfl⟩ := checked
      exact Or.inl ⟨rfl, rfl, rfl⟩
  | failed error =>
      cases checked
      exact Or.inr ⟨rfl, rfl, rfl, rfl⟩

/-- What `complete` leaves after its transaction stored an outcome. -/
def completedDatabase (now : Int) (jobId : Text) (completion : JobCompletion) (stored : Completed)
    (db : Database) : Database :=
  (db.updateJob jobId (JobRow.completed now stored) (JobRow.jobId_completed now stored)).event
    jobId (some .running) stored.status now ("completed by " ++ String.ofList completion.workerId)

/-- A successful completion repeats the stored outcome, or ends the attempt
that is running. -/
theorem finish_eq_ok {jobId : Text} {completion : JobCompletion} {answer : JobDocument}
    (done : db.finish env config now jobId completion = .ok (answer, after)) :
    ∃ row stored, (db.recover env config now).jobs.find? jobId = some row ∧
      checkOutcome env row.type completion.outcome = .ok stored ∧
      (((row.status = .succeeded ∨ row.status = .failed) ∧ sameCompletion row stored = true ∧
          after = db.recover env config now) ∨
        (row.status = .running ∧ row.workerId = some completion.workerId ∧
          row.attempt = completion.attempt ∧ Decodable (row.completed now stored) ∧
          after = completedDatabase now jobId completion stored (db.recover env config now))) := by
  simp only [Database.finish, bind_eq_ok, selectRequired_eq_ok] at done
  obtain ⟨row, found, stored, checked, done⟩ := done
  split at done
  · rename_i ended
    split at done
    · rename_i same
      simp only [bind_eq_ok, pure_eq_ok, Prod.mk.injEq] at done
      obtain ⟨_, _, _, rfl⟩ := done
      exact ⟨row, stored, found, checked, Or.inl ⟨ended, same, rfl⟩⟩
    · simp at done
  · simp only [bind_eq_ok, pure_eq_ok, Prod.mk.injEq, requireOwner_eq_ok,
      selectRequired_eq_ok, jobs_event] at done
    obtain ⟨_, ⟨running, owner, same⟩, written, read, answer, shown, _, rfl⟩ := done
    rw [find?_updateJob, found, Option.map_some, Option.some.injEq] at read
    exact ⟨row, stored, found, checked,
      Or.inr ⟨running, owner, same, ⟨answer, read ▸ shown⟩, rfl⟩⟩

theorem complete_eq_ok {jobId : Text} {payload : CompletionPayload} {answer : JobDocument}
    (done : db.complete env config now jobId payload = .ok (answer, after)) :
    ∃ completion : JobCompletion, completion.workerId = payload.workerId ∧
      (completion.attempt : Int) = payload.attempt ∧ payload.outcome = .ok completion.outcome ∧
      db.finish env config now jobId completion = .ok (answer, after) := by
  simp only [Database.complete, bind_eq_ok] at done
  obtain ⟨completion, valid, done⟩ := done
  unfold JobCompletion.validate at valid
  split at valid
  · split at valid
    · cases outcome : payload.outcome with
      | error failure =>
          rw [outcome] at valid
          contradiction
      | ok checked =>
          rw [outcome] at valid
          cases valid
          exact ⟨_, rfl, Int.toNat_of_nonneg (by omega), rfl, done⟩
    · contradiction
  · contradiction

theorem authorizeJobTransfer_eq_ok {jobId workerId : Text} {attempt : Nat}
    {permitted : List Text} {answer : JobDocument}
    (done : db.authorizeJobTransfer env config now jobId workerId attempt permitted =
      .ok (answer, after)) : WorkersOnly (db.recover env config now) after := by
  simp only [Database.authorizeJobTransfer, bind_eq_ok, selectRequired_eq_ok] at done
  obtain ⟨row, _, _, _, done⟩ := done
  split at done
  · simp only [bind_eq_ok, pure_eq_ok, Prod.mk.injEq] at done
    obtain ⟨_, _, _, rfl⟩ := done
    exact workersOnly_touchWorker workerId now _
  · simp at done

/-! ## Paths of the operations -/

theorem cancel_path {jobId : Text} {answer : JobDocument}
    (done : db.cancel env config now jobId = .ok (answer, after)) :
    Path env config now db.jobs after.jobs := by
  rcases cancel_eq_ok done with rfl | ⟨row, member, live, rfl⟩
  · exact recover_path db
  · rw [jobs_transition]
    exact (recover_path db).trans (Path.modify member (.cancel live) _)

theorem claim_path {workerId : Text} {supportedTypes : List Text} {shutdown settle : Bool}
    {result : ClaimResult}
    (done : db.claim env config now workerId supportedTypes shutdown settle =
      .ok (result, after)) : Path env config now db.jobs after.jobs := by
  rcases claim_eq_ok done with ⟨_, rfl | same⟩ | ⟨row, member, claimable, rfl, _⟩
  · exact .refl
  · rw [same.jobs]
    exact recover_path db
  · exact (recover_path db).trans (Path.modify member (.claim workerId claimable) fun _ => rfl)

theorem renew_path {jobId : Text} {heartbeat : JobHeartbeat} {answer : JobDocument}
    (done : db.renew env config now jobId heartbeat = .ok (answer, after)) :
    Path env config now db.jobs after.jobs := by
  obtain ⟨row, found, _, _, ⟨_, rfl⟩ | ⟨running, shown, rfl⟩⟩ := renew_eq_ok done
  · exact recover_path db
  · obtain ⟨member, rfl⟩ := Table.find?_eq_some_iff.mp found
    exact (recover_path db).trans
      (Path.modify member (.renew heartbeat.progress running shown) fun _ => rfl)

theorem finish_path {jobId : Text} {completion : JobCompletion} {answer : JobDocument}
    (done : db.finish env config now jobId completion = .ok (answer, after)) :
    Path env config now db.jobs after.jobs := by
  obtain ⟨row, stored, found, checked, ⟨_, _, rfl⟩ | ⟨running, _, _, shown, rfl⟩⟩ :=
    finish_eq_ok done
  · exact recover_path db
  · obtain ⟨member, rfl⟩ := Table.find?_eq_some_iff.mp found
    exact (recover_path db).trans
      (Path.modify member (.complete stored running (checkOutcome_sound checked) shown)
        fun _ => rfl)

theorem markCompletionProcessed_path (jobId : Text) :
    Path env config now db.jobs (db.markCompletionProcessed jobId).jobs := by
  refine .single (.moves
    (fun row => if row.jobId = jobId then { row with completionProcessed := true } else row) ?_ rfl)
  intro row _
  split
  · exact Or.inr .settle
  · exact Or.inl rfl

theorem migrateWorkerIdentity_path {previous workerId : Text}
    (done : db.migrateWorkerIdentity previous workerId = .ok after) :
    Path env config now db.jobs after.jobs := by
  unfold Database.migrateWorkerIdentity at done
  split at done
  · simp at done
  · split at done
    · simp at done
    · split at done
      · simp at done
      · split at done
        · simp only [pure_eq_ok] at done
          subst done
          refine .single (.moves (fun row =>
            if row.workerId = some previous then { row with workerId := some workerId }
            else row) ?_ rfl)
          intro row _
          split
          · rename_i owned
            exact Or.inr (.rename workerId (by simp [owned]))
          · exact Or.inl rfl
        · simp at done

theorem migrateIfRenamed_path {previous : Option Text} {workerId : Text}
    (done : db.migrateIfRenamed previous workerId = .ok after) :
    Path env config now db.jobs after.jobs := by
  unfold Database.migrateIfRenamed at done
  split at done
  · cases done
    exact .refl
  · split at done
    · exact migrateWorkerIdentity_path done
    · cases done
      exact .refl

theorem workerId_of_validate {payload : RegistrationPayload} {registration : Registration}
    (valid : Registration.validate payload = .ok registration) :
    registration.workerId = payload.workerId := by
  unfold Registration.validate at valid
  split at valid
  · simp only [bind_eq_ok, pure_eq_ok] at valid
    obtain ⟨_, _, _, _, rfl⟩ := valid
    rfl
  · simp at valid

theorem workersOnly_upsertWorker {written : WorkerRow}
    (done : db.upsertWorker written = .ok after) : WorkersOnly db after := by
  unfold Database.upsertWorker at done
  split at done
  · cases done
    exact ⟨⟨rfl, rfl, rfl⟩, ⟨rfl, rfl⟩⟩
  · split at done
    · cases done
      exact ⟨⟨rfl, rfl, rfl⟩, ⟨rfl, rfl⟩⟩
    · contradiction

/-- A registration migrates the identity and then only writes the worker. -/
theorem registerWorker_eq_ok {registration : Registration} {previous : Option Text}
    {row : WorkerRow} (done : db.registerWorker now registration previous = .ok (row, after)) :
    ∃ migrated, db.migrateIfRenamed previous registration.workerId = .ok migrated ∧
      WorkersOnly migrated after := by
  simp only [Database.registerWorker, bind_eq_ok] at done
  obtain ⟨migrated, migration, written, upserted, done⟩ := done
  refine ⟨migrated, migration, (workersOnly_upsertWorker upserted).trans ?_⟩
  split at done
  · simp only [pure_eq_ok, Prod.mk.injEq] at done
    obtain ⟨_, rfl⟩ := done
    exact .refl written
  · simp only [pure_eq_ok, Prod.mk.injEq] at done
    obtain ⟨_, rfl⟩ := done
    exact workersOnly_recordWorkerOnline _ _ _ _ written

theorem registerWorker_path {registration : Registration} {previous : Option Text}
    {row : WorkerRow} (done : db.registerWorker now registration previous = .ok (row, after)) :
    Path env config now db.jobs after.jobs := by
  obtain ⟨migrated, migration, same⟩ := registerWorker_eq_ok done
  rw [same.jobs]
  exact migrateIfRenamed_path migration

theorem pairingsOnly_storeCredential {credential : CredentialRow}
    (done : db.storeCredential credential = .ok after) : PairingsOnly db after := by
  unfold Database.storeCredential at done
  split at done
  · cases done
    exact ⟨⟨rfl, rfl, rfl⟩, rfl⟩
  · split at done
    · cases done
      exact ⟨⟨rfl, rfl, rfl⟩, rfl⟩
    · contradiction

theorem pairingsOnly_createPairing {request : Registration} {pairingId secret code : Text}
    {row : PairingRow}
    (done : db.createPairing env config now request pairingId secret code = .ok (row, after)) :
    PairingsOnly db after := by
  unfold Database.createPairing at done
  dsimp only at done
  split at done
  · simp at done
  · split at done
    · simp at done
    · split at done
      · simp only [pure_eq_ok, Prod.mk.injEq] at done
        obtain ⟨_, rfl⟩ := done
        exact ⟨⟨rfl, rfl, rfl⟩, rfl⟩
      · simp at done

theorem pairingsOnly_approvePairing {pairingId : Text} {row : PairingRow}
    (done : db.approvePairing env now pairingId = .ok (row, after)) : PairingsOnly db after := by
  simp only [Database.approvePairing, bind_eq_ok] at done
  obtain ⟨_, _, done⟩ := done
  split at done
  · simp only [pure_eq_ok, Prod.mk.injEq] at done
    obtain ⟨_, rfl⟩ := done
    exact pairingsOnly_expirePairings db
  · split at done
    · simp at done
    · simp only [bind_eq_ok, pure_eq_ok, Prod.mk.injEq] at done
      obtain ⟨_, _, _, rfl⟩ := done
      exact (pairingsOnly_expirePairings db).trans (pairingsOnly_updatePairing _ _ _ _)

theorem pairingsOnly_rejectPairing {pairingId : Text} {row : PairingRow}
    (done : db.rejectPairing env now pairingId = .ok (row, after)) : PairingsOnly db after := by
  simp only [Database.rejectPairing, bind_eq_ok] at done
  obtain ⟨_, _, done⟩ := done
  split at done
  · simp only [pure_eq_ok, Prod.mk.injEq] at done
    obtain ⟨_, rfl⟩ := done
    exact pairingsOnly_expirePairings db
  · split at done
    · simp at done
    · simp only [bind_eq_ok, pure_eq_ok, Prod.mk.injEq] at done
      obtain ⟨_, _, _, rfl⟩ := done
      exact (pairingsOnly_expirePairings db).trans (pairingsOnly_updatePairing _ _ _ _)

theorem pairingsOnly_pollPairing {pairingId secret token : Text} {outcome : PairingRow × Option Text}
    (done : db.pollPairing env now pairingId secret token = .ok (outcome, after)) :
    PairingsOnly db after := by
  simp only [Database.pollPairing, bind_eq_ok] at done
  obtain ⟨_, _, done⟩ := done
  split at done
  · simp at done
  · split at done
    · simp only [bind_eq_ok, pure_eq_ok, Prod.mk.injEq] at done
      obtain ⟨stored, credential, _, _, _, rfl⟩ := done
      exact ((pairingsOnly_expirePairings db).trans (pairingsOnly_storeCredential credential)).trans
        (pairingsOnly_updatePairing _ _ _ _)
    · simp only [pure_eq_ok, Prod.mk.injEq] at done
      obtain ⟨_, rfl⟩ := done
      exact pairingsOnly_expirePairings db

theorem workersOnly_reportWorkerRuntimes {workerId : Text} {runtimes kept : List (Text × Value)}
    {host : Option Value}
    (done : db.reportWorkerRuntimes now workerId runtimes host = .ok (kept, after)) :
    WorkersOnly db after := by
  unfold Database.reportWorkerRuntimes at done
  split at done
  · contradiction
  · cases done
    exact ⟨⟨rfl, rfl, rfl⟩, ⟨rfl, rfl⟩⟩

theorem workersOnly_markWorkerWaking {workerId : Text} {timeoutSeconds : Nat} {trigger : Text}
    {row : Option WorkerRow}
    (done : db.markWorkerWaking config now workerId timeoutSeconds trigger = .ok (row, after)) :
    WorkersOnly db after := by
  unfold Database.markWorkerWaking at done
  split at done
  · contradiction
  · split at done
    · contradiction
    · split at done
      · cases done
        exact .refl db
      · cases done
        exact ⟨⟨rfl, rfl, rfl⟩, ⟨rfl, rfl⟩⟩

theorem workersOnly_reportWorkerPower {workerId : Text} {started : Bool} {detail : Value}
    {answer : Unit}
    (done : db.reportWorkerPower now workerId started detail = .ok (answer, after)) :
    WorkersOnly db after := by
  unfold Database.reportWorkerPower at done
  split at done
  · contradiction
  · cases done
    exact ⟨⟨rfl, rfl, rfl⟩, ⟨rfl, rfl⟩⟩

/-! ## Every call -/

/-- A creation that appends the row of its request after a path. -/
structure Insertion (env : Environment) (config : Config) (call : Call) (before after : Database)
    (job : NewJob) : Prop where
  created : ∃ payload, call.operation = .create payload ∧
    prepareCreate env call.now payload = .ok job
  recovered : Path env config call.now before.jobs (before.recover env config call.now).jobs
  absent : (before.recover env config call.now).jobs.find? job.request.jobId = none
  room : (activeRows (before.recover env config call.now).jobs.rows).length < config.maxActiveJobs
  rows : after.jobs.rows =
    (before.recover env config call.now).jobs.rows ++ [job.row call.now]
  shown : Decodable (job.row call.now)

theorem answering_induction {α : Type} {wrap : α → Answer}
    {body : Database → Except Failure (α × Database)} {motive : Database → Prop}
    (stays : motive db) (moves : ∀ answer next, body db = .ok (answer, next) → motive next) :
    motive (answering wrap body db).2 :=
  commit_induction stays moves

/-- A body whose success is a path leaves the table on a path. -/
theorem answering_path {α : Type} {wrap : α → Answer}
    {body : Database → Except Failure (α × Database)}
    (path : ∀ answer next, body db = .ok (answer, next) →
      Path env config now db.jobs next.jobs) :
    Path env config now db.jobs (answering wrap body db).2.jobs :=
  answering_induction .refl path

/-- A body whose success keeps the job table keeps it. -/
theorem answering_same {α : Type} {wrap : α → Answer}
    {body : Database → Except Failure (α × Database)}
    (same : ∀ answer next, body db = .ok (answer, next) → SameJobs db next) :
    Path env config now db.jobs (answering wrap body db).2.jobs :=
  answering_path fun answer next done => by rw [(same answer next done).jobs]

/-- The calls that are not creations leave the table on a path. -/
theorem run_path {operation : Operation} (other : ∀ payload, operation ≠ .create payload) :
    Path env config now db.jobs (operation.run env config now db).2.jobs := by
  cases operation with
  | create payload => exact absurd rfl (other payload)
  | get jobId =>
      refine answering_path fun answer next done => ?_
      obtain ⟨_, _, _, rfl⟩ := get_eq_ok.mp done
      exact recover_path db
  | latest typeName =>
      simp only [Operation.run, Database.latest]
      split
      · exact .refl
      · dsimp only [Database.recoveredRows]
        split
        · exact recover_path db
        · exact recover_path db
  | latestForIncident typeName incidentId status =>
      simp only [Operation.run, Database.latestForIncident]
      split
      · exact .refl
      · dsimp only [Database.recoveredRows]
        split
        · exact recover_path db
        · exact recover_path db
  | activeForIncident typeName incidentId =>
      refine answering_path fun answer next done => ?_
      simp only [Database.activeForIncident, bind_eq_ok, Database.recoveredRows] at done
      obtain ⟨_, _, done⟩ := done
      split at done
      · simp only [pure_eq_ok, Prod.mk.injEq] at done
        obtain ⟨_, rfl⟩ := done
        exact recover_path db
      · simp only [bind_eq_ok, pure_eq_ok, Prod.mk.injEq] at done
        obtain ⟨_, _, _, rfl⟩ := done
        exact recover_path db
  | cancel jobId => exact answering_path fun answer next done => cancel_path done
  | claim workerId supportedTypes shutdownAfterCompletion settle =>
      exact answering_path fun answer next done => claim_path done
  | pendingCompletions failuresOnly =>
      refine answering_path fun answer next done => ?_
      simp only [Database.pendingCompletions, bind_eq_ok, pure_eq_ok, Prod.mk.injEq] at done
      obtain ⟨_, _, _, rfl⟩ := done
      exact recover_path db
  | markCompletionProcessed jobId => exact markCompletionProcessed_path jobId
  | authorizeJobTransfer jobId workerId attempt permitted =>
      refine answering_path fun answer next done => ?_
      rw [(authorizeJobTransfer_eq_ok done).jobs]
      exact recover_path db
  | heartbeat jobId workerId attempt progress =>
      refine answering_path fun answer next done => ?_
      obtain ⟨heartbeat, _, _, renewed⟩ := heartbeat_eq_ok done
      exact renew_path renewed
  | complete jobId payload =>
      refine answering_path fun answer next done => ?_
      obtain ⟨completion, _, _, _, finished⟩ := complete_eq_ok done
      exact finish_path finished
  | wakeReadyJobTypes batchWindowSeconds jobTypes createdAfter createdBefore =>
      refine answering_path fun answer next done => ?_
      unfold Database.wakeReadyJobTypes at done
      split at done
      · contradiction
      · split at done
        · cases done
          exact .refl
        · cases done
          exact recover_path db
  | registerWorker payload previousWorkerId =>
      refine answering_path fun answer next done => ?_
      obtain ⟨registration, _, registered⟩ := bind_eq_ok.mp done
      exact registerWorker_path registered
  | reportWorkerRuntimes workerId runtimes host =>
      exact answering_same fun answer next done => (workersOnly_reportWorkerRuntimes done).toSameJobs
  | markWorkerWaking workerId timeoutSeconds trigger =>
      exact answering_same fun answer next done => (workersOnly_markWorkerWaking done).toSameJobs
  | reportWorkerPower workerId started detail =>
      exact answering_same fun answer next done => (workersOnly_reportWorkerPower done).toSameJobs
  | settleUnansweredWakes maxAttempts =>
      have same : WorkersOnly db (db.settleUnansweredWakes config now maxAttempts) :=
        workersOnly_settleUnansweredWakes maxAttempts db
      simp only [Operation.run, same.jobs]
      rfl
  | recordWakeFailure workerId error trigger => exact .refl
  | createPairing payload pairingId pollingSecret verificationCode =>
      refine answering_same fun answer next done => ?_
      obtain ⟨registration, _, created⟩ := bind_eq_ok.mp done
      exact (pairingsOnly_createPairing created).toSameJobs
  | listPairings => exact .refl
  | approvePairing pairingId =>
      exact answering_same fun answer next done =>
        (pairingsOnly_approvePairing done).toSameJobs
  | rejectPairing pairingId =>
      exact answering_same fun answer next done =>
        (pairingsOnly_rejectPairing done).toSameJobs
  | pollPairing pairingId pollingSecret workerToken =>
      exact answering_same fun answer next done =>
        (pairingsOnly_pollPairing done).toSameJobs

/-- What a call can do to the job table. -/
theorem step_effect {call : Call} (step : Step env config db call after) :
    Path env config call.now db.jobs after.jobs ∨ ∃ job, Insertion env config call db after job := by
  obtain ⟨now, operation⟩ := call
  unfold Step at step
  subst step
  by_cases creation : ∃ payload, operation = .create payload
  · obtain ⟨payload, rfl⟩ := creation
    refine answering_induction (motive := fun next => Path env config now db.jobs next.jobs ∨
      ∃ job, Insertion env config ⟨now, .create payload⟩ db next job) (Or.inl .refl)
      fun answer next done => ?_
    obtain ⟨job, prepared, enqueued⟩ := create_eq_ok done
    rcases enqueue_eq_ok enqueued with ⟨_, _, _, _, rfl⟩ | ⟨absent, room, rows, shown⟩
    · exact Or.inl (recover_path db)
    · exact Or.inr ⟨job, ⟨payload, rfl, prepared⟩, recover_path db, absent, room, rows,
        ⟨answer, shown⟩⟩
  · push Not at creation
    exact Or.inl (run_path creation)

end OhanaAgent.Jobs
