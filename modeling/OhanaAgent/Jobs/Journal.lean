import OhanaAgent.Jobs.Invariant

/-!
# The job journal

The status column and the journal are written by separate statements.  `Entry`
says what one statement can do to both, every call is a sequence of entries, and
an invariant of the entries then says that the journal of every stored job
replays to the status of its row.
-/

namespace OhanaAgent.Jobs

open OhanaAgent.Encoding.Json
open OhanaAgent.Store
open OhanaAgent.Time
open OhanaAgent.Transition

/-- The steps of a job after its creation. -/
inductive Progress : JobStatus → JobStatus → Prop
  | wait : Progress .queued .waitingWorker
  | claim {status : JobStatus} (claimable : status = .queued ∨ status = .waitingWorker) :
      Progress status .running
  | retry : Progress .running .queued
  | succeed : Progress .running .succeeded
  | fail : Progress .running .failed
  | cancel {status : JobStatus} (live : status.terminal = false) : Progress status .cancelled
  | timeout {status : JobStatus} (live : status.terminal = false) : Progress status .timeout

/-- A journal that replays to a status: it starts with the creation and the
queueing of the job, and every later event leaves from the status of the one
before it. -/
inductive Replays : List JobEvent → JobStatus → Prop
  | accepted {first second : JobEvent} (nothing : first.previousStatus = none)
      (created : first.status = .created) (before : second.previousStatus = some .created)
      (queued : second.status = .queued) : Replays [first, second] .queued
  | step {events : List JobEvent} {status : JobStatus} {event : JobEvent}
      (earlier : Replays events status) (before : event.previousStatus = some status)
      (progress : Progress status event.status) : Replays (events ++ [event]) event.status

namespace Database

/-- The events of a job, in the order of their identifiers. -/
def jobEvents (db : Database) (jobId : Text) : List JobEvent :=
  (db.events.filter fun event => event.jobId = jobId).insertionSort fun first second =>
    first.eventId ≤ second.eventId

end Database

/-! ## Entries -/

variable {env : Environment} {config : Config} {now : Int} {db after : Database}

/-- No identifier, status or event changed. -/
structure SameJournal (before after : Database) : Prop where
  rows : after.jobs.rows.map (fun row => (row.jobId, row.status)) =
    before.jobs.rows.map fun row => (row.jobId, row.status)
  events : after.events = before.events
  nextEvent : after.nextEvent = before.nextEvent

theorem SameJobs.sameJournal {before : Database} (same : SameJobs before after) :
    SameJournal before after :=
  ⟨by rw [same.jobs], same.events, same.nextEvent⟩

/-- What one statement, with the event it writes, can do to the jobs and their
journal. -/
inductive Entry (env : Environment) (config : Config) (now : Int) : Database → Database → Prop
  | quiet {before after : Database} (same : SameJournal before after) :
      Entry env config now before after
  | records {before : Database} {row : JobRow} (member : row ∈ before.jobs)
      (f : JobRow → JobRow) (keeps : ∀ row, (f row).jobId = row.jobId) (detail : String)
      (progress : Progress row.status (f row).status) :
      Entry env config now before ((before.updateJob row.jobId f keeps).event row.jobId
        (some row.status) (f row).status now detail)
  | accepts {before : Database} {row : JobRow} {jobs : JobTable}
      (inserted : before.jobs.insert? row = some jobs) (queued : row.status = .queued) :
      Entry env config now before (({ before with jobs }.event row.jobId none .created now
        "accepted").event row.jobId (some .created) .queued now "queued")
  | purges {before : Database} : Entry env config now before (before.purge env config now)

/-- The statements of one call. -/
abbrev Entries (env : Environment) (config : Config) (now : Int) : Database → Database → Prop :=
  Relation.ReflTransGen (Entry env config now)

theorem SameJobs.entries (same : SameJobs db after) : Entries env config now db after :=
  .single (.quiet same.sameJournal)

/-- A write that keeps every status is quiet. -/
theorem sameJournal_mapRows {f : JobRow → JobRow} (jobIds : ∀ row, (f row).jobId = row.jobId)
    (statuses : ∀ row, (f row).status = row.status) (rows : after.jobs.rows = db.jobs.rows.map f)
    (events : after.events = db.events) (nextEvent : after.nextEvent = db.nextEvent) :
    SameJournal db after where
  rows := by
    rw [rows, List.map_map]
    exact List.map_congr_left fun row _ => by rw [Function.comp_apply, jobIds, statuses]
  events := events
  nextEvent := nextEvent

theorem sameJournal_updateJob {jobId : Text} {f : JobRow → JobRow}
    (keeps : ∀ row, (f row).jobId = row.jobId) (statuses : ∀ row, (f row).status = row.status) :
    SameJournal db (db.updateJob jobId f keeps) := by
  refine sameJournal_mapRows (f := fun row => if row.jobId = jobId then f row else row) ?_ ?_
    rfl rfl rfl
  · intro row
    split
    · exact keeps row
    · rfl
  · intro row
    split
    · exact statuses row
    · rfl

/-! ## The calls as entries -/

theorem progress_of_dueTransition {row : JobRow} {change : Transition}
    (live : row.status.recoverable = true) (due : dueTransition config now row = some change) :
    Progress row.status change.status := by
  unfold dueTransition at due
  split at due
  · cases due
    exact .timeout (not_terminal_of_recoverable live)
  · split at due
    · rename_i interrupted
      rw [interrupted.1]
      split at due
      · cases due
        exact .fail
      · cases due
        exact .retry
    · split at due
      · rename_i waiting
        rw [waiting.1]
        cases due
        exact .wait
      · contradiction

theorem entries_transition {row : JobRow} {change : Transition} (member : row ∈ db.jobs)
    (progress : Progress row.status change.status) :
    Entries env config now db (db.transition row change now) :=
  .single (.records member (fun current => current.transition change now)
    (fun current => current.jobId_transition change now) change.detail progress)

/-- The recovery loop; every turn writes another row of the snapshot. -/
theorem entries_foldl_recoverRow (rows : List JobRow) {db : Database}
    (members : ∀ row ∈ rows, row ∈ db.jobs) (live : ∀ row ∈ rows, row.status.recoverable = true)
    (distinct : (rows.map JobRow.jobId).Nodup) :
    Entries env config now db (rows.foldl (Database.recoverRow config now) db) := by
  induction rows generalizing db with
  | nil => exact .refl
  | cons row rows ih =>
      rw [List.map_cons, List.nodup_cons] at distinct
      have first : Entries env config now db (db.recoverRow config now row) := by
        unfold Database.recoverRow
        split
        · rename_i change due
          exact entries_transition (members row List.mem_cons_self)
            (progress_of_dueTransition (live row List.mem_cons_self) due)
        · exact .refl
      refine first.trans (ih ?_ ?_ distinct.2)
      · intro other otherMem
        refine mem_recoverRow (members other (List.mem_cons_of_mem row otherMem)) ?_
        intro same
        exact distinct.1 (same ▸ List.mem_map_of_mem otherMem)
      · exact fun other otherMem => live other (List.mem_cons_of_mem row otherMem)

theorem entries_recover (db : Database) :
    Entries env config now db (db.recover env config now) := by
  refine .tail (entries_foldl_recoverRow _ ?_ ?_ ?_) .purges
  · exact fun row member => (List.mem_filter.mp member).1
  · exact fun row member => by simpa using (List.mem_filter.mp member).2
  · exact db.jobs.distinct.sublist (List.filter_sublist.map JobRow.jobId)

theorem entries_enqueue {job : NewJob} {answer : JobDocument}
    (done : db.enqueue env config now job = .ok (answer, after)) :
    Entries env config now db after := by
  unfold Database.enqueue at done
  dsimp only at done
  split at done
  · split at done
    · simp at done
    · simp only [bind_eq_ok, pure_eq_ok, Prod.mk.injEq] at done
      obtain ⟨_, _, _, rfl⟩ := done
      exact entries_recover db
  · split at done
    · simp at done
    · split at done
      · simp at done
      · rename_i jobs inserted
        simp only [bind_eq_ok, pure_eq_ok, Prod.mk.injEq] at done
        obtain ⟨_, _, _, _, _, rfl⟩ := done
        exact .tail (entries_recover db) (.accepts inserted rfl)

theorem entries_cancel {jobId : Text} {answer : JobDocument}
    (done : db.cancel env config now jobId = .ok (answer, after)) :
    Entries env config now db after := by
  rcases cancel_eq_ok done with rfl | ⟨row, member, live, rfl⟩
  · exact entries_recover db
  · exact (entries_recover db).trans (entries_transition member (.cancel live))

theorem entries_claim {workerId : Text} {supportedTypes : List Text} {shutdown settle : Bool}
    {result : ClaimResult}
    (done : db.claim env config now workerId supportedTypes shutdown settle =
      .ok (result, after)) : Entries env config now db after := by
  rcases claim_eq_ok done with ⟨_, rfl | same⟩ | ⟨row, member, claimable, rfl, _⟩
  · exact .refl
  · exact (entries_recover db).trans same.entries
  · have waiting : row.status = .queued ∨ row.status = .waitingWorker := by
      cases status : row.status <;> simp_all [JobStatus.claimable]
    have kept : row ∈ ((db.recover env config now).touchWorker workerId now).jobs := member
    exact ((entries_recover db).trans (workersOnly_touchWorker workerId now _).entries).tail
      (.records kept (JobRow.claimed config now workerId)
        (JobRow.jobId_claimed config now workerId) _ (.claim waiting))

theorem entries_renew {jobId : Text} {heartbeat : JobHeartbeat} {answer : JobDocument}
    (done : db.renew env config now jobId heartbeat = .ok (answer, after)) :
    Entries env config now db after := by
  obtain ⟨row, _, _, _, ⟨_, rfl⟩ | ⟨_, _, rfl⟩⟩ := renew_eq_ok done
  · exact entries_recover db
  · exact ((entries_recover db).trans
      (workersOnly_touchWorker heartbeat.workerId now _).entries).tail
      (.quiet (sameJournal_updateJob _ fun _ => rfl))

/-- `complete` writes `RUNNING` as the status before, which its owner check
established. -/
theorem entries_finish {jobId : Text} {completion : JobCompletion} {answer : JobDocument}
    (done : db.finish env config now jobId completion = .ok (answer, after)) :
    Entries env config now db after := by
  obtain ⟨row, stored, found, checked, ⟨_, _, rfl⟩ | ⟨running, _, _, _, rfl⟩⟩ := finish_eq_ok done
  · exact entries_recover db
  · obtain ⟨member, rfl⟩ := Table.find?_eq_some_iff.mp found
    have progress : Progress row.status (row.completed now stored).status := by
      rw [running]
      rcases checkOutcome_sound checked with ⟨succeeded, _⟩ | ⟨failed, _⟩
      · exact (show (row.completed now stored).status = .succeeded from succeeded) ▸ .succeed
      · exact (show (row.completed now stored).status = .failed from failed) ▸ .fail
    have entry : Entry env config now (db.recover env config now) _ :=
      .records member (JobRow.completed now stored) (JobRow.jobId_completed now stored)
        ("completed by " ++ String.ofList completion.workerId) progress
    rw [running] at entry
    exact (entries_recover db).tail entry

theorem sameJournal_migrateWorkerIdentity {previous workerId : Text}
    (done : db.migrateWorkerIdentity previous workerId = .ok after) : SameJournal db after := by
  unfold Database.migrateWorkerIdentity at done
  split at done
  · simp at done
  · split at done
    · simp at done
    · split at done
      · simp at done
      · split at done
        · simp only [pure_eq_ok] at done
          subst done
          refine sameJournal_mapRows (f := fun row =>
            if row.workerId = some previous then { row with workerId := some workerId }
            else row) ?_ ?_ rfl rfl rfl
          · intro row
            split <;> rfl
          · intro row
            split <;> rfl
        · simp at done

theorem entries_registerWorker {registration : Registration} {previous : Option Text}
    {row : WorkerRow} (done : db.registerWorker now registration previous = .ok (row, after)) :
    Entries env config now db after := by
  obtain ⟨migrated, migration, same⟩ := registerWorker_eq_ok done
  refine .trans ?_ same.entries
  unfold Database.migrateIfRenamed at migration
  split at migration
  · cases migration
    exact .refl
  · split at migration
    · exact .single (.quiet (sameJournal_migrateWorkerIdentity migration))
    · cases migration
      exact .refl

/-- A body whose success is a sequence of entries. -/
theorem answering_entries {α : Type} {wrap : α → Answer}
    {body : Database → Except Failure (α × Database)}
    (entries : ∀ answer next, body db = .ok (answer, next) → Entries env config now db next) :
    Entries env config now db (answering wrap body db).2 :=
  answering_induction .refl entries

/-- Every call is a sequence of entries. -/
theorem entries_run (operation : Operation) (db : Database) :
    Entries env config now db (operation.run env config now db).2 := by
  cases operation with
  | create payload =>
      refine answering_entries fun answer next done => ?_
      obtain ⟨job, _, enqueued⟩ := create_eq_ok done
      exact entries_enqueue enqueued
  | get jobId =>
      refine answering_entries fun answer next done => ?_
      obtain ⟨_, _, _, rfl⟩ := get_eq_ok.mp done
      exact entries_recover db
  | latest typeName =>
      simp only [Operation.run, Database.latest]
      split
      · exact .refl
      · dsimp only [Database.recoveredRows]
        split
        · exact entries_recover db
        · exact entries_recover db
  | latestForIncident typeName incidentId status =>
      simp only [Operation.run, Database.latestForIncident]
      split
      · exact .refl
      · dsimp only [Database.recoveredRows]
        split
        · exact entries_recover db
        · exact entries_recover db
  | activeForIncident typeName incidentId =>
      refine answering_entries fun answer next done => ?_
      simp only [Database.activeForIncident, bind_eq_ok, Database.recoveredRows] at done
      obtain ⟨_, _, done⟩ := done
      split at done
      · simp only [pure_eq_ok, Prod.mk.injEq] at done
        obtain ⟨_, rfl⟩ := done
        exact entries_recover db
      · simp only [bind_eq_ok, pure_eq_ok, Prod.mk.injEq] at done
        obtain ⟨_, _, _, rfl⟩ := done
        exact entries_recover db
  | cancel jobId => exact answering_entries fun answer next done => entries_cancel done
  | claim workerId supportedTypes shutdownAfterCompletion settle =>
      exact answering_entries fun answer next done => entries_claim done
  | pendingCompletions failuresOnly =>
      refine answering_entries fun answer next done => ?_
      simp only [Database.pendingCompletions, bind_eq_ok, pure_eq_ok, Prod.mk.injEq] at done
      obtain ⟨_, _, _, rfl⟩ := done
      exact entries_recover db
  | markCompletionProcessed jobId =>
      exact .single (.quiet (sameJournal_updateJob _ fun _ => rfl))
  | authorizeJobTransfer jobId workerId attempt permitted =>
      refine answering_entries fun answer next done => ?_
      exact (entries_recover db).trans (authorizeJobTransfer_eq_ok done).entries
  | heartbeat jobId workerId attempt progress =>
      refine answering_entries fun answer next done => ?_
      obtain ⟨heartbeat, _, _, renewed⟩ := heartbeat_eq_ok done
      exact entries_renew renewed
  | complete jobId payload =>
      refine answering_entries fun answer next done => ?_
      obtain ⟨completion, _, _, _, finished⟩ := complete_eq_ok done
      exact entries_finish finished
  | wakeReadyJobTypes batchWindowSeconds jobTypes createdAfter createdBefore =>
      refine answering_entries fun answer next done => ?_
      unfold Database.wakeReadyJobTypes at done
      split at done
      · contradiction
      · split at done
        · cases done
          exact .refl
        · cases done
          exact entries_recover db
  | registerWorker payload previousWorkerId =>
      refine answering_entries fun answer next done => ?_
      obtain ⟨registration, _, registered⟩ := bind_eq_ok.mp done
      exact entries_registerWorker registered
  | reportWorkerRuntimes workerId runtimes host =>
      exact answering_entries fun answer next done => (workersOnly_reportWorkerRuntimes done).entries
  | markWorkerWaking workerId timeoutSeconds trigger =>
      exact answering_entries fun answer next done => (workersOnly_markWorkerWaking done).entries
  | reportWorkerPower workerId started detail =>
      exact answering_entries fun answer next done => (workersOnly_reportWorkerPower done).entries
  | settleUnansweredWakes maxAttempts =>
      exact (workersOnly_settleUnansweredWakes maxAttempts db).entries
  | recordWakeFailure workerId error trigger =>
      exact (workersOnly_powerEvent _ _ _ _ db).entries
  | createPairing payload pairingId pollingSecret verificationCode =>
      refine answering_entries fun answer next done => ?_
      obtain ⟨registration, _, created⟩ := bind_eq_ok.mp done
      exact (pairingsOnly_createPairing created).toSameJobs.entries
  | listPairings => exact (pairingsOnly_expirePairings db).toSameJobs.entries
  | approvePairing pairingId =>
      exact answering_entries fun answer next done =>
        (pairingsOnly_approvePairing done).toSameJobs.entries
  | rejectPairing pairingId =>
      exact answering_entries fun answer next done =>
        (pairingsOnly_rejectPairing done).toSameJobs.entries
  | pollPairing pairingId pollingSecret workerToken =>
      exact answering_entries fun answer next done =>
        (pairingsOnly_pollPairing done).toSameJobs.entries

/-! ## The invariant -/

/-- The events are stored in the order of their identifiers. -/
structure Numbered (db : Database) : Prop where
  ordered : db.events.Pairwise fun first second => first.eventId < second.eventId
  bounded : ∀ event ∈ db.events, event.eventId < db.nextEvent

/-- Every event is one of a stored job, and the journal of every stored job
replays to its status. -/
structure Journaled (db : Database) : Prop extends Numbered db where
  owned : ∀ event ∈ db.events, ∃ row ∈ db.jobs, row.jobId = event.jobId
  replays : ∀ row ∈ db.jobs,
    Replays (db.events.filter fun event => event.jobId = row.jobId) row.status

theorem journaled_empty : Journaled Database.empty where
  ordered := .nil
  bounded := fun _ member => absurd member List.not_mem_nil
  owned := fun _ member => absurd member List.not_mem_nil
  replays := fun row member => absurd member (Table.not_mem_empty row)

theorem Numbered.jobEvents (numbered : Numbered db) (jobId : Text) :
    db.jobEvents jobId = db.events.filter fun event => event.jobId = jobId := by
  refine List.Pairwise.insertionSort_eq ?_
  exact (numbered.ordered.filter _).imp fun earlier => Nat.le_of_lt earlier

theorem Numbered.event (numbered : Numbered db) (jobId : Text) (previous : Option JobStatus)
    (status : JobStatus) (detail : String) :
    Numbered (db.event jobId previous status now detail) where
  ordered := by
    refine List.pairwise_append.mpr ⟨numbered.ordered, List.pairwise_singleton _ _, ?_⟩
    intro event member last isLast
    rw [List.mem_singleton.mp isLast]
    exact numbered.bounded event member
  bounded := by
    intro event member
    rcases List.mem_append.mp member with member | member
    · exact Nat.lt_succ_of_lt (numbered.bounded event member)
    · rw [List.mem_singleton.mp member]
      exact Nat.lt_succ_self db.nextEvent

namespace Journaled

theorem quiet (journaled : Journaled db) (same : SameJournal db after) : Journaled after := by
  have source : ∀ {first second : Database}, second.jobs.rows.map
      (fun row => (row.jobId, row.status)) = first.jobs.rows.map
      (fun row => (row.jobId, row.status)) → ∀ row ∈ second.jobs,
        ∃ old ∈ first.jobs, old.jobId = row.jobId ∧ old.status = row.status := by
    intro first second rows row member
    have mapped : (row.jobId, row.status) ∈ first.jobs.rows.map
        fun row => (row.jobId, row.status) := rows ▸ List.mem_map_of_mem member
    obtain ⟨old, oldMem, equal⟩ := List.mem_map.mp mapped
    exact ⟨old, oldMem, congrArg Prod.fst equal, congrArg Prod.snd equal⟩
  constructor
  · exact ⟨same.events ▸ journaled.ordered, by
      rw [same.events, same.nextEvent]
      exact journaled.bounded⟩
  · intro event member
    rw [same.events] at member
    obtain ⟨row, rowMem, sameId⟩ := journaled.owned event member
    obtain ⟨new, newMem, newId, _⟩ := source same.rows.symm row rowMem
    exact ⟨new, newMem, newId.trans sameId⟩
  · intro row member
    obtain ⟨old, oldMem, sameId, sameStatus⟩ := source same.rows row member
    rw [same.events, ← sameId, ← sameStatus]
    exact journaled.replays old oldMem

theorem records (journaled : Journaled db) {row : JobRow} (member : row ∈ db.jobs)
    {f : JobRow → JobRow} (keeps : ∀ row, (f row).jobId = row.jobId) (detail : String)
    (progress : Progress row.status (f row).status) :
    Journaled ((db.updateJob row.jobId f keeps).event row.jobId (some row.status)
      (f row).status now detail) := by
  have numbered : Numbered (db.updateJob row.jobId f keeps) :=
    ⟨journaled.ordered, journaled.bounded⟩
  have written : f row ∈ db.jobs.modify row.jobId f keeps :=
    Table.mem_modify.mpr (Or.inl ⟨row, member, rfl, rfl⟩)
  refine ⟨numbered.event _ _ _ _, ?_, ?_⟩
  · intro event eventMem
    rcases List.mem_append.mp eventMem with eventMem | eventMem
    · obtain ⟨other, otherMem, sameId⟩ := journaled.owned event eventMem
      by_cases same : other.jobId = row.jobId
      · exact ⟨f row, written, by rw [keeps, ← same, sameId]⟩
      · have stays : other ∈ db.jobs.modify row.jobId f keeps :=
          Table.mem_modify.mpr (Or.inr ⟨otherMem, same⟩)
        exact ⟨other, stays, sameId⟩
    · rw [List.mem_singleton.mp eventMem]
      exact ⟨f row, written, keeps row⟩
  · intro other otherMem
    rw [jobs_event, jobs_updateJob] at otherMem
    rcases Table.mem_modify.mp otherMem with
      ⟨source, sourceMem, sourceId, rfl⟩ | ⟨otherMem, different⟩
    · have equal := db.jobs.key_injective sourceMem member sourceId
      subst equal
      have appended : Replays (_ ++ [⟨db.nextEvent, source.jobId, now, some source.status,
          (f source).status, detail⟩]) (f source).status :=
        .step (journaled.replays source member) rfl progress
      simpa [Database.event, Database.updateJob, keeps, List.filter_append] using appended
    · have kept := journaled.replays other otherMem
      simpa [Database.event, Database.updateJob, List.filter_append, Ne.symm different] using kept

theorem accepts (journaled : Journaled db) {row : JobRow} {jobs : JobTable}
    (inserted : db.jobs.insert? row = some jobs) (queued : row.status = .queued) :
    Journaled (({ db with jobs }.event row.jobId none .created now "accepted").event row.jobId
      (some .created) .queued now "queued") := by
  obtain ⟨fresh, rows⟩ := Table.insert?_eq_some_iff.mp inserted
  have numbered : Numbered { db with jobs } := ⟨journaled.ordered, journaled.bounded⟩
  have old : ∀ {other : JobRow}, other ∈ db.jobs → other ∈ jobs := by
    intro other member
    rw [Table.mem_def, rows]
    exact List.mem_append_left _ member
  have new : row ∈ jobs := by
    rw [Table.mem_def, rows]
    exact List.mem_append_right _ List.mem_cons_self
  have unrecorded : db.events.filter (fun event => event.jobId = row.jobId) = [] := by
    rw [List.filter_eq_nil_iff]
    intro event member
    obtain ⟨other, otherMem, sameId⟩ := journaled.owned event member
    simpa [← sameId] using fresh other otherMem
  refine ⟨(numbered.event _ _ _ _).event _ _ _ _, ?_, ?_⟩
  · intro event member
    simp only [Database.event, List.append_assoc, List.mem_append, List.mem_singleton] at member
    rcases member with member | rfl | rfl
    · obtain ⟨other, otherMem, sameId⟩ := journaled.owned event member
      exact ⟨other, old otherMem, sameId⟩
    · exact ⟨row, new, rfl⟩
    · exact ⟨row, new, rfl⟩
  · intro other member
    have split : other ∈ db.jobs.rows ++ [row] := rows ▸ member
    rcases List.mem_append.mp split with member | member
    · have kept := journaled.replays other member
      have different : row.jobId ≠ other.jobId := (fresh other member).symm
      simpa [Database.event, List.filter_append, different] using kept
    · rw [List.mem_singleton.mp member, queued]
      have accepted : Replays [⟨db.nextEvent, row.jobId, now, none, .created, "accepted"⟩,
          ⟨db.nextEvent + 1, row.jobId, now, some .created, .queued, "queued"⟩] .queued :=
        .accepted rfl rfl rfl rfl
      simpa [Database.event, List.filter_append, unrecorded] using accepted

/-- The purge deletes an event exactly when it deletes its job. -/
theorem purges (journaled : Journaled db) : Journaled (db.purge env config now) := by
  have kept : ∀ {row : JobRow} {event : JobEvent}, row ∈ db.jobs → row.jobId = event.jobId →
      ((db.jobs.rows.filter (expiredRow env config now)).any
        (fun row => row.jobId = event.jobId) = true ↔ expiredRow env config now row = true) := by
    intro row event member sameId
    rw [List.any_eq_true]
    constructor
    · rintro ⟨other, otherMem, otherId⟩
      obtain ⟨inside, expired⟩ := List.mem_filter.mp otherMem
      have equal := db.jobs.key_injective inside member
        ((of_decide_eq_true otherId).trans sameId.symm)
      exact equal ▸ expired
    · intro expired
      exact ⟨row, List.mem_filter.mpr ⟨member, expired⟩, decide_eq_true sameId⟩
  refine ⟨⟨journaled.ordered.filter _, ?_⟩, ?_, ?_⟩
  · exact fun event member => journaled.bounded event (List.mem_filter.mp member).1
  · intro event member
    obtain ⟨eventMem, stays⟩ := List.mem_filter.mp member
    obtain ⟨row, rowMem, sameId⟩ := journaled.owned event eventMem
    refine ⟨row, Table.mem_filter.mpr ⟨rowMem, ?_⟩, sameId⟩
    have current := kept rowMem sameId
    cases expired : expiredRow env config now row with
    | false => rfl
    | true =>
        rw [current.mpr expired] at stays
        contradiction
  · intro row member
    obtain ⟨rowMem, stays⟩ := Table.mem_filter.mp member
    have same : (db.purge env config now).events.filter (fun event => event.jobId = row.jobId) =
        db.events.filter fun event => event.jobId = row.jobId := by
      unfold Database.purge
      dsimp only
      rw [List.filter_filter]
      refine List.filter_congr fun event _ => ?_
      by_cases sameId : event.jobId = row.jobId
      · have current := kept rowMem sameId.symm
        simp only [sameId, decide_true, Bool.true_and]
        rw [sameId] at current
        rw [Bool.not_eq_true', ← Bool.not_eq_true, current]
        simpa using stays
      · simp [sameId]
    rw [same]
    exact journaled.replays row rowMem

theorem entry (journaled : Journaled db) (entry : Entry env config now db after) :
    Journaled after := by
  cases entry with
  | quiet same => exact journaled.quiet same
  | records member f keeps detail progress => exact journaled.records member keeps detail progress
  | accepts inserted queued => exact journaled.accepts inserted queued
  | purges => exact journaled.purges

theorem entries (journaled : Journaled db) (entries : Entries env config now db after) :
    Journaled after := by
  induction entries with
  | refl => exact journaled
  | tail _ entry ih => exact ih.entry entry

theorem step (journaled : Journaled db) {call : Call} (step : Step env config db call after) :
    Journaled after :=
  step ▸ journaled.entries (entries_run call.operation db)

end Journaled

/-- A job past its retention is purged with its journal. -/
theorem purge_removes {row : JobRow} (member : row ∈ db.jobs)
    (expired : expiredRow env config now row = true) :
    (∀ next ∈ (db.purge env config now).jobs, next.jobId ≠ row.jobId) ∧
      ∀ event ∈ (db.purge env config now).events, event.jobId ≠ row.jobId := by
  constructor
  · intro next nextMem sameId
    obtain ⟨inside, stays⟩ := Table.mem_filter.mp nextMem
    rw [db.jobs.key_injective inside member sameId, expired] at stays
    contradiction
  · intro event eventMem sameId
    obtain ⟨_, stays⟩ := List.mem_filter.mp eventMem
    have found : (db.jobs.rows.filter (expiredRow env config now)).any
        (fun row => row.jobId = event.jobId) = true :=
      List.any_eq_true.mpr ⟨row, List.mem_filter.mpr ⟨member, expired⟩, decide_eq_true sameId.symm⟩
    rw [found] at stays
    contradiction

/-- In every reachable database the journal of every stored job replays to the
status of its row, no event is left of a job that is not stored, and a purge
removes a job with all of its events. -/
theorem reachable_journal_replays (env : Environment) (config : Config) {calls : List Call}
    {db : Database} (run : Run (Step env config) Database.empty calls db) :
    (∀ row ∈ db.jobs, Replays (db.jobEvents row.jobId) row.status) ∧
      (∀ jobId, db.jobs.find? jobId = none → db.jobEvents jobId = []) ∧
      ∀ now, ∀ row ∈ db.jobs, expiredRow env config now row = true →
        (∀ next ∈ (db.purge env config now).jobs, next.jobId ≠ row.jobId) ∧
          ∀ event ∈ (db.purge env config now).events, event.jobId ≠ row.jobId := by
  have journaled : Journaled db :=
    run.invariant (P := Journaled) (fun valid step => valid.step step) journaled_empty
  refine ⟨?_, ?_, fun now row member expired => purge_removes member expired⟩
  · intro row member
    rw [journaled.jobEvents]
    exact journaled.replays row member
  · intro jobId absent
    rw [journaled.jobEvents, List.filter_eq_nil_iff]
    intro event eventMem sameId
    obtain ⟨row, rowMem, rowId⟩ := journaled.owned event eventMem
    exact Table.find?_eq_none_iff.mp absent row rowMem (rowId.trans (of_decide_eq_true sameId))

/-- The journal of the health check that was created, claimed and completed. -/
theorem healthCalls_journal_replays :
    let db := execute winterEnvironment Config.default healthCalls Database.empty
    (db.jobEvents healthJob).map (fun event => (event.previousStatus, event.status)) =
        [(none, .created), (some .created, .queued), (some .queued, .running),
          (some .running, .succeeded)] ∧
      (∀ row ∈ db.jobs, Replays (db.jobEvents row.jobId) row.status) ∧
      (∀ jobId, db.jobs.find? jobId = none → db.jobEvents jobId = []) ∧
      ∀ now, ∀ row ∈ db.jobs, expiredRow winterEnvironment Config.default now row = true →
        (∀ next ∈ (db.purge winterEnvironment Config.default now).jobs,
          next.jobId ≠ row.jobId) ∧
          ∀ event ∈ (db.purge winterEnvironment Config.default now).events,
            event.jobId ≠ row.jobId :=
  ⟨by decide +kernel,
    reachable_journal_replays winterEnvironment Config.default (run_execute healthCalls _)⟩

end OhanaAgent.Jobs
