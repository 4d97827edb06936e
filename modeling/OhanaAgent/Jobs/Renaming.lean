import OhanaAgent.Jobs.Exclusivity

/-!
# What a rename moves

`_migrate_worker_identity_locked` gives the new identity the credential, the
worker, the pairing requests and the jobs of the old one.  The power journal
keeps the old name, so the wake series of a renamed worker starts again.
-/

namespace OhanaAgent.Jobs

open OhanaAgent.Encoding.Json
open OhanaAgent.Store
open OhanaAgent.Time

variable {env : Environment} {config : Config} {now : Int} {db after : Database}

/-! ## Wake statistics -/

/-- `DistributedWorkerWakeStats`. -/
structure WakeStats where
  attempts : Nat
  onTime : Nat
  late : Nat
  unanswered : Int
  abandoned : Nat
  sendFailures : Nat
  medianSeconds : Option Int
  maxSeconds : Option Int
  since : Option Int
  deriving DecidableEq

/-- The counters of `_wake_stats_locked` while it reads the journal. -/
structure WakeSeries where
  stats : WakeStats
  delays : List Int
  timedOutSinceAnswer : Bool

def WakeSeries.start : WakeSeries where
  stats := ⟨0, 0, 0, 0, 0, 0, none, none, none⟩
  delays := []
  timedOutSinceAnswer := false

/-- `detail.get(name)`, as the journal writes its flags. -/
def flag (name : String) : Value → Bool
  | .object fields => fields.lookup name.toList = some (.atom .true)
  | _ => false

/-- `int(detail.get("after_seconds", 0))`. -/
def afterSeconds : Value → Int
  | .object fields =>
      match fields.lookup "after_seconds".toList with
      | some (.number n) => n.toInt?.getD 0
      | _ => 0
  | _ => 0

/-- One turn of the loop of `_wake_stats_locked`. -/
def WakeSeries.count (series : WakeSeries) (event : PowerEvent) : WakeSeries :=
  let stats := { series.stats with since := series.stats.since.or (some event.occurredAt) }
  match event.kind with
  | .wakeSent => { series with stats := { stats with attempts := stats.attempts + 1 } }
  | .wakeFailed => { series with stats := { stats with sendFailures := stats.sendFailures + 1 } }
  | .wakeTimeout =>
      { series with
        stats := { stats with unanswered := stats.unanswered + 1 }
        timedOutSinceAnswer := true }
  | .wakeAbandoned => { series with stats := { stats with abandoned := stats.abandoned + 1 } }
  | .workerOnline =>
      if flag "manual" event.detail then { series with stats, timedOutSinceAnswer := false }
      else
        { stats :=
            if flag "late" event.detail then
              { stats with
                late := stats.late + 1
                -- a late answer settles an attempt counted as unanswered
                unanswered :=
                  if series.timedOutSinceAnswer then stats.unanswered - 1 else stats.unanswered }
            else { stats with onTime := stats.onTime + 1 }
          delays := series.delays ++ [afterSeconds event.detail]
          timedOutSinceAnswer := false }
  | _ => { series with stats }

namespace Database

/-- `_wake_stats_locked`. -/
def wakeStats (db : Database) (workerId : Text) : WakeStats :=
  let series := (db.journal workerId).foldl WakeSeries.count .start
  let ordered := series.delays.insertionSort (· ≤ ·)
  { series.stats with
    medianSeconds := ordered[ordered.length / 2]?
    maxSeconds := ordered.getLast? }

end Database

/-! ## Rows of a worker -/

section Owned

variable {α : Type} {owner : α → Option Text} {rename : α → α} {previous workerId : Text}

/-- The rows that carry an identity. -/
def ownedBy (owner : α → Option Text) (workerId : Text) (rows : List α) : List α :=
  rows.filter fun row => owner row = some workerId

/-- No row is left for the old identity, and the new one has its rows. -/
def Moved (owner : α → Option Text) (rename : α → α) (previous workerId : Text)
    (before after : List α) : Prop :=
  ownedBy owner previous after = [] ∧
    ownedBy owner workerId after = (ownedBy owner previous before).map rename

/-- The rows of the old identity, and no others, change their owner. -/
structure Renames (owner : α → Option Text) (rename : α → α) (previous workerId : Text) : Prop where
  owned : ∀ row, owner row = some previous → owner (rename row) = some workerId
  other : ∀ row, owner row ≠ some previous → rename row = row

theorem Renames.owner_eq_new (renames : Renames owner rename previous workerId) (row : α) :
    owner (rename row) = some workerId ↔
      owner row = some previous ∨ owner row = some workerId := by
  by_cases owned : owner row = some previous
  · simp [owned, renames.owned row owned]
  · simp [owned, renames.other row owned]

theorem Renames.owner_ne_old (renames : Renames owner rename previous workerId)
    (different : previous ≠ workerId) (row : α) : owner (rename row) ≠ some previous := by
  by_cases owned : owner row = some previous
  · rw [renames.owned row owned]
    simpa using Ne.symm different
  · rwa [renames.other row owned]

/-- Renaming every row of a table moves the rows exactly when the new identity
had none. -/
theorem Renames.moved_iff (renames : Renames owner rename previous workerId)
    (different : previous ≠ workerId) (rows : List α) :
    Moved owner rename previous workerId rows (rows.map rename) ↔
      ownedBy owner workerId rows = [] := by
  have cleared : ownedBy owner previous (rows.map rename) = [] := by
    rw [ownedBy, List.filter_eq_nil_iff]
    intro row member
    obtain ⟨source, _, rfl⟩ := List.mem_map.mp member
    simpa using renames.owner_ne_old different source
  have renamed : ownedBy owner workerId (rows.map rename) =
      (rows.filter fun row => owner row = some previous ∨ owner row = some workerId).map rename := by
    unfold ownedBy
    rw [List.filter_map]
    congr 1
    apply List.filter_congr
    intro row _
    simp [renames.owner_eq_new row]
  constructor
  · rintro ⟨_, same⟩
    rw [renamed] at same
    have lengths := congrArg List.length same
    rw [List.length_map, List.length_map] at lengths
    have sublist : (ownedBy owner previous rows).Sublist
        (rows.filter fun row => owner row = some previous ∨ owner row = some workerId) :=
      List.monotone_filter_right rows fun row owned => by
        simp only [decide_eq_true_eq] at owned ⊢
        exact Or.inl owned
    have equal := sublist.eq_of_length lengths.symm
    rw [ownedBy, List.filter_eq_nil_iff]
    intro row member owned
    have both : row ∈ ownedBy owner previous rows := by
      rw [equal, List.mem_filter]
      exact ⟨member, by simpa using Or.inr (by simpa using owned)⟩
    have old := (List.mem_filter.mp both).2
    simp only [decide_eq_true_eq] at old owned
    rw [old] at owned
    exact different (Option.some.inj owned)
  · intro free
    refine ⟨cleared, ?_⟩
    rw [renamed]
    congr 1
    apply List.filter_congr
    intro row member
    rw [ownedBy, List.filter_eq_nil_iff] at free
    have unowned := free row member
    simp only [decide_eq_true_eq] at unowned
    simp [unowned]

end Owned

/-! ## The five tables -/

/-- A credential under its new name. -/
def CredentialRow.renamed (previous workerId : Text) (row : CredentialRow) : CredentialRow :=
  if row.workerId = previous then { row with workerId } else row

/-- A worker under its new name. -/
def WorkerRow.renamed (previous workerId : Text) (row : WorkerRow) : WorkerRow :=
  if row.workerId = previous then { row with workerId } else row

/-- A job whose owner was renamed. -/
def JobRow.renamed (previous workerId : Text) (row : JobRow) : JobRow :=
  if row.workerId = some previous then { row with workerId := some workerId } else row

/-- A power event under its new name. -/
def PowerEvent.renamed (previous workerId : Text) (event : PowerEvent) : PowerEvent :=
  if event.workerId = previous then { event with workerId } else event

/-- Every table keyed by a worker identity moved to the new one, where the
worker itself is the one that the registration writes over the moved row, and
what is read from the journal is unchanged. -/
structure Database.MovedTo (now : Int) (registration : Registration) (previous : Text)
    (db after : Database) : Prop where
  credentials : Moved (fun row => some row.workerId)
    (CredentialRow.renamed previous registration.workerId) previous registration.workerId
    db.credentials.rows after.credentials.rows
  workers : ownedBy (fun row => some row.workerId) previous after.workers.rows = [] ∧
    ownedBy (fun row => some row.workerId) registration.workerId after.workers.rows =
      [registeredRow now registration
        ((db.workers.find? previous).map (WorkerRow.renamed previous registration.workerId))]
  pairings : Moved (fun row => some row.workerId)
    (PairingRow.renamed previous registration.workerId) previous registration.workerId
    db.pairings.rows after.pairings.rows
  jobs : Moved JobRow.workerId (JobRow.renamed previous registration.workerId) previous
    registration.workerId db.jobs.rows after.jobs.rows
  journal : Moved (fun event => some event.workerId)
    (PowerEvent.renamed previous registration.workerId) previous registration.workerId
    db.powerEvents after.powerEvents
  unansweredWakes : after.unansweredWakes registration.workerId = db.unansweredWakes previous
  wakeStats : after.wakeStats registration.workerId = db.wakeStats previous
  lastPowerEvent : after.lastPowerEvent registration.workerId =
    (db.lastPowerEvent previous).map (PowerEvent.renamed previous registration.workerId)

/-- Neither identity has a power event, and no pairing request and no job
carries the new one. -/
structure Database.Unused (db : Database) (previous workerId : Text) : Prop where
  silent : db.journal previous = []
  unjournaled : db.journal workerId = []
  unpaired : ∀ row ∈ db.pairings, row.workerId ≠ workerId
  unowned : ∀ row ∈ db.jobs, row.workerId ≠ some workerId

theorem renames_of_workerId {α : Type} {workerIdOf : α → Text} {set : α → α}
    {previous workerId : Text} (sets : ∀ row, workerIdOf (set row) = workerId) :
    Renames (fun row => some (workerIdOf row))
      (fun row => if workerIdOf row = previous then set row else row) previous workerId where
  owned row own := by
    rw [if_pos (Option.some.inj own), sets]
  other row different := if_neg fun same => different (congrArg some same)

theorem renames_jobs (previous workerId : Text) :
    Renames JobRow.workerId (JobRow.renamed previous workerId) previous workerId where
  owned row own := by
    rw [JobRow.renamed, if_pos own]
  other row different := if_neg different

/-! ## What the registration writes -/

/-- The rows of the tables after a migration. -/
theorem migrateWorkerIdentity_rows {previous workerId : Text}
    (done : db.migrateWorkerIdentity previous workerId = .ok after) :
    after.workers.rows = db.workers.rows.map (WorkerRow.renamed previous workerId) ∧
      after.jobs.rows = db.jobs.rows.map (JobRow.renamed previous workerId) ∧
      after.powerEvents = db.powerEvents := by
  unfold Database.migrateWorkerIdentity at done
  split at done
  · simp at done
  · split at done
    · simp at done
    · split at done
      · simp at done
      · split at done
        · rename_i credentials workers _ moved
          simp only [pure_eq_ok] at done
          subst done
          exact ⟨Table.rekey?_eq_some moved, rfl, rfl⟩
        · simp at done

/-- The worker of the new identity is the one of the old identity. -/
theorem find?_renamed_worker {previous workerId : Text} (different : previous ≠ workerId)
    (unknown : db.workers.find? workerId = none)
    (rows : after.workers.rows = db.workers.rows.map (WorkerRow.renamed previous workerId)) :
    after.workers.find? workerId =
      (db.workers.find? previous).map (WorkerRow.renamed previous workerId) := by
  have found := Table.find?_rekeyed (fun row : WorkerRow => { row with workerId }) (fun _ => rfl)
    unknown different rows workerId
  rw [if_pos rfl] at found
  rw [found]
  cases old : db.workers.find? previous with
  | none => rfl
  | some row =>
      have same : row.workerId = previous := (Table.find?_eq_some_iff.mp old).2
      simp [WorkerRow.renamed, same]

theorem ownedBy_workers (db : Database) (workerId : Text) :
    ownedBy (fun row => some row.workerId) workerId db.workers.rows =
      (db.workers.find? workerId).toList := by
  rw [← Table.filter_key]
  apply List.filter_congr
  intro row _
  simp

/-- After the write of a worker its identity has the written row, and the other
identities keep theirs. -/
theorem upsertWorker_eq_ok {written : WorkerRow} (done : db.upsertWorker written = .ok after) :
    after.workers.find? written.workerId = some written ∧
      (∀ other, other ≠ written.workerId → after.workers.find? other = db.workers.find? other) ∧
      after.powerEvents = db.powerEvents := by
  unfold Database.upsertWorker at done
  split at done
  · rename_i row found
    cases done
    have same : row.workerId = written.workerId := (Table.find?_eq_some_iff.mp found).2
    refine ⟨?_, ?_, rfl⟩
    · rw [Table.find?_modify_self, found, Option.map_some, same]
    · intro other different
      rw [Table.find?_modify_of_ne different]
  · split at done
    · rename_i workers inserted
      cases done
      obtain ⟨fresh, rows⟩ := Table.insert?_eq_some_iff.mp inserted
      refine ⟨?_, ?_, rfl⟩
      · apply Table.find?_eq_some_iff.mpr
        exact ⟨by rw [Table.mem_def, rows]; simp, rfl⟩
      · intro other different
        simp [Table.find?, rows, List.find?_append, Ne.symm different]
    · contradiction

/-- A registration writes its worker over the migrated one, and may then note
that a wake was answered. -/
theorem registerWorker_written {registration : Registration} {previous : Option Text}
    {row : WorkerRow} (done : db.registerWorker now registration previous = .ok (row, after)) :
    ∃ migrated written, db.migrateIfRenamed previous registration.workerId = .ok migrated ∧
      migrated.upsertWorker (Database.registeredRow now registration
        (migrated.workers.find? registration.workerId)) = .ok written ∧
      after.workers = written.workers ∧ (after = written ∨ ∃ requested expired,
        after = written.recordWorkerOnline registration.workerId requested now expired) := by
  simp only [Database.registerWorker, bind_eq_ok] at done
  obtain ⟨migrated, migration, written, upserted, done⟩ := done
  refine ⟨migrated, written, migration, upserted, ?_⟩
  split at done
  · simp only [pure_eq_ok, Prod.mk.injEq] at done
    obtain ⟨_, rfl⟩ := done
    exact ⟨rfl, Or.inl rfl⟩
  · rename_i requested _
    simp only [pure_eq_ok, Prod.mk.injEq] at done
    obtain ⟨_, rfl⟩ := done
    refine ⟨?_, Or.inr ⟨requested, _, rfl⟩⟩
    unfold Database.recordWorkerOnline
    split
    · rfl
    · dsimp only
      split <;> rfl

/-! ## The power journal -/

/-- An event of one worker leaves the journals of the others as they are. -/
theorem journal_powerEvent_of_ne {workerId other : Text} (different : other ≠ workerId)
    (kind : PowerEventKind) (detail : Value) :
    (db.powerEvent workerId kind now detail).journal other = db.journal other := by
  unfold Database.journal Database.powerEvent
  dsimp only
  rw [List.filter_filter, List.filter_append]
  rw [List.filter_congr (q := fun event => event.workerId = other)]
  · simp [Ne.symm different]
  · intro event _
    by_cases same : event.workerId = other
    · simp [same, different]
    · simp [same]

theorem exists_latest (events : List PowerEvent) (nonempty : events ≠ []) :
    ∃ last ∈ events, ∀ event ∈ events, event.eventId ≤ last.eventId := by
  induction events with
  | nil => contradiction
  | cons head rest ih =>
      by_cases alone : rest = []
      · exact ⟨head, List.mem_cons_self, by simp [alone]⟩
      · obtain ⟨last, member, greatest⟩ := ih alone
        by_cases older : head.eventId ≤ last.eventId
        · refine ⟨last, List.mem_cons_of_mem head member, ?_⟩
          intro event found
          rcases List.mem_cons.mp found with rfl | found
          · exact older
          · exact greatest event found
        · refine ⟨head, List.mem_cons_self, ?_⟩
          intro event found
          rcases List.mem_cons.mp found with rfl | found
          · exact Nat.le_refl _
          · exact (greatest event found).trans (Nat.le_of_not_le older)

/-- The journal of a worker keeps its newest event. -/
theorem journal_powerEvent_ne_nil (workerId : Text) (kind : PowerEventKind) (detail : Value) :
    (db.powerEvent workerId kind now detail).journal workerId ≠ [] := by
  unfold Database.journal Database.powerEvent
  dsimp only
  generalize split : db.powerEvents ++ [(⟨db.nextPowerEvent, workerId, now, kind, detail⟩ :
    PowerEvent)] = appended
  have own : appended.filter (fun event => event.workerId = workerId) ≠ [] := by
    rw [← split, List.filter_append]
    simp
  obtain ⟨last, member, greatest⟩ := exists_latest _ own
  obtain ⟨kept, same⟩ := List.mem_filter.mp member
  apply List.ne_nil_of_mem (a := last)
  simp only [List.mem_filter]
  refine ⟨⟨kept, ?_⟩, same⟩
  have newer : appended.filter (fun other =>
      other.workerId = workerId && decide (last.eventId < other.eventId)) = [] := by
    rw [List.filter_eq_nil_iff]
    intro other otherMem later
    simp only [Bool.and_eq_true, decide_eq_true_eq] at later
    have bounded := greatest other (List.mem_filter.mpr ⟨otherMem, by simpa using later.1⟩)
    omega
  simp [newer, powerEventRetention]

/-- A registration adds at most the answer to the last wake to the journal of
its worker. -/
theorem journal_recordWorkerOnline (workerId : Text) (requested : Int) (expired : Bool) :
    (∀ other, other ≠ workerId →
      (db.recordWorkerOnline workerId requested now expired).journal other = db.journal other) ∧
    ((db.recordWorkerOnline workerId requested now expired).journal workerId = [] ↔
      db.journal workerId = []) ∧
    (db.journal workerId = [] →
      db.recordWorkerOnline workerId requested now expired = db) := by
  unfold Database.recordWorkerOnline Database.lastPowerEvent
  cases ended : (db.journal workerId).getLast? with
  | none => exact ⟨fun _ _ => rfl, Iff.rfl, fun _ => rfl⟩
  | some last =>
      have nonempty : db.journal workerId ≠ [] := by
        intro empty
        rw [empty] at ended
        contradiction
      dsimp only
      split
      · refine ⟨fun other different => journal_powerEvent_of_ne different _ _, ?_,
          fun empty => absurd empty nonempty⟩
        exact iff_of_false (journal_powerEvent_ne_nil workerId _ _) nonempty
      · exact ⟨fun _ _ => rfl, Iff.rfl, fun empty => absurd empty nonempty⟩

theorem ownedBy_powerEvents (db : Database) (workerId : Text) :
    ownedBy (fun event => some event.workerId) workerId db.powerEvents = db.journal workerId := by
  apply List.filter_congr
  intro event _
  simp

/-! ## The rename -/

/-- What a successful rename leaves: the renamed tables, the written worker, and
the journal of the old identity where it was. -/
structure Database.Renamed (now : Int) (registration : Registration) (previous : Text)
    (db after : Database) : Prop where
  credentials : after.credentials.rows =
    db.credentials.rows.map (CredentialRow.renamed previous registration.workerId)
  untaken : ownedBy (fun row : CredentialRow => some row.workerId) registration.workerId
    db.credentials.rows = []
  previousWorker : after.workers.find? previous = none
  worker : after.workers.find? registration.workerId = some (registeredRow now registration
    ((db.workers.find? previous).map (WorkerRow.renamed previous registration.workerId)))
  pairings : after.pairings.rows =
    db.pairings.rows.map (PairingRow.renamed previous registration.workerId)
  jobs : after.jobs.rows = db.jobs.rows.map (JobRow.renamed previous registration.workerId)
  journals : ∀ other, other ≠ registration.workerId → after.journal other = db.journal other
  journal : after.journal registration.workerId = [] ↔ db.journal registration.workerId = []

theorem registerWorker_renamed {registration : Registration} {previous : Text} {row : WorkerRow}
    (named : previous ≠ []) (different : previous ≠ registration.workerId)
    (done : db.registerWorker now registration (some previous) = .ok (row, after)) :
    db.Renamed now registration previous after := by
  obtain ⟨migrated, written, migration, upserted, workers, ends⟩ := registerWorker_written done
  obtain ⟨other, otherMigration, same⟩ := registerWorker_eq_ok done
  rw [migration] at otherMigration
  cases otherMigration
  unfold Database.migrateIfRenamed at migration
  dsimp only at migration
  rw [if_pos ⟨named, different⟩] at migration
  obtain ⟨⟨untaken, _, unknown⟩, pairings, credentials⟩ := migrateWorkerIdentity_eq_ok migration
  obtain ⟨workerRows, jobs, events⟩ := migrateWorkerIdentity_rows migration
  obtain ⟨own, others, kept⟩ := upsertWorker_eq_ok upserted
  have moved := find?_renamed_worker different unknown workerRows
  have gone : migrated.workers.find? previous = none := by
    have found := Table.find?_rekeyed
      (fun row : WorkerRow => { row with workerId := registration.workerId }) (fun _ => rfl)
      unknown different workerRows previous
    rwa [if_neg different, if_pos rfl] at found
  have journals : ∀ other, written.journal other = db.journal other := by
    intro other
    unfold Database.journal
    rw [kept, events]
  refine ⟨?_, ?_, ?_, ?_, ?_, ?_, ?_, ?_⟩
  · rw [same.credentials, credentials]
    rfl
  · rw [ownedBy, List.filter_eq_nil_iff]
    intro row member owned
    exact Table.find?_eq_none_iff.mp untaken row member (by simpa using owned)
  · rw [workers, others previous different, gone]
  · rw [workers, ← moved]
    exact own
  · rw [same.pairings, pairings]
  · rw [same.jobs, jobs]
  · intro other elsewhere
    rcases ends with rfl | ⟨requested, expired, rfl⟩
    · exact journals other
    · rw [(journal_recordWorkerOnline _ requested expired).1 other elsewhere, journals]
  · rcases ends with rfl | ⟨requested, expired, rfl⟩
    · rw [journals]
    · rw [(journal_recordWorkerOnline _ requested expired).2.1, journals]

/-- A successful rename moves every table keyed by the worker exactly when
neither identity has a power event and no pairing request and no job carries the
new one. -/
theorem renamed_worker_iff {registration : Registration} {previous : Text} {row : WorkerRow}
    (named : previous ≠ []) (different : previous ≠ registration.workerId)
    (done : db.registerWorker now registration (some previous) = .ok (row, after)) :
    db.MovedTo now registration previous after ↔ db.Unused previous registration.workerId := by
  have renamed := registerWorker_renamed named different done
  have pairings : Renames (fun row => some row.workerId)
      (PairingRow.renamed previous registration.workerId) previous registration.workerId :=
    renames_of_workerId fun _ => rfl
  have credentials : Renames (fun row => some row.workerId)
      (CredentialRow.renamed previous registration.workerId) previous registration.workerId :=
    renames_of_workerId fun _ => rfl
  constructor
  · intro moved
    have silent : db.journal previous = [] := by
      rw [← renamed.journals previous different, ← ownedBy_powerEvents]
      exact moved.journal.1
    have fresh := moved.journal.2
    rw [ownedBy_powerEvents, ownedBy_powerEvents, silent, List.map_nil] at fresh
    have unpaired := moved.pairings
    rw [renamed.pairings, pairings.moved_iff different, ownedBy, List.filter_eq_nil_iff] at unpaired
    have unowned := moved.jobs
    rw [renamed.jobs, (renames_jobs _ _).moved_iff different, ownedBy,
      List.filter_eq_nil_iff] at unowned
    refine ⟨silent, renamed.journal.mp fresh, ?_, ?_⟩
    · intro row member same
      exact unpaired row member (by simp [same])
    · intro row member same
      exact unowned row member (by simp [same])
  · intro unused
    have journal := renamed.journal.mpr unused.unjournaled
    have silent := (renamed.journals previous different).trans unused.silent
    constructor
    · rw [renamed.credentials, credentials.moved_iff different]
      exact renamed.untaken
    · rw [ownedBy_workers, ownedBy_workers, renamed.previousWorker, renamed.worker]
      exact ⟨rfl, rfl⟩
    · rw [renamed.pairings, pairings.moved_iff different, ownedBy, List.filter_eq_nil_iff]
      intro row member same
      exact unused.unpaired row member (by simpa using same)
    · rw [renamed.jobs, (renames_jobs _ _).moved_iff different, ownedBy, List.filter_eq_nil_iff]
      intro row member same
      exact unused.unowned row member (by simpa using same)
    · unfold Moved
      rw [ownedBy_powerEvents, ownedBy_powerEvents, ownedBy_powerEvents, silent, journal,
        unused.silent]
      exact ⟨rfl, rfl⟩
    · simp [Database.unansweredWakes, journal, unused.silent]
    · simp [Database.wakeStats, journal, unused.silent]
    · simp [Database.lastPowerEvent, journal, unused.silent]

/-! ## A worker that did not answer -/

/-- A paired worker registers. -/
def registeredOnce : List Call :=
  pairedOnce ++ [secondsIn 3 (.registerWorker (announcement oldName) none)]

/-- Ohana wakes it, and it does not answer in time. -/
def unansweredOnce : List Call :=
  registeredOnce ++ [secondsIn 100 (.markWorkerWaking oldName 10 "manual".toList),
    secondsIn 120 (.settleUnansweredWakes 3)]

/-- The worker under its new name. -/
def newRegistration : Registration :=
  ⟨newName, [.systemHealth], ['x'], ['1'], none⟩

/-- A renamable identity is renamed by its next registration. -/
theorem exists_renamed (renamable : db.Renamable oldName newName) :
    ∃ row after, db.registerWorker now newRegistration (some oldName) = .ok (row, after) := by
  obtain ⟨migrated, migration⟩ := exists_migrateWorkerIdentity renamable
  have renamed : db.migrateIfRenamed (some oldName) newRegistration.workerId = .ok migrated := by
    unfold Database.migrateIfRenamed
    dsimp only
    rw [if_pos (by decide)]
    exact migration
  exact exists_registerWorker renamed

/-- The rename of a worker that never was woken moves everything. -/
theorem registeredOnce_renamed :
    ∃ row after, (execute winterEnvironment Config.default registeredOnce
        Database.empty).registerWorker (healthTime + 200 * second) newRegistration (some oldName) =
          .ok (row, after) ∧
      (execute winterEnvironment Config.default registeredOnce Database.empty).MovedTo
        (healthTime + 200 * second) newRegistration oldName after := by
  have renamable : (execute winterEnvironment Config.default registeredOnce
      Database.empty).Renamable oldName newName := by
    unfold Database.Renamable
    decide +kernel
  obtain ⟨row, after, done⟩ := exists_renamed renamable
  refine ⟨row, after, done, (renamed_worker_iff (by decide) (by decide) done).mpr ?_⟩
  constructor
  · decide +kernel
  · decide +kernel
  · decide +kernel
  · decide +kernel

/-- The unanswered wake stays with the old name. -/
theorem unansweredOnce_not_moved :
    ¬ ∀ (env : Environment) (config : Config) (calls : List Call) (now : Int)
      (registration : Registration) (previous : Text) (row : WorkerRow) (after : Database),
      previous ≠ [] → previous ≠ registration.workerId →
      (execute env config calls Database.empty).registerWorker now registration (some previous) =
        .ok (row, after) →
      (execute env config calls Database.empty).MovedTo now registration previous after := by
  intro all
  have renamable : (execute winterEnvironment Config.default unansweredOnce
      Database.empty).Renamable oldName newName := by
    unfold Database.Renamable
    decide +kernel
  obtain ⟨row, after, done⟩ := @exists_renamed (healthTime + 200 * second) _ renamable
  have moved := all _ _ _ _ _ _ row after (by decide) (by decide) done
  have kept := (registerWorker_renamed (by decide) (by decide) done).journals oldName (by decide)
  have left := moved.journal.1
  rw [ownedBy_powerEvents, kept] at left
  exact absurd left (by decide +kernel)

end OhanaAgent.Jobs
