import OhanaAgent.Jobs.Repository
import Mathlib.Logic.Relation

/-!
# The life of a job row

The abstract machine of the job table.  `Move` says what one write can do to a
row, `Change` what one statement can do to the table, and a `Path` is a
sequence of changes at one clock reading.  What an invariant needs is proved
here once for moves and paths; the operations are then shown to be paths.
-/

namespace OhanaAgent.Jobs

open OhanaAgent.Encoding.Json
open OhanaAgent.Store
open OhanaAgent.Time

/-- The job table. -/
abbrev JobTable := Table JobRow JobRow.jobId

/-- The arguments of the transition `cancel` makes. -/
def cancelTransition (now : Int) : Transition where
  status := .cancelled
  detail := "cancelled by Tsunade"
  finishedAt := some now
  clearLease := true

/-- A stored outcome is a result with its digest, or an error. -/
def Completed.Sound (stored : Completed) : Prop :=
  (stored.status = .succeeded ∧ stored.result.isSome ∧ stored.resultSha256.isSome) ∨
    (stored.status = .failed ∧ stored.result = none ∧ stored.resultSha256 = none ∧
      stored.error.isSome)

/-- What one write can do to a row at a clock reading. -/
inductive Move (config : Config) (now : Int) : JobRow → JobRow → Prop
  | timeout {row : JobRow} (live : row.status.recoverable = true) (due : row.deadline ≤ now) :
      Move config now row (row.transition (timeoutTransition row now) now)
  | giveUp {row : JobRow} (running : row.status = .running)
      (last : config.maxAttempts ≤ row.attempt) :
      Move config now row (row.transition (giveUpTransition row now) now)
  | retry {row : JobRow} (running : row.status = .running)
      (left : row.attempt < config.maxAttempts) :
      Move config now row (row.transition (retryTransition config row) now)
  | wait {row : JobRow} (queued : row.status = .queued) :
      Move config now row (row.transition waitingTransition now)
  | cancel {row : JobRow} (live : row.status.terminal = false) :
      Move config now row (row.transition (cancelTransition now) now)
  | claim {row : JobRow} (workerId : Text) (claimable : row.status.claimable = true) :
      Move config now row (row.claimed config now workerId)
  | renew {row : JobRow} (progress : Option Value) (running : row.status = .running)
      (shown : Decodable (row.renewed config now progress)) :
      Move config now row (row.renewed config now progress)
  | complete {row : JobRow} (stored : Completed) (running : row.status = .running)
      (sound : stored.Sound) (shown : Decodable (row.completed now stored)) :
      Move config now row (row.completed now stored)
  | settle {row : JobRow} : Move config now row { row with completionProcessed := true }
  | rename {row : JobRow} (next : Text) (owned : row.workerId.isSome) :
      Move config now row { row with workerId := some next }

/-- Any number of writes to one row. -/
abbrev Moves (config : Config) (now : Int) : JobRow → JobRow → Prop :=
  Relation.ReflTransGen (Move config now)

/-! ## What moves keep -/

/-- The fields of a row that no write changes. -/
structure SameRequest (row next : JobRow) : Prop where
  jobId : next.jobId = row.jobId
  type : next.type = row.type
  createdAt : next.createdAt = row.createdAt
  timeoutSeconds : next.timeoutSeconds = row.timeoutSeconds
  requestSha256 : next.requestSha256 = row.requestSha256
  parametersJson : next.parametersJson = row.parametersJson

theorem SameRequest.refl (row : JobRow) : SameRequest row row :=
  ⟨rfl, rfl, rfl, rfl, rfl, rfl⟩

theorem SameRequest.trans {first second third : JobRow} (left : SameRequest first second)
    (right : SameRequest second third) : SameRequest first third :=
  ⟨right.jobId.trans left.jobId, right.type.trans left.type,
    right.createdAt.trans left.createdAt, right.timeoutSeconds.trans left.timeoutSeconds,
    right.requestSha256.trans left.requestSha256, right.parametersJson.trans left.parametersJson⟩

/-- The outcome columns of a terminal row. -/
structure SameOutcome (row next : JobRow) : Prop where
  status : next.status = row.status
  finishedAt : next.finishedAt = row.finishedAt
  resultJson : next.resultJson = row.resultJson
  resultSha256 : next.resultSha256 = row.resultSha256
  errorJson : next.errorJson = row.errorJson

theorem SameOutcome.refl (row : JobRow) : SameOutcome row row :=
  ⟨rfl, rfl, rfl, rfl, rfl⟩

theorem SameOutcome.trans {first second third : JobRow} (left : SameOutcome first second)
    (right : SameOutcome second third) : SameOutcome first third :=
  ⟨right.status.trans left.status, right.finishedAt.trans left.finishedAt,
    right.resultJson.trans left.resultJson, right.resultSha256.trans left.resultSha256,
    right.errorJson.trans left.errorJson⟩

theorem not_terminal_of_recoverable {status : JobStatus} (live : status.recoverable = true) :
    status.terminal = false := by
  cases status <;> simp_all [JobStatus.recoverable, JobStatus.terminal]

theorem not_terminal_of_claimable {status : JobStatus} (claimable : status.claimable = true) :
    status.terminal = false := by
  cases status <;> simp_all [JobStatus.claimable, JobStatus.terminal]

namespace Move

variable {config : Config} {now : Int} {row next : JobRow}

theorem sameRequest (move : Move config now row next) : SameRequest row next := by
  cases move <;> exact ⟨rfl, rfl, rfl, rfl, rfl, rfl⟩

theorem attempt_le (move : Move config now row next) : row.attempt ≤ next.attempt := by
  cases move
  case claim workerId claimable => exact Nat.le_succ row.attempt
  all_goals exact Nat.le_refl row.attempt

/-- A row that could be shown can still be shown. -/
theorem decodable (move : Move config now row next) (shown : Decodable row) : Decodable next := by
  obtain ⟨parameters, result, error, progress⟩ := decodable_iff.mp shown
  cases move with
  | timeout _ _ =>
      refine decodable_iff.mpr ⟨parameters, result, ?_, progress⟩
      by_cases unclaimed : row.attempt = 0
      · simpa [JobRow.transition, timeoutTransition, unclaimed] using
          decodeColumn_error unavailableError
      · simpa [JobRow.transition, timeoutTransition, unclaimed] using error
  | giveUp _ _ =>
      exact decodable_iff.mpr
        ⟨parameters, result, decodeColumn_error (interruptedError row.attempt), progress⟩
  | retry _ _ => exact decodable_iff.mpr ⟨parameters, result, error, progress⟩
  | wait _ => exact decodable_iff.mpr ⟨parameters, result, error, progress⟩
  | cancel _ => exact decodable_iff.mpr ⟨parameters, result, error, progress⟩
  | claim _ _ => exact decodable_iff.mpr ⟨parameters, result, error, progress⟩
  | renew _ _ shown => exact shown
  | complete _ _ _ shown => exact shown
  | settle => exact decodable_iff.mpr ⟨parameters, result, error, progress⟩
  | rename _ _ => exact decodable_iff.mpr ⟨parameters, result, error, progress⟩

/-- A terminal row only changes its owner's name and its completion flag. -/
theorem sameOutcome (move : Move config now row next) (terminal : row.status.terminal = true) :
    SameOutcome row next := by
  cases move with
  | timeout live _ => simp [not_terminal_of_recoverable live] at terminal
  | giveUp running _ => simp [running, JobStatus.terminal] at terminal
  | retry running _ => simp [running, JobStatus.terminal] at terminal
  | wait queued => simp [queued, JobStatus.terminal] at terminal
  | cancel live => simp [live] at terminal
  | claim workerId claimable => simp [not_terminal_of_claimable claimable] at terminal
  | renew progress running _ => simp [running, JobStatus.terminal] at terminal
  | complete stored running _ _ => simp [running, JobStatus.terminal] at terminal
  | settle => exact ⟨rfl, rfl, rfl, rfl, rfl⟩
  | rename _ _ => exact ⟨rfl, rfl, rfl, rfl, rfl⟩

end Move

namespace Moves

variable {config : Config} {now : Int} {row next : JobRow}

theorem sameRequest (moves : Moves config now row next) : SameRequest row next := by
  induction moves with
  | refl => exact SameRequest.refl row
  | tail _ move ih => exact ih.trans move.sameRequest

theorem attempt_le (moves : Moves config now row next) : row.attempt ≤ next.attempt := by
  induction moves with
  | refl => exact Nat.le_refl row.attempt
  | tail _ move ih => exact ih.trans move.attempt_le

theorem decodable (moves : Moves config now row next) (shown : Decodable row) :
    Decodable next := by
  induction moves with
  | refl => exact shown
  | tail _ move ih => exact move.decodable ih

theorem sameOutcome (moves : Moves config now row next) (terminal : row.status.terminal = true) :
    SameOutcome row next := by
  induction moves with
  | refl => exact SameOutcome.refl row
  | tail _ move ih =>
      have stillTerminal := terminal
      rw [← ih.status] at stillTerminal
      exact ih.trans (move.sameOutcome stillTerminal)

end Moves

/-! ## Changes of the table -/

/-- What one statement can do to the table, insertions apart. -/
inductive Change (env : Environment) (config : Config) (now : Int) : JobTable → JobTable → Prop
  | moves {before after : JobTable} (f : JobRow → JobRow)
      (each : ∀ row ∈ before, f row = row ∨ Move config now row (f row))
      (rows : after.rows = before.rows.map f) : Change env config now before after
  | purge {before after : JobTable} (keep : JobRow → Bool)
      (expired : ∀ row ∈ before, keep row = false → expiredRow env config now row = true)
      (rows : after.rows = before.rows.filter keep) : Change env config now before after

/-- Any number of changes at one clock reading. -/
abbrev Path (env : Environment) (config : Config) (now : Int) : JobTable → JobTable → Prop :=
  Relation.ReflTransGen (Change env config now)

variable {env : Environment} {config : Config} {now : Int}

/-- Every row after a change comes from a row before it. -/
theorem Change.source {before after : JobTable} (change : Change env config now before after)
    {next : JobRow} (member : next ∈ after) : ∃ row ∈ before, Moves config now row next := by
  cases change with
  | moves f each rows =>
      rw [Table.mem_def, rows] at member
      obtain ⟨row, rowMem, rfl⟩ := List.mem_map.mp member
      rcases each row rowMem with same | move
      · exact ⟨row, rowMem, by rw [same]⟩
      · exact ⟨row, rowMem, .single move⟩
  | purge keep expired rows =>
      rw [Table.mem_def, rows] at member
      exact ⟨next, (List.mem_filter.mp member).1, .refl⟩

/-- Every row before a change is still there, or it was past retention. -/
theorem Change.target {before after : JobTable} (change : Change env config now before after)
    {row : JobRow} (member : row ∈ before) :
    (∃ next ∈ after, Moves config now row next) ∨ expiredRow env config now row = true := by
  cases change with
  | moves f each rows =>
      have mapped : f row ∈ after.rows := rows ▸ List.mem_map_of_mem member
      rcases each row member with same | move
      · exact Or.inl ⟨f row, mapped, by rw [same]⟩
      · exact Or.inl ⟨f row, mapped, .single move⟩
  | purge keep expired rows =>
      cases kept : keep row with
      | false => exact Or.inr (expired row member kept)
      | true =>
          have stays : row ∈ after.rows := rows ▸ List.mem_filter.mpr ⟨member, kept⟩
          exact Or.inl ⟨row, stays, .refl⟩

theorem Move.active_of_active {row next : JobRow} (move : Move config now row next)
    (active : next.status.terminal = false) : row.status.terminal = false := by
  cases terminal : row.status.terminal with
  | false => rfl
  | true =>
      rw [(move.sameOutcome terminal).status, terminal] at active
      contradiction

/-- No change makes a terminal row active again. -/
theorem Change.active_le {before after : JobTable} (change : Change env config now before after) :
    (activeRows after.rows).length ≤ (activeRows before.rows).length := by
  unfold activeRows
  rw [← List.countP_eq_length_filter, ← List.countP_eq_length_filter]
  cases change with
  | moves f each rows =>
      rw [rows, List.countP_map]
      refine List.countP_mono_left fun row member active => ?_
      rcases each row member with same | move
      · simpa [Function.comp_def, same] using active
      · have moved : (f row).status.terminal = false := by simpa using active
        simpa using move.active_of_active moved
  | purge keep _ rows =>
      rw [rows]
      exact List.filter_sublist.countP_le

namespace Path

variable {before after : JobTable}

theorem source (path : Path env config now before after) {next : JobRow} (member : next ∈ after) :
    ∃ row ∈ before, Moves config now row next := by
  induction path generalizing next with
  | refl => exact ⟨next, member, .refl⟩
  | tail _ change ih =>
      obtain ⟨middle, middleMem, second⟩ := change.source member
      obtain ⟨row, rowMem, first⟩ := ih middleMem
      exact ⟨row, rowMem, first.trans second⟩

theorem target (path : Path env config now before after) {row : JobRow} (member : row ∈ before) :
    (∃ next ∈ after, Moves config now row next) ∨
      ∃ next, Moves config now row next ∧ expiredRow env config now next = true := by
  induction path with
  | refl => exact Or.inl ⟨row, member, .refl⟩
  | tail _ change ih =>
      rcases ih with ⟨middle, middleMem, first⟩ | gone
      · rcases change.target middleMem with ⟨next, nextMem, second⟩ | expired
        · exact Or.inl ⟨next, nextMem, first.trans second⟩
        · exact Or.inr ⟨middle, first, expired⟩
      · exact Or.inr gone

theorem active_le (path : Path env config now before after) :
    (activeRows after.rows).length ≤ (activeRows before.rows).length := by
  induction path with
  | refl => exact Nat.le_refl _
  | tail _ change ih => exact change.active_le.trans ih

/-- Rewriting one row that may move is a path. -/
theorem modify {table : JobTable} {row : JobRow} {f : JobRow → JobRow} (member : row ∈ table)
    (move : Move config now row (f row)) (keeps : ∀ row, (f row).jobId = row.jobId) :
    Path env config now table (table.modify row.jobId f keeps) := by
  refine .single (.moves (fun other => if other.jobId = row.jobId then f other else other) ?_ rfl)
  intro other otherMem
  by_cases same : other.jobId = row.jobId
  · rw [if_pos same, table.key_injective otherMem member same]
    exact Or.inr move
  · rw [if_neg same]
    exact Or.inl rfl

end Path

/-! ## Recovery is a path -/

theorem move_of_dueTransition {row : JobRow} {change : Transition}
    (live : row.status.recoverable = true)
    (due : dueTransition config now row = some change) :
    Move config now row (row.transition change now) := by
  unfold dueTransition at due
  split at due
  · rename_i elapsed
    cases due
    exact .timeout live elapsed
  · split at due
    · rename_i interrupted
      split at due
      · rename_i last
        cases due
        exact .giveUp interrupted.1 last
      · rename_i left
        cases due
        exact .retry interrupted.1 (Nat.lt_of_not_le left)
    · split at due
      · rename_i waiting
        cases due
        exact .wait waiting.1
      · contradiction

@[simp]
theorem jobs_event (db : Database) (jobId : Text) (previous : Option JobStatus)
    (status : JobStatus) (now : Int) (detail : String) :
    (db.event jobId previous status now detail).jobs = db.jobs := rfl

@[simp]
theorem jobs_updateJob (db : Database) (jobId : Text) (f : JobRow → JobRow)
    (keeps : ∀ row, (f row).jobId = row.jobId) :
    (db.updateJob jobId f keeps).jobs = db.jobs.modify jobId f keeps := rfl

@[simp]
theorem jobs_transition (db : Database) (row : JobRow) (change : Transition) (now : Int) :
    (db.transition row change now).jobs =
      db.jobs.modify row.jobId (fun current => current.transition change now)
        fun current => current.jobId_transition change now := rfl

theorem recoverRow_path {db : Database} {row : JobRow} (member : row ∈ db.jobs)
    (live : row.status.recoverable = true) :
    Path env config now db.jobs (db.recoverRow config now row).jobs := by
  unfold Database.recoverRow
  split
  · rename_i change due
    rw [jobs_transition]
    exact Path.modify member (move_of_dueTransition live due) _
  · exact .refl

/-- A turn of the loop leaves the other rows alone. -/
theorem mem_recoverRow {db : Database} {row other : JobRow} (member : other ∈ db.jobs)
    (different : other.jobId ≠ row.jobId) : other ∈ (db.recoverRow config now row).jobs := by
  unfold Database.recoverRow
  split
  · rw [jobs_transition]
    exact Table.mem_modify.mpr (Or.inr ⟨member, different⟩)
  · exact member

/-- The recovery loop is a path; the snapshot rows are still in the table when
their turn comes, because every turn writes another row. -/
theorem foldl_recoverRow_path (rows : List JobRow) {db : Database}
    (members : ∀ row ∈ rows, row ∈ db.jobs) (live : ∀ row ∈ rows, row.status.recoverable = true)
    (distinct : (rows.map JobRow.jobId).Nodup) :
    Path env config now db.jobs (rows.foldl (Database.recoverRow config now) db).jobs := by
  induction rows generalizing db with
  | nil => exact .refl
  | cons row rows ih =>
      rw [List.map_cons, List.nodup_cons] at distinct
      have first : Path env config now db.jobs (db.recoverRow config now row).jobs :=
        recoverRow_path (members row List.mem_cons_self) (live row List.mem_cons_self)
      refine first.trans (ih ?_ ?_ distinct.2)
      · intro other otherMem
        refine mem_recoverRow (members other (List.mem_cons_of_mem row otherMem)) ?_
        intro same
        exact distinct.1 (same ▸ List.mem_map_of_mem otherMem)
      · exact fun other otherMem => live other (List.mem_cons_of_mem row otherMem)

theorem purge_path (db : Database) :
    Path env config now db.jobs (db.purge env config now).jobs := by
  refine .single (.purge (fun row => !expiredRow env config now row) ?_ rfl)
  intro row _ dropped
  simpa using dropped

theorem recover_path (db : Database) :
    Path env config now db.jobs (db.recover env config now).jobs := by
  have loop : Path env config now db.jobs
      ((db.jobs.rows.filter fun row => row.status.recoverable).foldl
        (Database.recoverRow config now) db).jobs := by
    refine foldl_recoverRow_path _ ?_ ?_ ?_
    · exact fun row member => (List.mem_filter.mp member).1
    · exact fun row member => by simpa using (List.mem_filter.mp member).2
    · exact db.jobs.distinct.sublist (List.filter_sublist.map JobRow.jobId)
  exact loop.trans (purge_path _)

/-! ## Recovery row by row -/

/-- What the recovery loop makes of a row. -/
def JobRow.recovered (config : Config) (now : Int) (row : JobRow) : JobRow :=
  if row.status.recoverable then
    match dueTransition config now row with
    | some change => row.transition change now
    | none => row
  else row

theorem recovered_jobId (row : JobRow) : (row.recovered config now).jobId = row.jobId := by
  unfold JobRow.recovered
  split
  · split <;> rfl
  · rfl

theorem rows_recoverRow {db : Database} {row : JobRow} (member : row ∈ db.jobs)
    (live : row.status.recoverable = true) :
    (db.recoverRow config now row).jobs.rows =
      db.jobs.rows.map fun other => if other = row then row.recovered config now else other := by
  unfold Database.recoverRow JobRow.recovered
  rw [if_pos live]
  cases due : dueTransition config now row with
  | some change =>
      dsimp only
      rw [jobs_transition, Table.rows_modify]
      refine List.map_congr_left fun other otherMem => ?_
      by_cases same : other.jobId = row.jobId
      · have equal := db.jobs.key_injective otherMem member same
        rw [if_pos same, if_pos equal, equal]
      · have different : other ≠ row := fun equal => same (equal ▸ rfl)
        rw [if_neg same, if_neg different]
  | none =>
      symm
      refine List.map_id'' (fun other => ?_) _
      split
      · rename_i equal
        exact equal.symm
      · rfl

theorem rows_foldl_recoverRow (rows : List JobRow) {db : Database}
    (members : ∀ row ∈ rows, row ∈ db.jobs) (live : ∀ row ∈ rows, row.status.recoverable = true)
    (distinct : (rows.map JobRow.jobId).Nodup) :
    (rows.foldl (Database.recoverRow config now) db).jobs.rows =
      db.jobs.rows.map fun row => if row ∈ rows then row.recovered config now else row := by
  induction rows generalizing db with
  | nil => simp
  | cons row rows ih =>
      rw [List.map_cons, List.nodup_cons] at distinct
      have outside : ∀ other ∈ rows, other.jobId ≠ row.jobId := fun other otherMem same =>
        distinct.1 (same ▸ List.mem_map_of_mem otherMem)
      rw [List.foldl_cons, ih _ _ distinct.2, rows_recoverRow (members row List.mem_cons_self)
        (live row List.mem_cons_self), List.map_map]
      · refine List.map_congr_left fun other _ => ?_
        by_cases same : other = row
        · have fresh : row.recovered config now ∉ rows := fun found =>
            outside _ found (recovered_jobId row)
          simp [same, fresh]
        · simp [same]
      · exact fun other otherMem =>
          mem_recoverRow (members other (List.mem_cons_of_mem row otherMem)) (outside other otherMem)
      · exact fun other otherMem => live other (List.mem_cons_of_mem row otherMem)

/-- Recovery rewrites every row and then drops the expired ones. -/
theorem rows_recover (db : Database) :
    (db.recover env config now).jobs.rows =
      (db.jobs.rows.map (JobRow.recovered config now)).filter
        fun row => !expiredRow env config now row := by
  have loop : ((db.jobs.rows.filter fun row => row.status.recoverable).foldl
      (Database.recoverRow config now) db).jobs.rows = db.jobs.rows.map fun row =>
        if row ∈ db.jobs.rows.filter (fun row => row.status.recoverable)
        then row.recovered config now else row := by
    refine rows_foldl_recoverRow _ ?_ ?_ ?_
    · exact fun row member => (List.mem_filter.mp member).1
    · exact fun row member => by simpa using (List.mem_filter.mp member).2
    · exact db.jobs.distinct.sublist (List.filter_sublist.map JobRow.jobId)
  unfold Database.recover Database.purge
  dsimp only
  rw [Table.rows_filter, loop]
  congr 1
  refine List.map_congr_left fun row member => ?_
  by_cases live : row.status.recoverable = true
  · rw [if_pos (List.mem_filter.mpr ⟨member, live⟩)]
  · have outside : row ∉ db.jobs.rows.filter fun row => row.status.recoverable := fun found =>
      live (by simpa using (List.mem_filter.mp found).2)
    rw [if_neg outside, JobRow.recovered, if_neg live]

theorem mem_recover {db : Database} {row : JobRow} :
    row ∈ (db.recover env config now).jobs ↔
      (∃ source ∈ db.jobs, source.recovered config now = row) ∧
        expiredRow env config now row = false := by
  rw [Table.mem_def, rows_recover, List.mem_filter, List.mem_map]
  simp [Table.mem_def]

end OhanaAgent.Jobs
