import OhanaAgent.Jobs.Contracts
import OhanaAgent.Store.Transaction
import Mathlib.Data.List.Sort

/-!
# Transitions, recovery and retention

`_transition_locked` writes one row and one event.  `_recover_locked` runs at
the start of almost every operation: it decides, for each live row, at most one
transition, and then deletes the terminal rows that are past retention.
-/

namespace OhanaAgent.Jobs

open OhanaAgent.Encoding.Json
open OhanaAgent.Store
open OhanaAgent.Time

namespace Database

/-- `_select_locked`. -/
def select (db : Database) (jobId : Text) : Option JobRow :=
  db.jobs.find? jobId

/-- `_select_required_locked`. -/
def selectRequired (db : Database) (jobId : Text) : Except Failure JobRow :=
  match db.select jobId with
  | some row => .ok row
  | none => .error (.lookup ("distributed job not found: " ++ String.ofList jobId))

/-- `_event_locked`. -/
def event (db : Database) (jobId : Text) (previous : Option JobStatus) (status : JobStatus)
    (now : Int) (detail : String) : Database :=
  { db with
    events := db.events ++ [
      { eventId := db.nextEvent
        jobId := jobId
        occurredAt := now
        previousStatus := previous
        status := status
        detail := detail }]
    nextEvent := db.nextEvent + 1 }

/-- `UPDATE distributed_jobs SET … WHERE job_id = ?`. -/
def updateJob (db : Database) (jobId : Text) (f : JobRow → JobRow)
    (keeps : ∀ row, (f row).jobId = row.jobId) : Database :=
  { db with jobs := db.jobs.modify jobId f keeps }

end Database

/-- The arguments of one `_transition_locked` call. -/
structure Transition where
  status : JobStatus
  detail : String
  finishedAt : Option Int := none
  clearLease : Bool := false
  clearOwner : Bool := false
  error : Option Value := none

/-- The columns a transition writes, and the completion flag of the types that
Tsunade settles. -/
def JobRow.transition (row : JobRow) (change : Transition) (now : Int) : JobRow :=
  { row with
    status := change.status
    finishedAt := change.finishedAt.or row.finishedAt
    workerId := if change.clearOwner then none else row.workerId
    leaseExpiresAt := if change.clearLease then none else row.leaseExpiresAt
    errorJson := (change.error.map json).or row.errorJson
    updatedAt := now
    completionProcessed :=
      if change.status.terminal && row.type.settledByTsunade then false
      else row.completionProcessed }

@[simp]
theorem JobRow.jobId_transition (row : JobRow) (change : Transition) (now : Int) :
    (row.transition change now).jobId = row.jobId := rfl

/-- `_transition_locked`. -/
def Database.transition (db : Database) (row : JobRow) (change : Transition) (now : Int) :
    Database :=
  (db.updateJob row.jobId (fun current => current.transition change now) fun current =>
    current.jobId_transition change now).event
    row.jobId (some row.status) change.status now change.detail

/-- The error of a job no worker claimed. -/
def unavailableError : JobError where
  code := "worker.unavailable".toList
  message := ("Aucun worker Katsuyu n'a pris ce travail avant son " ++
    "échéance (Bubule éteint ou injoignable).").toList
  retryable := true

/-- The error of a job whose worker stopped at every attempt. -/
def interruptedError (attempt : Nat) : JobError where
  code := "worker.interrupted".toList
  message := ("Katsuyu s'est arrêté " ++ toString attempt ++ " fois pendant ce " ++
    "travail (PC éteint, redémarré ou worker arrêté) : " ++ "abandon.").toList
  retryable := false

/-- The deadline transition. -/
def timeoutTransition (row : JobRow) (now : Int) : Transition where
  status := .timeout
  detail :=
    if row.attempt = 0 then "no worker claimed the job before its timeout"
    else "job timeout elapsed"
  finishedAt := some now
  clearLease := true
  error := if row.attempt = 0 then some unavailableError.modelDump else none

/-- The transition of a lease that expired on the last attempt. -/
def giveUpTransition (row : JobRow) (now : Int) : Transition where
  status := .failed
  detail := "worker lease expired on attempt " ++ toString row.attempt ++ "; giving up"
  finishedAt := some now
  clearLease := true
  error := some (interruptedError row.attempt).modelDump

/-- The transition of a lease that expired with attempts left. -/
def retryTransition (config : Config) (row : JobRow) : Transition where
  status := .queued
  detail := "worker lease expired; queued for retry (attempt " ++ toString row.attempt ++ "/" ++
    toString config.maxAttempts ++ ")"
  clearLease := true
  clearOwner := true

/-- The transition of a queued job no worker asked for. -/
def waitingTransition : Transition where
  status := .waitingWorker
  detail := "no compatible worker has claimed the job"

/-- The body of the recovery loop: the transition that is due for a row. -/
def dueTransition (config : Config) (now : Int) (row : JobRow) : Option Transition :=
  if row.deadline ≤ now then some (timeoutTransition row now)
  else if row.status = .running ∧ ∃ lease ∈ row.leaseExpiresAt, lease ≤ now then
    if config.maxAttempts ≤ row.attempt then some (giveUpTransition row now)
    else some (retryTransition config row)
  else if row.status = .queued ∧
      row.createdAt + seconds config.waitingWorkerAfterSeconds ≤ now then
    some waitingTransition
  else none

/-- One turn of the recovery loop. -/
def Database.recoverRow (config : Config) (now : Int) (db : Database) (row : JobRow) : Database :=
  match dueTransition config now row with
  | some change => db.transition row change now
  | none => db

/-- A terminal row whose stored end is before the retention cutoff, as the
texts compare. -/
def expiredRow (env : Environment) (config : Config) (now : Int) (row : JobRow) : Bool :=
  row.status.terminal &&
    match row.finishedAt with
    | none => false
    | some finished =>
        env.timestamp finished < env.timestamp (now - config.retentionDays * day)

/-- `_purge_locked`. -/
def Database.purge (env : Environment) (config : Config) (now : Int) (db : Database) : Database :=
  let expired := db.jobs.rows.filter (expiredRow env config now)
  { db with
    events := db.events.filter fun event => !(expired.any fun row => row.jobId = event.jobId)
    jobs := db.jobs.filter fun row => !expiredRow env config now row }

/-- `_recover_locked`. -/
def Database.recover (env : Environment) (config : Config) (now : Int) (db : Database) :
    Database :=
  let rows := db.jobs.rows.filter fun row => row.status.recoverable
  (rows.foldl (Database.recoverRow config now) db).purge env config now

end OhanaAgent.Jobs
