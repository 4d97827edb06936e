import Mathlib.Data.List.Sort
import OhanaAgent.Encoding.JsonRoundTrip
import OhanaAgent.Encoding.Lines
import OhanaAgent.Scheduler.CronTrigger
import OhanaAgent.Store.Table
import OhanaAgent.Store.Transaction

/-!
# Scheduled tasks

A task has a trigger, which says when it is due, and a list of extra runs that
were requested.  An execution is recorded in the trigger whatever it came from,
and takes every request whose time has come.
-/

namespace OhanaAgent.Scheduler

open Encoding Encoding.Json Time Store
open Privacy (isWhitespace)

/-! ## Triggers -/

/-- `IntervalTrigger`, with the state of `BaseTrigger`. -/
structure IntervalTrigger where
  interval : Int
  positive : 0 < interval
  startAt : Option Int
  lastRunAt : Option Int
  fireCount : Nat
  lastExecutedAt : Option Int

namespace IntervalTrigger

/-- An interval that never ran and has no start waits for a request. -/
def isDue (trigger : IntervalTrigger) (now : Int) : Bool :=
  match trigger.lastRunAt, trigger.startAt with
  | none, some startAt => startAt ≤ now
  | none, none => false
  | some lastRunAt, _ => lastRunAt + trigger.interval ≤ now

def markExecuted (trigger : IntervalTrigger) (executedAt : Int) : IntervalTrigger :=
  { trigger with
    fireCount := trigger.fireCount + 1
    lastExecutedAt := some executedAt
    lastRunAt := some executedAt }

end IntervalTrigger

/-- `OneShotTrigger`, with the state of `BaseTrigger`. -/
structure OneShotTrigger where
  runAt : Int
  executed : Bool
  fireCount : Nat
  lastExecutedAt : Option Int

namespace OneShotTrigger

def isDue (trigger : OneShotTrigger) (now : Int) : Bool :=
  !trigger.executed && trigger.runAt ≤ now

def markExecuted (trigger : OneShotTrigger) (executedAt : Int) : OneShotTrigger :=
  { trigger with
    fireCount := trigger.fireCount + 1
    lastExecutedAt := some executedAt
    executed := true }

end OneShotTrigger

/-- The triggers of `BaseTrigger`. -/
inductive Trigger where
  | interval (trigger : IntervalTrigger)
  | oneShot (trigger : OneShotTrigger)
  | cron (trigger : CronTrigger)

namespace Trigger

/-- `is_due`; the clock is the zone of the readings. -/
def isDue (clock : Zone) (now : Int) : Trigger → Bool
  | .interval trigger => trigger.isDue now
  | .oneShot trigger => trigger.isDue now
  | .cron trigger => trigger.isDue clock now

def markExecuted (executedAt : Int) : Trigger → Trigger
  | .interval trigger => .interval (trigger.markExecuted executedAt)
  | .oneShot trigger => .oneShot (trigger.markExecuted executedAt)
  | .cron trigger => .cron (trigger.markExecuted executedAt)

def fireCount : Trigger → Nat
  | .interval trigger => trigger.fireCount
  | .oneShot trigger => trigger.fireCount
  | .cron trigger => trigger.fireCount

def lastExecutedAt : Trigger → Option Int
  | .interval trigger => trigger.lastExecutedAt
  | .oneShot trigger => trigger.lastExecutedAt
  | .cron trigger => trigger.lastExecutedAt

end Trigger

/-- The arguments of a trigger's constructor. -/
inductive TriggerConfig where
  | interval (every : Int) (startAt : Option Int)
  | oneShot (runAt : Int)
  | cron (expression : Text) (timezone : Option LocalZone)

/-- Why a task or its trigger is refused. -/
inductive TaskError where
  | interval
  | cron (error : CronError)
  | command
  | priority
  | exists_ (id : Text)
  | notFound (id : Text)

def TaskError.message : TaskError → String
  | .interval => "interval must be greater than zero"
  | .cron error => error.message
  | .command => "task command must not be empty"
  | .priority => "task priority must be greater than or equal to zero"
  | .exists_ id => "task already exists: " ++ String.ofList id
  | .notFound id => "task not found: " ++ String.ofList id

/-- The `__post_init__` of each trigger. -/
def TriggerConfig.create : TriggerConfig → Except TaskError Trigger
  | .interval every startAt =>
      if positive : 0 < every then .ok (.interval ⟨every, positive, startAt, none, 0, none⟩)
      else .error .interval
  | .oneShot runAt => .ok (.oneShot ⟨runAt, false, 0, none⟩)
  | .cron expression timezone =>
      match CronTrigger.ofExpression expression timezone with
      | .ok trigger => .ok (.cron trigger)
      | .error error => .error (.cron error)

/-! ## Tasks -/

/-- `TaskState`. -/
inductive TaskState where
  | idle
  | running
  | waiting
  | disabled
deriving DecidableEq

structure Task where
  id : Text
  command : Text
  name : Text
  arguments : Fields
  metadata : Fields
  priority : Nat
  enabled : Bool
  state : TaskState
  trigger : Trigger
  lastStartedAt : Option Int
  lastFinishedAt : Option Int
  lastFailedAt : Option Int
  lastError : Option String
  runRequests : List Int

/-- The arguments of `Task`. -/
structure TaskConfig where
  id : Text
  command : Text
  name : Option Text
  arguments : Fields
  metadata : Fields
  priority : Int
  enabled : Bool
  trigger : TriggerConfig

/-- `Task.__post_init__`. -/
def TaskConfig.create (config : TaskConfig) : Except TaskError Task := do
  let trigger ← config.trigger.create
  if trim isWhitespace config.command = [] then throw .command
  else if config.priority < 0 then throw .priority
  else
    return {
      id := config.id
      command := config.command
      name := config.name.getD config.command
      arguments := config.arguments
      metadata := config.metadata
      priority := config.priority.toNat
      enabled := config.enabled
      state := if config.enabled then .idle else .disabled
      trigger
      lastStartedAt := none
      lastFinishedAt := none
      lastFailedAt := none
      lastError := none
      runRequests := [] }

namespace Task

/-- `is_due`: enabled, and due by its trigger or by a request. -/
def isDue (clock : Zone) (now : Int) (task : Task) : Bool :=
  task.enabled && (task.trigger.isDue clock now || task.runRequests.any fun requested =>
    requested ≤ now)

/-- `request_run`. -/
def requestRun (at_ : Int) (task : Task) : Task :=
  { task with runRequests := (task.runRequests ++ [at_]).insertionSort (· ≤ ·) }

/-- `_consume_run_requests`. -/
def consumeRunRequests (executedAt : Int) (task : Task) : Task :=
  { task with runRequests := task.runRequests.filter fun requested => executedAt < requested }

def markStarted (startedAt : Int) (task : Task) : Task :=
  { task with state := .running, lastStartedAt := some startedAt, lastError := none }

def markFinished (finishedAt : Int) (task : Task) : Task :=
  { task with
    state := .waiting
    lastFinishedAt := some finishedAt
    trigger := task.trigger.markExecuted finishedAt }.consumeRunRequests finishedAt

def markFailed (failedAt : Int) (error : String) (task : Task) : Task :=
  { task with
    state := .waiting
    lastFailedAt := some failedAt
    lastError := some error
    trigger := task.trigger.markExecuted failedAt }.consumeRunRequests failedAt

def disable (task : Task) : Task :=
  { task with enabled := false, state := .disabled }

def enable (task : Task) : Task :=
  { task with enabled := true, state := .idle }

/-- The key `(task.priority, task.name)`, as an order. -/
def Before (first second : Task) : Prop :=
  first.priority < second.priority ∨ (first.priority = second.priority ∧ first.name ≤ second.name)

instance : DecidableRel Before :=
  fun first second => inferInstanceAs (Decidable (first.priority < second.priority ∨
    (first.priority = second.priority ∧ first.name ≤ second.name)))

instance : Std.Total Before where
  total first second := by
    rcases lt_trichotomy first.priority second.priority with less | same | greater
    · exact Or.inl (Or.inl less)
    · exact (List.le_total first.name second.name).imp (fun le => Or.inr ⟨same, le⟩)
        fun le => Or.inr ⟨same.symm, le⟩
    · exact Or.inr (Or.inl greater)

instance : IsTrans Task Before where
  trans first second third := by
    rintro (less | ⟨same, le⟩) (later | ⟨equal, rest⟩)
    · exact Or.inl (less.trans later)
    · exact Or.inl (equal ▸ less)
    · exact Or.inl (same ▸ later)
    · exact Or.inr ⟨same.trans equal, List.le_trans le rest⟩

theorem id_requestRun (at_ : Int) (task : Task) : (task.requestRun at_).id = task.id := rfl

theorem id_markStarted (startedAt : Int) (task : Task) :
    (task.markStarted startedAt).id = task.id := rfl

theorem id_markFinished (finishedAt : Int) (task : Task) :
    (task.markFinished finishedAt).id = task.id := rfl

theorem id_markFailed (failedAt : Int) (error : String) (task : Task) :
    (task.markFailed failedAt error).id = task.id := rfl

theorem id_disable (task : Task) : task.disable.id = task.id := rfl

theorem id_enable (task : Task) : task.enable.id = task.id := rfl

end Task

/-! ## The registry -/

/-- `TaskRegistry`. -/
abbrev TaskRegistry := Table Task Task.id

namespace TaskRegistry

/-- `add`. -/
def add (task : Task) (registry : TaskRegistry) : Except TaskError TaskRegistry :=
  match Table.insert? registry task with
  | none => .error (.exists_ task.id)
  | some registry => .ok registry

/-- `remove`. -/
def remove (id : Text) (registry : TaskRegistry) : Except TaskError (Task × TaskRegistry) :=
  match Table.find? registry id with
  | none => .error (.notFound id)
  | some task => .ok (task, Table.filter registry fun other => other.id ≠ id)

/-- `list`. -/
def list (registry : TaskRegistry) : List Task :=
  registry.rows.insertionSort Task.Before

/-- `due_tasks`. -/
def dueTasks (clock : Zone) (now : Int) (registry : TaskRegistry) : List Task :=
  (registry.rows.filter (Task.isDue clock now)).insertionSort Task.Before

end TaskRegistry

end OhanaAgent.Scheduler
