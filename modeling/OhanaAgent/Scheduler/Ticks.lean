import OhanaAgent.Observation.MonitoringSchedule
import OhanaAgent.Scheduler.Tasks
import OhanaAgent.Transition.Run

/-!
# Ticks of the scheduler

A tick executes the tasks that are due when it reads the clock, one after the
other.  The handlers of what a task observes may ask for more runs before the
task is marked finished.  Outside its monitoring periods a task is not called:
its suspension is announced once, and the execution counts as finished.
Reconfigurations wait for the end of a tick.
-/

namespace OhanaAgent.Scheduler

set_option linter.dupNamespace false

open Encoding Encoding.Json Observation Time Store
open Privacy (isWhitespace)

/-! ## What is called, and what it answers -/

/-- What `execute` reaches for a command. -/
inductive Call where
  | jobRunner (arguments : Fields) (now : Int)
  | preventiveBackfill (now : Int)
  | wakeDispatcher (now : Int)
  | backupThread (arguments : Fields)
  | dispatcher (command : Text) (arguments : Fields)

/-- One call of `request_runs`, and the clock it reads. -/
structure RunRequest where
  now : Int
  matches_ : Task → Bool
  delays : List Int

/-- What an execution meets: the exception of its call, if any, and the runs
that the handlers of its observation ask for. -/
structure Outcome where
  error : Option String
  requests : List RunRequest

/-- What the scheduler says and does. -/
inductive Output where
  | started
  | stopped
  | ticked
  | requested (id : Text) (at_ : Int)
  | triggered (id : Text)
  | suspended (id : Text) (reason : String) (nextActivation : Option Int)
  | called (id : Text) (call : Call)
  | executed (id : Text) (at_ : Int)
  | failed (id : Text) (at_ : Int) (error : String)
  | escaped (id : Text) (error : String)
  | added (id : Text)
  | removed (id : Text)
  | refused (error : TaskError)

/-- `TaskExecutionResult`, or the exception that leaves `execute`. -/
inductive TaskExecutionResult where
  | success
  | failure (error : String)
  | escape (error : String)

/-- What a tick puts out after an execution. -/
def TaskExecutionResult.output (id : Text) (now : Int) : TaskExecutionResult → Output
  | .success => .executed id now
  | .failure error => .failed id now error
  | .escape error => .escaped id error

def TaskExecutionResult.escapes : TaskExecutionResult → Bool
  | .escape _ => true
  | _ => false

/-- The clock, and the optional services of `DispatcherTaskExecutor`. -/
structure Environment where
  clock : Zone
  jobRunner : Bool
  preventiveBackfill : Bool
  wakeDispatcher : Bool

/-- `SchedulerState`, between two operations. -/
inductive SchedulerState where
  | stopped
  | running
deriving DecidableEq

/-- `Scheduler`, with its runtime and its executor. -/
structure Scheduler where
  state : SchedulerState
  startedAt : Option Int
  stoppedAt : Option Int
  lastTickAt : Option Int
  tickCount : Nat
  tasksExecuted : Nat
  tasksFailed : Nat
  registry : TaskRegistry
  schedules : Option (Text → Option Schedule)
  suspendedTasks : List Text

/-- What an execution leaves, puts out and returns. -/
structure Execution where
  scheduler : Scheduler
  outputs : List Output
  result : TaskExecutionResult

/-- A scheduler without tasks. -/
def Scheduler.initial (schedules : Option (Text → Option Schedule)) : Scheduler :=
  ⟨.stopped, none, none, none, 0, 0, 0, ∅, schedules, []⟩

/-- The `node_id` of the metadata, when it is a text. -/
def Task.nodeId (task : Task) : Option Text :=
  match task.metadata.lookup "node_id".toList with
  | some (.string nodeId) => some nodeId
  | _ => none

/-- Whether a task belongs to a plugin: `replace_plugin_tasks` selects by the
command and by the `managed_by` of the metadata. -/
def Task.managedBy (plugin : Text) (task : Task) : Bool :=
  (plugin ++ ['.']).isPrefixOf task.command ||
    task.metadata.lookup "managed_by".toList = some (.string plugin)

/-- `MonitoringScheduleRegistry.decision`: without a node or a schedule, active. -/
def monitoringDecision (schedules : Text → Option Schedule) (nodeId : Option Text) (now : Int) :
    MonitoringDecision :=
  match nodeId with
  | none => ⟨true, none, none, none⟩
  | some nodeId =>
      if trim isWhitespace nodeId = [] then ⟨true, none, none, none⟩
      else
        match schedules (trim isWhitespace nodeId) with
        | none => ⟨true, none, none, none⟩
        | some schedule => schedule.decision now

/-- What the command of a task calls, or why it cannot. -/
def Task.call (environment : Environment) (now : Int) (task : Task) : Except String Call :=
  if task.command = "jobs.logs.health_check".toList then
    if environment.jobRunner then .ok (.jobRunner task.arguments now)
    else .error "distributed log job runner is unavailable"
  else if task.command = "jobs.preventive.backfill".toList then
    if environment.preventiveBackfill then .ok (.preventiveBackfill now)
    else .error "preventive backfill is unavailable"
  else if task.command = "jobs.wake.dispatch".toList then
    if environment.wakeDispatcher then .ok (.wakeDispatcher now)
    else .error "distributed wake dispatcher is unavailable"
  else if task.command = "backup.run".toList then .ok (.backupThread task.arguments)
  else .ok (.dispatcher task.command task.arguments)

/-- The exception of a call: a backup runs in a thread of its own. -/
def Call.error (outcome : Outcome) : Call → Option String
  | .backupThread _ => none
  | _ => outcome.error

/-- The times that a call of `request_runs` asks for. -/
def RunRequest.times (request : RunRequest) : List Int :=
  request.delays.map fun delay => request.now + delay

/-- Several requests for one task. -/
def Task.requestRuns (times : List Int) (task : Task) : Task :=
  times.foldl (fun task at_ => task.requestRun at_) task

theorem Task.id_requestRuns (times : List Int) (task : Task) :
    (task.requestRuns times).id = task.id := by
  unfold Task.requestRuns
  induction times generalizing task with
  | nil => rfl
  | cons at_ rest ih => rw [List.foldl_cons, ih, Task.id_requestRun]

/-- The tasks that a call of `request_runs` selects. -/
def RunRequest.selects (request : RunRequest) (task : Task) : Bool :=
  task.enabled && request.matches_ task

/-- What a call of `request_runs` does to a task. -/
def RunRequest.apply (request : RunRequest) (task : Task) : Task :=
  if request.selects task then task.requestRuns request.times else task

theorem RunRequest.id_apply (request : RunRequest) (task : Task) :
    (request.apply task).id = task.id := by
  unfold RunRequest.apply
  split
  · exact Task.id_requestRuns request.times task
  · rfl

namespace Scheduler

/-! ## Executing a task -/

/-- `request_runs`. -/
def requestRuns (request : RunRequest) (scheduler : Scheduler) : Scheduler × List Output :=
  let matched := (TaskRegistry.list scheduler.registry).filter request.selects
  ({ scheduler with registry := scheduler.registry.mapRows request.apply request.id_apply },
    matched.flatMap fun task => request.times.map fun at_ => .requested task.id at_)

/-- The calls of `request_runs` of one execution, in order. -/
def requestAll : List RunRequest → Scheduler → Scheduler × List Output
  | [], scheduler => (scheduler, [])
  | request :: rest, scheduler =>
      let first := scheduler.requestRuns request
      let more := first.1.requestAll rest
      (more.1, first.2 ++ more.2)

def markStarted (id : Text) (now : Int) (scheduler : Scheduler) : Scheduler :=
  { scheduler with
    registry := scheduler.registry.modify id (Task.markStarted now) (Task.id_markStarted now) }

def markFinished (id : Text) (now : Int) (scheduler : Scheduler) : Scheduler :=
  { scheduler with
    registry := scheduler.registry.modify id (Task.markFinished now) (Task.id_markFinished now) }

def markFailed (id : Text) (now : Int) (error : String) (scheduler : Scheduler) : Scheduler :=
  { scheduler with
    registry := scheduler.registry.modify id (Task.markFailed now error)
      (Task.id_markFailed now error) }

/-- Forget that a task was suspended: `_suspended_tasks.discard`. -/
def resume (id : Text) (scheduler : Scheduler) : Scheduler :=
  match scheduler.schedules with
  | none => scheduler
  | some _ =>
      { scheduler with suspendedTasks := scheduler.suspendedTasks.filter fun other => other ≠ id }

/-- The decision that suspends a task. -/
def suspension (task : Task) (now : Int) (scheduler : Scheduler) : Option MonitoringDecision :=
  match scheduler.schedules with
  | none => none
  | some schedules =>
      let decision := monitoringDecision schedules task.nodeId now
      if decision.active then none else some decision

/-- Remember that a task was announced as suspended. -/
def suspend (id : Text) (scheduler : Scheduler) : Scheduler :=
  { scheduler with suspendedTasks := scheduler.suspendedTasks ++ [id] }

/-- The branch of `execute` for a suspended task. -/
def executeSuspended (now : Int) (outcome : Outcome) (task : Task) (decision : MonitoringDecision)
    (scheduler : Scheduler) : Execution :=
  if task.id ∈ scheduler.suspendedTasks then
    ⟨scheduler.markFinished task.id now, [], .success⟩
  else
    let asked := scheduler.requestAll outcome.requests
    match outcome.error with
    | some error => ⟨asked.1, asked.2, .escape error⟩
    | none =>
        ⟨(asked.1.suspend task.id).markFinished task.id now,
          asked.2 ++ [.suspended task.id (decision.reason.getD "Surveillance suspendue.")
            decision.nextActivation], .success⟩

/-- The branch of `execute` for a task that is called. -/
def executeCalled (environment : Environment) (now : Int) (outcome : Outcome) (task : Task)
    (scheduler : Scheduler) : Execution :=
  match task.call environment now with
  | .error error => ⟨scheduler.markFailed task.id now error, [], .failure error⟩
  | .ok call =>
      let asked := scheduler.requestAll outcome.requests
      let outputs := .called task.id call :: asked.2
      match call.error outcome with
      | some error => ⟨asked.1.markFailed task.id now error, outputs, .failure error⟩
      | none => ⟨asked.1.markFinished task.id now, outputs, .success⟩

/-- `DispatcherTaskExecutor.execute`. -/
def execute (environment : Environment) (now : Int) (outcome : Outcome) (task : Task)
    (scheduler : Scheduler) : Execution :=
  let started := scheduler.markStarted task.id now
  match started.suspension task now with
  | some decision => started.executeSuspended now outcome task decision
  | none => (started.resume task.id).executeCalled environment now outcome task

/-! ## Operations of the scheduler -/

def start (now : Int) (scheduler : Scheduler) : Scheduler × List Output :=
  ({ scheduler with state := .running, startedAt := some now, stoppedAt := none }, [.started])

def stop (now : Int) (scheduler : Scheduler) : Scheduler × List Output :=
  ({ scheduler with state := .stopped, stoppedAt := some now }, [.stopped])

/-- `record_task_result`; an exception leaves the tick before it. -/
def recordTaskResult (result : TaskExecutionResult) (scheduler : Scheduler) : Scheduler :=
  match result with
  | .success => { scheduler with tasksExecuted := scheduler.tasksExecuted + 1 }
  | .failure _ => { scheduler with tasksFailed := scheduler.tasksFailed + 1 }
  | .escape _ => scheduler

/-- The loop of `tick`, over the tasks that were due.  An exception that leaves
`execute` ends it. -/
def executeDue (environment : Environment) (now : Int) (outcomes : Text → Outcome) :
    List Task → Scheduler → Scheduler × List Output
  | [], scheduler => (scheduler, [])
  | task :: rest, scheduler =>
      let execution := scheduler.execute environment now (outcomes task.id) task
      let recorded := execution.scheduler.recordTaskResult execution.result
      let outputs :=
        .triggered task.id :: execution.outputs ++ [execution.result.output task.id now]
      if execution.result.escapes then (recorded, outputs)
      else
        let more := recorded.executeDue environment now outcomes rest
        (more.1, outputs ++ more.2)

def recordTick (now : Int) (scheduler : Scheduler) : Scheduler :=
  { scheduler with lastTickAt := some now, tickCount := scheduler.tickCount + 1 }

/-- `tick`. -/
def tick (environment : Environment) (now : Int) (outcomes : Text → Outcome)
    (scheduler : Scheduler) : Scheduler × List Output :=
  match scheduler.state with
  | .stopped => (scheduler, [])
  | .running =>
      let due := TaskRegistry.dueTasks environment.clock now scheduler.registry
      let ticked := (scheduler.recordTick now).executeDue environment now outcomes due
      (ticked.1, .ticked :: ticked.2)

/-- `add_task`. -/
def addTask (task : Task) (scheduler : Scheduler) : Scheduler × List Output :=
  match TaskRegistry.add task scheduler.registry with
  | .error error => (scheduler, [.refused error])
  | .ok registry => ({ scheduler with registry }, [.added task.id])

/-- Add tasks in order; a refused one ends it. -/
def addTasks : List Task → Scheduler → Scheduler × List Output
  | [], scheduler => (scheduler, [])
  | task :: rest, scheduler =>
      match TaskRegistry.add task scheduler.registry with
      | .error error => (scheduler, [.refused error])
      | .ok registry =>
          let more := { scheduler with registry }.addTasks rest
          (more.1, .added task.id :: more.2)

/-- `remove_task`. -/
def removeTask (id : Text) (scheduler : Scheduler) : Scheduler × List Output :=
  match TaskRegistry.remove id scheduler.registry with
  | .error error => (scheduler, [.refused error])
  | .ok (_, registry) => ({ scheduler with registry }, [.removed id])

/-- `replace_plugin_tasks`, of tasks that were all built before. -/
def replacePluginTasks (plugin : Text) (tasks : List Task) (scheduler : Scheduler) :
    Scheduler × List Output :=
  let managed := (TaskRegistry.list scheduler.registry).filter (Task.managedBy plugin)
  let kept := scheduler.registry.filter fun task => !task.managedBy plugin
  let added := { scheduler with registry := kept }.addTasks tasks
  (added.1, managed.map (fun task => .removed task.id) ++ added.2)

/-- `Task.enable` and `Task.disable`, on the task of an identity. -/
def setEnabled (id : Text) (enabled : Bool) (scheduler : Scheduler) : Scheduler :=
  if enabled then
    { scheduler with registry := scheduler.registry.modify id Task.enable Task.id_enable }
  else { scheduler with registry := scheduler.registry.modify id Task.disable Task.id_disable }

end Scheduler

/-! ## Runs -/

/-- What happens to a scheduler.  The tasks of an action are new ones. -/
inductive Action where
  | start (now : Int)
  | stop (now : Int)
  | tick (now : Int) (outcomes : Text → Outcome)
  | requestRuns (request : RunRequest)
  | addTask (config : TaskConfig)
  | removeTask (id : Text)
  | replacePluginTasks (plugin : Text) (configs : List TaskConfig)
  | setEnabled (id : Text) (enabled : Bool)
  | replaceSchedules (schedules : Text → Option Schedule)

/-- One action, and what it puts out. -/
def Scheduler.act (environment : Environment) (action : Action) (scheduler : Scheduler) :
    Scheduler × List Output :=
  match action with
  | .start now => scheduler.start now
  | .stop now => scheduler.stop now
  | .tick now outcomes => scheduler.tick environment now outcomes
  | .requestRuns request => scheduler.requestRuns request
  | .addTask config =>
      match config.create with
      | .error error => (scheduler, [.refused error])
      | .ok task => scheduler.addTask task
  | .removeTask id => scheduler.removeTask id
  | .replacePluginTasks plugin configs =>
      match configs.mapM TaskConfig.create with
      | .error error => (scheduler, [.refused error])
      | .ok tasks => scheduler.replacePluginTasks plugin tasks
  | .setEnabled id enabled => (scheduler.setEnabled id enabled, [])
  | .replaceSchedules schedules =>
      ({ scheduler with schedules := scheduler.schedules.map fun _ => schedules }, [])

/-- The states that a scheduler reaches, with everything it put out. -/
inductive Reached (environment : Environment) (schedules : Option (Text → Option Schedule)) :
    Scheduler → List Output → Prop
  | initial : Reached environment schedules (.initial schedules) []
  | act {scheduler : Scheduler} {log : List Output} (action : Action)
      (before : Reached environment schedules scheduler log) :
      Reached environment schedules (scheduler.act environment action).1
        (log ++ (scheduler.act environment action).2)

/-- A run of actions, from a scheduler without tasks. -/
def run (environment : Environment) (schedules : Option (Text → Option Schedule)) :
    List Action → Scheduler × List Output :=
  List.foldl (fun reached action =>
      ((reached.1.act environment action).1, reached.2 ++ (reached.1.act environment action).2))
    (.initial schedules, [])

theorem reached_run (environment : Environment) (schedules : Option (Text → Option Schedule))
    (actions : List Action) : Reached environment schedules (run environment schedules actions).1
      (run environment schedules actions).2 := by
  induction actions using List.reverseRecOn with
  | nil => exact .initial
  | append_singleton actions action ih =>
      have step : run environment schedules (actions ++ [action]) =
          (((run environment schedules actions).1.act environment action).1,
            (run environment schedules actions).2 ++
              ((run environment schedules actions).1.act environment action).2) := by
        rw [run, List.foldl_append]
        rfl
      rw [step]
      exact .act action ih

end OhanaAgent.Scheduler
