import OhanaAgent.Scheduler.Ticks
import OhanaAgent.Transition.Requests

/-!
# What a tick executes

A task remembers a count, a last execution and a list of requested times.  They
are exactly what the history of the task says: the executions and the requests
since it was added.  So a tick executes the tasks that their history makes due,
and a requested run is served by the first execution at its time or later.
-/

namespace OhanaAgent.Scheduler

set_option linter.dupNamespace false

open Encoding Encoding.Json Time Store Transition

/-! ## Histories -/

/-- What an output adds to the history of a task. -/
def Output.read (id : Text) (history : List (Happening Int)) : Output → List (Happening Int)
  | .requested other at_ => if other = id then history ++ [.requested at_] else history
  | .executed other at_ => if other = id then history ++ [.executed at_] else history
  | .failed other at_ _ => if other = id then history ++ [.executed at_] else history
  | .added other => if other = id then [] else history
  | _ => history

/-- The histories after more outputs. -/
def after (past : Text → List (Happening Int)) (outputs : List Output) (id : Text) :
    List (Happening Int) :=
  outputs.foldl (Output.read id) (past id)

/-- The history of a task since it was added. -/
def historyOf (log : List Output) : Text → List (Happening Int) :=
  after (fun _ => []) log

section Histories

variable {past : Text → List (Happening Int)} {first second : List Output} {output : Output}
  {id other : Text}

@[simp]
theorem after_nil : after past [] = past := rfl

@[simp]
theorem after_append : after past (first ++ second) = after (after past first) second := by
  funext id
  exact List.foldl_append

theorem after_cons : after past (output :: second) = after (after past [output]) second := rfl

/-- Outputs that belong to no history. -/
def Output.Quiet (output : Output) : Prop :=
  ∀ id history, output.read id history = history

theorem after_quiet (quiet : output.Quiet) : after past [output] = past := by
  funext id
  exact quiet id (past id)

theorem after_cons_quiet (quiet : output.Quiet) :
    after past (output :: second) = after past second := by
  rw [after_cons, after_quiet quiet]

theorem quiet_triggered : (Output.triggered id).Quiet := fun _ _ => rfl

theorem quiet_called {call : Call} : (Output.called id call).Quiet := fun _ _ => rfl

theorem quiet_suspended {reason : String} {next : Option Int} :
    (Output.suspended id reason next).Quiet := fun _ _ => rfl

theorem quiet_escaped {error : String} : (Output.escaped id error).Quiet := fun _ _ => rfl

theorem quiet_removed : (Output.removed id).Quiet := fun _ _ => rfl

theorem quiet_refused {error : TaskError} : (Output.refused error).Quiet := fun _ _ => rfl

theorem quiet_ticked : Output.ticked.Quiet := fun _ _ => rfl

theorem after_executed_self {at_ : Int} :
    after past [.executed id at_] id = past id ++ [.executed at_] := by
  simp [after, Output.read]

theorem after_executed_of_ne {at_ : Int} (different : other ≠ id) :
    after past [.executed id at_] other = past other := by
  simp [after, Output.read, different.symm]

end Histories

/-! ## What a task remembers -/

/-- The state of a trigger is a count and the last of its executions. -/
def Trigger.Recalls (times : List Int) : Trigger → Prop
  | .interval trigger => trigger.fireCount = times.length ∧
      trigger.lastExecutedAt = times.getLast? ∧ trigger.lastRunAt = times.getLast?
  | .oneShot trigger => trigger.fireCount = times.length ∧
      trigger.lastExecutedAt = times.getLast? ∧ (trigger.executed = true ↔ times ≠ [])
  | .cron trigger => trigger.fireCount = times.length ∧ trigger.lastExecutedAt = times.getLast?

/-- When a trigger is due, after its executions: an interval after the last one
(or from its start on), a single time if there was none, and a time of the
expression unless the last one was in the same minute: of the local time of its
timezone or, without one, as an instant. -/
def Trigger.DueAfter (clock : Zone) (times : List Int) (now : Int) : Trigger → Prop
  | .interval trigger =>
      (times = [] ∧ ∃ startAt, trigger.startAt = some startAt ∧ startAt ≤ now) ∨
        ∃ last, times.getLast? = some last ∧ last + trigger.interval ≤ now
  | .oneShot trigger => times = [] ∧ trigger.runAt ≤ now
  | .cron trigger => trigger.matches_ (CronTrigger.wholeMinute (trigger.wall clock now)) = true ∧
      ∀ last, times.getLast? = some last → trigger.minuteOf clock last ≠ trigger.minuteOf clock now

theorem CronTrigger.ofExpression_new {expression : Text} {timezone : Option LocalZone}
    {trigger : CronTrigger} (parsed : CronTrigger.ofExpression expression timezone = .ok trigger) :
    trigger.fireCount = 0 ∧ trigger.lastExecutedAt = none := by
  unfold CronTrigger.ofExpression at parsed
  split at parsed
  · simp only [bind_eq_ok, pure_eq_ok] at parsed
    rcases parsed with ⟨_, _, _, _, _, _, _, _, _, _, rfl⟩
    exact ⟨rfl, rfl⟩
  · cases parsed

namespace Trigger

variable {clock : Zone} {times : List Int} {now : Int} {trigger : Trigger}

theorem Recalls.isDue_iff (recalls : trigger.Recalls times) :
    trigger.isDue clock now = true ↔ trigger.DueAfter clock times now := by
  cases trigger with
  | interval trigger =>
      obtain ⟨_, _, last⟩ := recalls
      rcases List.eq_nil_or_concat' times with rfl | ⟨rest, time, rfl⟩
      · cases start : trigger.startAt <;> simp_all [isDue, IntervalTrigger.isDue, DueAfter]
      · simp_all [isDue, IntervalTrigger.isDue, DueAfter]
  | oneShot trigger =>
      obtain ⟨_, _, done⟩ := recalls
      rcases List.eq_nil_or_concat' times with rfl | ⟨rest, time, rfl⟩ <;>
        simp_all [isDue, OneShotTrigger.isDue, DueAfter]
  | cron trigger =>
      obtain ⟨_, last⟩ := recalls
      rcases List.eq_nil_or_concat' times with rfl | ⟨rest, time, rfl⟩ <;>
        simp_all [isDue, CronTrigger.isDue, DueAfter]

theorem Recalls.markExecuted (recalls : trigger.Recalls times) :
    (trigger.markExecuted now).Recalls (times ++ [now]) := by
  cases trigger with
  | interval trigger =>
      simp_all [Recalls, Trigger.markExecuted, IntervalTrigger.markExecuted]
  | oneShot trigger => simp_all [Recalls, Trigger.markExecuted, OneShotTrigger.markExecuted]
  | cron trigger => simp_all [Recalls, Trigger.markExecuted, CronTrigger.markExecuted]

/-- A new trigger was never executed. -/
theorem recalls_create {config : TriggerConfig} (made : config.create = .ok trigger) :
    trigger.Recalls [] := by
  cases config with
  | interval every startAt =>
      simp only [TriggerConfig.create] at made
      split at made <;> cases made
      simp [Recalls]
  | oneShot runAt =>
      cases made
      simp [Recalls]
  | cron expression timezone =>
      simp only [TriggerConfig.create] at made
      split at made
      · rename_i cron parsed
        cases made
        simpa [Recalls] using CronTrigger.ofExpression_new parsed
      · cases made

/-- An execution makes a trigger wait. -/
theorem not_isDue_markExecuted (trigger : Trigger) (clock : Zone) (now : Int) :
    (trigger.markExecuted now).isDue clock now = false := by
  cases trigger with
  | interval trigger =>
      have positive := trigger.positive
      simp [isDue, Trigger.markExecuted, IntervalTrigger.markExecuted, IntervalTrigger.isDue]
      omega
  | oneShot trigger =>
      simp [isDue, Trigger.markExecuted, OneShotTrigger.markExecuted, OneShotTrigger.isDue]
  | cron trigger =>
      simp [isDue, Trigger.markExecuted, CronTrigger.markExecuted, CronTrigger.isDue,
        CronTrigger.minuteOf]

end Trigger

namespace Task

variable {clock : Zone} {history : List (Happening Int)} {now : Int} {task : Task}

/-- The trigger and the requests of a task are what its history says. -/
structure Recalls (task : Task) (history : List (Happening Int)) : Prop where
  trigger : task.trigger.Recalls (executions history)
  requests : ∀ request, request ∈ task.runRequests ↔ Pending history request

/-- A task is due by its history: by its trigger, or by a pending request. -/
def DueBy (clock : Zone) (history : List (Happening Int)) (now : Int) (task : Task) : Prop :=
  task.trigger.DueAfter clock (executions history) now ∨
    ∃ request, Pending history request ∧ request ≤ now

theorem Recalls.isDue_iff (recalls : task.Recalls history) :
    task.isDue clock now = true ↔ task.enabled = true ∧ task.DueBy clock history now := by
  rw [isDue, Bool.and_eq_true, Bool.or_eq_true, recalls.trigger.isDue_iff, DueBy]
  simp [recalls.requests]

theorem Recalls.markStarted (recalls : task.Recalls history) :
    (task.markStarted now).Recalls history :=
  ⟨recalls.trigger, recalls.requests⟩

theorem Recalls.markFinished (recalls : task.Recalls history) :
    (task.markFinished now).Recalls (history ++ [.executed now]) where
  trigger := by
    rw [executions_append]
    exact recalls.trigger.markExecuted
  requests request := by
    simp [Task.markFinished, consumeRunRequests, recalls.requests]

theorem Recalls.markFailed {error : String} (recalls : task.Recalls history) :
    (task.markFailed now error).Recalls (history ++ [.executed now]) where
  trigger := by
    rw [executions_append]
    exact recalls.trigger.markExecuted
  requests request := by
    simp [Task.markFailed, consumeRunRequests, recalls.requests]

theorem Recalls.enable (recalls : task.Recalls history) : task.enable.Recalls history :=
  ⟨recalls.trigger, recalls.requests⟩

theorem Recalls.disable (recalls : task.Recalls history) : task.disable.Recalls history :=
  ⟨recalls.trigger, recalls.requests⟩

theorem mem_requestRuns {times : List Int} {request : Int} :
    request ∈ (task.requestRuns times).runRequests ↔
      request ∈ task.runRequests ∨ request ∈ times := by
  unfold requestRuns
  induction times generalizing task with
  | nil => simp
  | cons at_ rest ih =>
      rw [List.foldl_cons, ih]
      simp [requestRun, List.mem_insertionSort, or_assoc]

theorem trigger_requestRuns {times : List Int} :
    (task.requestRuns times).trigger = task.trigger := by
  unfold requestRuns
  induction times generalizing task with
  | nil => rfl
  | cons at_ rest ih =>
      rw [List.foldl_cons, ih]
      rfl

theorem Recalls.requestRuns {times : List Int} (recalls : task.Recalls history) :
    (task.requestRuns times).Recalls (history ++ times.map .requested) where
  trigger := by
    simpa [trigger_requestRuns] using recalls.trigger
  requests request := by
    rw [mem_requestRuns, recalls.requests, pending_append_map_requested]

/-- A new task has no history. -/
theorem recalls_create {config : TaskConfig} (made : config.create = .ok task) :
    task.Recalls [] := by
  unfold TaskConfig.create at made
  rcases bind_eq_ok.mp made with ⟨trigger, triggered, rest⟩
  split at rest
  · cases rest
  · split at rest
    · cases rest
    · cases rest
      exact ⟨Trigger.recalls_create triggered, by simp⟩

end Task

/-! ## What the registry remembers -/

namespace Scheduler

variable {environment : Environment} {past : Text → List (Happening Int)} {now : Int}
  {scheduler : Scheduler} {task : Task} {id : Text} {outcome : Outcome}

/-- Every task of the registry is what its history says. -/
def Recalls (scheduler : Scheduler) (past : Text → List (Happening Int)) : Prop :=
  ∀ task ∈ scheduler.registry, task.Recalls (past task.id)

/-- Rewriting one task, with one more execution in its history. -/
theorem Recalls.executed {f : Task → Task} {keeps : ∀ task, (f task).id = task.id}
    (recalls : scheduler.Recalls past)
    (recorded : ∀ {task : Task} {history : List (Happening Int)}, task.Recalls history →
      (f task).Recalls (history ++ [.executed now])) :
    { scheduler with registry := scheduler.registry.modify id f keeps }.Recalls
      (after past [.executed id now]) := by
  intro task member
  change task ∈ scheduler.registry.modify id f keeps at member
  rcases Table.mem_modify.mp member with ⟨source, sourceMem, rfl, rfl⟩ | ⟨taskMem, different⟩
  · rw [keeps, after_executed_self]
    exact recorded (recalls source sourceMem)
  · rw [after_executed_of_ne different]
    exact recalls task taskMem

/-- Rewriting one task, with nothing more in its history. -/
theorem Recalls.quiet {f : Task → Task} {keeps : ∀ task, (f task).id = task.id}
    (recalls : scheduler.Recalls past)
    (same : ∀ {task : Task} {history : List (Happening Int)}, task.Recalls history →
      (f task).Recalls history) :
    { scheduler with registry := scheduler.registry.modify id f keeps }.Recalls past := by
  intro task member
  change task ∈ scheduler.registry.modify id f keeps at member
  rcases Table.mem_modify.mp member with ⟨source, sourceMem, rfl, rfl⟩ | ⟨taskMem, _⟩
  · rw [keeps]
    exact same (recalls source sourceMem)
  · exact recalls task taskMem

theorem Recalls.markStarted (recalls : scheduler.Recalls past) :
    (scheduler.markStarted id now).Recalls past :=
  recalls.quiet Task.Recalls.markStarted

theorem Recalls.markFinished (recalls : scheduler.Recalls past) :
    (scheduler.markFinished id now).Recalls (after past [.executed id now]) :=
  recalls.executed Task.Recalls.markFinished

theorem Recalls.markFailed {error : String} (recalls : scheduler.Recalls past) :
    (scheduler.markFailed id now error).Recalls (after past [.failed id now error]) :=
  recalls.executed Task.Recalls.markFailed

theorem Recalls.resume (recalls : scheduler.Recalls past) : (scheduler.resume id).Recalls past := by
  unfold Scheduler.resume
  split <;> exact recalls

/-- What a call of `request_runs` puts out, in the history of one task. -/
theorem after_requested {tasks : List Task} {times : List Int}
    (distinct : (tasks.map Task.id).Nodup) :
    after past (tasks.flatMap fun task => times.map fun at_ => .requested task.id at_) id =
      if id ∈ tasks.map Task.id then past id ++ times.map .requested else past id := by
  have one : ∀ past : Text → List (Happening Int), ∀ task : Task,
      after past (times.map fun at_ => .requested task.id at_) id =
        if task.id = id then past id ++ times.map .requested else past id := by
    intro past task
    induction times generalizing past with
    | nil => simp
    | cons at_ rest ih =>
        rw [List.map_cons, after_cons, ih]
        by_cases same : task.id = id <;> simp [after, Output.read, same]
  induction tasks generalizing past with
  | nil => rfl
  | cons task rest ih =>
      rw [List.map_cons, List.nodup_cons] at distinct
      rw [List.flatMap_cons, after_append, ih distinct.2, one]
      by_cases same : task.id = id
      · subst same
        simp [distinct.1]
      · simp [same, Ne.symm same]

theorem Recalls.requestRuns {request : RunRequest} (recalls : scheduler.Recalls past) :
    (scheduler.requestRuns request).1.Recalls (after past (scheduler.requestRuns request).2) := by
  have rows : (TaskRegistry.list scheduler.registry).Perm scheduler.registry.rows :=
    List.perm_insertionSort ..
  have distinct : (((TaskRegistry.list scheduler.registry).filter request.selects).map
      Task.id).Nodup :=
    ((rows.map Task.id).nodup_iff.mpr scheduler.registry.distinct).sublist
      (List.filter_sublist.map Task.id)
  intro asked member
  change asked ∈ scheduler.registry.mapRows request.apply request.id_apply at member
  rcases Table.mem_mapRows.mp member with ⟨task, taskMem, rfl⟩
  have selected : task.id ∈ ((TaskRegistry.list scheduler.registry).filter request.selects).map
      Task.id ↔ request.selects task = true := by
    constructor
    · intro found
      rcases List.mem_map.mp found with ⟨other, otherMem, same⟩
      rw [List.mem_filter, rows.mem_iff] at otherMem
      exact Table.key_injective otherMem.1 taskMem same ▸ otherMem.2
    · intro chosen
      exact List.mem_map.mpr ⟨task, List.mem_filter.mpr ⟨rows.mem_iff.mpr taskMem, chosen⟩, rfl⟩
  rw [RunRequest.id_apply]
  unfold Scheduler.requestRuns RunRequest.apply
  rw [after_requested distinct]
  by_cases chosen : request.selects task = true
  · rw [if_pos (selected.mpr chosen), if_pos chosen]
    exact (recalls task taskMem).requestRuns
  · rw [if_neg (selected.not.mpr chosen), if_neg chosen]
    exact recalls task taskMem

theorem Recalls.requestAll {requests : List RunRequest} (recalls : scheduler.Recalls past) :
    (scheduler.requestAll requests).1.Recalls (after past (scheduler.requestAll requests).2) := by
  induction requests generalizing scheduler past with
  | nil => exact recalls
  | cons request rest ih =>
      rw [Scheduler.requestAll, after_append]
      exact ih recalls.requestRuns

theorem Recalls.suspend (recalls : scheduler.Recalls past) : (scheduler.suspend id).Recalls past :=
  recalls

theorem Recalls.executeSuspended {decision : Observation.MonitoringDecision}
    (recalls : scheduler.Recalls past) :
    let execution := scheduler.executeSuspended now outcome task decision
    execution.scheduler.Recalls
      (after past (execution.outputs ++ [execution.result.output task.id now])) := by
  simp only [Scheduler.executeSuspended]
  split
  · exact recalls.markFinished
  · split <;> simp only [TaskExecutionResult.output, after_append]
    · rw [after_quiet quiet_escaped]
      exact recalls.requestAll
    · rw [after_quiet quiet_suspended]
      exact recalls.requestAll.suspend.markFinished

theorem Recalls.executeCalled (recalls : scheduler.Recalls past) :
    let execution := scheduler.executeCalled environment now outcome task
    execution.scheduler.Recalls
      (after past (execution.outputs ++ [execution.result.output task.id now])) := by
  simp only [Scheduler.executeCalled]
  split
  · exact recalls.markFailed
  · split <;> simp only [TaskExecutionResult.output, after_append] <;>
      rw [after_cons_quiet quiet_called]
    · exact recalls.requestAll.markFailed
    · exact recalls.requestAll.markFinished

theorem Recalls.execute (recalls : scheduler.Recalls past) :
    let execution := scheduler.execute environment now outcome task
    execution.scheduler.Recalls
      (after past (execution.outputs ++ [execution.result.output task.id now])) := by
  simp only [Scheduler.execute]
  split
  · exact recalls.markStarted.executeSuspended
  · exact recalls.markStarted.resume.executeCalled

theorem Recalls.recordTaskResult {result : TaskExecutionResult} (recalls : scheduler.Recalls past) :
    (scheduler.recordTaskResult result).Recalls past := by
  cases result <;> exact recalls

/-- One round of the loop of `tick`. -/
theorem Recalls.executeOne (recalls : scheduler.Recalls past) :
    let execution := scheduler.execute environment now outcome task
    (execution.scheduler.recordTaskResult execution.result).Recalls
      (after past (.triggered task.id :: execution.outputs ++
        [execution.result.output task.id now])) := by
  intro execution
  rw [List.cons_append, after_cons_quiet quiet_triggered]
  exact Recalls.recordTaskResult recalls.execute

theorem Recalls.executeDue {outcomes : Text → Outcome} {tasks : List Task}
    (recalls : scheduler.Recalls past) :
    (scheduler.executeDue environment now outcomes tasks).1.Recalls
      (after past (scheduler.executeDue environment now outcomes tasks).2) := by
  induction tasks generalizing scheduler past with
  | nil => exact recalls
  | cons task rest ih =>
      rw [Scheduler.executeDue]
      split
      · exact recalls.executeOne
      · rw [after_append]
        exact ih recalls.executeOne

theorem Recalls.tick {outcomes : Text → Outcome} (recalls : scheduler.Recalls past) :
    (scheduler.tick environment now outcomes).1.Recalls
      (after past (scheduler.tick environment now outcomes).2) := by
  unfold Scheduler.tick
  split
  · exact recalls
  · rw [after_cons_quiet quiet_ticked]
    exact Recalls.executeDue recalls

/-- A task joins the registry without a history. -/
theorem Recalls.add {registry : TaskRegistry} (recalls : scheduler.Recalls past)
    (new : task.Recalls []) (added : TaskRegistry.add task scheduler.registry = .ok registry) :
    { scheduler with registry }.Recalls (after past [.added task.id]) := by
  unfold TaskRegistry.add at added
  split at added
  · cases added
  · rename_i inserted
    cases added
    rcases Table.insert?_eq_some_iff.mp inserted with ⟨fresh, rows⟩
    intro other member
    rw [Table.mem_def, rows, List.mem_append, List.mem_singleton] at member
    rcases member with old | rfl
    · have different := fresh other old
      have same : after past [.added task.id] other.id = past other.id := by
        simp [after, Output.read, different.symm]
      rw [same]
      exact recalls other old
    · have none : after past [.added other.id] other.id = [] := by
        simp [after, Output.read]
      rw [none]
      exact new

theorem Recalls.addTask (recalls : scheduler.Recalls past) (new : task.Recalls []) :
    (scheduler.addTask task).1.Recalls (after past (scheduler.addTask task).2) := by
  unfold Scheduler.addTask
  split
  · rw [after_quiet quiet_refused]
    exact recalls
  · rename_i added
    exact recalls.add new added

theorem Recalls.addTasks {tasks : List Task} (recalls : scheduler.Recalls past)
    (new : ∀ task ∈ tasks, task.Recalls []) :
    (scheduler.addTasks tasks).1.Recalls (after past (scheduler.addTasks tasks).2) := by
  induction tasks generalizing scheduler past with
  | nil => exact recalls
  | cons task rest ih =>
      rw [List.forall_mem_cons] at new
      unfold Scheduler.addTasks
      split
      · rw [after_quiet quiet_refused]
        exact recalls
      · rename_i added
        rw [after_cons]
        exact ih (recalls.add new.1 added) new.2

/-- Fewer tasks are remembered as they were. -/
theorem Recalls.filter {keep : Task → Bool} (recalls : scheduler.Recalls past) :
    { scheduler with registry := scheduler.registry.filter keep }.Recalls past := by
  intro task member
  exact recalls task (Table.mem_filter.mp member).1

theorem Recalls.removeTask (recalls : scheduler.Recalls past) :
    (scheduler.removeTask id).1.Recalls (after past (scheduler.removeTask id).2) := by
  unfold Scheduler.removeTask TaskRegistry.remove
  cases found : Table.find? scheduler.registry id with
  | none =>
      simp only
      rw [after_quiet quiet_refused]
      exact recalls
  | some task =>
      simp only
      rw [after_quiet quiet_removed]
      exact recalls.filter

theorem Recalls.replacePluginTasks {plugin : Text} {tasks : List Task}
    (recalls : scheduler.Recalls past) (new : ∀ task ∈ tasks, task.Recalls []) :
    (scheduler.replacePluginTasks plugin tasks).1.Recalls
      (after past (scheduler.replacePluginTasks plugin tasks).2) := by
  have removals : ∀ managed : List Task,
      after past (managed.map fun task => Output.removed task.id) = past := by
    intro managed
    induction managed with
    | nil => rfl
    | cons task rest ih => rw [List.map_cons, after_cons_quiet quiet_removed, ih]
  unfold Scheduler.replacePluginTasks
  rw [after_append, removals]
  exact recalls.filter.addTasks new

theorem Recalls.setEnabled {enabled : Bool} (recalls : scheduler.Recalls past) :
    (scheduler.setEnabled id enabled).Recalls past := by
  unfold Scheduler.setEnabled
  split
  · exact recalls.quiet Task.Recalls.enable
  · exact recalls.quiet Task.Recalls.disable

theorem recalls_mapM {configs : List TaskConfig} {tasks : List Task}
    (made : configs.mapM TaskConfig.create = .ok tasks) : ∀ task ∈ tasks, task.Recalls [] := by
  induction configs generalizing tasks with
  | nil =>
      cases made
      simp
  | cons config rest ih =>
      rw [List.mapM_cons] at made
      rcases bind_eq_ok.mp made with ⟨task, first, next⟩
      rcases bind_eq_ok.mp next with ⟨others, second, same⟩
      cases same
      rw [List.forall_mem_cons]
      exact ⟨Task.recalls_create first, ih second⟩

theorem Recalls.act {action : Action} (recalls : scheduler.Recalls past) :
    (scheduler.act environment action).1.Recalls
      (after past (scheduler.act environment action).2) := by
  cases action with
  | start now => exact recalls
  | stop now => exact recalls
  | tick now outcomes => exact recalls.tick
  | requestRuns request => exact recalls.requestRuns
  | addTask config =>
      unfold Scheduler.act
      cases made : config.create with
      | error error =>
          simp only [made]
          rw [after_quiet quiet_refused]
          exact recalls
      | ok task => simpa only [made] using recalls.addTask (Task.recalls_create made)
  | removeTask id => exact recalls.removeTask
  | replacePluginTasks plugin configs =>
      unfold Scheduler.act
      cases made : configs.mapM TaskConfig.create with
      | error error =>
          simp only [made]
          rw [after_quiet quiet_refused]
          exact recalls
      | ok tasks => simpa only [made] using recalls.replacePluginTasks (recalls_mapM made)
  | setEnabled id enabled => exact recalls.setEnabled
  | replaceSchedules schedules => exact recalls

end Scheduler

/-- In every run, the tasks are what their histories say. -/
theorem Reached.recalls {environment : Environment} {schedules : Option (Text → Option Observation.Schedule)}
    {scheduler : Scheduler} {log : List Output}
    (reached : Reached environment schedules scheduler log) : scheduler.Recalls (historyOf log) := by
  induction reached with
  | initial =>
      intro task member
      exact absurd member (Table.not_mem_empty task)
  | act action before ih =>
      unfold historyOf
      rw [after_append]
      exact ih.act

/-! ## What a tick triggers -/

/-- The tasks that were triggered, in order. -/
def triggeredOf (outputs : List Output) : List Text :=
  outputs.filterMap fun
    | .triggered id => some id
    | _ => none

/-- No exception left an execution. -/
def Uninterrupted (outputs : List Output) : Prop :=
  ∀ id error, .escaped id error ∉ outputs

@[simp]
theorem triggeredOf_append {first second : List Output} :
    triggeredOf (first ++ second) = triggeredOf first ++ triggeredOf second :=
  List.filterMap_append

namespace Scheduler

variable {environment : Environment} {now : Int} {scheduler : Scheduler} {task : Task}
  {outcome : Outcome}

theorem triggeredOf_requestAll {requests : List RunRequest} :
    triggeredOf (scheduler.requestAll requests).2 = [] := by
  induction requests generalizing scheduler with
  | nil => rfl
  | cons request rest ih =>
      rw [requestAll, triggeredOf_append, ih, List.append_nil, triggeredOf,
        List.filterMap_eq_nil_iff]
      intro output member
      rcases List.mem_flatMap.mp member with ⟨task, _, asked⟩
      rcases List.mem_map.mp asked with ⟨at_, _, rfl⟩
      rfl

theorem triggeredOf_execute :
    triggeredOf (scheduler.execute environment now outcome task).outputs = [] := by
  unfold execute
  simp only
  split
  · unfold executeSuspended
    simp only
    split
    · rfl
    · split
      · exact triggeredOf_requestAll
      · rw [triggeredOf_append, triggeredOf_requestAll]
        rfl
  · unfold executeCalled
    simp only
    split
    · rfl
    · split <;> exact triggeredOf_requestAll

/-- An uninterrupted loop executes its first task and goes on. -/
theorem executeDue_of_uninterrupted {outcomes : Text → Outcome} {rest : List Task}
    (quiet : Uninterrupted (scheduler.executeDue environment now outcomes (task :: rest)).2) :
    let execution := scheduler.execute environment now (outcomes task.id) task
    let more := (execution.scheduler.recordTaskResult execution.result).executeDue environment now
      outcomes rest
    execution.result.escapes = false ∧ Uninterrupted more.2 ∧
      scheduler.executeDue environment now outcomes (task :: rest) =
        (more.1, .triggered task.id :: execution.outputs ++
          [execution.result.output task.id now] ++ more.2) := by
  intro execution more
  have step : scheduler.executeDue environment now outcomes (task :: rest) =
      if execution.result.escapes then
        (execution.scheduler.recordTaskResult execution.result,
          .triggered task.id :: execution.outputs ++ [execution.result.output task.id now])
      else (more.1, .triggered task.id :: execution.outputs ++
        [execution.result.output task.id now] ++ more.2) := rfl
  rw [step] at quiet ⊢
  cases result : execution.result with
  | escape error =>
      rw [result] at quiet
      exact absurd (List.mem_append_right _ (List.mem_singleton_self _)) (quiet task.id error)
  | success =>
      rw [result] at quiet
      exact ⟨rfl, fun id error member => quiet id error (List.mem_append_right _ member), rfl⟩
  | failure error =>
      rw [result] at quiet
      exact ⟨rfl, fun id error member => quiet id error (List.mem_append_right _ member), rfl⟩

/-- The loop triggers its tasks one after the other, all of them unless an
exception ends it. -/
theorem triggeredOf_executeDue {outcomes : Text → Outcome} {tasks : List Task} :
    let outputs := (scheduler.executeDue environment now outcomes tasks).2
    triggeredOf outputs <+: tasks.map Task.id ∧
      (Uninterrupted outputs → triggeredOf outputs = tasks.map Task.id) := by
  induction tasks generalizing scheduler with
  | nil => exact ⟨List.prefix_rfl, fun _ => rfl⟩
  | cons task rest ih =>
      have one : ∀ result : TaskExecutionResult, triggeredOf (.triggered task.id ::
          (scheduler.execute environment now (outcomes task.id) task).outputs ++
            [result.output task.id now]) = [task.id] := by
        intro result
        rw [List.cons_append, ← List.singleton_append, triggeredOf_append, triggeredOf_append,
          triggeredOf_execute]
        cases result <;> rfl
      constructor
      · rw [executeDue]
        split
        · rw [one]
          exact ⟨rest.map Task.id, rfl⟩
        · rw [triggeredOf_append, one, List.map_cons, List.singleton_append]
          exact (List.prefix_cons_inj task.id).mpr ih.1
      · intro quiet
        rcases executeDue_of_uninterrupted quiet with ⟨_, calm, step⟩
        rw [step, triggeredOf_append, one, ih.2 calm, List.map_cons, List.singleton_append]

/-- Requests are no executions. -/
theorem executions_requestAll {past : Text → List (Happening Int)} {requests : List RunRequest}
    {id : Text} : executions (after past (scheduler.requestAll requests).2 id) =
      executions (past id) := by
  have one : ∀ outputs : List Output, ∀ past : Text → List (Happening Int),
      (∀ output ∈ outputs, ∃ id at_, output = .requested id at_) →
      executions (after past outputs id) = executions (past id) := by
    intro outputs
    induction outputs with
    | nil => exact fun _ _ => rfl
    | cons output rest ih =>
        intro past asked
        rw [List.forall_mem_cons] at asked
        rcases asked with ⟨⟨other, at_, rfl⟩, others⟩
        rw [after_cons, ih _ others]
        by_cases same : other = id <;> simp [after, Output.read, same]
  induction requests generalizing scheduler past with
  | nil => rfl
  | cons request rest ih =>
      rw [requestAll, after_append, ih, one]
      intro output member
      rcases List.mem_flatMap.mp member with ⟨task, _, asked⟩
      rcases List.mem_map.mp asked with ⟨at_, _, rfl⟩
      exact ⟨task.id, at_, rfl⟩

theorem executions_execute {past : Text → List (Happening Int)} {id : Text} :
    executions (after past (scheduler.execute environment now outcome task).outputs id) =
      executions (past id) := by
  unfold execute
  simp only
  split
  · unfold executeSuspended
    simp only
    split
    · rfl
    · split
      · exact executions_requestAll
      · rw [after_append, after_quiet quiet_suspended, executions_requestAll]
  · unfold executeCalled
    simp only
    split
    · rfl
    · split <;> rw [after_cons_quiet quiet_called, executions_requestAll]

/-- An uninterrupted loop executes each of its tasks once. -/
theorem executions_executeDue {past : Text → List (Happening Int)} {outcomes : Text → Outcome}
    {tasks : List Task} (distinct : (tasks.map Task.id).Nodup) (id : Text)
    (quiet : Uninterrupted (scheduler.executeDue environment now outcomes tasks).2) :
    executions (after past (scheduler.executeDue environment now outcomes tasks).2 id) =
      executions (past id) ++ if id ∈ tasks.map Task.id then [now] else [] := by
  induction tasks generalizing scheduler past with
  | nil => simp [executeDue]
  | cons task rest ih =>
      rw [List.map_cons, List.nodup_cons] at distinct
      rcases executeDue_of_uninterrupted quiet with ⟨stays, calm, step⟩
      have own : ∀ (result : TaskExecutionResult) (past : Text → List (Happening Int)),
          result.escapes = false → executions (after past [result.output task.id now] id) =
            executions (past id) ++ if task.id = id then [now] else [] := by
        intro result past stays
        cases result with
        | success =>
            by_cases same : task.id = id <;>
              simp [after, Output.read, TaskExecutionResult.output, same]
        | failure error =>
            by_cases same : task.id = id <;>
              simp [after, Output.read, TaskExecutionResult.output, same]
        | escape error => cases stays
      rw [step, after_append, ih distinct.2 calm, List.cons_append,
        after_cons_quiet quiet_triggered, after_append, own _ _ stays, executions_execute]
      by_cases same : task.id = id
      · subst same
        simp [distinct.1]
      · simp [same, Ne.symm same]

end Scheduler

/-- A tick of a run triggers, in the order of priorities and names and each one
once, the enabled tasks that the executions and requests of their history make
due, and adds one execution to the history of each.  All that can cut it short
is an exception that leaves an execution. -/
theorem tick_triggers_due {environment : Environment}
    {schedules : Option (Text → Option Observation.Schedule)} {scheduler : Scheduler}
    {log : List Output} (reached : Reached environment schedules scheduler log)
    (running : scheduler.state = .running) (now : Int) (outcomes : Text → Outcome) :
    let outputs := (scheduler.tick environment now outcomes).2
    ∃ due : List Task, due.Pairwise Task.Before ∧ (due.map Task.id).Nodup ∧
      (∀ task, task ∈ due ↔ task ∈ scheduler.registry ∧ task.enabled = true ∧
        task.DueBy environment.clock (historyOf log task.id) now) ∧
      triggeredOf outputs <+: due.map Task.id ∧
      (Uninterrupted outputs → triggeredOf outputs = due.map Task.id ∧
        ∀ id, executions (historyOf (log ++ outputs) id) =
          executions (historyOf log id) ++ if id ∈ due.map Task.id then [now] else []) := by
  intro outputs
  have ticked : outputs = .ticked :: ((scheduler.recordTick now).executeDue environment now outcomes
      (TaskRegistry.dueTasks environment.clock now scheduler.registry)).2 := by
    simp only [outputs, Scheduler.tick, running]
  have perm : (TaskRegistry.dueTasks environment.clock now scheduler.registry).Perm
      (scheduler.registry.rows.filter (Task.isDue environment.clock now)) :=
    List.perm_insertionSort ..
  have distinct : ((TaskRegistry.dueTasks environment.clock now scheduler.registry).map
      Task.id).Nodup :=
    (perm.map Task.id).nodup_iff.mpr
      (scheduler.registry.distinct.sublist (List.filter_sublist.map Task.id))
  have loop : triggeredOf outputs <+:
      (TaskRegistry.dueTasks environment.clock now scheduler.registry).map Task.id ∧
      (Uninterrupted outputs → triggeredOf outputs =
        (TaskRegistry.dueTasks environment.clock now scheduler.registry).map Task.id) := by
    rw [ticked]
    exact Scheduler.triggeredOf_executeDue.imp_right fun all quiet =>
      all fun id error member => quiet id error (List.mem_cons_of_mem _ member)
  refine ⟨TaskRegistry.dueTasks environment.clock now scheduler.registry,
    List.pairwise_insertionSort .., distinct, ?_, loop.1, ?_⟩
  · intro task
    rw [perm.mem_iff, List.mem_filter, Table.mem_def]
    exact and_congr_right fun member => (reached.recalls task member).isDue_iff
  · intro quiet
    refine ⟨loop.2 quiet, fun id => ?_⟩
    unfold historyOf
    rw [after_append, ticked, after_cons_quiet quiet_ticked]
    refine Scheduler.executions_executeDue distinct id ?_
    intro other error member
    exact quiet other error (ticked ▸ List.mem_cons_of_mem _ member)

/-- The local DHCP server is observed every half hour. -/
def dhcpStatus : TaskConfig where
  id := "dhcp".toList
  command := "dhcp.status".toList
  name := none
  arguments := .nil
  metadata := .cons "managed_by".toList (.string "dhcp".toList) .nil
  priority := 100
  enabled := true
  trigger := .interval (30 * minute) (some 0)

/-- A failed name lookup asks for an observation at once. -/
def failedLookup : List Action :=
  [.start 0, .addTask dhcpStatus, .tick 0 fun _ => ⟨none, []⟩,
    .requestRuns ⟨minute, fun task => task.managedBy "dhcp".toList, [0]⟩]

theorem failedLookup_triggers :
    let reached := run ⟨⟨fun _ => 0⟩, true, true, true⟩ none failedLookup
    let outputs := (reached.1.tick ⟨⟨fun _ => 0⟩, true, true, true⟩ (2 * minute)
      fun _ => ⟨none, []⟩).2
    ∃ due : List Task, triggeredOf outputs <+: due.map Task.id ∧
      ∀ task, task ∈ due ↔ task ∈ reached.1.registry ∧ task.enabled = true ∧
        task.DueBy ⟨fun _ => 0⟩ (historyOf reached.2 task.id) (2 * minute) := by
  rcases tick_triggers_due (reached_run ⟨⟨fun _ => 0⟩, true, true, true⟩ none failedLookup) rfl
    (2 * minute) fun _ => ⟨none, []⟩ with ⟨due, _, _, exactly, triggered, _⟩
  exact ⟨due, triggered, exactly⟩

end OhanaAgent.Scheduler
