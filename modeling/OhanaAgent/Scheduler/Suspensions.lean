import OhanaAgent.Observation.Activations
import OhanaAgent.Scheduler.Ticks
import OhanaAgent.Transition.Requests

/-!
# Announced suspensions

A task outside its monitoring periods is not called.  Its suspension is announced
once: the next announcement comes after the task was reached again, whatever was
reconfigured, requested or restarted in between.
-/

namespace OhanaAgent.Scheduler

set_option linter.dupNamespace false

open Encoding.Json Observation Store Time Transition

/-! ## The protocol of announcements -/

/-- The suspension of a task is announced. -/
def Output.Announces (id : Text) (output : Output) : Prop :=
  ∃ reason next, output = .suspended id reason next

/-- The command of a task is run, or fails. -/
def Output.Reaches (id : Text) (output : Output) : Prop :=
  (∃ call, output = .called id call) ∨ ∃ at_ error, output = .failed id at_ error

/-- The suspension of a task was announced, and the task was not reached since. -/
def Announced (id : Text) (log : List Output) : Prop :=
  Outstanding (Output.Announces id) (Output.Reaches id) log

/-- What is remembered as suspended covers what is announced, and nothing was
announced again before it was reached. -/
structure Protocol (suspended : List Text) (log : List Output) : Prop where
  covers : ∀ id, Announced id log → id ∈ suspended
  once : ∀ {before after id reason next}, log = before ++ .suspended id reason next :: after →
    ¬ Announced id before

namespace Protocol

variable {suspended : List Text} {log : List Output} {output : Output} {id : Text}

theorem nil : Protocol [] [] where
  covers _ announced := absurd announced not_outstanding_nil
  once split := by simp at split

/-- One more output that announces nothing. -/
theorem concat (protocol : Protocol suspended log) (silent : ∀ id, ¬ output.Announces id) :
    Protocol suspended (log ++ [output]) where
  covers id announced :=
    protocol.covers id ((outstanding_concat_iff.mp announced).resolve_left (silent id)).1
  once {before after id reason next} split := by
    rcases concat_eq_split_iff.mp split with ⟨_, same, _⟩ | ⟨rest, _, split⟩
    · exact absurd ⟨reason, next, same⟩ (silent id)
    · exact protocol.once split

theorem append {outputs : List Output} (protocol : Protocol suspended log)
    (silent : ∀ output ∈ outputs, ∀ id, ¬ output.Announces id) :
    Protocol suspended (log ++ outputs) := by
  induction outputs generalizing log with
  | nil => rwa [List.append_nil]
  | cons output rest ih =>
      rw [List.forall_mem_cons] at silent
      rw [List.append_cons]
      exact ih (protocol.concat silent.1) silent.2

/-- A task that is not remembered is announced and remembered. -/
theorem announce {reason : String} {next : Option Int} (protocol : Protocol suspended log)
    (new : id ∉ suspended) : Protocol (suspended ++ [id]) (log ++ [.suspended id reason next]) where
  covers other announced := by
    rw [List.mem_append, List.mem_singleton]
    rcases outstanding_concat_iff.mp announced with ⟨_, _, same⟩ | ⟨earlier, _⟩
    · cases same
      exact Or.inr rfl
    · exact Or.inl (protocol.covers other earlier)
  once {before after other reason next} split := by
    rcases concat_eq_split_iff.mp split with ⟨rfl, same, _⟩ | ⟨rest, _, split⟩
    · cases same
      exact fun announced => new (protocol.covers id announced)
    · exact protocol.once split

/-- A task that is reached need not be remembered. -/
theorem reach (protocol : Protocol suspended log) (reaches : output.Reaches id) :
    Protocol (suspended.filter fun other => other ≠ id) (log ++ [output]) where
  covers other announced := by
    have silent : ¬ output.Announces other := by
      rintro ⟨reason, next, rfl⟩
      rcases reaches with ⟨call, same⟩ | ⟨at_, error, same⟩ <;> cases same
    rcases (outstanding_concat_iff.mp announced).resolve_left silent with ⟨earlier, quiet⟩
    rw [List.mem_filter, decide_eq_true_eq]
    exact ⟨protocol.covers other earlier, fun same => quiet (same ▸ reaches)⟩
  once {before after other reason next} split := by
    rcases concat_eq_split_iff.mp split with ⟨_, same, _⟩ | ⟨rest, _, split⟩
    · rcases reaches with ⟨call, reached⟩ | ⟨at_, error, reached⟩ <;>
        cases reached.symm.trans same
    · exact protocol.once split

end Protocol

/-! ## What the operations say -/

namespace Scheduler

variable {environment : Environment} {now : Int} {scheduler : Scheduler} {task : Task}
  {outcome : Outcome} {id : Text} {log : List Output}

@[simp]
theorem suspendedTasks_requestAll {requests : List RunRequest} :
    (scheduler.requestAll requests).1.suspendedTasks = scheduler.suspendedTasks := by
  induction requests generalizing scheduler with
  | nil => rfl
  | cons request rest ih =>
      rw [requestAll, ih]
      rfl

@[simp]
theorem suspendedTasks_recordTaskResult {result : TaskExecutionResult} :
    (scheduler.recordTaskResult result).suspendedTasks = scheduler.suspendedTasks := by
  cases result <;> rfl

theorem silent_requestRuns {request : RunRequest} :
    ∀ output ∈ (scheduler.requestRuns request).2, ∀ id, ¬ output.Announces id := by
  rintro output member id ⟨reason, next, rfl⟩
  rcases List.mem_flatMap.mp member with ⟨task, _, asked⟩
  rcases List.mem_map.mp asked with ⟨at_, _, same⟩
  cases same

theorem silent_requestAll {requests : List RunRequest} :
    ∀ output ∈ (scheduler.requestAll requests).2, ∀ id, ¬ output.Announces id := by
  induction requests generalizing scheduler with
  | nil => simp [requestAll]
  | cons request rest ih =>
      rw [requestAll, List.forall_mem_append]
      exact ⟨silent_requestRuns, ih⟩

theorem silent_output {result : TaskExecutionResult} :
    ∀ id, ¬ (result.output task.id now).Announces id := by
  rintro id ⟨reason, next, same⟩
  cases result <;> cases same

/-- After one execution, with what a tick puts out about it. -/
theorem protocol_executeSuspended {decision : MonitoringDecision}
    (protocol : Protocol scheduler.suspendedTasks log) :
    let execution := scheduler.executeSuspended now outcome task decision
    Protocol execution.scheduler.suspendedTasks
      (log ++ (execution.outputs ++ [execution.result.output task.id now])) := by
  have asked : Protocol scheduler.suspendedTasks
      (log ++ (scheduler.requestAll outcome.requests).2) := protocol.append silent_requestAll
  simp only [executeSuspended]
  split
  · exact protocol.concat silent_output
  · rename_i new
    split
    · rw [← List.append_assoc, suspendedTasks_requestAll]
      exact asked.concat silent_output
    · rw [← List.append_assoc, ← List.append_assoc]
      refine Protocol.concat ?_ silent_output
      change Protocol ((scheduler.requestAll outcome.requests).1.suspendedTasks ++ [task.id]) _
      rw [suspendedTasks_requestAll]
      exact asked.announce new

theorem protocol_resume {output : Output} (protocol : Protocol scheduler.suspendedTasks log)
    (reaches : output.Reaches id) :
    Protocol (scheduler.resume id).suspendedTasks (log ++ [output]) := by
  unfold resume
  split
  · refine protocol.concat fun other => ?_
    rintro ⟨reason, next, rfl⟩
    rcases reaches with ⟨call, same⟩ | ⟨at_, error, same⟩ <;> cases same
  · exact protocol.reach reaches

theorem protocol_executeCalled (protocol : Protocol scheduler.suspendedTasks log) :
    let execution := (scheduler.resume task.id).executeCalled environment now outcome task
    Protocol execution.scheduler.suspendedTasks
      (log ++ (execution.outputs ++ [execution.result.output task.id now])) := by
  simp only [executeCalled]
  split
  · exact protocol_resume protocol (Or.inr ⟨_, _, rfl⟩)
  · rename_i call _
    have asked : Protocol (scheduler.resume task.id).suspendedTasks
        (log ++ .called task.id call ::
          ((scheduler.resume task.id).requestAll outcome.requests).2) := by
      rw [List.append_cons]
      exact (protocol_resume protocol (Or.inl ⟨call, rfl⟩)).append silent_requestAll
    split <;> rw [← List.append_assoc]
    · refine Protocol.concat ?_ silent_output
      change Protocol ((scheduler.resume task.id).requestAll outcome.requests).1.suspendedTasks _
      rw [suspendedTasks_requestAll]
      exact asked
    · refine Protocol.concat ?_ silent_output
      change Protocol ((scheduler.resume task.id).requestAll outcome.requests).1.suspendedTasks _
      rw [suspendedTasks_requestAll]
      exact asked

theorem protocol_execute (protocol : Protocol scheduler.suspendedTasks log) :
    let execution := scheduler.execute environment now outcome task
    Protocol execution.scheduler.suspendedTasks
      (log ++ (execution.outputs ++ [execution.result.output task.id now])) := by
  simp only [execute]
  split
  · exact protocol_executeSuspended protocol
  · exact protocol_executeCalled protocol

theorem protocol_executeDue {outcomes : Text → Outcome} {tasks : List Task}
    (protocol : Protocol scheduler.suspendedTasks log) :
    let done := scheduler.executeDue environment now outcomes tasks
    Protocol done.1.suspendedTasks (log ++ done.2) := by
  induction tasks generalizing scheduler log with
  | nil =>
      intro done
      rw [show done.2 = [] from rfl, List.append_nil]
      exact protocol
  | cons task rest ih =>
      have one : ∀ execution, execution = scheduler.execute environment now (outcomes task.id) task →
          Protocol (execution.scheduler.recordTaskResult execution.result).suspendedTasks
            (log ++ (.triggered task.id :: execution.outputs ++
              [execution.result.output task.id now])) := by
        rintro execution rfl
        rw [suspendedTasks_recordTaskResult, List.cons_append, List.append_cons]
        refine protocol_execute (protocol.concat ?_)
        rintro id ⟨reason, next, same⟩
        cases same
      simp only [executeDue]
      split
      · exact one _ rfl
      · rw [← List.append_assoc]
        exact ih (one _ rfl)

theorem protocol_tick {outcomes : Text → Outcome}
    (protocol : Protocol scheduler.suspendedTasks log) :
    let ticked := scheduler.tick environment now outcomes
    Protocol ticked.1.suspendedTasks (log ++ ticked.2) := by
  simp only [tick]
  split
  · rw [List.append_nil]
    exact protocol
  · rw [List.append_cons]
    have started : Protocol (scheduler.recordTick now).suspendedTasks (log ++ [.ticked]) := by
      refine Protocol.concat protocol ?_
      rintro id ⟨reason, next, same⟩
      cases same
    exact protocol_executeDue started

theorem addTasks_silent {tasks : List Task} :
    (scheduler.addTasks tasks).1.suspendedTasks = scheduler.suspendedTasks ∧
      ∀ output ∈ (scheduler.addTasks tasks).2, ∀ id, ¬ output.Announces id := by
  induction tasks generalizing scheduler with
  | nil => simp [addTasks]
  | cons task rest ih =>
      unfold addTasks
      split
      · simp [Output.Announces]
      · rename_i registry _
        rw [List.forall_mem_cons]
        exact ⟨ih.1, by simp [Output.Announces], ih.2⟩

/-- An action that is no tick leaves the suspended tasks and announces nothing. -/
theorem act_silent {action : Action} (other : ∀ now outcomes, action ≠ .tick now outcomes) :
    (scheduler.act environment action).1.suspendedTasks = scheduler.suspendedTasks ∧
      ∀ output ∈ (scheduler.act environment action).2, ∀ id, ¬ output.Announces id := by
  cases action with
  | start now => exact ⟨rfl, by simp [act, start, Output.Announces]⟩
  | stop now => exact ⟨rfl, by simp [act, stop, Output.Announces]⟩
  | tick now outcomes => exact absurd rfl (other now outcomes)
  | requestRuns request => exact ⟨rfl, silent_requestRuns⟩
  | addTask config =>
      simp only [act, addTask]
      split
      · simp [Output.Announces]
      · split <;> simp [Output.Announces]
  | removeTask id =>
      simp only [act, removeTask]
      split <;> simp [Output.Announces]
  | replacePluginTasks plugin configs =>
      simp only [act, replacePluginTasks]
      split
      · simp [Output.Announces]
      · rw [List.forall_mem_append]
        refine ⟨addTasks_silent.1, ?_, addTasks_silent.2⟩
        rintro output member id ⟨reason, next, rfl⟩
        rcases List.mem_map.mp member with ⟨task, _, same⟩
        cases same
  | setEnabled id enabled =>
      simp only [act, setEnabled]
      split <;> simp
  | replaceSchedules schedules => exact ⟨rfl, by simp [act]⟩

end Scheduler

theorem Reached.protocol {environment : Environment} {schedules : Option (Text → Option Schedule)}
    {scheduler : Scheduler} {log : List Output}
    (reached : Reached environment schedules scheduler log) :
    Protocol scheduler.suspendedTasks log := by
  induction reached with
  | initial => exact .nil
  | act action before ih =>
      by_cases ticks : ∃ now outcomes, action = .tick now outcomes
      · rcases ticks with ⟨now, outcomes, rfl⟩
        exact Scheduler.protocol_tick ih
      · have other : ∀ now outcomes, action ≠ .tick now outcomes := fun now outcomes same =>
          ticks ⟨now, outcomes, same⟩
        rw [(Scheduler.act_silent other).1]
        exact ih.append (Scheduler.act_silent other).2

/-- In every run, between two completed announcements that a task is suspended, the
task was reached: its command was run, or failed. -/
theorem suspension_announced_once {environment : Environment}
    {schedules : Option (Text → Option Schedule)} {scheduler : Scheduler} {log : List Output}
    (reached : Reached environment schedules scheduler log)
    {earlier between later : List Output} {id : Text} {reason reason' : String}
    {next next' : Option Int} (split : log = earlier ++ .suspended id reason next :: between ++
      .suspended id reason' next' :: later) : ∃ output ∈ between, output.Reaches id := by
  by_contra silent
  refine reached.protocol.once split ⟨earlier, _, between, rfl, ⟨reason, next, rfl⟩, ?_⟩
  exact fun output member reaches => silent ⟨output, member, reaches⟩

/-! ## The schedules are respected -/

/-- A call is one that the schedules and the services allow, and an announced
suspension is a decision of the schedules. -/
def Output.Allowed (environment : Environment) (scheduler : Scheduler) (now : Int) :
    Output → Prop
  | .called id call => ∃ task ∈ scheduler.registry, task.id = id ∧
      scheduler.suspension task now = none ∧ task.call environment now = .ok call
  | .suspended id reason next => ∃ task ∈ scheduler.registry, task.id = id ∧
      ∃ decision, scheduler.suspension task now = some decision ∧
        reason = decision.reason.getD "Surveillance suspendue." ∧ next = decision.nextActivation
  | _ => True

namespace Scheduler

variable {environment : Environment} {now : Int} {start scheduler : Scheduler} {task : Task}
  {outcome : Outcome}

@[simp]
theorem schedules_requestAll {requests : List RunRequest} :
    (scheduler.requestAll requests).1.schedules = scheduler.schedules := by
  induction requests generalizing scheduler with
  | nil => rfl
  | cons request rest ih =>
      rw [requestAll, ih]
      rfl

theorem schedules_resume {id : Text} : (scheduler.resume id).schedules = scheduler.schedules := by
  unfold resume
  split <;> rfl

theorem schedules_execute :
    (scheduler.execute environment now outcome task).scheduler.schedules = scheduler.schedules := by
  simp only [execute]
  split
  · simp only [executeSuspended]
    split
    · rfl
    · split <;> exact schedules_requestAll
  · simp only [executeCalled]
    split
    · exact schedules_resume
    · split <;> exact schedules_requestAll.trans schedules_resume

theorem suspension_congr (same : scheduler.schedules = start.schedules) :
    scheduler.suspension task now = start.suspension task now := by
  rw [suspension, suspension, same]

theorem allowed_requestAll {requests : List RunRequest} :
    ∀ output ∈ (scheduler.requestAll requests).2, output.Allowed environment start now := by
  induction requests generalizing scheduler with
  | nil => simp [requestAll]
  | cons request rest ih =>
      rw [requestAll, List.forall_mem_append]
      refine ⟨fun output member => ?_, ih⟩
      rcases List.mem_flatMap.mp member with ⟨task, _, asked⟩
      rcases List.mem_map.mp asked with ⟨at_, _, rfl⟩
      trivial

theorem allowed_execute (same : scheduler.schedules = start.schedules)
    (registered : task ∈ start.registry) :
    ∀ output ∈ (scheduler.execute environment now outcome task).outputs,
      output.Allowed environment start now := by
  have decided : (scheduler.markStarted task.id now).suspension task now =
      start.suspension task now := suspension_congr same
  simp only [execute]
  split
  · rename_i decision suspended
    simp only [executeSuspended]
    split
    · simp
    · split
      · exact allowed_requestAll
      · rw [List.forall_mem_append, List.forall_mem_singleton]
        exact ⟨allowed_requestAll, task, registered, rfl, decision, decided ▸ suspended, rfl, rfl⟩
  · rename_i monitored
    simp only [executeCalled]
    split
    · simp
    · rename_i call callable
      split <;> rw [List.forall_mem_cons]
      · exact ⟨⟨task, registered, rfl, decided ▸ monitored, callable⟩, allowed_requestAll⟩
      · exact ⟨⟨task, registered, rfl, decided ▸ monitored, callable⟩, allowed_requestAll⟩

theorem allowed_executeDue {outcomes : Text → Outcome} {tasks : List Task}
    (same : scheduler.schedules = start.schedules) (registered : ∀ task ∈ tasks, task ∈ start.registry) :
    ∀ output ∈ (scheduler.executeDue environment now outcomes tasks).2,
      output.Allowed environment start now := by
  induction tasks generalizing scheduler with
  | nil => simp [executeDue]
  | cons task rest ih =>
      rw [List.forall_mem_cons] at registered
      have one : ∀ output ∈ .triggered task.id ::
          (scheduler.execute environment now (outcomes task.id) task).outputs ++
            [(scheduler.execute environment now (outcomes task.id) task).result.output task.id now],
          output.Allowed environment start now := by
        rw [List.cons_append, List.forall_mem_cons, List.forall_mem_append,
          List.forall_mem_singleton]
        refine ⟨trivial, allowed_execute same registered.1, ?_⟩
        cases (scheduler.execute environment now (outcomes task.id) task).result <;> trivial
      have kept : ∀ result : TaskExecutionResult,
          ((scheduler.execute environment now (outcomes task.id) task).scheduler.recordTaskResult
            result).schedules = start.schedules := by
        intro result
        cases result <;> exact schedules_execute.trans same
      simp only [executeDue]
      split
      · exact one
      · rw [List.forall_mem_append]
        exact ⟨one, ih (kept _) registered.2⟩

end Scheduler

/-- A tick calls a task only when the schedule of its node is active at its
instant, and announces a suspension only as the schedule has it. -/
theorem tick_respects_schedules (environment : Environment) (scheduler : Scheduler) (now : Int)
    (outcomes : Text → Outcome) : ∀ output ∈ (scheduler.tick environment now outcomes).2,
      output.Allowed environment scheduler now := by
  simp only [Scheduler.tick]
  split
  · simp
  · rw [List.forall_mem_cons]
    refine ⟨trivial, Scheduler.allowed_executeDue rfl fun task member => ?_⟩
    exact (List.mem_filter.mp ((List.mem_insertionSort _).mp member)).1

/-- A printer that is monitored from 07:05 to 22:00. -/
def printerStatus : TaskConfig where
  id := "printer".toList
  command := "network.reachable".toList
  name := none
  arguments := .nil
  metadata := .cons "node_id".toList (.string "printer".toList) .nil
  priority := 100
  enabled := true
  trigger := .interval minute (some 0)

def officeHours : Option (Text → Option Schedule) :=
  some fun node => if node = "printer".toList then some daytime else none

/-- Ticks at 06:00, at noon and at 23:00. -/
def printerDay : List Action :=
  [.start 0, .addTask printerStatus, .tick (6 * hour) fun _ => ⟨none, []⟩,
    .tick (12 * hour) fun _ => ⟨none, []⟩, .tick (23 * hour) fun _ => ⟨none, []⟩]

theorem printer_announced_once :
    ∃ output ∈ ([.executed "printer".toList (6 * hour), .ticked, .triggered "printer".toList,
      .called "printer".toList (.dispatcher "network.reachable".toList .nil),
      .executed "printer".toList (12 * hour), .ticked, .triggered "printer".toList] : List Output),
      output.Reaches "printer".toList := by
  have split : (run ⟨⟨fun _ => 0⟩, true, true, true⟩ officeHours printerDay).2 =
      [.started, .added "printer".toList, .ticked, .triggered "printer".toList] ++
        .suspended "printer".toList "Surveillance suspendue en dehors de la plage horaire."
          (some (7 * hour + 5 * minute)) ::
        [.executed "printer".toList (6 * hour), .ticked, .triggered "printer".toList,
          .called "printer".toList (.dispatcher "network.reachable".toList .nil),
          .executed "printer".toList (12 * hour), .ticked, .triggered "printer".toList] ++
        .suspended "printer".toList "Surveillance suspendue en dehors de la plage horaire."
          (some (31 * hour + 5 * minute)) :: [.executed "printer".toList (23 * hour)] := rfl
  exact suspension_announced_once (reached_run _ _ _) split

theorem printer_respects_schedules :
    (Output.suspended "printer".toList "Surveillance suspendue en dehors de la plage horaire."
      (some (7 * hour + 5 * minute))).Allowed ⟨⟨fun _ => 0⟩, true, true, true⟩
        (run ⟨⟨fun _ => 0⟩, true, true, true⟩ officeHours (printerDay.take 2)).1 (6 * hour) := by
  have outputs : ((run ⟨⟨fun _ => 0⟩, true, true, true⟩ officeHours (printerDay.take 2)).1.tick
      ⟨⟨fun _ => 0⟩, true, true, true⟩ (6 * hour) fun _ => ⟨none, []⟩).2 =
        [.ticked, .triggered "printer".toList,
          .suspended "printer".toList "Surveillance suspendue en dehors de la plage horaire."
            (some (7 * hour + 5 * minute)),
          .executed "printer".toList (6 * hour)] := rfl
  refine tick_respects_schedules _ _ (6 * hour) (fun _ => ⟨none, []⟩) _ ?_
  rw [outputs]
  simp

end OhanaAgent.Scheduler
