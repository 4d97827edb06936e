import OhanaAgent.Scheduler.Histories

/-!
# After a tick

A tick that no exception cuts short leaves no task due at its instant, as long as
the runs that its handlers ask for are later ones: every due task was executed,
and an execution makes its trigger wait and takes the requests whose time has
come.
-/

namespace OhanaAgent.Scheduler

set_option linter.dupNamespace false

open Encoding Encoding.Json Time Store Transition

namespace Task

variable {clock : Zone} {now : Int} {task : Task}

theorem enabled_requestRuns {times : List Int} :
    (task.requestRuns times).enabled = task.enabled := by
  unfold requestRuns
  induction times generalizing task with
  | nil => rfl
  | cons at_ rest ih =>
      rw [List.foldl_cons, ih]
      rfl

/-- Requests for later runs make no task due. -/
theorem isDue_requestRuns {times : List Int} (later : ∀ at_ ∈ times, now < at_) :
    (task.requestRuns times).isDue clock now = task.isDue clock now := by
  have requests : ((task.requestRuns times).runRequests.any fun requested => requested ≤ now) =
      task.runRequests.any fun requested => requested ≤ now := by
    rw [Bool.eq_iff_iff, List.any_eq_true, List.any_eq_true]
    constructor
    · rintro ⟨requested, member, reached⟩
      rcases mem_requestRuns.mp member with old | new
      · exact ⟨requested, old, reached⟩
      · exact absurd (of_decide_eq_true reached) (not_le.mpr (later requested new))
    · rintro ⟨requested, member, reached⟩
      exact ⟨requested, mem_requestRuns.mpr (Or.inl member), reached⟩
  rw [isDue, isDue, enabled_requestRuns, trigger_requestRuns, requests]

/-- An execution takes the requests whose time has come. -/
theorem not_isDue_consumed (waits : task.trigger.isDue clock now = false) :
    (task.consumeRunRequests now).isDue clock now = false := by
  simp [isDue, consumeRunRequests, waits]

theorem not_isDue_markFinished : (task.markFinished now).isDue clock now = false :=
  not_isDue_consumed (task.trigger.not_isDue_markExecuted clock now)

theorem not_isDue_markFailed {error : String} :
    (task.markFailed now error).isDue clock now = false :=
  not_isDue_consumed (task.trigger.not_isDue_markExecuted clock now)

end Task

namespace Scheduler

variable {environment : Environment} {clock : Zone} {now : Int} {scheduler : Scheduler}
  {task : Task} {outcome : Outcome} {waiting : List Text} {id : Text}

/-- Only the tasks that still wait for their turn may be due. -/
def Settled (clock : Zone) (now : Int) (waiting : List Text) (scheduler : Scheduler) : Prop :=
  ∀ task ∈ scheduler.registry, task.id ∈ waiting ∨ task.isDue clock now = false

/-- A rewriting that makes no task due. -/
theorem Settled.mapRows {f : Task → Task} {keeps : ∀ task, (f task).id = task.id}
    (settled : scheduler.Settled clock now waiting)
    (calm : ∀ task : Task, task.isDue clock now = false → (f task).isDue clock now = false) :
    { scheduler with registry := scheduler.registry.mapRows f keeps }.Settled clock now waiting := by
  intro rewritten member
  change rewritten ∈ scheduler.registry.mapRows f keeps at member
  rcases Table.mem_mapRows.mp member with ⟨task, taskMem, rfl⟩
  rw [keeps]
  exact (settled task taskMem).imp_right (calm task)

/-- The turn of a task is over when it is marked. -/
theorem Settled.modify {f : Task → Task} {keeps : ∀ task, (f task).id = task.id}
    (settled : scheduler.Settled clock now (id :: waiting))
    (done : ∀ task : Task, (f task).isDue clock now = false) :
    { scheduler with registry := scheduler.registry.modify id f keeps }.Settled clock now
      waiting := by
  intro rewritten member
  change rewritten ∈ scheduler.registry.modify id f keeps at member
  rcases Table.mem_modify.mp member with ⟨task, _, _, rfl⟩ | ⟨taskMem, different⟩
  · exact Or.inr (done task)
  · exact (settled rewritten taskMem).imp_left fun waits =>
      (List.mem_cons.mp waits).resolve_left different

theorem Settled.markStarted (settled : scheduler.Settled clock now waiting) :
    (scheduler.markStarted id now).Settled clock now waiting := by
  refine settled.mapRows fun task calm => ?_
  split
  · exact calm
  · exact calm

theorem Settled.requestRuns {request : RunRequest} (settled : scheduler.Settled clock now waiting)
    (later : ∀ at_ ∈ request.times, now < at_) :
    (scheduler.requestRuns request).1.Settled clock now waiting := by
  refine settled.mapRows fun task calm => ?_
  unfold RunRequest.apply
  split
  · rw [Task.isDue_requestRuns later]
    exact calm
  · exact calm

theorem Settled.requestAll {requests : List RunRequest}
    (settled : scheduler.Settled clock now waiting)
    (later : ∀ request ∈ requests, ∀ at_ ∈ request.times, now < at_) :
    (scheduler.requestAll requests).1.Settled clock now waiting := by
  induction requests generalizing scheduler with
  | nil => exact settled
  | cons request rest ih =>
      rw [List.forall_mem_cons] at later
      rw [Scheduler.requestAll]
      exact ih (settled.requestRuns later.1) later.2

theorem Settled.resume (settled : scheduler.Settled clock now waiting) :
    (scheduler.resume id).Settled clock now waiting := by
  unfold Scheduler.resume
  split <;> exact settled

theorem Settled.suspend (settled : scheduler.Settled clock now waiting) :
    (scheduler.suspend id).Settled clock now waiting := settled

theorem Settled.markFinished (settled : scheduler.Settled clock now (id :: waiting)) :
    (scheduler.markFinished id now).Settled clock now waiting :=
  settled.modify fun _ => Task.not_isDue_markFinished

theorem Settled.markFailed {error : String}
    (settled : scheduler.Settled clock now (id :: waiting)) :
    (scheduler.markFailed id now error).Settled clock now waiting :=
  settled.modify fun _ => Task.not_isDue_markFailed

theorem Settled.execute (settled : scheduler.Settled clock now (task.id :: waiting))
    (later : ∀ request ∈ outcome.requests, ∀ at_ ∈ request.times, now < at_)
    (stays : (scheduler.execute environment now outcome task).result.escapes = false) :
    (scheduler.execute environment now outcome task).scheduler.Settled clock now waiting := by
  simp only [Scheduler.execute] at stays ⊢
  split
  · rename_i suspended
    rw [suspended] at stays
    simp only [executeSuspended] at stays ⊢
    split
    · exact settled.markStarted.markFinished
    · rename_i announced
      rw [if_neg announced] at stays
      split
      · rename_i error
        simp [error, TaskExecutionResult.escapes] at stays
      · exact (settled.markStarted.requestAll later).suspend.markFinished
  · simp only [executeCalled]
    split
    · exact settled.markStarted.resume.markFailed
    · split
      · exact (settled.markStarted.resume.requestAll later).markFailed
      · exact (settled.markStarted.resume.requestAll later).markFinished

theorem Settled.recordTaskResult {result : TaskExecutionResult}
    (settled : scheduler.Settled clock now waiting) :
    (scheduler.recordTaskResult result).Settled clock now waiting := by
  cases result <;> exact settled

/-- A loop that no exception ends serves all its tasks. -/
theorem Settled.executeDue {outcomes : Text → Outcome} {tasks : List Task}
    (settled : scheduler.Settled clock now (tasks.map Task.id))
    (later : ∀ id, ∀ request ∈ (outcomes id).requests, ∀ at_ ∈ request.times, now < at_)
    (quiet : Uninterrupted (scheduler.executeDue environment now outcomes tasks).2) :
    (scheduler.executeDue environment now outcomes tasks).1.Settled clock now [] := by
  induction tasks generalizing scheduler with
  | nil => exact settled
  | cons task rest ih =>
      rcases executeDue_of_uninterrupted quiet with ⟨stays, calm, step⟩
      rw [step]
      exact ih (settled.execute (later task.id) stays).recordTaskResult calm

end Scheduler

/-- After a tick that no exception cuts short, and whose handlers asked for later
runs only, no task is due at its instant: another tick would do nothing. -/
theorem no_task_due_after_tick {environment : Environment} {scheduler : Scheduler} {now : Int}
    {outcomes : Text → Outcome} (running : scheduler.state = .running)
    (later : ∀ id, ∀ request ∈ (outcomes id).requests, ∀ at_ ∈ request.times, now < at_)
    (quiet : Uninterrupted (scheduler.tick environment now outcomes).2) :
    TaskRegistry.dueTasks environment.clock now (scheduler.tick environment now outcomes).1.registry =
      [] := by
  have ticked : scheduler.tick environment now outcomes =
      let due := TaskRegistry.dueTasks environment.clock now scheduler.registry
      let done := (scheduler.recordTick now).executeDue environment now outcomes due
      (done.1, .ticked :: done.2) := by
    simp only [Scheduler.tick, running]
  have start : (scheduler.recordTick now).Settled environment.clock now
      ((TaskRegistry.dueTasks environment.clock now scheduler.registry).map Task.id) := by
    intro task member
    by_cases due : task.isDue environment.clock now = true
    · refine Or.inl (List.mem_map_of_mem ((List.mem_insertionSort _).mpr ?_))
      exact List.mem_filter.mpr ⟨member, due⟩
    · exact Or.inr (by simpa using due)
  rw [ticked] at quiet ⊢
  have settled := start.executeDue later fun id error member =>
    quiet id error (List.mem_cons_of_mem _ member)
  rw [TaskRegistry.dueTasks, List.filter_eq_nil_iff.mpr, List.insertionSort_nil]
  intro task member
  rcases settled task member with waits | calm
  · cases waits
  · simp [calm]

theorem failedLookup_settles :
    TaskRegistry.dueTasks ⟨fun _ => 0⟩ (2 * minute) ((run ⟨⟨fun _ => 0⟩, true, true, true⟩ none
      failedLookup).1.tick ⟨⟨fun _ => 0⟩, true, true, true⟩ (2 * minute)
        fun _ => ⟨none, []⟩).1.registry = [] := by
  refine @no_task_due_after_tick ⟨⟨fun _ => 0⟩, true, true, true⟩ _ _ _ rfl ?_ ?_
  · simp
  · intro id error member
    have outputs : ((run ⟨⟨fun _ => 0⟩, true, true, true⟩ none failedLookup).1.tick
        ⟨⟨fun _ => 0⟩, true, true, true⟩ (2 * minute) fun _ => ⟨none, []⟩).2 =
        [.ticked, .triggered "dhcp".toList, .called "dhcp".toList
          (.dispatcher "dhcp.status".toList .nil), .executed "dhcp".toList (2 * minute)] := rfl
    rw [outputs] at member
    simp at member

end OhanaAgent.Scheduler
