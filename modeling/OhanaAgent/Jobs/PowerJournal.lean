import OhanaAgent.Jobs.Renaming
import Mathlib.Data.List.Chain

/-!
# The power journal

The journal of a worker grows by events that fit the one before them, and keeps
the last two hundred.  Most calls write neither the journal nor the wakes of the
workers; for the others this file says which events they add.
-/

namespace OhanaAgent.Jobs

open OhanaAgent.Encoding.Json
open OhanaAgent.Store
open OhanaAgent.Time
open OhanaAgent.Transition

variable {env : Environment} {config : Config} {now : Int} {db after : Database}

/-! ## Frames -/

/-- The columns of a worker that a wake writes. -/
def WorkerRow.wake (row : WorkerRow) : Text × Bool × Option Int × Option Int :=
  (row.workerId, row.wokenByOhana, row.wakeRequestedAt, row.wakeDeadlineAt)

/-- The wakes of the workers are as they were. -/
def SameWakes (before after : Database) : Prop :=
  after.workers.rows.map WorkerRow.wake = before.workers.rows.map WorkerRow.wake

/-- The power journal is as it was. -/
structure SamePower (before after : Database) : Prop where
  powerEvents : after.powerEvents = before.powerEvents
  nextPowerEvent : after.nextPowerEvent = before.nextPowerEvent

/-- Neither the wakes nor the power journal changed. -/
structure Silent (before after : Database) : Prop extends SamePower before after where
  wakes : SameWakes before after

theorem SameWakes.refl (db : Database) : SameWakes db db :=
  rfl

theorem SameWakes.trans {first second third : Database} (left : SameWakes first second)
    (right : SameWakes second third) : SameWakes first third :=
  Eq.trans right left

theorem SameWakes.of_workers (same : after.workers = db.workers) : SameWakes db after := by
  unfold SameWakes
  rw [same]

/-- Every worker is still there, with its wake. -/
theorem SameWakes.target (same : SameWakes db after) {row : WorkerRow} (member : row ∈ db.workers) :
    ∃ next ∈ after.workers, next.wake = row.wake := by
  have listed : row.wake ∈ after.workers.rows.map WorkerRow.wake := by
    rw [same]
    exact List.mem_map_of_mem member
  rcases List.mem_map.mp listed with ⟨next, nextMem, equal⟩
  exact ⟨next, nextMem, equal⟩

/-- Every worker was there, with its wake. -/
theorem SameWakes.source (same : SameWakes db after) {next : WorkerRow}
    (member : next ∈ after.workers) : ∃ row ∈ db.workers, row.wake = next.wake :=
  SameWakes.target (Eq.symm same) member

/-- A write that keeps the wakes of the workers. -/
theorem SameWakes.of_modify {workerId : Text} {f : WorkerRow → WorkerRow}
    (written : after.workers.rows = db.workers.rows.map fun row =>
      if row.workerId = workerId then f row else row)
    (same : ∀ row, (f row).wake = row.wake) : SameWakes db after := by
  unfold SameWakes
  rw [written, List.map_map]
  apply List.map_congr_left
  intro row _
  rw [Function.comp_apply]
  split
  · exact same row
  · rfl

theorem Silent.refl (db : Database) : Silent db db :=
  ⟨⟨rfl, rfl⟩, .refl db⟩

theorem Silent.trans {first second third : Database} (left : Silent first second)
    (right : Silent second third) : Silent first third where
  powerEvents := right.powerEvents.trans left.powerEvents
  nextPowerEvent := right.nextPowerEvent.trans left.nextPowerEvent
  wakes := left.wakes.trans right.wakes

theorem silent_touchWorker (workerId : Text) (now : Int) (db : Database) :
    Silent db (db.touchWorker workerId now) :=
  ⟨⟨rfl, rfl⟩, .of_modify rfl fun _ => rfl⟩

theorem silent_recover (db : Database) : Silent db (db.recover env config now) := by
  have loop (rows : List JobRow) (db : Database) :
      Silent db (rows.foldl (Database.recoverRow config now) db) := by
    induction rows generalizing db with
    | nil => exact .refl db
    | cons row rows inductionHypothesis =>
        refine Silent.trans ?_ (inductionHypothesis _)
        unfold Database.recoverRow
        split <;> exact ⟨⟨rfl, rfl⟩, .refl _⟩
  exact (loop (db.jobs.rows.filter fun row => row.status.recoverable) db).trans
    ⟨⟨rfl, rfl⟩, .refl _⟩

/-- A touch and a write of the jobs after the recovery. -/
theorem silent_recover_touch (workerId : Text) (db : Database) :
    Silent db ((db.recover env config now).touchWorker workerId now) :=
  (silent_recover db).trans (silent_touchWorker workerId now _)

theorem silent_enqueue {job : NewJob} {answer : JobDocument}
    (done : db.enqueue env config now job = .ok (answer, after)) : Silent db after := by
  have recovered : Silent db (db.recover env config now) := silent_recover db
  simp only [Database.enqueue] at done
  split at done
  · split at done
    · simp at done
    · simp only [bind_eq_ok, pure_eq_ok, Prod.mk.injEq] at done
      rcases done with ⟨_, _, _, rfl⟩
      exact recovered
  · split at done
    · simp at done
    · split at done
      · simp at done
      · simp only [bind_eq_ok, pure_eq_ok, Prod.mk.injEq] at done
        rcases done with ⟨_, _, _, _, _, rfl⟩
        exact recovered.trans ⟨⟨rfl, rfl⟩, .refl _⟩

theorem silent_cancel {jobId : Text} {answer : JobDocument}
    (done : db.cancel env config now jobId = .ok (answer, after)) : Silent db after := by
  have recovered : Silent db (db.recover env config now) := silent_recover db
  rcases cancel_eq_ok done with rfl | ⟨row, _, _, rfl⟩
  · exact recovered
  · exact recovered.trans ⟨⟨rfl, rfl⟩, .refl _⟩

theorem silent_renew {jobId : Text} {heartbeat : JobHeartbeat} {answer : JobDocument}
    (done : db.renew env config now jobId heartbeat = .ok (answer, after)) : Silent db after := by
  rcases renew_eq_ok done with ⟨row, _, _, _, ⟨_, rfl⟩ | ⟨_, _, rfl⟩⟩
  · exact silent_recover db
  · exact (silent_recover_touch heartbeat.workerId db).trans ⟨⟨rfl, rfl⟩, .refl _⟩

theorem silent_finish {jobId : Text} {completion : JobCompletion} {answer : JobDocument}
    (done : db.finish env config now jobId completion = .ok (answer, after)) :
    Silent db after := by
  have recovered : Silent db (db.recover env config now) := silent_recover db
  rcases finish_eq_ok done with ⟨row, stored, _, _, ⟨_, _, rfl⟩ | ⟨_, _, _, _, rfl⟩⟩
  · exact recovered
  · exact recovered.trans ⟨⟨rfl, rfl⟩, .refl _⟩

theorem silent_authorizeJobTransfer {jobId workerId : Text} {attempt : Nat}
    {permitted : List Text} {answer : JobDocument}
    (done : db.authorizeJobTransfer env config now jobId workerId attempt permitted =
      .ok (answer, after)) : Silent db after := by
  simp only [Database.authorizeJobTransfer, bind_eq_ok] at done
  rcases done with ⟨_, _, _, _, done⟩
  split at done
  · simp only [bind_eq_ok, pure_eq_ok, Prod.mk.injEq] at done
    rcases done with ⟨_, _, _, rfl⟩
    exact silent_recover_touch workerId db
  · simp at done

theorem silent_reportWorkerRuntimes {workerId : Text} {runtimes kept : List (Text × Value)}
    {host : Option Value}
    (done : db.reportWorkerRuntimes now workerId runtimes host = .ok (kept, after)) :
    Silent db after := by
  unfold Database.reportWorkerRuntimes at done
  split at done
  · contradiction
  · cases done
    exact ⟨⟨rfl, rfl⟩, .of_modify rfl fun _ => rfl⟩

/-- The events a call can record. -/
def Operation.records : Operation → List PowerEventKind
  | .claim .. => [.shutdownGranted]
  | .registerWorker .. => [.workerOnline]
  | .markWorkerWaking .. => [.wakeSent]
  | .reportWorkerPower .. => [.shutdownStarted, .shutdownVetoed]
  | .settleUnansweredWakes .. => [.wakeTimeout, .wakeAbandoned]
  | .recordWakeFailure .. => [.wakeFailed]
  | _ => []

theorem answering_silent {α : Type} {wrap : α → Answer}
    {body : Database → Except Failure (α × Database)}
    (silent : ∀ answer next, body db = .ok (answer, next) → Silent db next) :
    Silent db (answering wrap body db).2 :=
  answering_induction (motive := Silent db) (.refl db) silent

theorem silent_createPairing {request : Registration} {pairingId secret code : Text}
    {row : PairingRow}
    (done : db.createPairing env config now request pairingId secret code = .ok (row, after)) :
    Silent db after := by
  unfold Database.createPairing at done
  dsimp only at done
  split at done
  · simp at done
  · split at done
    · simp at done
    · split at done
      · simp only [pure_eq_ok, Prod.mk.injEq] at done
        rcases done with ⟨_, rfl⟩
        exact ⟨⟨rfl, rfl⟩, .refl _⟩
      · simp at done

theorem silent_storeCredential {credential : CredentialRow}
    (done : db.storeCredential credential = .ok after) : Silent db after := by
  unfold Database.storeCredential at done
  split at done
  · cases done
    exact ⟨⟨rfl, rfl⟩, .refl _⟩
  · split at done
    · cases done
      exact ⟨⟨rfl, rfl⟩, .refl _⟩
    · contradiction

/-- A call that records no event writes neither the journal nor the wakes. -/
theorem silent_run {operation : Operation} (silent : operation.records = []) :
    Silent db (operation.run env config now db).2 := by
  have recovered : Silent db (db.recover env config now) := silent_recover db
  cases operation with
  | create payload =>
      apply answering_silent
      intro answer next done
      rcases create_eq_ok done with ⟨job, _, enqueued⟩
      exact silent_enqueue enqueued
  | get jobId =>
      apply answering_silent
      intro answer next done
      rcases get_eq_ok.mp done with ⟨_, _, _, rfl⟩
      exact recovered
  | latest typeName =>
      simp only [Operation.run, Database.latest]
      split
      · exact .refl db
      · dsimp only [Database.recoveredRows]
        split <;> exact recovered
  | latestForIncident typeName incidentId status =>
      simp only [Operation.run, Database.latestForIncident]
      split
      · exact .refl db
      · dsimp only [Database.recoveredRows]
        split <;> exact recovered
  | activeForIncident typeName incidentId =>
      apply answering_silent
      intro answer next done
      simp only [Database.activeForIncident, bind_eq_ok, Database.recoveredRows] at done
      rcases done with ⟨_, _, done⟩
      split at done
      · simp only [pure_eq_ok, Prod.mk.injEq] at done
        rcases done with ⟨_, rfl⟩
        exact recovered
      · simp only [bind_eq_ok, pure_eq_ok, Prod.mk.injEq] at done
        rcases done with ⟨_, _, _, rfl⟩
        exact recovered
  | cancel jobId => exact answering_silent fun answer next done => silent_cancel done
  | claim workerId supportedTypes shutdownAfterCompletion settle => simp [Operation.records] at silent
  | pendingCompletions failuresOnly =>
      apply answering_silent
      intro answer next done
      simp only [Database.pendingCompletions, bind_eq_ok, pure_eq_ok, Prod.mk.injEq] at done
      rcases done with ⟨_, _, _, rfl⟩
      exact recovered
  | markCompletionProcessed jobId => exact ⟨⟨rfl, rfl⟩, .refl _⟩
  | authorizeJobTransfer jobId workerId attempt permitted =>
      exact answering_silent fun answer next done => silent_authorizeJobTransfer done
  | heartbeat jobId workerId attempt progress =>
      apply answering_silent
      intro answer next done
      rcases heartbeat_eq_ok done with ⟨heartbeat, _, _, renewed⟩
      exact silent_renew renewed
  | complete jobId payload =>
      apply answering_silent
      intro answer next done
      rcases complete_eq_ok done with ⟨completion, _, _, _, finished⟩
      exact silent_finish finished
  | wakeReadyJobTypes batchWindowSeconds jobTypes createdAfter createdBefore =>
      apply answering_silent
      intro answer next done
      unfold Database.wakeReadyJobTypes at done
      split at done
      · contradiction
      · split at done <;> cases done
        · exact .refl db
        · exact recovered
  | registerWorker payload previousWorkerId => simp [Operation.records] at silent
  | reportWorkerRuntimes workerId runtimes host =>
      exact answering_silent fun answer next done => silent_reportWorkerRuntimes done
  | markWorkerWaking workerId timeoutSeconds trigger => simp [Operation.records] at silent
  | reportWorkerPower workerId started detail => simp [Operation.records] at silent
  | settleUnansweredWakes maxAttempts => simp [Operation.records] at silent
  | recordWakeFailure workerId error trigger => simp [Operation.records] at silent
  | createPairing payload pairingId pollingSecret verificationCode =>
      apply answering_silent
      intro answer next done
      rcases bind_eq_ok.mp done with ⟨registration, _, created⟩
      exact silent_createPairing created
  | listPairings => exact ⟨⟨rfl, rfl⟩, .refl _⟩
  | approvePairing pairingId =>
      apply answering_silent
      intro answer next done
      rcases approvePairing_eq_ok done with ⟨_, _, ⟨_, rfl⟩ | ⟨_, rfl⟩⟩ <;>
        exact ⟨⟨rfl, rfl⟩, .refl _⟩
  | rejectPairing pairingId =>
      apply answering_silent
      intro answer next done
      rcases rejectPairing_eq_ok done with ⟨_, _, ⟨_, rfl⟩ | ⟨_, rfl⟩⟩ <;>
        exact ⟨⟨rfl, rfl⟩, .refl _⟩
  | pollPairing pairingId pollingSecret workerToken =>
      apply answering_silent
      intro answer next done
      rcases pollPairing_eq_ok done with ⟨_, _, _, ⟨_, _, _, stored, credential, rfl⟩ | ⟨_, _, _, rfl⟩⟩
      · have expired : Silent db (db.expirePairings env now) := ⟨⟨rfl, rfl⟩, .refl _⟩
        exact (expired.trans (silent_storeCredential credential)).trans ⟨⟨rfl, rfl⟩, .refl _⟩
      · exact ⟨⟨rfl, rfl⟩, .refl _⟩

/-! ## Calls that keep the wakes -/

theorem workers_idleShutdown (workerId : Text) (now : Int) (db : Database) :
    (db.idleShutdown workerId now).2.workers = db.workers := by
  unfold Database.idleShutdown
  split
  · rfl
  · split
    · split
      · rfl
      · split
        · split <;> rfl
        · rfl
    · rfl

theorem workers_settleUnansweredWake (maxAttempts : Nat) (row : WorkerRow) (db : Database) :
    (db.settleUnansweredWake config now maxAttempts row).workers = db.workers := by
  unfold Database.settleUnansweredWake
  split
  · split
    · rfl
    · dsimp only
      split <;> rfl
  · rfl

theorem workers_settleUnansweredWakes (maxAttempts : Nat) (db : Database) :
    (db.settleUnansweredWakes config now maxAttempts).workers = db.workers := by
  unfold Database.settleUnansweredWakes
  generalize db.workers.rows.filter (fun row => row.wakeDeadlineAt.isSome) = rows
  induction rows generalizing db with
  | nil => rfl
  | cons row rows inductionHypothesis =>
      rw [List.foldl_cons, inductionHypothesis]
      exact workers_settleUnansweredWake maxAttempts row db

theorem sameWakes_claim {workerId : Text} {supportedTypes : List Text} {shutdown settle : Bool}
    {result : ClaimResult}
    (done : db.claim env config now workerId supportedTypes shutdown settle =
      .ok (result, after)) : SameWakes db after := by
  have touched (workerId : Text) :
      SameWakes db ((db.recover env config now).touchWorker workerId now) :=
    (silent_recover_touch workerId db).wakes
  simp only [Database.claim, bind_eq_ok] at done
  rcases done with ⟨checked, _, done⟩
  split at done
  · simp only [pure_eq_ok, Prod.mk.injEq] at done
    rcases done with ⟨_, rfl⟩
    exact .refl db
  · unfold Database.claimOldest at done
    dsimp only at done
    split at done
    · split at done
      · simp only [pure_eq_ok, Prod.mk.injEq] at done
        rcases done with ⟨_, rfl⟩
        exact (touched checked.workerId).trans (.of_workers (workers_idleShutdown _ now _))
      · simp only [pure_eq_ok, Prod.mk.injEq] at done
        rcases done with ⟨_, rfl⟩
        exact touched checked.workerId
    · simp only [bind_eq_ok, pure_eq_ok, Prod.mk.injEq] at done
      rcases done with ⟨_, _, _, _, _, rfl⟩
      exact (touched checked.workerId).trans (.of_workers rfl)

/-- Only registrations, wakes and power reports write the wakes. -/
theorem sameWakes_run {operation : Operation}
    (registration : ∀ payload previous, operation ≠ .registerWorker payload previous)
    (wake : ∀ workerId timeout trigger, operation ≠ .markWorkerWaking workerId timeout trigger)
    (power : ∀ workerId started detail, operation ≠ .reportWorkerPower workerId started detail) :
    SameWakes db (operation.run env config now db).2 := by
  by_cases silent : operation.records = []
  · exact (silent_run silent).wakes
  · cases operation with
    | claim workerId supportedTypes shutdownAfterCompletion settle =>
        exact answering_induction (motive := SameWakes db) (.refl db) fun answer next done =>
          sameWakes_claim done
    | settleUnansweredWakes maxAttempts =>
        exact .of_workers (workers_settleUnansweredWakes maxAttempts db)
    | recordWakeFailure workerId error trigger => exact .of_workers rfl
    | registerWorker payload previous => exact absurd rfl (registration payload previous)
    | markWorkerWaking workerId timeout trigger => exact absurd rfl (wake workerId timeout trigger)
    | reportWorkerPower workerId started detail => exact absurd rfl (power workerId started detail)
    | _ => exact absurd rfl silent

/-! ## Events -/

/-- The registration was noted as an answer after the wait, or as a start by
hand. -/
def PowerEvent.overdue (event : PowerEvent) : Bool :=
  flag "late" event.detail || flag "manual" event.detail

/-- An event that can follow the last one of its worker: a timeout follows its
wake, an abandonment its timeout, and a worker comes online after one of them,
in time only after the wake itself. -/
def Fits (last : Option PowerEvent) (event : PowerEvent) : Prop :=
  match event.kind with
  | .wakeTimeout => ∃ earlier ∈ last, earlier.kind = .wakeSent
  | .wakeAbandoned => ∃ earlier ∈ last, earlier.kind = .wakeTimeout
  | .workerOnline => ∃ earlier ∈ last, earlier.kind = .wakeSent ∨
      (earlier.kind = .wakeTimeout ∨ earlier.kind = .wakeAbandoned) ∧ event.overdue = true
  | _ => True

/-- The event `_power_event_locked` appends. -/
def Database.newPowerEvent (db : Database) (workerId : Text) (kind : PowerEventKind) (instant : Int)
    (detail : Value) : PowerEvent where
  eventId := db.nextPowerEvent
  workerId := workerId
  occurredAt := instant
  kind := kind
  detail := detail

/-- The event is recorded, and nothing else is written to the journal. -/
structure Noted (before : Database) (event : PowerEvent) (after : Database) : Prop where
  eventId : event.eventId = before.nextPowerEvent
  same : SamePower (before.powerEvent event.workerId event.kind event.occurredAt event.detail) after

/-- The journal grows by a list of events, each fitting the one before it. -/
inductive Grows : Database → List PowerEvent → Database → Prop
  | nil {before after : Database} (same : SamePower before after) : Grows before [] after
  | cons {before middle after : Database} {event : PowerEvent} {events : List PowerEvent}
      (fits : Fits (before.lastPowerEvent event.workerId) event)
      (noted : Noted before event middle) (rest : Grows middle events after) :
      Grows before (event :: events) after

theorem SamePower.refl (db : Database) : SamePower db db :=
  ⟨rfl, rfl⟩

theorem SamePower.trans {first second third : Database} (left : SamePower first second)
    (right : SamePower second third) : SamePower first third :=
  ⟨right.powerEvents.trans left.powerEvents, right.nextPowerEvent.trans left.nextPowerEvent⟩

theorem SamePower.journal (same : SamePower db after) (workerId : Text) :
    after.journal workerId = db.journal workerId := by
  unfold Database.journal
  rw [same.powerEvents]

theorem SamePower.lastPowerEvent (same : SamePower db after) (workerId : Text) :
    after.lastPowerEvent workerId = db.lastPowerEvent workerId := by
  unfold Database.lastPowerEvent
  rw [same.journal]

theorem SamePower.powerEvent (same : SamePower db after) (workerId : Text) (kind : PowerEventKind)
    (instant : Int) (detail : Value) :
    SamePower (db.powerEvent workerId kind instant detail)
      (after.powerEvent workerId kind instant detail) := by
  constructor
  · unfold Database.powerEvent
    rw [same.powerEvents, same.nextPowerEvent]
  · exact congrArg (· + 1) same.nextPowerEvent

theorem Noted.after_same {event : PowerEvent} {middle : Database} (same : SamePower db middle)
    (noted : Noted middle event after) : Noted db event after where
  eventId := noted.eventId.trans same.nextPowerEvent
  same := (same.powerEvent _ _ _ _).trans noted.same

/-! ## Retention -/

/-- The last elements of a list, as many as asked for. -/
def lastOf {α : Type} (n : Nat) (elements : List α) : List α :=
  elements.drop (elements.length - n)

theorem lastOf_of_le {α : Type} {n : Nat} {elements : List α} (short : elements.length ≤ n) :
    lastOf n elements = elements := by
  unfold lastOf
  rw [Nat.sub_eq_zero_of_le short, List.drop_zero]

theorem length_lastOf {α : Type} (n : Nat) (elements : List α) :
    (lastOf n elements).length = min n elements.length := by
  unfold lastOf
  rw [List.length_drop]
  omega

/-- Keeping the last elements twice keeps them once. -/
theorem lastOf_append {α : Type} (n : Nat) (elements later : List α) :
    lastOf n (lastOf n elements ++ later) = lastOf n (elements ++ later) := by
  unfold lastOf
  rw [← List.drop_append_of_le_length (by omega), List.drop_drop]
  congr 1
  simp only [List.length_append, List.length_drop]
  omega

/-- Of events in the order of their identifiers, those with less than `n` newer
ones are the last `n`. -/
theorem filter_newer (n : Nat) {events : List PowerEvent}
    (ordered : events.Pairwise fun first second => first.eventId < second.eventId) :
    events.filter (fun event =>
      (events.filter fun other => event.eventId < other.eventId).length < n) = lastOf n events := by
  induction events with
  | nil => simp [lastOf]
  | cons event events inductionHypothesis =>
      rw [List.pairwise_cons] at ordered
      have newest : (event :: events).filter (fun other => event.eventId < other.eventId) = events := by
        rw [List.filter_cons_of_neg (by simp), List.filter_eq_self]
        intro other member
        simpa using ordered.1 other member
      have rest : events.filter (fun kept =>
          ((event :: events).filter fun other => kept.eventId < other.eventId).length < n) =
          lastOf n events := by
        rw [← inductionHypothesis ordered.2]
        apply List.filter_congr
        intro kept member
        rw [List.filter_cons_of_neg (by simpa using Nat.le_of_lt (ordered.1 kept member))]
      rw [List.filter_cons, rest, newest]
      unfold lastOf
      by_cases room : events.length < n
      · have whole : (event :: events).length - n = 0 := by
          rw [List.length_cons]
          omega
        rw [if_pos (by simpa using room), whole, Nat.sub_eq_zero_of_le (Nat.le_of_lt room),
          List.drop_zero, List.drop_zero]
      · rw [if_neg (by simpa using room), List.length_cons,
          Nat.succ_sub (Nat.le_of_not_lt room), List.drop_succ_cons]

/-- The retention of one worker keeps its last events. -/
theorem filter_retained (workerId : Text) (n : Nat) {events : List PowerEvent}
    (ordered : events.Pairwise fun first second => first.eventId < second.eventId) :
    (events.filter fun event => event.workerId ≠ workerId || (events.filter fun other =>
        other.workerId = workerId && event.eventId < other.eventId).length < n).filter
        (fun event => event.workerId = workerId) =
      lastOf n (events.filter fun event => event.workerId = workerId) := by
  rw [← filter_newer n (ordered.sublist List.filter_sublist), List.filter_filter, List.filter_filter]
  apply List.filter_congr
  intro event _
  rw [List.filter_filter]
  by_cases same : event.workerId = workerId
  · simp [same, Bool.and_comm]
  · simp [same]

/-- The identifiers of the journal grow and are below the next one. -/
structure PowerOrdered (db : Database) : Prop where
  ordered : db.powerEvents.Pairwise fun first second => first.eventId < second.eventId
  below : ∀ event ∈ db.powerEvents, event.eventId < db.nextPowerEvent

theorem PowerOrdered.same (ordered : PowerOrdered db) (same : SamePower db after) :
    PowerOrdered after where
  ordered := by
    rw [same.powerEvents]
    exact ordered.ordered
  below := by
    rw [same.powerEvents, same.nextPowerEvent]
    exact ordered.below

section Append

variable (ordered : PowerOrdered db) (workerId : Text) (kind : PowerEventKind) (instant : Int)
  (detail : Value)

include ordered

theorem PowerOrdered.appended :
    (db.powerEvents ++ [db.newPowerEvent workerId kind instant detail]).Pairwise
      fun first second => first.eventId < second.eventId := by
  rw [List.pairwise_append]
  refine ⟨ordered.ordered, List.pairwise_singleton _ _, ?_⟩
  intro event member other last
  rw [List.mem_singleton.mp last]
  exact ordered.below event member

theorem PowerOrdered.powerEvent : PowerOrdered (db.powerEvent workerId kind instant detail) where
  ordered := (ordered.appended workerId kind instant detail).sublist List.filter_sublist
  below := by
    intro event member
    rcases List.mem_append.mp (List.mem_filter.mp member).1 with old | new
    · exact Nat.lt_succ_of_lt (ordered.below event old)
    · rw [List.mem_singleton.mp new]
      exact Nat.lt_succ_self _

/-- The journal of the worker gets the event and keeps the last ones. -/
theorem PowerOrdered.journal_powerEvent :
    (db.powerEvent workerId kind instant detail).journal workerId =
      lastOf powerEventRetention
        (db.journal workerId ++ [db.newPowerEvent workerId kind instant detail]) := by
  have own : db.journal workerId ++ [db.newPowerEvent workerId kind instant detail] =
      (db.powerEvents ++ [db.newPowerEvent workerId kind instant detail]).filter
        fun event => event.workerId = workerId := by
    simp [Database.journal, List.filter_append, Database.newPowerEvent]
  rw [own]
  exact filter_retained workerId powerEventRetention
    (ordered.appended workerId kind instant detail)

theorem PowerOrdered.lastPowerEvent_powerEvent :
    (db.powerEvent workerId kind instant detail).lastPowerEvent workerId =
      some (db.newPowerEvent workerId kind instant detail) := by
  unfold Database.lastPowerEvent
  rw [ordered.journal_powerEvent]
  unfold lastOf
  rw [List.drop_append_of_le_length (by simp [powerEventRetention]), List.getLast?_append]
  rfl

end Append

namespace Grows

variable {middle : Database} {events later : List PowerEvent}

theorem after_same (same : SamePower db middle) (grows : Grows middle events after) :
    Grows db events after := by
  cases grows with
  | nil rest => exact .nil (same.trans rest)
  | cons fits noted rest =>
      rw [same.lastPowerEvent] at fits
      exact .cons fits (noted.after_same same) rest

theorem append (first : Grows db events middle) (second : Grows middle later after) :
    Grows db (events ++ later) after := by
  induction first with
  | nil same => exact second.after_same same
  | cons fits noted _ inductionHypothesis => exact .cons fits noted (inductionHypothesis second)

theorem before_same (grows : Grows db events middle) (same : SamePower middle after) :
    Grows db events after := by
  have whole := grows.append (.nil same)
  rwa [List.append_nil] at whole

/-- The identifiers keep growing. -/
theorem ordered (grows : Grows db events after) (ordered : PowerOrdered db) :
    PowerOrdered after := by
  induction grows with
  | nil same => exact ordered.same same
  | cons _ noted _ inductionHypothesis =>
      exact inductionHypothesis ((ordered.powerEvent _ _ _ _).same noted.same)

theorem powerEvent {workerId : Text} {kind : PowerEventKind} {instant : Int} {detail : Value}
    (fits : Fits (db.lastPowerEvent workerId) (db.newPowerEvent workerId kind instant detail)) :
    Grows db [db.newPowerEvent workerId kind instant detail]
      (db.powerEvent workerId kind instant detail) :=
  .cons fits ⟨rfl, .refl _⟩ (.nil (.refl _))

end Grows

/-- At most one event is recorded. -/
inductive Adds (listed : PowerEvent → Prop) (before after : Database) : Prop
  | none (same : SamePower before after)
  | one {event : PowerEvent} (isListed : listed event)
      (fits : Fits (before.lastPowerEvent event.workerId) event)
      (noted : Noted before event after)

namespace Adds

variable {listed : PowerEvent → Prop} {middle : Database}

theorem after_same (same : SamePower db middle) (adds : Adds listed middle after) :
    Adds listed db after := by
  cases adds with
  | none rest => exact .none (same.trans rest)
  | one isListed fits noted =>
      rw [same.lastPowerEvent] at fits
      exact .one isListed fits (noted.after_same same)

theorem before_same (adds : Adds listed db middle) (same : SamePower middle after) :
    Adds listed db after := by
  cases adds with
  | none first => exact .none (first.trans same)
  | one isListed fits noted =>
      exact .one isListed fits ⟨noted.eventId, noted.same.trans same⟩

theorem powerEvent {workerId : Text} {kind : PowerEventKind} {instant : Int} {detail : Value}
    (isListed : listed (db.newPowerEvent workerId kind instant detail))
    (fits : Fits (db.lastPowerEvent workerId) (db.newPowerEvent workerId kind instant detail)) :
    Adds listed db (db.powerEvent workerId kind instant detail) :=
  .one isListed fits ⟨rfl, .refl _⟩

theorem grows (adds : Adds listed db after) :
    ∃ events, Grows db events after ∧ (∀ event ∈ events, listed event) ∧ events.length ≤ 1 := by
  cases adds with
  | none same => exact ⟨[], .nil same, fun _ member => absurd member List.not_mem_nil, by simp⟩
  | @one event isListed fits noted =>
      refine ⟨[event], .cons fits noted (.nil (.refl _)), ?_, Nat.le_refl 1⟩
      intro other member
      rw [List.mem_singleton.mp member]
      exact isListed

end Adds

/-! ## Whole journals -/

/-- A journal whose events each fit the one before. -/
inductive Coherent : List PowerEvent → Prop
  | nil : Coherent []
  | snoc {events : List PowerEvent} {event : PowerEvent} (coherent : Coherent events)
      (fits : Fits events.getLast? event) : Coherent (events ++ [event])

/-- The journals that never lost an event are coherent. -/
structure PowerInvariant (db : Database) : Prop extends PowerOrdered db where
  coherent : ∀ workerId, (db.journal workerId).length < powerEventRetention →
    Coherent (db.journal workerId)

theorem powerInvariant_empty : PowerInvariant Database.empty where
  ordered := .nil
  below := fun _ member => absurd member List.not_mem_nil
  coherent := fun _ _ => .nil

theorem Noted.journal {event : PowerEvent} (ordered : PowerOrdered db)
    (noted : Noted db event after) : after.journal event.workerId =
      lastOf powerEventRetention (db.journal event.workerId ++ [event]) := by
  have same : db.newPowerEvent event.workerId event.kind event.occurredAt event.detail = event := by
    unfold Database.newPowerEvent
    rw [← noted.eventId]
  rw [noted.same.journal, ordered.journal_powerEvent, same]

theorem Noted.journal_of_ne {event : PowerEvent} {workerId : Text}
    (noted : Noted db event after) (different : workerId ≠ event.workerId) :
    after.journal workerId = db.journal workerId := by
  rw [noted.same.journal, journal_powerEvent_of_ne different]

theorem PowerInvariant.noted {event : PowerEvent} (invariant : PowerInvariant db)
    (fits : Fits (db.lastPowerEvent event.workerId) event) (noted : Noted db event after) :
    PowerInvariant after where
  toPowerOrdered := (invariant.toPowerOrdered.powerEvent _ _ _ _).same noted.same
  coherent := by
    intro workerId short
    by_cases same : workerId = event.workerId
    · subst same
      rw [noted.journal invariant.toPowerOrdered] at short ⊢
      rw [length_lastOf, List.length_append, List.length_singleton] at short
      rw [lastOf_of_le (by rw [List.length_append, List.length_singleton]; omega)]
      exact .snoc (invariant.coherent _ (by omega)) fits
    · rw [noted.journal_of_ne same] at short ⊢
      exact invariant.coherent workerId short

theorem PowerInvariant.same (invariant : PowerInvariant db) (same : SamePower db after) :
    PowerInvariant after where
  toPowerOrdered := invariant.toPowerOrdered.same same
  coherent := by
    intro workerId short
    rw [same.journal] at short ⊢
    exact invariant.coherent workerId short

theorem PowerInvariant.grows {events : List PowerEvent} (invariant : PowerInvariant db)
    (grows : Grows db events after) : PowerInvariant after := by
  induction grows with
  | nil same => exact invariant.same same
  | cons fits noted _ inductionHypothesis =>
      exact inductionHypothesis (invariant.noted fits noted)

/-! ## The events of the calls -/

/-- The events a call records, of which worker. -/
def Operation.Records (operation : Operation) (event : PowerEvent) : Prop :=
  match operation with
  | .claim workerId _ shutdownAfterCompletion settle =>
      event.workerId = workerId ∧ event.kind = .shutdownGranted ∧
        shutdownAfterCompletion = true ∧ settle = true
  | .registerWorker payload _ => event.workerId = payload.workerId ∧ event.kind = .workerOnline
  | .markWorkerWaking workerId _ _ => event.workerId = workerId ∧ event.kind = .wakeSent
  | .reportWorkerPower workerId _ _ => event.workerId = workerId ∧
      (event.kind = .shutdownStarted ∨ event.kind = .shutdownVetoed)
  | .settleUnansweredWakes _ => event.kind = .wakeTimeout ∨ event.kind = .wakeAbandoned
  | .recordWakeFailure workerId _ _ => event.workerId = workerId ∧ event.kind = .wakeFailed
  | _ => False

/-- A registration is noted when the last event is a wake or its end. -/
theorem adds_recordWorkerOnline (workerId : Text) (requested : Int) (expired : Bool) :
    Adds (fun event => event.workerId = workerId ∧ event.kind = .workerOnline) db
      (db.recordWorkerOnline workerId requested now expired) := by
  unfold Database.recordWorkerOnline
  split
  · exact .none (.refl db)
  · rename_i last found
    dsimp only
    split
    · rename_i answers
      apply Adds.powerEvent ⟨rfl, rfl⟩
      refine ⟨last, found, ?_⟩
      rcases answers with sent | ended | abandoned
      · exact Or.inl sent
      · refine Or.inr ⟨Or.inl ended, ?_⟩
        simp only [ended, ne_eq, reduceCtorEq, not_false_eq_true, decide_true, Bool.or_true, if_true,
          PowerEvent.overdue]
        split <;> rfl
      · refine Or.inr ⟨Or.inr abandoned, ?_⟩
        simp only [abandoned, ne_eq, reduceCtorEq, not_false_eq_true, decide_true, Bool.or_true,
          if_true, PowerEvent.overdue]
        split <;> rfl
    · exact .none (.refl db)

theorem adds_idleShutdown (workerId : Text) :
    Adds (fun event => event.workerId = workerId ∧ event.kind = .shutdownGranted) db
      (db.idleShutdown workerId now).2 := by
  have granted (detail : Value) :
      Adds (fun event => event.workerId = workerId ∧ event.kind = .shutdownGranted) db
        (db.powerEvent workerId .shutdownGranted now detail) :=
    .powerEvent ⟨rfl, rfl⟩ trivial
  unfold Database.idleShutdown
  split
  · exact .none (.refl db)
  · split
    · split
      · exact .none (.refl db)
      · split
        · split
          · exact .none (.refl db)
          · exact granted _
        · exact granted _
    · exact .none (.refl db)

/-- The worker has a deadline that passed, nothing after its wake, and no sign of
life. -/
structure WorkerRow.Overdue (config : Config) (now : Int) (db : Database) (row : WorkerRow) :
    Prop where
  passed : ∃ deadline ∈ row.wakeDeadlineAt, deadline < now
  waiting : ∃ last ∈ db.lastPowerEvent row.workerId, last.kind = .wakeSent
  silent : row.availability config now ≠ .available

/-- The attempt that times out is the last one, and work still waits. -/
def Database.Abandons (maxAttempts : Nat) (row : WorkerRow) (db : Database) : Prop :=
  maxAttempts ≤ db.unansweredWakes row.workerId + 1 ∧ db.pendingJobs row ≠ []

instance (maxAttempts : Nat) (row : WorkerRow) (db : Database) :
    Decidable (db.Abandons maxAttempts row) :=
  inferInstanceAs (Decidable (_ ∧ _))

/-- What a turn of `settle_unanswered_wakes` records for an overdue worker. -/
def Database.settlement (maxAttempts : Nat) (row : WorkerRow) (db : Database) :
    List PowerEventKind :=
  .wakeTimeout :: if db.Abandons maxAttempts row then [.wakeAbandoned] else []

/-- The events of a worker. -/
def ofWorker (workerId : Text) (events : List PowerEvent) : List PowerEvent :=
  events.filter fun event => event.workerId = workerId

theorem ofWorker_append (workerId : Text) (events later : List PowerEvent) :
    ofWorker workerId (events ++ later) = ofWorker workerId events ++ ofWorker workerId later :=
  List.filter_append ..

theorem ofWorker_eq_self {workerId : Text} {events : List PowerEvent}
    (own : ∀ event ∈ events, event.workerId = workerId) : ofWorker workerId events = events := by
  unfold ofWorker
  rw [List.filter_eq_self]
  intro event member
  exact decide_eq_true (own event member)

theorem ofWorker_eq_nil {workerId : Text} {events : List PowerEvent}
    (others : ∀ event ∈ events, event.workerId ≠ workerId) : ofWorker workerId events = [] := by
  unfold ofWorker
  rw [List.filter_eq_nil_iff]
  intro event member
  simpa using others event member

theorem mem_ofWorker {workerId : Text} {events : List PowerEvent} {event : PowerEvent} :
    event ∈ ofWorker workerId events ↔ event ∈ events ∧ event.workerId = workerId := by
  unfold ofWorker
  simp

theorem settleUnansweredWake_spec (ordered : PowerOrdered db) (maxAttempts : Nat)
    (row : WorkerRow) :
    (¬ row.Overdue config now db ∧ db.settleUnansweredWake config now maxAttempts row = db) ∨
      row.Overdue config now db ∧ ∃ events,
        Grows db events (db.settleUnansweredWake config now maxAttempts row) ∧
          (∀ event ∈ events, event.workerId = row.workerId) ∧
          events.map PowerEvent.kind = db.settlement maxAttempts row := by
  unfold Database.settleUnansweredWake
  split
  · rename_i deadline last hasDeadline found
    split
    · rename_i skipped
      refine Or.inl ⟨?_, rfl⟩
      rintro ⟨⟨_, same, passed⟩, ⟨_, sameLast, sent⟩, silent⟩
      rw [hasDeadline, Option.mem_def, Option.some.injEq] at same
      rw [found, Option.mem_def, Option.some.injEq] at sameLast
      subst same sameLast
      rcases skipped with other | early | available
      · exact other sent
      · omega
      · exact silent available
    · rename_i due
      push Not at due
      have fits : ∃ earlier ∈ db.lastPowerEvent row.workerId, earlier.kind = .wakeSent :=
        ⟨last, found, due.1⟩
      have timedOut (detail : Value) :
          Grows db [db.newPowerEvent row.workerId .wakeTimeout deadline detail]
            (db.powerEvent row.workerId .wakeTimeout deadline detail) :=
        .powerEvent fits
      refine Or.inr ⟨⟨⟨deadline, hasDeadline, due.2.1⟩, fits, due.2.2⟩, ?_⟩
      dsimp only
      split
      · rename_i last
        have abandons : db.Abandons maxAttempts row := last
        rw [Database.settlement, if_pos abandons]
        refine ⟨_, (timedOut _).append (Grows.powerEvent ?_), ?_, rfl⟩
        · exact ⟨_, ordered.lastPowerEvent_powerEvent _ _ _ _, rfl⟩
        · simp [Database.newPowerEvent]
      · rename_i another
        have kept : ¬ db.Abandons maxAttempts row := another
        rw [Database.settlement, if_neg kept]
        exact ⟨_, timedOut _, by simp [Database.newPowerEvent], rfl⟩
  · rename_i missing
    refine Or.inl ⟨?_, rfl⟩
    rintro ⟨⟨deadline, hasDeadline, _⟩, ⟨last, found, _⟩, _⟩
    exact missing deadline last hasDeadline found

/-- A settlement records a timeout for every overdue worker, and nothing else but
the end of its attempts. -/
structure Settles (config : Config) (now : Int) (maxAttempts : Nat) (rows : List WorkerRow)
    (db : Database) (events : List PowerEvent) : Prop where
  owned : ∀ event ∈ events, ∃ row ∈ rows, row.workerId = event.workerId ∧
    row.Overdue config now db
  settled : ∀ row ∈ rows, row.Overdue config now db →
    (ofWorker row.workerId events).map PowerEvent.kind = db.settlement maxAttempts row

/-- The events of a growth are all that changes the journal of a worker. -/
theorem Grows.journal_of_ne {events : List PowerEvent} {workerId : Text}
    (grows : Grows db events after) (others : ∀ event ∈ events, event.workerId ≠ workerId) :
    after.journal workerId = db.journal workerId := by
  induction grows with
  | nil same => exact same.journal workerId
  | cons fits noted rest inductionHypothesis =>
      rw [List.forall_mem_cons] at others
      rw [inductionHypothesis others.2, noted.same.journal,
        journal_powerEvent_of_ne (Ne.symm others.1)]

section Congruence

variable {row : WorkerRow} (journal : after.journal row.workerId = db.journal row.workerId)

include journal

theorem WorkerRow.Overdue.congr : row.Overdue config now after ↔ row.Overdue config now db := by
  have last : after.lastPowerEvent row.workerId = db.lastPowerEvent row.workerId :=
    congrArg List.getLast? journal
  constructor
  · rintro ⟨passed, waiting, silent⟩
    exact ⟨passed, last ▸ waiting, silent⟩
  · rintro ⟨passed, waiting, silent⟩
    exact ⟨passed, last ▸ waiting, silent⟩

theorem settlement_congr (maxAttempts : Nat) (jobs : after.jobs = db.jobs) :
    after.settlement maxAttempts row = db.settlement maxAttempts row := by
  have pending : after.pendingJobs row = db.pendingJobs row := by
    unfold Database.pendingJobs
    rw [jobs]
  have unanswered : after.unansweredWakes row.workerId = db.unansweredWakes row.workerId := by
    unfold Database.unansweredWakes
    rw [journal]
  have abandons : after.Abandons maxAttempts row ↔ db.Abandons maxAttempts row := by
    unfold Database.Abandons
    rw [pending, unanswered]
  unfold Database.settlement
  simp only [abandons]

end Congruence

theorem settles_foldl (ordered : PowerOrdered db) (maxAttempts : Nat) (rows : List WorkerRow)
    (distinct : (rows.map WorkerRow.workerId).Nodup) :
    ∃ events, Grows db events (rows.foldl (Database.settleUnansweredWake config now maxAttempts) db) ∧
      Settles config now maxAttempts rows db events := by
  induction rows generalizing db with
  | nil =>
      refine ⟨[], .nil (.refl db), ?_, ?_⟩
      · exact fun event member => absurd member List.not_mem_nil
      · exact fun row member => absurd member List.not_mem_nil
  | cons row rows inductionHypothesis =>
      rw [List.map_cons, List.nodup_cons] at distinct
      rw [List.foldl_cons]
      have different : ∀ other ∈ rows, other.workerId ≠ row.workerId := by
        intro other member same
        exact distinct.1 (same ▸ List.mem_map_of_mem member)
      rcases settleUnansweredWake_spec ordered maxAttempts row with
        ⟨kept, same⟩ | ⟨overdue, first, grows, own, kinds⟩
      · rw [same]
        rcases inductionHypothesis ordered distinct.2 with ⟨events, grown, owned, settled⟩
        refine ⟨events, grown, ?_, ?_⟩
        · intro event member
          rcases owned event member with ⟨other, otherMem, owner⟩
          exact ⟨other, List.mem_cons_of_mem row otherMem, owner⟩
        · intro other member due
          rcases List.mem_cons.mp member with rfl | member
          · exact absurd due kept
          · exact settled other member due
      · have jobs := (@workersOnly_settleUnansweredWake config now maxAttempts row db).jobs
        generalize db.settleUnansweredWake config now maxAttempts row = middle at grows jobs ⊢
        rcases inductionHypothesis (grows.ordered ordered) distinct.2 with
          ⟨later, grown, owned, settled⟩
        have journal : ∀ other ∈ rows, middle.journal other.workerId = db.journal other.workerId := by
          intro other member
          apply grows.journal_of_ne
          intro event eventMem
          rw [own event eventMem]
          exact Ne.symm (different other member)
        refine ⟨first ++ later, grows.append grown, ?_, ?_⟩
        · intro event member
          rcases List.mem_append.mp member with member | member
          · exact ⟨row, List.mem_cons_self, (own event member).symm, overdue⟩
          · rcases owned event member with ⟨other, otherMem, owner, due⟩
            exact ⟨other, List.mem_cons_of_mem row otherMem, owner,
              (WorkerRow.Overdue.congr (journal other otherMem)).mp due⟩
        · intro other member due
          rw [ofWorker_append]
          rcases List.mem_cons.mp member with rfl | member
          · rw [ofWorker_eq_self own, ofWorker_eq_nil, List.append_nil, kinds]
            intro event eventMem same
            rcases owned event eventMem with ⟨owner, ownerMem, owns, _⟩
            exact different owner ownerMem (owns.trans same)
          · rw [@ofWorker_eq_nil _ first, List.nil_append,
              settled other member ((WorkerRow.Overdue.congr (journal other member)).mpr due),
              settlement_congr (journal other member) maxAttempts jobs]
            intro event eventMem same
            exact different other member (same.symm.trans (own event eventMem))

theorem grows_settleUnansweredWakes (ordered : PowerOrdered db) (maxAttempts : Nat) :
    ∃ events, Grows db events (db.settleUnansweredWakes config now maxAttempts) ∧
      Settles config now maxAttempts db.workers.rows db events := by
  have distinct : ((db.workers.rows.filter fun row => row.wakeDeadlineAt.isSome).map
      WorkerRow.workerId).Nodup :=
    db.workers.distinct.sublist (List.filter_sublist.map WorkerRow.workerId)
  rcases settles_foldl ordered maxAttempts _ distinct with ⟨events, grows, owned, settled⟩
  refine ⟨events, grows, ?_, ?_⟩
  · intro event member
    rcases owned event member with ⟨row, rowMem, owner⟩
    exact ⟨row, (List.mem_filter.mp rowMem).1, owner⟩
  · intro row member overdue
    apply settled row (List.mem_filter.mpr ⟨member, ?_⟩) overdue
    rcases overdue.passed with ⟨deadline, found, _⟩
    rw [Option.mem_def] at found
    rw [found]
    rfl

/-- Every event of a settlement ends a wake. -/
theorem Settles.kinds {maxAttempts : Nat} {rows : List WorkerRow} {events : List PowerEvent}
    (settles : Settles config now maxAttempts rows db events) {event : PowerEvent}
    (member : event ∈ events) : event.kind = .wakeTimeout ∨ event.kind = .wakeAbandoned := by
  rcases settles.owned event member with ⟨row, rowMem, owner, overdue⟩
  have listed : event.kind ∈ db.settlement maxAttempts row := by
    rw [← settles.settled row rowMem overdue]
    exact List.mem_map_of_mem (mem_ofWorker.mpr ⟨member, owner.symm⟩)
  unfold Database.settlement at listed
  rcases List.mem_cons.mp listed with ended | listed
  · exact Or.inl ended
  · split at listed
    · exact Or.inr (List.mem_singleton.mp listed)
    · exact absurd listed List.not_mem_nil

theorem samePower_migrateIfRenamed {previous : Option Text} {workerId : Text}
    (done : db.migrateIfRenamed previous workerId = .ok after) : SamePower db after := by
  unfold Database.migrateIfRenamed at done
  split at done
  · cases done
    exact .refl db
  · split at done
    · unfold Database.migrateWorkerIdentity at done
      split at done
      · simp at done
      · split at done
        · simp at done
        · split at done
          · simp at done
          · split at done
            · simp only [pure_eq_ok] at done
              rw [← done]
              exact ⟨rfl, rfl⟩
            · simp at done
    · cases done
      exact .refl db

theorem samePower_upsertWorker {written : WorkerRow} (done : db.upsertWorker written = .ok after) :
    SamePower db after := by
  unfold Database.upsertWorker at done
  split at done
  · cases done
    exact ⟨rfl, rfl⟩
  · split at done
    · cases done
      exact ⟨rfl, rfl⟩
    · contradiction

theorem adds_registerWorker {registration : Registration} {previous : Option Text}
    {row : WorkerRow} (done : db.registerWorker now registration previous = .ok (row, after)) :
    Adds (fun event => event.workerId = registration.workerId ∧ event.kind = .workerOnline) db
      after := by
  rcases registerWorker_written done with
    ⟨migrated, written, migration, upserted, _, rfl | ⟨requested, expired, rfl⟩⟩
  · exact .none ((samePower_migrateIfRenamed migration).trans (samePower_upsertWorker upserted))
  · exact .after_same ((samePower_migrateIfRenamed migration).trans
      (samePower_upsertWorker upserted)) (adds_recordWorkerOnline _ _ _)

theorem adds_claim {workerId : Text} {supportedTypes : List Text} {shutdown settle : Bool}
    {result : ClaimResult}
    (done : db.claim env config now workerId supportedTypes shutdown settle =
      .ok (result, after)) :
    Adds (Operation.claim workerId supportedTypes shutdown settle).Records db after := by
  have touched : SamePower db ((db.recover env config now).touchWorker workerId now) :=
    (silent_recover_touch workerId db).toSamePower
  simp only [Database.claim, bind_eq_ok] at done
  rcases done with ⟨checked, validated, done⟩
  rw [workerId_of_validateClaim validated] at done
  split at done
  · simp only [pure_eq_ok, Prod.mk.injEq] at done
    rcases done with ⟨_, rfl⟩
    exact .none (.refl db)
  · unfold Database.claimOldest at done
    dsimp only at done
    split at done
    · split at done
      · rename_i asked
        rw [Bool.and_eq_true] at asked
        simp only [pure_eq_ok, Prod.mk.injEq] at done
        rcases done with ⟨_, rfl⟩
        cases (adds_idleShutdown workerId).after_same touched with
        | none same => exact .none same
        | one isListed fits noted =>
            exact .one ⟨isListed.1, isListed.2, asked.2, asked.1⟩ fits noted
      · simp only [pure_eq_ok, Prod.mk.injEq] at done
        rcases done with ⟨_, rfl⟩
        exact .none touched
    · simp only [bind_eq_ok, pure_eq_ok, Prod.mk.injEq] at done
      rcases done with ⟨_, _, _, _, _, rfl⟩
      exact .none (touched.trans ⟨rfl, rfl⟩)

theorem adds_markWorkerWaking {workerId trigger : Text} {timeoutSeconds : Nat}
    {row : Option WorkerRow}
    (done : db.markWorkerWaking config now workerId timeoutSeconds trigger = .ok (row, after)) :
    Adds (fun event => event.workerId = workerId ∧ event.kind = .wakeSent) db after := by
  have sent (middle : Database) (detail : Value) :
      Adds (fun event => event.workerId = workerId ∧ event.kind = .wakeSent) middle
        (middle.powerEvent workerId .wakeSent now detail) :=
    .powerEvent ⟨rfl, rfl⟩ trivial
  unfold Database.markWorkerWaking at done
  split at done
  · contradiction
  · split at done
    · contradiction
    · split at done <;> cases done
      · exact .none (.refl db)
      · refine Adds.after_same ?_ (sent _ _)
        exact ⟨rfl, rfl⟩

theorem adds_reportWorkerPower {workerId : Text} {started : Bool} {detail : Value} {done : Unit}
    (reported : db.reportWorkerPower now workerId started detail = .ok (done, after)) :
    Adds (fun event => event.workerId = workerId ∧
      (event.kind = .shutdownStarted ∨ event.kind = .shutdownVetoed)) db after := by
  unfold Database.reportWorkerPower at reported
  split at reported
  · contradiction
  · cases reported
    refine Adds.before_same (.powerEvent ⟨rfl, ?_⟩ ?_) ⟨rfl, rfl⟩
    · cases started
      · exact Or.inr rfl
      · exact Or.inl rfl
    · cases started <;> trivial

theorem answering_adds {α : Type} {wrap : α → Answer} {listed : PowerEvent → Prop}
    {body : Database → Except Failure (α × Database)}
    (adds : ∀ answer next, body db = .ok (answer, next) → Adds listed db next) :
    Adds listed db (answering wrap body db).2 :=
  answering_induction (motive := Adds listed db) (.none (.refl db)) adds

/-- Every call but a settlement records at most one event. -/
theorem adds_run {operation : Operation}
    (other : ∀ maxAttempts, operation ≠ .settleUnansweredWakes maxAttempts) :
    Adds operation.Records db (operation.run env config now db).2 := by
  by_cases silent : operation.records = []
  · exact .none (silent_run silent).toSamePower
  · cases operation with
    | claim workerId supportedTypes shutdownAfterCompletion settle =>
        exact answering_adds fun answer next done => adds_claim done
    | registerWorker payload previousWorkerId =>
        apply answering_adds
        intro answer next done
        rcases bind_eq_ok.mp done with ⟨registration, validated, registered⟩
        have adds := adds_registerWorker registered
        rwa [workerId_of_validate validated] at adds
    | markWorkerWaking workerId timeoutSeconds trigger =>
        exact answering_adds fun answer next done => adds_markWorkerWaking done
    | reportWorkerPower workerId started detail =>
        exact answering_adds fun answer next done => adds_reportWorkerPower done
    | settleUnansweredWakes maxAttempts => exact absurd rfl (other maxAttempts)
    | recordWakeFailure workerId error trigger =>
        change Adds _ db (db.powerEvent workerId .wakeFailed now _)
        apply Adds.powerEvent
        · exact ⟨rfl, rfl⟩
        · trivial
    | _ => exact absurd rfl silent

/-- Every call makes the journal grow by events of its own. -/
theorem grows_run (ordered : PowerOrdered db) (operation : Operation) :
    ∃ events, Grows db events (operation.run env config now db).2 ∧
      ∀ event ∈ events, operation.Records event := by
  by_cases settles : ∃ maxAttempts, operation = .settleUnansweredWakes maxAttempts
  · rcases settles with ⟨maxAttempts, rfl⟩
    rcases @grows_settleUnansweredWakes config now db ordered maxAttempts with
      ⟨events, grows, settles⟩
    exact ⟨events, grows, fun event member => settles.kinds member⟩
  · have adds := @adds_run env config now db operation
      fun maxAttempts same => settles ⟨maxAttempts, same⟩
    rcases adds.grows with ⟨events, grows, listed, _⟩
    exact ⟨events, grows, listed⟩

theorem PowerInvariant.step {call : Call} (invariant : PowerInvariant db)
    (step : Step env config db call after) : PowerInvariant after := by
  rcases @grows_run env config call.now db invariant.toPowerOrdered
    call.operation with ⟨events, grows, _⟩
  rw [show (call.operation.run env config call.now db).2 = after from step] at grows
  exact invariant.grows grows

theorem powerInvariant_of_run {calls : List Call}
    (run : Run (Step env config) Database.empty calls db) : PowerInvariant db :=
  run.invariant (P := PowerInvariant) (fun invariant step => invariant.step step)
    powerInvariant_empty

end OhanaAgent.Jobs
