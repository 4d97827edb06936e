import OhanaAgent.Companions.Credentials
import OhanaAgent.Store.Retention
import OhanaAgent.Transition.Inevitable
import OhanaAgent.Transition.Trace

/-!
# Notifications pushed to the companions

Any thread publishes a notification: it is validated, refused when its identity
is among the last ones published, and queued.  A worker thread is started when
none runs; it takes the queue empty and leaves.  For each notification it reads
the push addresses once and tries each of them at most three times.  Publishing
and leaving hold one lock; everything else is interleaved.
-/

namespace OhanaAgent.Companions

open Encoding Encoding.Json Store

/-! ## Notifications -/

/-- The payload of `publish`. -/
structure NotificationPayload where
  notificationId : Option Text
  type : Option Text
  title : Option Text
  message : Option Text
  incidentId : Option Text
  occurredAt : Option Text

/-- What `_validated_notification` returns. -/
structure Notification where
  notificationId : Text
  type : Text
  title : Text
  message : Text
  incidentId : Option Text
  occurredAt : Text
deriving DecidableEq

/-- `NOTIFICATION_TYPES`. -/
def notificationTypes : List Text :=
  ["INFORMATION".toList, "ATTENTION".toList, "DECISION_REQUIRED".toList, "CRITICAL".toList,
    "RESOLVED".toList]

/-- `value or default`, for a text. -/
def orDefault (value : Option Text) (default : Text) : Text :=
  match value with
  | none | some [] => default
  | some text => text

/-- What of `APNsConfig` and of the library the publisher uses: `str.upper`. -/
structure PublisherSettings where
  enabled : Bool
  environment : Text
  upper : Text → Text

/-- `_validated_notification`; nothing when the payload is invalid. -/
def validatedNotification (settings : PublisherSettings) (now : Instant)
    (payload : NotificationPayload) : Option Notification :=
  let notificationId := (orDefault payload.notificationId []).take 160
  let type := settings.upper (orDefault payload.type [])
  let message := (orDefault payload.message []).take 1000
  if notificationId = [] ∨ type ∉ notificationTypes ∨ message = [] then none
  else
    some {
      notificationId
      type
      title := (orDefault payload.title "Tsunade".toList).take 160
      message
      incidentId := payload.incidentId
      occurredAt := orDefault payload.occurredAt (isoformat now) }

/-! ## The publisher -/

/-- The thread of `_drain`: none, at the head of its loop, with a notification
whose addresses it has still to read, trying an address, leaving by an exception,
or dead by one. -/
inductive Worker where
  | absent
  | idle
  | holding (notification : Notification)
  | delivering (notification : Notification) (target : Text × Text) (rest : List (Text × Text))
      (attempt : Nat)
  | crashing
  | dead

/-- The thread that `publish` leaves: a new one when none is alive. -/
def Worker.started : Worker → Worker
  | .absent | .dead => .idle
  | worker => worker

/-- `APNsNotificationPublisher`, with the tables of the companions. -/
structure Publisher where
  queue : List Notification
  publishedIds : List Text
  worker : Worker
  companions : Database

/-- What one request to an address came to. -/
inductive Verdict where
  | delivered
  | unregistered
  | failed
deriving DecidableEq

/-- What the worker meets in a turn: the clock, an exception of `push_targets`,
the status of the answer (or an exception), an exception of
`disable_push_token`. -/
structure Turn where
  now : Instant
  targetsFail : Bool
  status : Option Int
  disableFails : Bool

def Turn.verdict (turn : Turn) : Verdict :=
  if turn.status = some 200 then .delivered
  else if turn.status = some 410 ∧ turn.disableFails = false then .unregistered
  else .failed

/-- What is told of the publisher. -/
inductive PushEvent where
  | invalid
  | duplicate (notificationId : Text)
  | dropped (notificationId : Text)
  | accepted (notification : Notification)
  | taken (notification : Notification)
  | targeted (targets : List (Text × Text))
  | answered (target : Text × Text) (verdict : Verdict)
  | finished (notification : Notification)
  | crashed

namespace Publisher

/-- A publisher at the start, with some tables. -/
def initial (companions : Database) : Publisher :=
  ⟨[], [], .absent, companions⟩

/-- `publish`. -/
def publish (settings : PublisherSettings) (now : Instant) (payload : NotificationPayload)
    (publisher : Publisher) : Publisher × List PushEvent :=
  if settings.enabled = false then (publisher, [])
  else
    match validatedNotification settings now payload with
    | none => (publisher, [.invalid])
    | some notification =>
        if notification.notificationId ∈ publisher.publishedIds then
          (publisher, [.duplicate notification.notificationId])
        else if 100 ≤ publisher.queue.length then
          (publisher, [.dropped notification.notificationId])
        else
          ({ publisher with
            queue := publisher.queue ++ [notification]
            publishedIds :=
              lastOnes 256 (publisher.publishedIds ++ [notification.notificationId])
            worker := publisher.worker.started }, [.accepted notification])

/-- The worker goes to the next address of `_deliver_with_retries`, or back to
the head of its loop. -/
def next (notification : Notification) (rest : List (Text × Text)) (publisher : Publisher) :
    Publisher × List PushEvent :=
  match rest with
  | [] => ({ publisher with worker := .idle }, [.finished notification])
  | target :: rest =>
      ({ publisher with worker := .delivering notification target rest 1 }, [])

/-- One turn of the worker. -/
def work (settings : PublisherSettings) (turn : Turn) (publisher : Publisher) :
    Publisher × List PushEvent :=
  match publisher.worker with
  | .absent | .dead => (publisher, [])
  | .crashing => ({ publisher with worker := .dead }, [])
  | .idle =>
      match publisher.queue with
      | [] => ({ publisher with worker := .absent }, [])
      | notification :: rest =>
          ({ publisher with queue := rest, worker := .holding notification },
            [.taken notification])
  | .holding notification =>
      if turn.targetsFail then ({ publisher with worker := .crashing }, [.crashed])
      else
        let targets := publisher.companions.pushTargets turn.now settings.environment
        let answer := publisher.next notification targets
        (answer.1, .targeted targets :: answer.2)
  | .delivering notification target rest attempt =>
      match turn.verdict with
      | .delivered =>
          let answer := publisher.next notification rest
          (answer.1, .answered target .delivered :: answer.2)
      | .unregistered =>
          let disabled :=
            { publisher with companions := publisher.companions.disablePushToken target.1 }
          let answer := disabled.next notification rest
          (answer.1, .answered target .unregistered :: answer.2)
      | .failed =>
          if attempt < 3 then
            ({ publisher with worker := .delivering notification target rest (attempt + 1) },
              [.answered target .failed])
          else
            let answer := publisher.next notification rest
            (answer.1, .answered target .failed :: answer.2)

end Publisher

/-- What happens to a publisher. -/
inductive PushAction where
  | publish (now : Instant) (payload : NotificationPayload)
  | companion (call : Call)
  | work (turn : Turn)

/-- One action, and what is told of it. -/
def Publisher.act (env : Environment) (config : Config) (settings : PublisherSettings)
    (action : PushAction) (publisher : Publisher) : Publisher × List PushEvent :=
  match action with
  | .publish now payload => publisher.publish settings now payload
  | .companion call =>
      ({ publisher with companions := (call.run env config publisher.companions).2 }, [])
  | .work turn => publisher.work settings turn

/-- The states that a publisher reaches, with everything told of it. -/
inductive Publisher.Reached (env : Environment) (config : Config) (settings : PublisherSettings) :
    Publisher → List PushEvent → Prop
  | initial (companions : Database) : Reached env config settings (.initial companions) []
  | act {publisher : Publisher} {log : List PushEvent} (action : PushAction)
      (before : Reached env config settings publisher log) :
      Reached env config settings (publisher.act env config settings action).1
        (log ++ (publisher.act env config settings action).2)

/-- A run of actions. -/
def Publisher.run (env : Environment) (config : Config) (settings : PublisherSettings)
    (companions : Database) : List PushAction → Publisher × List PushEvent :=
  List.foldl (fun reached action =>
      ((reached.1.act env config settings action).1,
        reached.2 ++ (reached.1.act env config settings action).2)) (.initial companions, [])

theorem Publisher.reached_run (env : Environment) (config : Config) (settings : PublisherSettings)
    (companions : Database) (actions : List PushAction) :
    (Publisher.run env config settings companions actions).1.Reached env config settings
      (Publisher.run env config settings companions actions).2 := by
  induction actions using List.reverseRecOn with
  | nil => exact .initial companions
  | append_singleton actions action ih =>
      rw [Publisher.run, List.foldl_append]
      exact .act action ih

/-! ## Every notification once, in order -/

/-- The notifications that were accepted, oldest first. -/
def acceptedOf (log : List PushEvent) : List Notification :=
  log.filterMap fun
    | .accepted notification => some notification
    | _ => none

/-- The notifications that the workers took, oldest first. -/
def takenOf (log : List PushEvent) : List Notification :=
  log.filterMap fun
    | .taken notification => some notification
    | _ => none

section Logs

variable {first second : List PushEvent}

@[simp]
theorem acceptedOf_append : acceptedOf (first ++ second) = acceptedOf first ++ acceptedOf second :=
  List.filterMap_append

@[simp]
theorem takenOf_append : takenOf (first ++ second) = takenOf first ++ takenOf second :=
  List.filterMap_append

end Logs

/-- Notifications of one identity have so many others between them. -/
def Spaced (count : Nat) (notifications : List Notification) : Prop :=
  ∀ (before between after : List Notification) (first second : Notification),
    notifications = before ++ first :: between ++ second :: after →
      first.notificationId = second.notificationId → count ≤ between.length

/-- A notification whose identity is not among the last ones keeps the spacing. -/
theorem Spaced.concat {count : Nat} {notifications : List Notification} {last : Notification}
    (spaced : Spaced count notifications)
    (fresh : last.notificationId ∉
      lastOnes count (notifications.map Notification.notificationId)) :
    Spaced count (notifications ++ [last]) := by
  intro before between after first second split same
  rcases Transition.concat_eq_split_iff.mp split with ⟨rfl, rfl, _⟩ | ⟨rest, rfl, rfl⟩
  · by_contra few
    refine fresh ?_
    rw [List.map_append, List.map_cons, ← same]
    exact mem_lastOnes_of_few (by simpa using few)
  · exact spaced before between rest first second (by simp) same

namespace Publisher

variable {env : Environment} {config : Config} {settings : PublisherSettings}
  {publisher : Publisher} {log : List PushEvent} {notification : Notification}

/-- What was accepted is what was taken and what is queued, in order; the
identities kept are those of the last ones accepted; and the thread has not left
while something is queued. -/
structure Conserved (publisher : Publisher) (log : List PushEvent) : Prop where
  inOrder : acceptedOf log = takenOf log ++ publisher.queue
  bounded : publisher.queue.length ≤ 100
  window : publisher.publishedIds =
    lastOnes 256 ((acceptedOf log).map Notification.notificationId)
  spaced : Spaced 256 (acceptedOf log)
  awake : publisher.worker = .absent → publisher.queue = []

/-- Events that accept and take nothing. -/
theorem Conserved.append {events : List PushEvent} (conserved : Conserved publisher log)
    (accepts : acceptedOf events = []) (takes : takenOf events = []) :
    Conserved publisher (log ++ events) where
  inOrder := by
    rw [acceptedOf_append, takenOf_append, accepts, takes, List.append_nil, List.append_nil]
    exact conserved.inOrder
  bounded := conserved.bounded
  window := by
    rw [acceptedOf_append, accepts, List.append_nil]
    exact conserved.window
  spaced := by
    rw [acceptedOf_append, accepts, List.append_nil]
    exact conserved.spaced
  awake := conserved.awake

/-- A thread that stays, and tables that change. -/
theorem Conserved.move {worker : Worker} {companions : Database}
    (conserved : Conserved publisher log) (stays : worker ≠ .absent) :
    Conserved { publisher with worker, companions } log :=
  ⟨conserved.inOrder, conserved.bounded, conserved.window, conserved.spaced,
    fun absent => absurd absent stays⟩

theorem started_ne_absent (worker : Worker) : worker.started ≠ .absent := by
  cases worker <;> simp [Worker.started]

theorem Conserved.accept (conserved : Conserved publisher log)
    (fresh : notification.notificationId ∉ publisher.publishedIds)
    (room : publisher.queue.length < 100) :
    Conserved { publisher with
      queue := publisher.queue ++ [notification]
      publishedIds := lastOnes 256 (publisher.publishedIds ++ [notification.notificationId])
      worker := publisher.worker.started } (log ++ [.accepted notification]) where
  inOrder := by
    change acceptedOf _ = takenOf _ ++ (publisher.queue ++ [notification])
    rw [acceptedOf_append, takenOf_append, conserved.inOrder]
    simp [acceptedOf, takenOf]
  bounded := by
    change (publisher.queue ++ [notification]).length ≤ 100
    rw [List.length_append, List.length_singleton]
    exact room
  window := by
    have last : acceptedOf [.accepted notification] = [notification] := rfl
    rw [conserved.window, lastOnes_lastOnes_append, acceptedOf_append, last, List.map_append,
      List.map_singleton]
  spaced := by
    rw [acceptedOf_append]
    exact Spaced.concat conserved.spaced (conserved.window ▸ fresh)
  awake absent := absurd absent (started_ne_absent publisher.worker)

theorem Conserved.publish {now : Instant} {payload : NotificationPayload}
    (conserved : Conserved publisher log) :
    Conserved (publisher.publish settings now payload).1
      (log ++ (publisher.publish settings now payload).2) := by
  unfold Publisher.publish
  split
  · exact conserved.append rfl rfl
  · split
    · exact conserved.append rfl rfl
    · split
      · exact conserved.append rfl rfl
      · rename_i fresh
        split
        · exact conserved.append rfl rfl
        · rename_i room
          exact conserved.accept fresh (Nat.lt_of_not_le room)

/-- Going to the next address keeps everything, and a thread. -/
theorem Conserved.next {rest : List (Text × Text)} {companions : Database} {event : PushEvent}
    (conserved : Conserved publisher log) (accepts : acceptedOf [event] = [])
    (takes : takenOf [event] = []) :
    let answer := { publisher with companions }.next notification rest
    Conserved answer.1 (log ++ event :: answer.2) := by
  intro answer
  rw [List.append_cons]
  cases rest with
  | nil => exact ((conserved.append accepts takes).move (by simp)).append rfl rfl
  | cons target rest => exact ((conserved.append accepts takes).move (by simp)).append rfl rfl

theorem Conserved.take {rest : List Notification}
    (conserved : Conserved publisher log) (queued : publisher.queue = notification :: rest) :
    Conserved { publisher with queue := rest, worker := .holding notification }
      (log ++ [.taken notification]) where
  inOrder := by
    change acceptedOf _ = takenOf _ ++ rest
    rw [acceptedOf_append, takenOf_append, conserved.inOrder, queued]
    simp [acceptedOf, takenOf]
  bounded := by
    change rest.length ≤ 100
    have bounded := conserved.bounded
    rw [queued, List.length_cons] at bounded
    exact Nat.le_of_succ_le bounded
  window := by
    rw [acceptedOf_append, show acceptedOf [.taken notification] = [] from rfl, List.append_nil]
    exact conserved.window
  spaced := by
    rw [acceptedOf_append, show acceptedOf [.taken notification] = [] from rfl, List.append_nil]
    exact conserved.spaced
  awake absent := by cases absent

theorem Conserved.work {turn : Turn} (conserved : Conserved publisher log) :
    Conserved (publisher.work settings turn).1 (log ++ (publisher.work settings turn).2) := by
  unfold Publisher.work
  split
  · exact conserved.append rfl rfl
  · exact conserved.append rfl rfl
  · exact (conserved.move (by simp)).append rfl rfl
  · split
    · rename_i empty
      rw [List.append_nil]
      exact ⟨conserved.inOrder, conserved.bounded, conserved.window, conserved.spaced,
        fun _ => empty⟩
    · rename_i queued
      exact conserved.take queued
  · split
    · exact (conserved.move (by simp)).append rfl rfl
    · exact conserved.next rfl rfl
  · split
    · exact conserved.next rfl rfl
    · exact conserved.next rfl rfl
    · split
      · exact (conserved.move (by simp)).append rfl rfl
      · exact conserved.next rfl rfl

theorem Reached.conserved (reached : Reached env config settings publisher log) :
    Conserved publisher log := by
  induction reached with
  | initial companions =>
      refine ⟨rfl, Nat.zero_le _, rfl, ?_, fun _ => rfl⟩
      intro before between after first second split
      simp [acceptedOf] at split
  | act action before ih =>
      cases action with
      | publish now payload => exact ih.publish
      | companion call =>
          rw [Publisher.act, List.append_nil]
          exact ⟨ih.inOrder, ih.bounded, ih.window, ih.spaced, ih.awake⟩
      | work turn => exact ih.work

end Publisher

/-- Whatever is published, delivered or refused, and however the threads
interleave: the accepted notifications are the taken ones followed by the queued
ones, in order; two with one identity have at least 256 others between them; and
while something waits in the queue, the thread has not left, unless an exception
killed it. -/
theorem notifications_taken_once {env : Environment} {config : Config}
    {settings : PublisherSettings} {publisher : Publisher} {log : List PushEvent}
    (reached : publisher.Reached env config settings log) :
    acceptedOf log = takenOf log ++ publisher.queue ∧ publisher.queue.length ≤ 100 ∧
      Spaced 256 (acceptedOf log) ∧ (publisher.queue ≠ [] → publisher.worker ≠ .absent) := by
  have conserved := reached.conserved
  refine ⟨conserved.inOrder, conserved.bounded, conserved.spaced, ?_⟩
  exact fun queued absent => queued (conserved.awake absent)

/-- An alert that a repair may be decided. -/
def repairAlert : NotificationPayload where
  notificationId := some "repair-1".toList
  type := some "DECISION_REQUIRED".toList
  title := none
  message := some "Une réparation est proposée.".toList
  incidentId := none
  occurredAt := some "2026-01-01T00:00:00+00:00".toList

def pushSettings : PublisherSettings :=
  ⟨true, "production".toList, List.map Char.toUpper⟩

/-- An alert for a paired telephone; the first request fails, the second is
accepted. -/
def alertedPhone : List PushAction :=
  [.publish pairingTime repairAlert, .work ⟨pairingTime, false, none, false⟩,
    .work ⟨pairingTime, false, none, false⟩, .work ⟨pairingTime, false, some 503, false⟩,
    .work ⟨pairingTime, false, some 200, false⟩]

def alertRun : Publisher × List PushEvent :=
  Publisher.run plainEnvironment quarterConfig pushSettings
    (history plainEnvironment quarterConfig pairedPhone).db alertedPhone

theorem alertRun_taken_once :
    acceptedOf alertRun.2 = takenOf alertRun.2 ++ alertRun.1.queue ∧
      alertRun.1.queue.length ≤ 100 ∧ Spaced 256 (acceptedOf alertRun.2) ∧
      (alertRun.1.queue ≠ [] → alertRun.1.worker ≠ .absent) :=
  notifications_taken_once (Publisher.reached_run plainEnvironment quarterConfig pushSettings _ _)

/-! ## A running thread empties the queue -/

/-- The thread runs, and no exception is taking it away. -/
def Worker.Running : Worker → Prop
  | .idle | .holding _ | .delivering .. => True
  | .absent | .crashing | .dead => False

namespace Publisher

variable {settings : PublisherSettings} {publisher : Publisher} {notification : Notification}

/-- The publisher after a turn of its worker. -/
def after (settings : PublisherSettings) (publisher : Publisher) (turn : Turn) : Publisher :=
  (publisher.work settings turn).1

/-- Bound to happen, as long as the push addresses can be read. -/
abbrev Bound (settings : PublisherSettings) : (Publisher → Prop) → Publisher → Prop :=
  Transition.Inevitable (after settings) fun turn => turn.targetsFail = false

/-- The thread is at the head of its loop, with a given queue. -/
def Ready (queue : List Notification) (publisher : Publisher) : Prop :=
  publisher.worker = .idle ∧ publisher.queue = queue

/-- A request is repeated, or the thread goes to the next address. -/
theorem after_delivering {target : Text × Text} {rest : List (Text × Text)} {attempt : Nat}
    (delivers : publisher.worker = .delivering notification target rest attempt) (turn : Turn) :
    (∃ companions, publisher.after settings turn =
      ({ publisher with companions }.next notification rest).1) ∨
      (attempt < 3 ∧ publisher.after settings turn =
        { publisher with worker := .delivering notification target rest (attempt + 1) }) := by
  simp only [after, work, delivers]
  cases turn.verdict with
  | delivered => exact Or.inl ⟨_, rfl⟩
  | unregistered => exact Or.inl ⟨_, rfl⟩
  | failed =>
      simp only
      split
      · rename_i few
        exact Or.inr ⟨few, rfl⟩
      · exact Or.inl ⟨_, rfl⟩

/-- An address is tried at most three times. -/
theorem bound_tries {queue : List Notification} {target : Text × Text}
    {rest : List (Text × Text)} (go : ∀ publisher : Publisher, publisher.queue = queue →
      Bound settings (Ready queue) (publisher.next notification rest).1) (left : Nat) :
    ∀ {attempt : Nat} {publisher : Publisher}, 3 ≤ attempt + left → publisher.queue = queue →
      publisher.worker = .delivering notification target rest attempt →
        Bound settings (Ready queue) publisher := by
  induction left with
  | zero =>
      intro attempt publisher enough queued delivers
      refine .step fun turn _ => ?_
      rcases after_delivering delivers turn with ⟨companions, step⟩ | ⟨few, _⟩
      · rw [step]
        exact go _ queued
      · exact absurd few (Nat.not_lt.mpr enough)
  | succ left ih =>
      intro attempt publisher enough queued delivers
      refine .step fun turn _ => ?_
      rcases after_delivering delivers turn with ⟨companions, step⟩ | ⟨_, step⟩
      · rw [step]
        exact go _ queued
      · rw [step]
        have again : 3 ≤ attempt + 1 + left := by omega
        exact ih again queued rfl

theorem bound_next {queue : List Notification} {rest : List (Text × Text)}
    (queued : publisher.queue = queue) :
    Bound settings (Ready queue) (publisher.next notification rest).1 := by
  induction rest generalizing publisher with
  | nil => exact .here ⟨rfl, queued⟩
  | cons target rest ih =>
      exact bound_tries (fun _ queued => ih queued) 3 (Nat.le_add_left 3 1) queued rfl

theorem bound_hold {queue : List Notification} (queued : publisher.queue = queue)
    (holds : publisher.worker = .holding notification) :
    Bound settings (Ready queue) publisher := by
  refine .step fun turn readable => ?_
  simp only [after, work, holds, readable, Bool.false_eq_true, if_false]
  exact bound_next queued

/-- The loop takes what is queued and leaves. -/
theorem bound_drain {queue : List Notification} (ready : publisher.Ready queue) :
    Bound settings (fun publisher => publisher.worker = .absent ∧ publisher.queue = [])
      publisher := by
  induction queue generalizing publisher with
  | nil =>
      refine .step fun turn _ => ?_
      simp only [after, work, ready.1, ready.2]
      exact .here ⟨rfl, rfl⟩
  | cons notification rest ih =>
      refine .step fun turn _ => ?_
      simp only [after, work, ready.1, ready.2]
      exact (bound_hold rfl rfl).trans fun publisher ready => ih ready

end Publisher

/-- When nothing more is published, a running thread empties the queue and leaves,
whatever APNs answers, as long as the push addresses can be read. -/
theorem running_worker_drains {settings : PublisherSettings} {publisher : Publisher}
    (running : publisher.worker.Running) (turns : Nat → Turn)
    (readable : ∀ index, (turns index).targetsFail = false) :
    ∃ count, (((List.range count).map turns).foldl (Publisher.after settings) publisher).worker =
        .absent ∧
      (((List.range count).map turns).foldl (Publisher.after settings) publisher).queue = [] := by
  have bound : Publisher.Bound settings
      (fun publisher => publisher.worker = .absent ∧ publisher.queue = []) publisher := by
    cases at_ : publisher.worker with
    | idle => exact Publisher.bound_drain ⟨at_, rfl⟩
    | holding notification =>
        exact (Publisher.bound_hold rfl at_).trans fun publisher ready =>
          Publisher.bound_drain ready
    | delivering notification target rest attempt =>
        exact (Publisher.bound_tries (fun _ queued => Publisher.bound_next queued) 3
          (Nat.le_add_left 3 attempt) rfl at_).trans fun publisher ready =>
            Publisher.bound_drain ready
    | absent => simp [at_, Worker.Running] at running
    | crashing => simp [at_, Worker.Running] at running
    | dead => simp [at_, Worker.Running] at running
  exact bound.stream turns readable

/-- The alert is queued for the paired telephone, and the thread has just started. -/
def alertedPublisher : Publisher :=
  (Publisher.run plainEnvironment quarterConfig pushSettings
    (history plainEnvironment quarterConfig pairedPhone).db
    [.publish pairingTime repairAlert]).1

/-- A turn in which APNs is unavailable. -/
def outage : Turn :=
  ⟨pairingTime, false, some 503, false⟩

theorem alerted_worker_drains :
    alertedPublisher.queue.map Notification.notificationId = ["repair-1".toList] ∧
      alertedPublisher.companions.pushTargets pairingTime pushSettings.environment =
        [(phone, List.replicate 64 'b')] ∧
      ∃ count, (((List.range count).map fun _ => outage).foldl (Publisher.after pushSettings)
          alertedPublisher).worker = .absent ∧
        (((List.range count).map fun _ => outage).foldl (Publisher.after pushSettings)
          alertedPublisher).queue = [] := by
  have running : alertedPublisher.worker.Running := trivial
  exact ⟨by decide +kernel, by decide +kernel,
    running_worker_drains running (fun _ => outage) fun _ => rfl⟩

end OhanaAgent.Companions
