import OhanaAgent.Companions.Notifications

/-!
# The requests of a delivery

The requests for one notification follow its addresses in order.  An address is
tried until it is reached or found unregistered, at most three times; no address
is left out, tried again later, or tried while another one is.
-/

namespace OhanaAgent.Companions

open Encoding.Json Store Transition

/-! ## Rounds -/

/-- What was done about the notification that was taken last. -/
structure Round where
  notification : Option Notification
  targets : List (Text × Text)
  answers : List ((Text × Text) × Verdict)

/-- What an event adds to a round. -/
def PushEvent.read (round : Round) : PushEvent → Round
  | .taken notification => ⟨some notification, [], []⟩
  | .targeted targets => { round with targets }
  | .answered target verdict => { round with answers := round.answers ++ [(target, verdict)] }
  | _ => round

/-- The round at the end of a log. -/
def roundOf (log : List PushEvent) : Round :=
  log.foldl PushEvent.read ⟨none, [], []⟩

@[simp]
theorem roundOf_concat (log : List PushEvent) (event : PushEvent) :
    roundOf (log ++ [event]) = event.read (roundOf log) :=
  List.foldl_append

/-- A complete delivery: for each address, failures that are fewer than three and
then an answer, or three failures. -/
inductive Tried : List (Text × Text) → List ((Text × Text) × Verdict) → Prop
  | nil : Tried [] []
  | settled {targets : List (Text × Text)} {answers : List ((Text × Text) × Verdict)}
      (earlier : Tried targets answers) (target : Text × Text) {failures : Nat}
      (few : failures < 3) {verdict : Verdict} (final : verdict ≠ .failed) :
      Tried (targets ++ [target])
        (answers ++ List.replicate failures (target, .failed) ++ [(target, verdict)])
  | abandoned {targets : List (Text × Text)} {answers : List ((Text × Text) × Verdict)}
      (earlier : Tried targets answers) (target : Text × Text) :
      Tried (targets ++ [target]) (answers ++ List.replicate 3 (target, .failed))

namespace Publisher

variable {env : Environment} {config : Config} {settings : PublisherSettings}
  {publisher : Publisher} {log : List PushEvent} {notification : Notification}

/-- How far the round of the thread is. -/
def Progress (round : Round) : Worker → Prop
  | .holding notification => round.notification = some notification ∧ round.answers = []
  | .delivering notification target rest attempt => round.notification = some notification ∧
      ∃ done answers failures, attempt = failures + 1 ∧ failures < 3 ∧
        round.targets = done ++ target :: rest ∧ Tried done answers ∧
        round.answers = answers ++ List.replicate failures (target, .failed)
  | _ => True

/-- The round of the thread goes on, and those that were finished are complete. -/
structure Rounds (publisher : Publisher) (log : List PushEvent) : Prop where
  current : Progress (roundOf log) publisher.worker
  complete : ∀ before notification after, log = before ++ .finished notification :: after →
    (roundOf before).notification = some notification ∧
      Tried (roundOf before).targets (roundOf before).answers

/-- One more event that finishes nothing. -/
theorem Rounds.concat {event : PushEvent} {next : Publisher} (rounds : Rounds publisher log)
    (goes : ∀ notification, event ≠ .finished notification)
    (current : Progress (event.read (roundOf log)) next.worker) :
    Rounds next (log ++ [event]) where
  current := by
    rw [roundOf_concat]
    exact current
  complete before notification after split := by
    rcases concat_eq_split_iff.mp split with ⟨_, same, _⟩ | ⟨rest, _, split⟩
    · exact absurd same (goes notification)
    · exact rounds.complete before notification rest split

theorem Rounds.finish {next : Publisher} (rounds : Rounds publisher log)
    (idle : next.worker = .idle) (taken : (roundOf log).notification = some notification)
    (delivery : Tried (roundOf log).targets (roundOf log).answers) :
    Rounds next (log ++ [.finished notification]) where
  current := by
    rw [idle]
    trivial
  complete before other after split := by
    rcases concat_eq_split_iff.mp split with ⟨rfl, same, _⟩ | ⟨rest, _, split⟩
    · cases same
      exact ⟨taken, delivery⟩
    · exact rounds.complete before other rest split

/-- The addresses that are done are delivered; the thread goes to the next one. -/
theorem Rounds.next {event : PushEvent} {companions : Database} {done rest : List (Text × Text)}
    (rounds : Rounds publisher log) (goes : ∀ notification, event ≠ .finished notification)
    (taken : (event.read (roundOf log)).notification = some notification)
    (targets : (event.read (roundOf log)).targets = done ++ rest)
    (delivery : Tried done (event.read (roundOf log)).answers) :
    let answer := { publisher with companions }.next notification rest
    Rounds answer.1 (log ++ event :: answer.2) := by
  intro answer
  rw [List.append_cons]
  have told : Rounds { publisher with worker := .idle } (log ++ [event]) :=
    rounds.concat goes trivial
  cases rest with
  | nil =>
      refine told.finish rfl ?_ ?_
      · rw [roundOf_concat, taken]
      · rw [roundOf_concat, targets, List.append_nil]
        exact delivery
  | cons target rest =>
      rw [show answer.2 = [] from rfl, List.append_nil]
      refine rounds.concat goes ⟨taken, done, _, 0, rfl, by decide, targets, delivery, ?_⟩
      rw [List.replicate_zero, List.append_nil]

theorem Rounds.work {turn : Turn} (rounds : Rounds publisher log) :
    Rounds (publisher.work settings turn).1 (log ++ (publisher.work settings turn).2) := by
  have current := rounds.current
  unfold Publisher.work
  split
  · rw [List.append_nil]
    exact rounds
  · rw [List.append_nil]
    exact rounds
  · rw [List.append_nil]
    exact ⟨trivial, rounds.complete⟩
  · split
    · rw [List.append_nil]
      exact ⟨trivial, rounds.complete⟩
    · exact rounds.concat (by simp) ⟨rfl, rfl⟩
  · rename_i notification holds
    rw [holds] at current
    split
    · exact rounds.concat (by simp) trivial
    · refine rounds.next (by simp) current.1 (List.nil_append _).symm ?_
      rw [PushEvent.read, current.2]
      exact .nil
  · rename_i notification target rest attempt delivers
    rw [delivers] at current
    obtain ⟨taken, done, answers, failures, rfl, few, targets, delivery, told⟩ := current
    have split_ : (roundOf log).targets = (done ++ [target]) ++ rest := by
      rw [targets, List.append_cons]
    split
    · refine rounds.next (by simp) taken split_ ?_
      rw [PushEvent.read, told]
      exact delivery.settled target few (by simp)
    · refine rounds.next (by simp) taken split_ ?_
      rw [PushEvent.read, told]
      exact delivery.settled target few (by simp)
    · have again : (roundOf log).answers ++ [(target, .failed)] =
          answers ++ List.replicate (failures + 1) (target, .failed) := by
        rw [told, List.append_assoc, ← List.replicate_succ']
      split
      · rename_i more
        exact rounds.concat (by simp) ⟨taken, done, answers, failures + 1, rfl,
          more, targets, delivery, again⟩
      · rename_i last
        have third : failures = 2 := by omega
        refine rounds.next (by simp) taken split_ ?_
        rw [PushEvent.read, again, third]
        exact delivery.abandoned target

theorem Rounds.publish {now : Instant} {payload : NotificationPayload}
    (rounds : Rounds publisher log) :
    Rounds (publisher.publish settings now payload).1
      (log ++ (publisher.publish settings now payload).2) := by
  have started : Progress (roundOf log) publisher.worker.started := by
    have current := rounds.current
    cases at_ : publisher.worker with
    | absent => trivial
    | dead => trivial
    | idle => trivial
    | crashing => trivial
    | holding notification =>
        rw [at_] at current
        exact current
    | delivering notification target rest attempt =>
        rw [at_] at current
        exact current
  unfold Publisher.publish
  split
  · rw [List.append_nil]
    exact rounds
  · split
    · exact rounds.concat (by simp) rounds.current
    · split
      · exact rounds.concat (by simp) rounds.current
      · split
        · exact rounds.concat (by simp) rounds.current
        · exact rounds.concat (by simp) started

theorem Reached.rounds (reached : Reached env config settings publisher log) :
    Rounds publisher log := by
  induction reached with
  | initial companions =>
      refine ⟨trivial, fun before notification after split => ?_⟩
      simp at split
  | act action before ih =>
      cases action with
      | publish now payload => exact ih.publish
      | companion call =>
          rw [Publisher.act, List.append_nil]
          exact ⟨ih.current, ih.complete⟩
      | work turn => exact ih.work

end Publisher

/-- In every run, the requests for a notification that is finished are a complete
delivery to the addresses that were read for it. -/
theorem finished_notification_delivered {env : Environment} {config : Config}
    {settings : PublisherSettings} {publisher : Publisher} {log before after : List PushEvent}
    {notification : Notification} (reached : publisher.Reached env config settings log)
    (split : log = before ++ .finished notification :: after) :
    (roundOf before).notification = some notification ∧
      Tried (roundOf before).targets (roundOf before).answers :=
  reached.rounds.complete before notification after split

/-- The notification of the alert. -/
def repairNotification : Notification where
  notificationId := "repair-1".toList
  type := "DECISION_REQUIRED".toList
  title := "Tsunade".toList
  message := "Une réparation est proposée.".toList
  incidentId := none
  occurredAt := "2026-01-01T00:00:00+00:00".toList

theorem alertRun_delivered :
    let address := (phone, List.replicate 64 'b')
    Tried [address] [(address, .failed), (address, .delivered)] := by
  have split : alertRun.2 = [.accepted repairNotification, .taken repairNotification,
      .targeted [(phone, List.replicate 64 'b')],
      .answered (phone, List.replicate 64 'b') .failed,
      .answered (phone, List.replicate 64 'b') .delivered] ++
        .finished repairNotification :: [] := by
    rfl
  exact (finished_notification_delivered (Publisher.reached_run plainEnvironment quarterConfig
    pushSettings (history plainEnvironment quarterConfig pairedPhone).db alertedPhone) split).2

end OhanaAgent.Companions
