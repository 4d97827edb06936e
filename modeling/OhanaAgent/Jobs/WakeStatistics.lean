import OhanaAgent.Jobs.PowerJournal
import OhanaAgent.Store.Places

/-!
# Wake statistics

`_wake_stats_locked` reads the journal once and keeps one flag: whether an
attempt timed out since the worker was last online.  A late answer takes back an
unanswered attempt when that flag is set, although the attempt it answers may
not be the one that timed out.
-/

namespace OhanaAgent.Jobs

open OhanaAgent.Encoding.Json
open OhanaAgent.Store
open OhanaAgent.Time
open OhanaAgent.Transition

/-! ## The journal of a worker -/

/-- A late answer, not a start by hand. -/
def PowerEvent.answersLate (event : PowerEvent) : Bool :=
  event.kind = .workerOnline && flag "late" event.detail && !flag "manual" event.detail

/-- An attempt timed out since the worker was last online. -/
def timedOutSinceOnline (events : List PowerEvent) : Bool :=
  (events.reverse.takeWhile fun event => event.kind ≠ .workerOnline).any
    fun event => event.kind = .wakeTimeout

/-- The latest wake timed out. -/
def latestTimedOut (events : List PowerEvent) : Bool :=
  match events.reverse.find? fun event => event.kind = .wakeSent || event.kind = .wakeTimeout with
  | some event => event.kind = .wakeTimeout
  | none => false

/-- The last event is a wake. -/
def endsInWake (events : List PowerEvent) : Bool :=
  match events.getLast? with
  | some event => event.kind = .wakeSent
  | none => false

variable {events : List PowerEvent} {event : PowerEvent}

theorem timedOutSinceOnline_concat :
    timedOutSinceOnline (events ++ [event]) =
      (event.kind ≠ .workerOnline && (event.kind = .wakeTimeout || timedOutSinceOnline events)) := by
  unfold timedOutSinceOnline
  rw [List.reverse_append, List.reverse_singleton, List.singleton_append, List.takeWhile_cons]
  by_cases online : event.kind = .workerOnline <;> simp [online]

theorem latestTimedOut_concat :
    latestTimedOut (events ++ [event]) =
      (event.kind = .wakeTimeout || event.kind ≠ .wakeSent && latestTimedOut events) := by
  unfold latestTimedOut
  rw [List.reverse_append, List.reverse_singleton, List.singleton_append, List.find?_cons]
  by_cases sent : event.kind = .wakeSent
  · simp [sent]
  · by_cases ended : event.kind = .wakeTimeout <;> simp [sent, ended]

theorem endsInWake_concat : endsInWake (events ++ [event]) = (event.kind = .wakeSent : Bool) := by
  unfold endsInWake
  rw [List.getLast?_append]
  rfl

/-- What the loop has counted after a journal. -/
def seriesOf (events : List PowerEvent) : WakeSeries :=
  events.foldl WakeSeries.count .start

theorem seriesOf_concat : seriesOf (events ++ [event]) = (seriesOf events).count event :=
  List.foldl_append

/-- The flag of the loop. -/
theorem series_timedOut (events : List PowerEvent) :
    (seriesOf events).timedOutSinceAnswer = timedOutSinceOnline events := by
  induction events using List.reverseRecOn with
  | nil => rfl
  | append_singleton events event inductionHypothesis =>
      rw [seriesOf_concat, timedOutSinceOnline_concat, ← inductionHypothesis, WakeSeries.count]
      cases event.kind <;> simp
      split <;> rfl

/-- A timeout is unanswered until a late answer finds the flag set. -/
theorem series_unanswered (events : List PowerEvent) :
    (seriesOf events).stats.unanswered =
      (events.countP fun event => event.kind = .wakeTimeout : Nat) -
        (countAt (fun before event => event.answersLate && timedOutSinceOnline before) events :
          Nat) := by
  induction events using List.reverseRecOn with
  | nil => rfl
  | append_singleton events event inductionHypothesis =>
      have flagged := series_timedOut events
      rw [seriesOf_concat, countAt_concat, List.countP_append, List.countP_singleton,
        WakeSeries.count, PowerEvent.answersLate]
      cases kind : event.kind with
      | workerOnline =>
          by_cases byHand : flag "manual" event.detail = true
          · simp [byHand, inductionHypothesis]
          · by_cases late : flag "late" event.detail = true
            · by_cases timedOut : timedOutSinceOnline events = true
              · simp [byHand, late, flagged, timedOut, inductionHypothesis]
                omega
              · simp [byHand, late, flagged, timedOut, inductionHypothesis]
            · simp [byHand, late, inductionHypothesis]
      | wakeTimeout =>
          simp [inductionHypothesis]
          omega
      | _ => simp [inductionHypothesis]

/-! ## Coherent journals -/

theorem eq_concat_of_getLast? {last : PowerEvent} (found : events.getLast? = some last) :
    ∃ init, events = init ++ [last] := by
  rcases List.eq_nil_or_concat events with rfl | ⟨init, final, rfl⟩
  · simp at found
  · rw [List.concat_eq_append, List.getLast?_concat, Option.some.injEq] at found
    exact ⟨init, by rw [List.concat_eq_append, found]⟩

/-- The latest wake timed out, and the worker was not online since. -/
def TimedOut (events : List PowerEvent) : Prop :=
  timedOutSinceOnline events = true ∧ latestTimedOut events = true

theorem timedOut_of_timeout {last : PowerEvent} (found : events.getLast? = some last)
    (ended : last.kind = .wakeTimeout) : TimedOut events := by
  rcases eq_concat_of_getLast? found with ⟨init, rfl⟩
  unfold TimedOut
  rw [timedOutSinceOnline_concat, latestTimedOut_concat]
  simp [ended]

theorem Coherent.timedOut (coherent : Coherent events) {last : PowerEvent}
    (found : events.getLast? = some last)
    (ended : last.kind = .wakeTimeout ∨ last.kind = .wakeAbandoned) : TimedOut events := by
  rcases ended with ended | abandoned
  · exact timedOut_of_timeout found ended
  · cases coherent with
    | nil => simp at found
    | snoc coherent fits =>
        rw [List.getLast?_concat, Option.some.injEq] at found
        subst found
        simp only [Fits, abandoned] at fits
        rcases fits with ⟨earlier, before, timeout⟩
        rcases timedOut_of_timeout before timeout with ⟨flagged, latest⟩
        unfold TimedOut
        rw [timedOutSinceOnline_concat, latestTimedOut_concat]
        simp [abandoned, flagged, latest]

theorem endsInWake_iff : endsInWake events = true ↔
    ∃ last, events.getLast? = some last ∧ last.kind = .wakeSent := by
  unfold endsInWake
  cases events.getLast? <;> simp

/-- A late answer comes after a timeout of the latest wake, or directly after a
wake. -/
theorem Coherent.answered (coherent : Coherent events) (late : event.answersLate = true)
    (fits : Fits events.getLast? event) :
    TimedOut events ∨ endsInWake events = true ∧ latestTimedOut events = false := by
  unfold PowerEvent.answersLate at late
  simp only [Bool.and_eq_true, decide_eq_true_eq] at late
  simp only [Fits, late.1.1] at fits
  rcases fits with ⟨last, found, sent | ⟨ended, _⟩⟩
  · refine Or.inr ⟨endsInWake_iff.mpr ⟨last, found, sent⟩, ?_⟩
    rcases eq_concat_of_getLast? found with ⟨init, rfl⟩
    rw [latestTimedOut_concat]
    simp [sent]
  · exact Or.inl (coherent.timedOut found ended)

/-- A worker comes online directly after a wake, or late, or by hand. -/
theorem Coherent.online (coherent : Coherent events) (online : event.kind = .workerOnline)
    (fits : Fits events.getLast? event) :
    endsInWake events = true ∨ TimedOut events ∧ event.overdue = true := by
  simp only [Fits, online] at fits
  rcases fits with ⟨last, found, sent | ⟨ended, overdue⟩⟩
  · exact Or.inl (endsInWake_iff.mpr ⟨last, found, sent⟩)
  · exact Or.inr ⟨coherent.timedOut found ended, overdue⟩

/-- The attempts that are neither answered nor unanswered. -/
def WakeSeries.surplus (series : WakeSeries) : Int :=
  series.stats.attempts - (series.stats.onTime + series.stats.late + series.stats.unanswered)

/-- What an event changes about the surplus. -/
def surplusChange (timedOut : Bool) (event : PowerEvent) : Int :=
  match event.kind with
  | .wakeSent => 1
  | .wakeTimeout => -1
  | .workerOnline =>
      if flag "manual" event.detail || flag "late" event.detail && timedOut then 0 else -1
  | _ => 0

theorem surplus_count (series : WakeSeries) (event : PowerEvent) :
    (series.count event).surplus =
      series.surplus + surplusChange series.timedOutSinceAnswer event := by
  unfold WakeSeries.surplus surplusChange WakeSeries.count
  cases event.kind with
  | workerOnline =>
      by_cases byHand : flag "manual" event.detail = true
      · simp [byHand]
      · by_cases late : flag "late" event.detail = true
        · by_cases timedOut : series.timedOutSinceAnswer = true
          · simp [byHand, late, timedOut]
            omega
          · simp [byHand, late, timedOut]
            omega
        · simp [byHand, late]
          omega
  | wakeSent | wakeTimeout =>
      simp
      omega
  | _ => simp

/-- Every attempt is counted once: an event takes from the surplus at most the
wake that still waits. -/
theorem Coherent.surplus (coherent : Coherent events) :
    (if endsInWake events then 1 else 0) ≤ (seriesOf events).surplus := by
  induction coherent with
  | nil => decide
  | @snoc events event coherent fits inductionHypothesis =>
      rw [seriesOf_concat, endsInWake_concat, surplus_count, series_timedOut]
      have waiting : (0 : Int) ≤ if endsInWake events = true then 1 else 0 := by
        split <;> decide
      cases kind : event.kind with
      | wakeTimeout =>
          have sent : endsInWake events = true := by
            simp only [Fits, kind] at fits
            exact endsInWake_iff.mpr fits
          rw [if_pos sent] at inductionHypothesis
          simp [surplusChange, kind]
          omega
      | workerOnline =>
          rcases coherent.online kind fits with sent | ⟨⟨timedOut, _⟩, overdue⟩
          · rw [if_pos sent] at inductionHypothesis
            simp only [surplusChange, kind, decide_false, Bool.false_eq_true, if_false, reduceCtorEq]
            split <;> omega
          · rw [PowerEvent.overdue, Bool.or_eq_true, or_comm, ← Bool.or_eq_true] at overdue
            simp only [surplusChange, kind, timedOut, Bool.and_true, overdue, if_true,
              decide_false, Bool.false_eq_true, if_false, reduceCtorEq]
            omega
      | _ =>
          simp [surplusChange, kind]
          omega

/-- No late answer follows its wake directly while an earlier attempt of the
series timed out: the wait of every wake is settled before its late answer. -/
def SettledFirst (events : List PowerEvent) : Prop :=
  ∀ before sent online after, events = before ++ sent :: online :: after →
    sent.kind = .wakeSent → online.answersLate = true → timedOutSinceOnline before = false

theorem Coherent.everywhere (coherent : Coherent events) : Everywhere (fun before event =>
    Coherent before ∧ Fits before.getLast? event) events := by
  induction coherent with
  | nil => exact everywhere_nil _
  | snoc coherent fits inductionHypothesis =>
      exact everywhere_concat.mpr ⟨inductionHypothesis, coherent, fits⟩

theorem Coherent.settledFirst_iff (coherent : Coherent events) :
    Everywhere (fun before event => (event.answersLate && timedOutSinceOnline before) = true →
      (event.answersLate && latestTimedOut before) = true) events ↔ SettledFirst events := by
  constructor
  · intro matched before sent online after split isSent late
    have place : events = (before ++ [sent]) ++ online :: after := by simp [split]
    have same := matched (before ++ [sent]) online after place
    dsimp only at same
    rw [timedOutSinceOnline_concat, latestTimedOut_concat] at same
    simpa [isSent, late] using same
  · intro settled before event after split counted
    rw [Bool.and_eq_true] at counted
    rcases coherent.everywhere before event after split with ⟨earlier, fits⟩
    rcases earlier.answered counted.1 fits with timedOut | ⟨sent, _⟩
    · rw [counted.1, timedOut.2]
      rfl
    · rcases endsInWake_iff.mp sent with ⟨last, found, isSent⟩
      rcases eq_concat_of_getLast? found with ⟨init, rfl⟩
      rw [List.append_assoc, List.singleton_append] at split
      have quiet := settled init last event after split isSent counted.1
      rw [timedOutSinceOnline_concat, quiet] at counted
      simp [isSent] at counted

/-- In every reachable journal of less than two hundred events the unanswered
attempts are the timeouts less the late answers to a wake that timed out, exactly
when no late answer directly follows a wake while an earlier attempt had timed
out; and no attempt is counted twice. -/
theorem wake_statistics_iff (env : Environment) (config : Config) {calls : List Call}
    {db : Database} (run : Run (Step env config) Database.empty calls db) (workerId : Text)
    (short : (db.journal workerId).length < powerEventRetention) :
    ((db.wakeStats workerId).unanswered =
        ((db.journal workerId).countP fun event => event.kind = .wakeTimeout : Nat) -
          (countAt (fun before event => event.answersLate && latestTimedOut before)
            (db.journal workerId) : Nat) ↔ SettledFirst (db.journal workerId)) ∧
      ((db.wakeStats workerId).onTime : Int) + (db.wakeStats workerId).late +
          (db.wakeStats workerId).unanswered ≤ (db.wakeStats workerId).attempts := by
  have coherent := (powerInvariant_of_run run).coherent workerId short
  have unanswered := series_unanswered (db.journal workerId)
  have surplus := coherent.surplus
  unfold WakeSeries.surplus at surplus
  have implied : Everywhere (fun before event =>
      (event.answersLate && latestTimedOut before) = true →
        (event.answersLate && timedOutSinceOnline before) = true) (db.journal workerId) := by
    intro before event after split counted
    rw [Bool.and_eq_true] at counted
    rcases coherent.everywhere before event after split with ⟨earlier, fits⟩
    rcases earlier.answered counted.1 fits with timedOut | ⟨_, latest⟩
    · rw [counted.1, timedOut.1]
      rfl
    · rw [latest] at counted
      exact absurd counted.2 Bool.false_ne_true
  have agree := countAt_eq_iff implied
  rw [coherent.settledFirst_iff] at agree
  constructor
  · rw [← agree, show (db.wakeStats workerId).unanswered =
      (seriesOf (db.journal workerId)).stats.unanswered from rfl, unanswered]
    omega
  · change ((seriesOf (db.journal workerId)).stats.onTime : Int) +
      (seriesOf (db.journal workerId)).stats.late + (seriesOf (db.journal workerId)).stats.unanswered ≤
        (seriesOf (db.journal workerId)).stats.attempts
    split at surplus <;> omega

/-! ## A late answer -/

/-- A worker registers, is woken, and answers twenty seconds after the wait was
settled. -/
def answeredAfterSettlement : List Call :=
  [secondsIn 0 (.registerWorker (announcement oldName) none),
    secondsIn 200 (.markWorkerWaking oldName 10 "queued_jobs".toList),
    secondsIn 220 (.settleUnansweredWakes 3),
    secondsIn 240 (.registerWorker (announcement oldName) none)]

theorem answeredAfterSettlement_counted :
    let db := execute winterEnvironment .default answeredAfterSettlement .empty
    (db.wakeStats oldName).late = 1 ∧
    ((db.wakeStats oldName).unanswered =
        ((db.journal oldName).countP fun event => event.kind = .wakeTimeout : Nat) -
          (countAt (fun before event => event.answersLate && latestTimedOut before)
            (db.journal oldName) : Nat) ↔ SettledFirst (db.journal oldName)) ∧
      ((db.wakeStats oldName).onTime : Int) + (db.wakeStats oldName).late +
          (db.wakeStats oldName).unanswered ≤ (db.wakeStats oldName).attempts :=
  ⟨by decide +kernel, wake_statistics_iff winterEnvironment .default (run_execute _ _) oldName
    (by decide +kernel)⟩

/-- The worker is woken a second time, and answers this wake after its wait but
before the settlement. -/
def answeredBeforeSettlement : List Call :=
  [secondsIn 0 (.registerWorker (announcement oldName) none),
    secondsIn 200 (.markWorkerWaking oldName 10 "queued_jobs".toList),
    secondsIn 220 (.settleUnansweredWakes 3),
    secondsIn 300 (.markWorkerWaking oldName 10 "retry".toList),
    secondsIn 320 (.registerWorker (announcement oldName) none)]

/-- The late answer takes back the timeout of the first wake. -/
theorem unsettled_answer_takes_earlier_timeout :
    let db := execute winterEnvironment .default answeredBeforeSettlement .empty
    (db.journal oldName).map PowerEvent.kind =
        [.wakeSent, .wakeTimeout, .wakeSent, .workerOnline] ∧
      (db.wakeStats oldName).late = 1 ∧ (db.wakeStats oldName).unanswered = 0 ∧
      ((db.journal oldName).countP fun event => event.kind = .wakeTimeout) = 1 ∧
      countAt (fun before event => event.answersLate && latestTimedOut before)
        (db.journal oldName) = 0 := by
  decide +kernel

end OhanaAgent.Jobs
