import Mathlib.Data.Int.Order.Basic
import OhanaAgent.Scheduler.CronTrigger
import OhanaAgent.Store.Grouped

/-!
# Occurrences of a trigger

A scheduler asks at every tick whether a trigger is due, and marks it executed
when it is.  Only the last execution is remembered, so that a wall clock minute
that comes back, as in the hour that the clock change of autumn repeats, is run
again as soon as another minute was run in between.  A trigger without timezone
counts minutes as instants, which do not come back.
-/

namespace OhanaAgent.Scheduler.CronTrigger

open Time Store

variable {trigger : CronTrigger} {clock : Zone} {now last : Int} {ticks : List Int}

/-! ## Ticks -/

/-- One tick: execute when due. -/
def tick (clock : Zone) (trigger : CronTrigger) (now : Int) : CronTrigger :=
  if trigger.isDue clock now then trigger.markExecuted now else trigger

/-- The instants at which a run of ticks executes. -/
def executions (clock : Zone) : CronTrigger → List Int → List Int
  | _, [] => []
  | trigger, now :: later =>
      if trigger.isDue clock now then now :: executions clock (trigger.markExecuted now) later
      else executions clock trigger later

/-- The expression matches the wall clock minute of an instant. -/
def Occurs (trigger : CronTrigger) (clock : Zone) (now : Int) : Prop :=
  trigger.matches_ (wholeMinute (trigger.wall clock now)) = true

instance (trigger : CronTrigger) (clock : Zone) : DecidablePred (trigger.Occurs clock) :=
  fun _ => inferInstanceAs (Decidable (_ = true))

/-- The minutes of the matching ticks of a run: wall clock minutes in the timezone
of the trigger. -/
def occurrences (trigger : CronTrigger) (clock : Zone) (ticks : List Int) : List Int :=
  (ticks.filter (trigger.Occurs clock)).map (trigger.minuteOf clock)

/-- No minute is executed twice, a wall clock minute in the timezone of the trigger,
and a matching tick whose minute was not executed is due. -/
structure RunsOnce (trigger : CronTrigger) (clock : Zone) (ticks : List Int) : Prop where
  never_twice : ((executions clock trigger ticks).map (trigger.minuteOf clock)).Nodup
  always_due : ∀ before now after, ticks = before ++ now :: after → trigger.Occurs clock now →
    trigger.minuteOf clock now ∉ (executions clock trigger before).map (trigger.minuteOf clock) →
      (before.foldl (tick clock) trigger).isDue clock now = true

/-! ## One tick -/

@[simp]
theorem minuteOf_markExecuted (now : Int) :
    (trigger.markExecuted now).minuteOf clock = trigger.minuteOf clock := rfl

@[simp]
theorem occurs_markExecuted (now : Int) :
    (trigger.markExecuted now).Occurs clock = trigger.Occurs clock := rfl

@[simp]
theorem occurrences_markExecuted (now : Int) :
    (trigger.markExecuted now).occurrences clock = trigger.occurrences clock := rfl

@[simp]
theorem lastExecutedAt_markExecuted (now : Int) :
    (trigger.markExecuted now).lastExecutedAt = some now := rfl

/-- A trigger is due when its minute matches and is not that of the last
execution. -/
theorem isDue_iff : trigger.isDue clock now = true ↔ trigger.Occurs clock now ∧
    ∀ last, trigger.lastExecutedAt = some last →
      trigger.minuteOf clock last ≠ trigger.minuteOf clock now := by
  unfold isDue Occurs
  cases trigger.lastExecutedAt with
  | none => simp
  | some last => simp

/-- A trigger without executions is due in every minute that matches. -/
theorem isDue_iff_of_unused (unused : trigger.lastExecutedAt = none) :
    trigger.isDue clock now = true ↔ trigger.Occurs clock now := by
  rw [isDue_iff, unused]
  simp

theorem isDue_iff_of_executed (executed : trigger.lastExecutedAt = some last) :
    trigger.isDue clock now = true ↔ trigger.Occurs clock now ∧
      trigger.minuteOf clock last ≠ trigger.minuteOf clock now := by
  rw [isDue_iff, executed]
  simp

theorem occurrences_cons (now : Int) (later : List Int) :
    trigger.occurrences clock (now :: later) = if trigger.Occurs clock now
      then trigger.minuteOf clock now :: trigger.occurrences clock later
      else trigger.occurrences clock later := by
  unfold occurrences
  by_cases occurs : trigger.Occurs clock now
  · simp [occurs]
  · simp [occurs]

/-! ## Runs of ticks -/

/-- After an execution, the minutes executed are the matching ones without those
that repeat their predecessor. -/
theorem executions_after (executed : trigger.lastExecutedAt = some last) :
    trigger.minuteOf clock last :: (executions clock trigger ticks).map (trigger.minuteOf clock) =
      (trigger.occurrences clock ticks).destutter' (· ≠ ·) (trigger.minuteOf clock last) := by
  induction ticks generalizing trigger last with
  | nil => rfl
  | cons now later inductionHypothesis =>
      have dueIff : trigger.isDue clock now = true ↔ trigger.Occurs clock now ∧
          trigger.minuteOf clock last ≠ trigger.minuteOf clock now :=
        isDue_iff_of_executed executed
      rw [executions, occurrences_cons]
      by_cases occurs : trigger.Occurs clock now
      · by_cases same : trigger.minuteOf clock last = trigger.minuteOf clock now
        · rw [if_neg (fun due => (dueIff.mp due).2 same), if_pos occurs,
            List.destutter'_cons_neg _ (not_not_intro same)]
          exact inductionHypothesis executed
        · rw [if_pos (dueIff.mpr ⟨occurs, same⟩), if_pos occurs, List.destutter'_cons_pos _ same,
            List.map_cons]
          exact congrArg (_ :: ·) (inductionHypothesis (lastExecutedAt_markExecuted now))
      · rw [if_neg (fun due => occurs (dueIff.mp due).1), if_neg occurs]
        exact inductionHypothesis executed

/-- From a new trigger on, too. -/
theorem executions_new (unused : trigger.lastExecutedAt = none) :
    (executions clock trigger ticks).map (trigger.minuteOf clock) =
      (trigger.occurrences clock ticks).destutter (· ≠ ·) := by
  induction ticks with
  | nil => rfl
  | cons now later inductionHypothesis =>
      have dueIff : trigger.isDue clock now = true ↔ trigger.Occurs clock now :=
        isDue_iff_of_unused unused
      rw [executions, occurrences_cons]
      by_cases occurs : trigger.Occurs clock now
      · rw [if_pos (dueIff.mpr occurs), if_pos occurs, List.map_cons, List.destutter_cons']
        exact executions_after (lastExecutedAt_markExecuted now)
      · rw [if_neg (mt dueIff.mp occurs), if_neg occurs]
        exact inductionHypothesis

/-- Ticks change nothing but the record of executions. -/
theorem minuteOf_foldl (ticks : List Int) :
    (ticks.foldl (tick clock) trigger).minuteOf clock = trigger.minuteOf clock ∧
      (ticks.foldl (tick clock) trigger).Occurs clock = trigger.Occurs clock := by
  induction ticks generalizing trigger with
  | nil => exact ⟨rfl, rfl⟩
  | cons now later inductionHypothesis =>
      rw [List.foldl_cons, tick]
      split
      · exact inductionHypothesis
      · exact inductionHypothesis

/-- The last execution that a trigger remembers is one of the run, or the one it
remembered before. -/
theorem lastExecutedAt_foldl (ticks : List Int)
    (found : (ticks.foldl (tick clock) trigger).lastExecutedAt = some last) :
    last ∈ executions clock trigger ticks ∨ trigger.lastExecutedAt = some last := by
  induction ticks generalizing trigger with
  | nil => exact Or.inr found
  | cons now later inductionHypothesis =>
      rw [List.foldl_cons, tick] at found
      rw [executions]
      split at found
      · rename_i due
        rw [if_pos due]
        rcases inductionHypothesis found with inside | first
        · exact Or.inl (List.mem_cons_of_mem now inside)
        · rw [lastExecutedAt_markExecuted, Option.some.injEq] at first
          exact Or.inl (first ▸ List.mem_cons_self)
      · rename_i notDue
        rw [if_neg notDue]
        exact inductionHypothesis found

/-- A matching minute that was not executed is always due. -/
theorem isDue_of_occurs (unused : trigger.lastExecutedAt = none) {before : List Int}
    (occurs : trigger.Occurs clock now)
    (fresh : trigger.minuteOf clock now ∉
      (executions clock trigger before).map (trigger.minuteOf clock)) :
    (before.foldl (tick clock) trigger).isDue clock now = true := by
  have same := @minuteOf_foldl trigger clock before
  rw [isDue_iff]
  constructor
  · rw [same.2]
    exact occurs
  · intro last found
    rcases lastExecutedAt_foldl before found with inside | first
    · rw [same.1]
      exact fun equal => fresh (equal ▸ List.mem_map_of_mem inside)
    · rw [unused] at first
      contradiction

/-- A new trigger runs every occurrence once exactly when no minute that it matches
comes back after another one. -/
theorem runsOnce_iff (unused : trigger.lastExecutedAt = none) :
    trigger.RunsOnce clock ticks ↔ Grouped (trigger.occurrences clock ticks) := by
  have once : ((executions clock trigger ticks).map (trigger.minuteOf clock)).Nodup ↔
      Grouped (trigger.occurrences clock ticks) := by
    rw [executions_new unused]
    exact nodup_destutter_iff
  constructor
  · intro runs
    exact once.mp runs.never_twice
  · intro grouped
    constructor
    · exact once.mpr grouped
    · intro before now after _ occurs fresh
      exact isDue_of_occurs unused occurs fresh

/-- Minutes in order do not come back. -/
theorem grouped_of_le (ordered : ticks.Pairwise fun earlier later =>
    trigger.minuteOf clock earlier ≤ trigger.minuteOf clock later) :
    Grouped (trigger.occurrences clock ticks) := by
  apply Grouped.of_pairwise
  unfold occurrences
  rw [List.pairwise_map]
  exact ordered.sublist List.filter_sublist

/-- While the wall clock of the trigger is not put back, no minute comes back. -/
theorem grouped_of_forward {zone : LocalZone} (zoned : trigger.timezone = some zone)
    (forward : ticks.Pairwise fun earlier later => zone.wall earlier ≤ zone.wall later) :
    Grouped (trigger.occurrences clock ticks) := by
  apply grouped_of_le
  apply forward.imp
  intro earlier later ordered
  simp only [minuteOf, zoned]
  unfold wholeMinute minute second
  omega

/-- Without a timezone no minute comes back at all, where the offsets are whole
minutes. -/
theorem grouped_of_bare (bare : trigger.timezone = none)
    (whole : ∀ instant, clock.utcOffset instant % minute = 0) (ordered : ticks.Pairwise (· ≤ ·)) :
    Grouped (trigger.occurrences clock ticks) := by
  apply grouped_of_le
  apply ordered.imp
  intro earlier later ordered
  have wholeEarlier := whole earlier
  have wholeLater := whole later
  simp only [minuteOf, bare, LocalZone.wall_fixed, LocalZone.instantOf_fixed]
  unfold wholeMinute
  unfold minute second at *
  omega

/-- An accepted expression gives a trigger without executions. -/
theorem lastExecutedAt_ofExpression {expression : Encoding.Json.Text} {timezone : Option LocalZone}
    (accepted : ofExpression expression timezone = .ok trigger) :
    trigger.lastExecutedAt = none := by
  unfold ofExpression at accepted
  split at accepted
  · simp only [bind, Except.bind, pure, Except.pure] at accepted
    repeat' split at accepted
    all_goals first
      | contradiction
      | rw [← Except.ok.inj accepted]
  · contradiction

/-! ## The clock change of autumn -/

/-- Two hours ahead of UTC up to the clock change of autumn, one hour after; the
local times from 02:00 to 03:00 are the first ones. -/
def autumn : LocalZone where
  utcOffset instant := if instant < 1792890000 * second then 2 * hour else hour
  localOffset local_ := if local_ < 1792890000 * second + 2 * hour then 2 * hour else hour

/-- Every half hour from 02:00 to 02:59. -/
def halfHours : CronTrigger where
  timezone := some autumn
  minutes := .checked [0, 30] (Eq.refl true)
  hours := .checked [2] (Eq.refl true)
  days := .checked (range 1 31 1) (Eq.refl true)
  months := .checked (range 1 12 1) (Eq.refl true)
  weekdays := .checked (range 0 6 1) (Eq.refl true)
  fireCount := 0
  lastExecutedAt := none

theorem ofExpression_halfHours :
    ofExpression "0,30 2 * * *".toList (some autumn) = .ok halfHours := rfl

/-- 02:00 and 02:30, and 02:00 again an hour after the first. -/
def repeatedHour : List Int :=
  [1792886400 * second, 1792888200 * second, 1792890000 * second]

theorem halfHours_runs_twice : ¬ halfHours.RunsOnce ⟨fun _ => 0⟩ repeatedHour := by
  intro runs
  exact absurd runs.never_twice (by decide)

/-- Two ticks of one minute are one occurrence. -/
theorem halfHours_runs_once :
    halfHours.RunsOnce ⟨fun _ => 0⟩ [1792886400 * second, 1792886402 * second] := by
  have zoned : halfHours.timezone = some autumn := rfl
  exact (runsOnce_iff rfl).mpr (grouped_of_forward zoned (by decide))

end OhanaAgent.Scheduler.CronTrigger
