import OhanaAgent.Time.Zone

/-!
# Monitoring periods

A device may declare the periods in which it is monitored.  A period names week
days and two times of day, and ends on the next day when its end is not after
its start.  The program reads local times only: it combines dates and times
without looking at the offsets of the zone.
-/

namespace OhanaAgent.Observation

open Time

/-- A time `HH:MM`, as the time since midnight. -/
def ClockTime (time : Int) : Prop :=
  0 ≤ time ∧ time < day ∧ time % minute = 0

instance (time : Int) : Decidable (ClockTime time) :=
  inferInstanceAs (Decidable (_ ∧ _))

/-- `_Period` with times `HH:MM`, as the messages of the parser ask for; a time that
carries a UTC offset, which the parser keeps, is not modelled. -/
structure Period where
  days : List Int
  start : Int
  end_ : Int
  days_ne : days ≠ []
  days_range : ∀ day ∈ days, 0 ≤ day ∧ day < 7
  start_clock : ClockTime start
  end_clock : ClockTime end_

/-- `_Schedule`, with what the parser checks. -/
structure Schedule where
  timezone : Zone
  periods : List Period
  startupGraceSeconds : Nat
  periods_ne : periods ≠ []
  grace_le : startupGraceSeconds ≤ 86400

structure MonitoringDecision where
  active : Bool
  reason : Option String
  nextActivation : Option Int
  graceUntil : Option Int
deriving DecidableEq

namespace Period

/-- The end of the run of a period that starts on a date. -/
def endOn (period : Period) (date : Int) : Int :=
  date * day + period.end_ + if period.end_ ≤ period.start then day else 0

/-- `_period_bounds` on the date so many days after a local time. -/
def bounds (period : Period) (localNow dayOffset : Int) : Option (Int × Int) :=
  let date := localNow / day + dayOffset
  if weekday date ∈ period.days then some (date * day + period.start, period.endOn date) else none

/-- The start of the run of a period that contains a local time. -/
def startOf (localNow dayOffset : Int) (period : Period) : Option Int :=
  match period.bounds localNow dayOffset with
  | none => none
  | some (start, end_) => if start ≤ localNow ∧ localNow < end_ then some start else none

end Period

namespace Schedule

/-- `timedelta(seconds=schedule.startup_grace_seconds)`. -/
def grace (schedule : Schedule) : Int :=
  seconds schedule.startupGraceSeconds

/-- `_active_period_start`: the first run in progress, those of yesterday before
those of today. -/
def activePeriodStart (schedule : Schedule) (localNow : Int) : Option Int :=
  [-1, 0].findSome? fun dayOffset => schedule.periods.findSome? (Period.startOf localNow dayOffset)

/-- The end of the startup grace of a run, when it is still to come. -/
def candidate (schedule : Schedule) (localNow dayOffset : Int) (period : Period) : Option Int :=
  match period.bounds localNow dayOffset with
  | none => none
  | some (start, _) => if start + schedule.grace > localNow then some (start + schedule.grace) else none

def candidates (schedule : Schedule) (localNow : Int) : List Int :=
  (List.range 8).flatMap fun dayOffset : Nat =>
    schedule.periods.filterMap (schedule.candidate localNow dayOffset)

/-- `_next_activation`. -/
def nextActivation (schedule : Schedule) (localNow : Int) : Option Int :=
  (schedule.candidates localNow).min?

/-- `decision`, for the schedule of a node. -/
def decision (schedule : Schedule) (now : Int) : MonitoringDecision :=
  let localNow := schedule.timezone.wall now
  match schedule.activePeriodStart localNow with
  | some activeStart =>
      let graceUntil := activeStart + schedule.grace
      if localNow < graceUntil then
        ⟨false, some "Délai de démarrage de la surveillance.", some graceUntil, some graceUntil⟩
      else ⟨true, none, none, none⟩
  | none =>
      ⟨false, some "Surveillance suspendue en dehors de la plage horaire.",
        schedule.nextActivation localNow, none⟩

end Schedule

/-! ## Runs of periods -/

/-- A period of the schedule runs from one local time to another, from a date
on. -/
def RunsOn (schedule : Schedule) (date start end_ : Int) : Prop :=
  ∃ period ∈ schedule.periods, weekday date ∈ period.days ∧
    start = date * day + period.start ∧ end_ = period.endOn date

section Runs

variable {schedule : Schedule} {period : Period} {localNow dayOffset date start end_ : Int}

theorem day_eq : day = 86400000000 := rfl

theorem grace_nonneg (schedule : Schedule) : 0 ≤ schedule.grace := by
  unfold Schedule.grace seconds second
  omega

namespace RunsOn

theorem date_eq (runs : RunsOn schedule date start end_) : start / day = date := by
  rcases runs with ⟨period, _, _, rfl, _⟩
  have clock := period.start_clock
  unfold ClockTime at clock
  rw [day_eq] at *
  omega

/-- A run lasts at most to the end of the next day. -/
theorem lasts (runs : RunsOn schedule date start end_) :
    start < end_ ∧ end_ < (date + 2) * day := by
  rcases runs with ⟨period, _, _, rfl, rfl⟩
  have startClock := period.start_clock
  have endClock := period.end_clock
  unfold ClockTime at startClock endClock
  unfold Period.endOn
  rw [day_eq] at *
  split <;> omega

/-- A run in progress began yesterday or today. -/
theorem recent (runs : RunsOn schedule date start end_) (begun : start ≤ localNow)
    (lasts : localNow < end_) : localNow / day + -1 = date ∨ localNow / day + 0 = date := by
  have startDate := runs.date_eq
  have range := runs.lasts
  rw [day_eq] at *
  omega

end RunsOn

theorem bounds_eq_some_iff : period.bounds localNow dayOffset = some (start, end_) ↔
    weekday (localNow / day + dayOffset) ∈ period.days ∧
      start = (localNow / day + dayOffset) * day + period.start ∧
      end_ = period.endOn (localNow / day + dayOffset) := by
  unfold Period.bounds
  simp only
  split
  · rename_i member
    simp only [Option.some.injEq, Prod.mk.injEq, member, true_and]
    constructor
    · rintro ⟨rfl, rfl⟩
      exact ⟨rfl, rfl⟩
    · rintro ⟨rfl, rfl⟩
      exact ⟨rfl, rfl⟩
  · rename_i absent
    simp [absent]

theorem startOf_eq_some_iff : period.startOf localNow dayOffset = some start ↔
    ∃ end_, period.bounds localNow dayOffset = some (start, end_) ∧
      start ≤ localNow ∧ localNow < end_ := by
  unfold Period.startOf
  cases bounds : period.bounds localNow dayOffset with
  | none => simp
  | some found =>
      rcases found with ⟨first, last⟩
      simp only [Option.some.injEq, Prod.mk.injEq]
      constructor
      · intro inside
        split at inside
        · rename_i within
          rw [Option.some.injEq] at inside
          exact ⟨last, ⟨inside, rfl⟩, inside ▸ within⟩
        · contradiction
      · rintro ⟨_, ⟨rfl, rfl⟩, within⟩
        rw [if_pos within]

theorem candidate_eq_some_iff {found : Int} :
    schedule.candidate localNow dayOffset period = some found ↔
      ∃ start end_, period.bounds localNow dayOffset = some (start, end_) ∧
        found = start + schedule.grace ∧ localNow < found := by
  unfold Schedule.candidate
  cases bounds : period.bounds localNow dayOffset with
  | none => simp
  | some run =>
      rcases run with ⟨first, last⟩
      simp only [Option.some.injEq, Prod.mk.injEq]
      constructor
      · intro later
        split at later
        · rename_i future
          rw [Option.some.injEq] at later
          exact ⟨first, last, ⟨rfl, rfl⟩, later.symm, later ▸ future⟩
        · contradiction
      · rintro ⟨_, _, ⟨rfl, rfl⟩, rfl, future⟩
        rw [if_pos future]

/-! ## The run in progress -/

/-- A run in progress began yesterday or today, so that some run is found. -/
theorem exists_activePeriodStart (runs : RunsOn schedule date start end_)
    (begun : start ≤ localNow) (lasts : localNow < end_) :
    ∃ first, schedule.activePeriodStart localNow = some first := by
  have recent := runs.recent begun lasts
  rcases runs with ⟨period, member, weekdayMember, bounds⟩
  have running (dayOffset : Int) (same : localNow / day + dayOffset = date) :
      period.startOf localNow dayOffset = some start := by
    subst same
    exact startOf_eq_some_iff.mpr
      ⟨end_, bounds_eq_some_iff.mpr ⟨weekdayMember, bounds⟩, begun, lasts⟩
  rw [← Option.isSome_iff_exists, Schedule.activePeriodStart, List.findSome?_isSome_iff]
  rcases recent with yesterday | today
  · refine ⟨-1, by simp, ?_⟩
    rw [List.findSome?_isSome_iff]
    exact ⟨period, member, by rw [running _ yesterday]; rfl⟩
  · refine ⟨0, by simp, ?_⟩
    rw [List.findSome?_isSome_iff]
    exact ⟨period, member, by rw [running _ today]; rfl⟩

/-! ## The next activation -/

theorem mem_candidates_iff {found : Int} : found ∈ schedule.candidates localNow ↔
    ∃ date start end_, RunsOn schedule date start end_ ∧ localNow / day ≤ date ∧
      date ≤ localNow / day + 7 ∧ found = start + schedule.grace ∧ localNow < found := by
  unfold Schedule.candidates
  simp only [List.mem_flatMap, List.mem_range, List.mem_filterMap, candidate_eq_some_iff,
    bounds_eq_some_iff]
  constructor
  · rintro ⟨dayOffset, small, period, member, start, end_, bounds, later⟩
    exact ⟨_, start, end_, ⟨period, member, bounds⟩, by omega, by omega, later⟩
  · rintro ⟨date, start, end_, ⟨period, member, bounds⟩, low, high, later⟩
    have offset : localNow / day + ((date - localNow / day).toNat : Int) = date := by omega
    exact ⟨(date - localNow / day).toNat, by omega, period, member, start, end_,
      by rw [offset]; exact bounds, later⟩

theorem nextActivation_eq_some_iff {found : Int} : schedule.nextActivation localNow = some found ↔
    found ∈ schedule.candidates localNow ∧ ∀ other ∈ schedule.candidates localNow, found ≤ other :=
  List.min?_eq_some_iff

/-- Some period runs in the next seven days. -/
theorem candidates_ne_nil (schedule : Schedule) (localNow : Int) :
    schedule.candidates localNow ≠ [] := by
  obtain ⟨period, member⟩ := List.exists_mem_of_ne_nil _ schedule.periods_ne
  obtain ⟨dayNumber, listed⟩ := List.exists_mem_of_ne_nil _ period.days_ne
  have range := period.days_range dayNumber listed
  have clock := period.start_clock
  have grace := grace_nonneg schedule
  let date := localNow / day + 1 + (dayNumber - (localNow / day + 4)) % 7
  have named : weekday date = dayNumber := by
    simp only [weekday, date]
    omega
  have runs : RunsOn schedule date (date * day + period.start) (period.endOn date) :=
    ⟨period, member, by rw [named]; exact listed, rfl, rfl⟩
  have later : localNow < date * day + period.start + schedule.grace := by
    unfold ClockTime at clock
    simp only [day_eq, date] at *
    omega
  apply List.ne_nil_of_mem
  apply mem_candidates_iff.mpr
  exact ⟨date, _, _, runs, by omega, by omega, rfl, later⟩

end Runs

end OhanaAgent.Observation
