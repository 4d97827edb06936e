import OhanaAgent.Observation.MonitoringSchedule

/-!
# Announced activations

A suspended node announces when its monitoring resumes.  The announcement counts
the startup grace from the start of the run in progress, or from the next start,
without looking at the end of that run nor at the runs that overlap it.  It comes
true exactly when the runs around it let that grace run its course.
-/

namespace OhanaAgent.Observation

open Time

namespace Schedule

variable {schedule : Schedule} {now localNow start : Int}

/-! ## Decisions -/

theorem decision_of_started (found : schedule.activePeriodStart (schedule.timezone.wall now) =
    some start) : schedule.decision now =
      if schedule.timezone.wall now < start + schedule.grace then
        ⟨false, some "Délai de démarrage de la surveillance.", some (start + schedule.grace),
          some (start + schedule.grace)⟩
      else ⟨true, none, none, none⟩ := by
  simp only [decision, found]

theorem decision_of_idle (idle : schedule.activePeriodStart (schedule.timezone.wall now) = none) :
    schedule.decision now =
      ⟨false, some "Surveillance suspendue en dehors de la plage horaire.",
        schedule.nextActivation (schedule.timezone.wall now), none⟩ := by
  simp only [decision, idle]

/-- A node is monitored once the grace of the run in progress is over. -/
def ActiveAt (schedule : Schedule) (localNow : Int) : Prop :=
  ∃ start, schedule.activePeriodStart localNow = some start ∧ start + schedule.grace ≤ localNow

theorem decision_active_iff :
    (schedule.decision now).active = true ↔ schedule.ActiveAt (schedule.timezone.wall now) := by
  unfold ActiveAt
  cases found : schedule.activePeriodStart (schedule.timezone.wall now) with
  | none =>
      rw [decision_of_idle found]
      simp
  | some start =>
      rw [decision_of_started found]
      by_cases early : schedule.timezone.wall now < start + schedule.grace
      · rw [if_pos early]
        simp [early]
      · rw [if_neg early]
        simp [Int.not_lt.mp early]

/-- What a decision announces at an instant comes true. -/
structure Announces (schedule : Schedule) (now : Int) : Prop where
  suspended_before : ∀ activation, (schedule.decision now).active = false →
    (schedule.decision now).nextActivation = some activation → ∀ later, now ≤ later →
      schedule.timezone.wall later < activation → (schedule.decision later).active = false
  active_at : ∀ activation, (schedule.decision now).active = false →
    (schedule.decision now).nextActivation = some activation → ∀ later,
      schedule.timezone.wall later = activation → (schedule.decision later).active = true
  suspended_ever : (schedule.decision now).active = false →
    (schedule.decision now).nextActivation = none → ∀ later, now ≤ later →
      (schedule.decision later).active = false

end Schedule

/-! ## Runs in order -/

/-- A run of a period, on a date that the period names. -/
structure Run (schedule : Schedule) where
  date : Int
  index : Nat
  period : Period
  listed : schedule.periods[index]? = some period
  planned : weekday date ∈ period.days

namespace Run

variable {schedule : Schedule} {run other : Run schedule} {localNow : Int}

def start (run : Run schedule) : Int :=
  run.date * day + run.period.start

def end_ (run : Run schedule) : Int :=
  run.period.endOn run.date

def InProgress (run : Run schedule) (localNow : Int) : Prop :=
  run.start ≤ localNow ∧ localNow < run.end_

/-- The order in which runs are looked at: by date, and by the list of the periods. -/
def Precedes (run other : Run schedule) : Prop :=
  run.date < other.date ∨ run.date = other.date ∧ run.index < other.index

/-- The first run in progress. -/
def Leads (run : Run schedule) (localNow : Int) : Prop :=
  run.InProgress localNow ∧ ∀ other : Run schedule, other.Precedes run → ¬ other.InProgress localNow

theorem runsOn (run : Run schedule) : RunsOn schedule run.date run.start run.end_ :=
  ⟨run.period, List.mem_of_getElem? run.listed, run.planned, rfl, rfl⟩

theorem exists_of_runsOn {date start end_ : Int} (runs : RunsOn schedule date start end_) :
    ∃ run : Run schedule, run.date = date ∧ run.start = start ∧ run.end_ = end_ := by
  rcases runs with ⟨period, member, planned, rfl, rfl⟩
  obtain ⟨index, listed⟩ := List.mem_iff_getElem?.mp member
  exact ⟨⟨date, index, period, listed, planned⟩, rfl, rfl, rfl⟩

/-- Of two runs one precedes the other, or they are one run. -/
theorem precedes_or (run other : Run schedule) :
    run.Precedes other ∨ other.Precedes run ∨ run.start = other.start := by
  unfold Precedes
  by_cases same : run.date = other.date ∧ run.index = other.index
  · have periods : run.period = other.period := by
      have listed := run.listed
      rw [same.2, other.listed, Option.some.injEq] at listed
      exact listed.symm
    exact Or.inr (Or.inr (by rw [start, start, same.1, periods]))
  · omega

theorem Leads.start_eq (leads : run.Leads localNow) (also : other.Leads localNow) :
    run.start = other.start := by
  rcases precedes_or run other with before | after | same
  · exact absurd leads.1 (also.2 run before)
  · exact absurd also.1 (leads.2 other after)
  · exact same

theorem startOf_of_inProgress (progress : run.InProgress localNow) {dayOffset : Int}
    (date : localNow / day + dayOffset = run.date) :
    run.period.startOf localNow dayOffset = some run.start := by
  refine startOf_eq_some_iff.mpr ⟨run.end_, bounds_eq_some_iff.mpr ?_, progress⟩
  rw [date]
  exact ⟨run.planned, rfl, rfl⟩

/-- The run that is found leads. -/
theorem exists_leads {start : Int} (found : schedule.activePeriodStart localNow = some start) :
    ∃ run : Run schedule, run.Leads localNow ∧ run.start = start := by
  obtain ⟨offsets, dayOffset, _, order, found, nothing⟩ := List.findSome?_eq_some_iff.mp found
  obtain ⟨before, period, after, split, started, skipped⟩ := List.findSome?_eq_some_iff.mp found
  obtain ⟨end_, bounds, progress⟩ := startOf_eq_some_iff.mp started
  obtain ⟨planned, rfl, rfl⟩ := bounds_eq_some_iff.mp bounds
  refine ⟨⟨localNow / day + dayOffset, before.length, period, by simp [split], planned⟩,
    ⟨progress, ?_⟩, rfl⟩
  rintro other (earlier | ⟨same, less⟩) otherProgress
  · -- Only the runs of yesterday come before those of today.
    have recent := other.runsOn.recent otherProgress.1 otherProgress.2
    have yesterday : localNow / day + -1 = other.date ∧ -1 ∈ offsets := by
      rcases offsets with _ | ⟨first, _ | ⟨second, others⟩⟩
      all_goals simp at order
      · change other.date < localNow / day + dayOffset at earlier
        omega
      · obtain ⟨rfl, rfl, _⟩ := order
        change other.date < localNow / day + 0 at earlier
        exact ⟨by omega, List.mem_singleton.mpr rfl⟩
    have missed := List.findSome?_eq_none_iff.mp (nothing (-1) yesterday.2) other.period
      (List.mem_of_getElem? other.listed)
    rw [startOf_of_inProgress otherProgress yesterday.1] at missed
    contradiction
  · have listed := other.listed
    rw [split, List.getElem?_append_left less] at listed
    have missed := skipped other.period (List.mem_of_getElem? listed)
    rw [startOf_of_inProgress otherProgress same.symm] at missed
    contradiction

theorem exists_leads_of_inProgress (progress : run.InProgress localNow) :
    ∃ first : Run schedule, first.Leads localNow := by
  obtain ⟨start, found⟩ := exists_activePeriodStart run.runsOn progress.1 progress.2
  obtain ⟨first, leads, _⟩ := exists_leads found
  exact ⟨first, leads⟩

theorem activePeriodStart_of_leads (leads : run.Leads localNow) :
    schedule.activePeriodStart localNow = some run.start := by
  obtain ⟨start, found⟩ := exists_activePeriodStart run.runsOn leads.1.1 leads.1.2
  obtain ⟨first, firstLeads, rfl⟩ := exists_leads found
  rw [found, firstLeads.start_eq leads]

theorem activePeriodStart_eq_none_iff : schedule.activePeriodStart localNow = none ↔
    ∀ run : Run schedule, ¬ run.InProgress localNow := by
  constructor
  · intro idle run progress
    obtain ⟨first, leads⟩ := exists_leads_of_inProgress progress
    rw [activePeriodStart_of_leads leads] at idle
    contradiction
  · intro idle
    cases found : schedule.activePeriodStart localNow with
    | none => rfl
    | some start =>
        obtain ⟨run, leads, _⟩ := exists_leads found
        exact absurd leads.1 (idle run)

/-- While the clock goes from one local time to another, the run stands behind one
that precedes it whenever its own grace is over. -/
def Hidden (run : Run schedule) (from_ until_ : Int) : Prop :=
  ∀ later, from_ ≤ later → later < until_ → run.InProgress later →
    run.start + schedule.grace ≤ later → ∃ other : Run schedule, other.Precedes run ∧
      other.InProgress later

end Run

namespace Schedule

variable {schedule : Schedule} {now localNow activation start : Int} {run : Run schedule}

theorem activeAt_iff : schedule.ActiveAt localNow ↔
    ∃ run : Run schedule, run.Leads localNow ∧ run.start + schedule.grace ≤ localNow := by
  constructor
  · rintro ⟨start, found, graceOver⟩
    obtain ⟨run, leads, rfl⟩ := Run.exists_leads found
    exact ⟨run, leads, graceOver⟩
  · rintro ⟨run, leads, graceOver⟩
    exact ⟨run.start, Run.activePeriodStart_of_leads leads, graceOver⟩

/-- A run that began by a local time goes on past the grace that is counted from
there, and no run that began later precedes it then. -/
def Outlasts (schedule : Schedule) (start : Int) : Prop :=
  ∃ run : Run schedule, run.start ≤ start ∧ run.InProgress (start + schedule.grace) ∧
    ∀ other : Run schedule, other.Precedes run → other.InProgress (start + schedule.grace) →
      other.start ≤ start

theorem activeAt_iff_outlasts :
    schedule.ActiveAt (start + schedule.grace) ↔ schedule.Outlasts start := by
  rw [activeAt_iff]
  constructor
  · rintro ⟨run, leads, graceOver⟩
    refine ⟨run, by omega, leads.1, ?_⟩
    intro other precedes progress
    exact absurd progress (leads.2 other precedes)
  · rintro ⟨run, begun, progress, others⟩
    obtain ⟨first, leads⟩ := Run.exists_leads_of_inProgress progress
    have firstBegun : first.start ≤ start := by
      rcases Run.precedes_or first run with before | after | same
      · exact others first before leads.1
      · exact absurd progress (leads.2 run after)
      · omega
    exact ⟨first, leads, by omega⟩

/-! ## Announcements in local time -/

/-- What is announced at a local time comes true, said of local times. -/
def Keeps (schedule : Schedule) (localNow activation : Int) : Prop :=
  (∀ later, localNow ≤ later → later < activation → ¬ schedule.ActiveAt later) ∧
    schedule.ActiveAt activation

/-- What is announced in the grace of a run comes true when the node is not monitored
by an earlier run in the meantime, and is monitored at the end of the grace. -/
theorem keeps_in_grace_iff (run : Run schedule) :
    schedule.Keeps localNow (run.start + schedule.grace) ↔ schedule.Outlasts run.start ∧
      ∀ other : Run schedule, other.start < run.start →
        other.Hidden localNow (run.start + schedule.grace) := by
  rw [Keeps, activeAt_iff_outlasts, and_comm]
  apply and_congr_right
  intro _
  constructor
  · intro quiet other _ later after before progress graceOver
    by_contra alone
    refine quiet later after before (activeAt_iff.mpr ⟨other, ⟨progress, ?_⟩, graceOver⟩)
    intro first precedes firstProgress
    exact alone ⟨first, precedes, firstProgress⟩
  · intro hidden later after before active
    obtain ⟨other, leads, graceOver⟩ := activeAt_iff.mp active
    obtain ⟨first, precedes, progress⟩ :=
      hidden other (by omega) later after before leads.1 graceOver
    exact leads.2 first precedes progress

theorem exists_nextActivation (schedule : Schedule) (localNow : Int) :
    ∃ activation, schedule.nextActivation localNow = some activation := by
  cases announced : schedule.nextActivation localNow with
  | none => exact absurd (List.min?_eq_none_iff.mp announced) (candidates_ne_nil schedule localNow)
  | some activation => exact ⟨activation, rfl⟩

theorem exists_announced (suspended : (schedule.decision now).active = false) :
    ∃ activation, (schedule.decision now).nextActivation = some activation := by
  cases found : schedule.activePeriodStart (schedule.timezone.wall now) with
  | none =>
      rw [decision_of_idle found]
      exact exists_nextActivation schedule (schedule.timezone.wall now)
  | some start =>
      rw [decision_of_started found] at suspended ⊢
      by_cases early : schedule.timezone.wall now < start + schedule.grace
      · rw [if_pos early]
        exact ⟨start + schedule.grace, rfl⟩
      · rw [if_neg early] at suspended
        contradiction

/-- Outside the runs no run of the day is in its grace. -/
def Settled (schedule : Schedule) (localNow : Int) : Prop :=
  ∀ run : Run schedule, run.date = localNow / day → run.start ≤ localNow →
    run.start + schedule.grace ≤ localNow

/-- The runs that begin first after a local time. -/
def Upcoming (schedule : Schedule) (localNow : Int) (run : Run schedule) : Prop :=
  localNow < run.start ∧ ∀ other : Run schedule, localNow < other.start → run.start ≤ other.start

/-- The runs that begin in the days of the search are candidates. -/
theorem mem_candidates_of_run (run : Run schedule) (low : localNow / day ≤ run.date)
    (high : run.date ≤ localNow / day + 7) (later : localNow < run.start + schedule.grace) :
    run.start + schedule.grace ∈ schedule.candidates localNow :=
  mem_candidates_iff.mpr ⟨_, _, _, run.runsOn, low, high, rfl, later⟩

/-- When no run of the day is in its grace, the grace of an upcoming run is announced. -/
theorem exists_upcoming (settled : schedule.Settled localNow)
    (announced : schedule.nextActivation localNow = some activation) :
    ∃ run : Run schedule, schedule.Upcoming localNow run ∧
      activation = run.start + schedule.grace := by
  have graceNonneg := grace_nonneg schedule
  obtain ⟨listed, least⟩ := nextActivation_eq_some_iff.mp announced
  obtain ⟨date, start, end_, runs, low, high, rfl, future⟩ := mem_candidates_iff.mp listed
  obtain ⟨run, rfl, rfl, _⟩ := Run.exists_of_runsOn runs
  have upcoming : localNow < run.start := by
    by_contra begun
    have startDate := run.runsOn.date_eq
    have today : run.date = localNow / day := by
      rw [day_eq] at *
      omega
    have graceOver := settled run today (by omega)
    omega
  refine ⟨run, ⟨upcoming, ?_⟩, rfl⟩
  intro other after
  by_contra less
  have startDate := run.runsOn.date_eq
  have otherDate := other.runsOn.date_eq
  have bound := least _ (mem_candidates_of_run other
    (by rw [day_eq] at *; omega) (by rw [day_eq] at *; omega) (by omega))
  omega

/-- What is announced outside the runs comes true when no grace of the day is cut
short, and the next one is not either. -/
theorem keeps_outside_iff (idle : ∀ run : Run schedule, ¬ run.InProgress localNow)
    (announced : schedule.nextActivation localNow = some activation) :
    schedule.Keeps localNow activation ↔ schedule.Settled localNow ∧
      ∀ run, schedule.Upcoming localNow run → schedule.Outlasts run.start := by
  have graceNonneg := grace_nonneg schedule
  -- A run in progress later has begun in between.
  have begins : ∀ later, localNow ≤ later → ∀ run : Run schedule, run.InProgress later →
      localNow < run.start := by
    intro later after run progress
    by_contra begun
    exact idle run ⟨Int.not_lt.mp begun, Int.lt_of_le_of_lt after progress.2⟩
  constructor
  · rintro ⟨quiet, active⟩
    obtain ⟨listed, least⟩ := nextActivation_eq_some_iff.mp announced
    obtain ⟨_, _, _, _, _, _, _, future⟩ := mem_candidates_iff.mp listed
    obtain ⟨first, leads, graceOver⟩ := activeAt_iff.mp active
    have firstBegins := begins activation (by omega) first leads.1
    have settled : schedule.Settled localNow := by
      intro run today begun
      by_contra early
      have bound := least _ (mem_candidates_of_run run (by omega) (by omega) (by omega))
      omega
    refine ⟨settled, ?_⟩
    intro run upcoming
    obtain ⟨other, otherUpcoming, rfl⟩ := exists_upcoming settled announced
    have same : run.start = other.start :=
      Int.le_antisymm (upcoming.2 other otherUpcoming.1) (otherUpcoming.2 run upcoming.1)
    rw [same]
    exact activeAt_iff_outlasts.mp active
  · rintro ⟨settled, outlasts⟩
    obtain ⟨run, upcoming, rfl⟩ := exists_upcoming settled announced
    constructor
    · intro later after before active
      obtain ⟨other, leads, graceOver⟩ := activeAt_iff.mp active
      have bound := upcoming.2 other (begins later after other leads.1)
      omega
    · exact activeAt_iff_outlasts.mpr (outlasts run upcoming)

/-- The announcement of a local time comes true, said of the runs of the schedule.

In a grace: a run that began no later than the first one in progress goes on past
that grace, and until then every earlier run whose grace is over stands behind
another one.  Outside the runs: no run of the day ended in its grace, and the next
one goes on past its own. -/
structure Truthful (schedule : Schedule) (localNow : Int) : Prop where
  in_grace : ∀ run : Run schedule, run.Leads localNow → localNow < run.start + schedule.grace →
    schedule.Outlasts run.start ∧ ∀ other : Run schedule, other.start < run.start →
      other.Hidden localNow (run.start + schedule.grace)
  outside : (∀ run : Run schedule, ¬ run.InProgress localNow) → schedule.Settled localNow ∧
    ∀ run, schedule.Upcoming localNow run → schedule.Outlasts run.start

/-! ## A zone without clock change -/

section Fixed

variable {offset : Int} (fixed : ∀ instant, schedule.timezone.utcOffset instant = offset)

include fixed

theorem wall_eq (instant : Int) : schedule.timezone.wall instant = instant + offset := by
  rw [Zone.wall, fixed]

theorem wall_sub (localNow : Int) : schedule.timezone.wall (localNow - offset) = localNow := by
  rw [wall_eq fixed, Int.sub_add_cancel]

/-- Instants are announced as local times are, and some activation always is. -/
theorem announces_iff_keeps : schedule.Announces now ↔
    ∀ activation, (schedule.decision now).active = false →
      (schedule.decision now).nextActivation = some activation →
        schedule.Keeps (schedule.timezone.wall now) activation := by
  constructor
  · intro announces activation suspended announced
    constructor
    · intro later after before
      rw [wall_eq fixed] at after
      have quiet := announces.suspended_before activation suspended announced (later - offset)
        (by omega) (by rw [wall_sub fixed]; exact before)
      rwa [← Bool.not_eq_true, decision_active_iff, wall_sub fixed] at quiet
    · have active := announces.active_at activation suspended announced (activation - offset)
        (wall_sub fixed activation)
      rwa [decision_active_iff, wall_sub fixed] at active
  · intro kept
    constructor
    · intro activation suspended announced later after before
      have quiet := (kept activation suspended announced).1 (schedule.timezone.wall later)
        (by rw [wall_eq fixed, wall_eq fixed]; omega) before
      rwa [← decision_active_iff, Bool.not_eq_true] at quiet
    · rintro activation suspended announced later rfl
      exact decision_active_iff.mpr (kept _ suspended announced).2
    · intro suspended unannounced
      obtain ⟨activation, announced⟩ := exists_announced suspended
      rw [unannounced] at announced
      contradiction

/-- The announcement made at an instant comes true exactly when the runs of the
schedule let it. -/
theorem announces_iff (now : Int) :
    schedule.Announces now ↔ schedule.Truthful (schedule.timezone.wall now) := by
  rw [announces_iff_keeps fixed]
  cases found : schedule.activePeriodStart (schedule.timezone.wall now) with
  | none =>
      have idle := Run.activePeriodStart_eq_none_iff.mp found
      obtain ⟨activation, announced⟩ := exists_nextActivation schedule (schedule.timezone.wall now)
      rw [decision_of_idle found]
      constructor
      · intro kept
        constructor
        · intro run leads _
          exact absurd leads.1 (idle run)
        · intro _
          exact (keeps_outside_iff idle announced).mp (kept activation rfl announced)
      · intro truthful other _ otherAnnounced
        exact (keeps_outside_iff idle otherAnnounced).mpr (truthful.outside idle)
  | some start =>
      obtain ⟨run, leads, rfl⟩ := Run.exists_leads found
      rw [decision_of_started found]
      by_cases early : schedule.timezone.wall now < run.start + schedule.grace
      · rw [if_pos early]
        constructor
        · intro kept
          constructor
          · intro first firstLeads _
            rw [firstLeads.start_eq leads]
            exact (keeps_in_grace_iff run).mp (kept _ rfl rfl)
          · intro idle
            exact absurd leads.1 (idle run)
        · intro truthful activation _ announced
          cases announced
          exact (keeps_in_grace_iff run).mpr (truthful.in_grace run leads early)
      · -- The node is monitored, and nothing is announced.
        rw [if_neg early]
        constructor
        · intro _
          constructor
          · intro first firstLeads firstEarly
            rw [firstLeads.start_eq leads] at firstEarly
            exact absurd firstEarly early
          · intro idle
            exact absurd leads.1 (idle run)
        · intro _ activation suspended
          exact absurd suspended (by simp)

end Fixed

/-- Runs that last longer than the grace, no two of which overlap unless they
start together. -/
def Apart (schedule : Schedule) : Prop :=
  ∀ run : Run schedule, run.start + schedule.grace < run.end_ ∧
    ∀ other : Run schedule, run.start < other.end_ → other.start < run.end_ →
      run.start = other.start

/-- Such a run goes on past its own grace. -/
theorem Apart.outlasts (apart : schedule.Apart) (run : Run schedule) :
    schedule.Outlasts run.start := by
  have graceNonneg := grace_nonneg schedule
  obtain ⟨long, alone⟩ := apart run
  refine ⟨run, Int.le_refl run.start, ⟨by omega, long⟩, ?_⟩
  intro other _ progress
  unfold Run.InProgress at progress
  exact Int.le_of_eq (alone other (by omega) (by omega)).symm

/-- The announcements of such a schedule come true. -/
theorem Apart.truthful (apart : schedule.Apart) (localNow : Int) : schedule.Truthful localNow := by
  constructor
  · intro run leads _
    refine ⟨apart.outlasts run, ?_⟩
    intro other before later after _ progress _
    have leading := leads.1
    unfold Run.InProgress at leading progress
    have same := (apart run).2 other (by omega) (by omega)
    omega
  · intro idle
    constructor
    · intro run _ begun
      by_contra early
      have long := (apart run).1
      exact idle run ⟨begun, by omega⟩
    · intro run _
      exact apart.outlasts run

end Schedule

/-! ## A usual schedule and a hasty one -/

/-- One period, every day. -/
def everyDay (start end_ : Int) (startClock : ClockTime start) (endClock : ClockTime end_) :
    Period where
  days := [0, 1, 2, 3, 4, 5, 6]
  start := start
  end_ := end_
  days_ne := by simp
  days_range := by decide
  start_clock := startClock
  end_clock := endClock

/-- From 07:00 to 22:00, with five minutes of grace. -/
def daytime : Schedule where
  timezone := ⟨fun _ => 0⟩
  periods := [everyDay (7 * hour) (22 * hour) (by decide) (by decide)]
  startupGraceSeconds := 300
  periods_ne := by simp
  grace_le := by decide

theorem daytime_apart : daytime.Apart := by
  have bounds (run : Run daytime) :
      run.start = run.date * day + 7 * hour ∧ run.end_ = run.date * day + 22 * hour := by
    have only := List.mem_singleton.mp (List.mem_of_getElem? run.listed)
    rw [Run.start, Run.end_, only]
    constructor
    · rfl
    · exact Int.add_zero _
  have grace : daytime.grace = 5 * minute := rfl
  intro run
  obtain ⟨start, end_⟩ := bounds run
  constructor
  · rw [grace, start, end_]
    unfold hour
    simp only [minute, second]
    omega
  · intro other before after
    obtain ⟨otherStart, otherEnd⟩ := bounds other
    have same : run.date = other.date := by
      rw [start, otherEnd] at before
      rw [otherStart, end_] at after
      unfold hour minute second at before after
      rw [day_eq] at before after
      omega
    rw [start, otherStart, same]

/-- In the middle of the grace, at 07:02. -/
theorem daytime_announces : daytime.Announces (7 * hour + 2 * minute) :=
  (Schedule.announces_iff (fun _ => (rfl : _ = (0 : Int))) (7 * hour + 2 * minute)).mpr
    (daytime_apart.truthful _)

/-- From 08:00 to 08:10, with half an hour of grace. -/
def hasty : Schedule where
  timezone := ⟨fun _ => 0⟩
  periods := [everyDay (8 * hour) (8 * hour + 10 * minute) (by decide) (by decide)]
  startupGraceSeconds := 1800
  periods_ne := by simp
  grace_le := by decide

/-- At 08:05 the activation is announced for 08:30, when no period runs. -/
theorem hasty_not_announces : ¬ hasty.Announces (8 * hour + 5 * minute) := by
  intro announces
  have active := announces.active_at (8 * hour + 30 * minute) (by decide) (by decide)
    (8 * hour + 30 * minute) (by decide)
  exact absurd active (by decide)

end OhanaAgent.Observation
