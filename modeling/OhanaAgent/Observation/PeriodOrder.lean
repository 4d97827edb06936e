import OhanaAgent.Observation.Activations

/-!
# The order of the periods

The run in progress that a decision looks at is the first one in the order in
which the user wrote the periods, and its start decides the startup grace.  The
order matters exactly when two runs of one day are in progress, began apart, and
one of them is still in its grace.
-/

namespace OhanaAgent.Observation

open Time

/-- Decisions that agree on all but the reason. -/
def SameOutcome (first second : MonitoringDecision) : Prop :=
  first.active = second.active ∧ first.nextActivation = second.nextActivation ∧
    first.graceUntil = second.graceUntil

namespace Schedule

variable {schedule : Schedule} {periods : List Period} {now localNow dayOffset start : Int}

/-- The schedule with its periods in another order. -/
def reorder (schedule : Schedule) (periods : List Period) (perm : periods.Perm schedule.periods) :
    Schedule :=
  { schedule with
    periods := periods
    periods_ne := fun empty => schedule.periods_ne (List.Perm.nil_eq (empty ▸ perm)).symm }

/-- The starts of the runs in progress that began so many days from today, in
the order of the periods. -/
def inProgress (schedule : Schedule) (localNow dayOffset : Int) : List Int :=
  schedule.periods.filterMap (Period.startOf localNow dayOffset)

/-- The runs among which the order decides: those of yesterday, if there are
any, else those of today. -/
def contenders (schedule : Schedule) (localNow : Int) : List Int :=
  if schedule.inProgress localNow (-1) = [] then schedule.inProgress localNow 0
  else schedule.inProgress localNow (-1)

/-- All runs among which the order decides began together, or are all past their
grace. -/
def OrderFree (schedule : Schedule) (localNow : Int) : Prop :=
  ∀ first ∈ schedule.contenders localNow, ∀ second ∈ schedule.contenders localNow,
    first = second ∨
      first + schedule.grace ≤ localNow ∧ second + schedule.grace ≤ localNow

theorem activePeriodStart_eq_head? (schedule : Schedule) (localNow : Int) :
    schedule.activePeriodStart localNow = (schedule.contenders localNow).head? := by
  have firstOf (dayOffset : Int) : schedule.periods.findSome? (Period.startOf localNow dayOffset) =
      (schedule.inProgress localNow dayOffset).head? :=
    List.head?_filterMap.symm
  rw [activePeriodStart, List.findSome?_cons, List.findSome?_cons, List.findSome?_nil, firstOf,
    firstOf, contenders]
  cases schedule.inProgress localNow (-1) with
  | nil =>
      cases schedule.inProgress localNow 0 with
      | nil => rfl
      | cons first rest => rfl
  | cons first rest => rfl

/-! ## What the order leaves unchanged -/

section Reorder

variable (perm : periods.Perm schedule.periods)

theorem wall_reorder (now : Int) :
    (schedule.reorder periods perm).timezone.wall now = schedule.timezone.wall now := rfl

theorem grace_reorder : (schedule.reorder periods perm).grace = schedule.grace := rfl

theorem inProgress_reorder (localNow dayOffset : Int) :
    ((schedule.reorder periods perm).inProgress localNow dayOffset).Perm
      (schedule.inProgress localNow dayOffset) :=
  perm.filterMap _

theorem contenders_reorder (localNow : Int) :
    ((schedule.reorder periods perm).contenders localNow).Perm (schedule.contenders localNow) := by
  have yesterday := inProgress_reorder perm localNow (-1)
  have today := inProgress_reorder perm localNow 0
  unfold contenders
  by_cases none : schedule.inProgress localNow (-1) = []
  · rw [none] at yesterday
    rw [if_pos none, if_pos yesterday.eq_nil]
    exact today
  · rw [if_neg none, if_neg fun empty => none (empty ▸ yesterday).symm.eq_nil]
    exact yesterday

theorem runsOn_reorder_iff {date end_ : Int} :
    RunsOn (schedule.reorder periods perm) date start end_ ↔ RunsOn schedule date start end_ := by
  unfold RunsOn
  simp only [reorder, perm.mem_iff]

theorem nextActivation_reorder (localNow : Int) :
    (schedule.reorder periods perm).nextActivation localNow = schedule.nextActivation localNow := by
  have candidates (found : Int) : found ∈ (schedule.reorder periods perm).candidates localNow ↔
      found ∈ schedule.candidates localNow := by
    simp only [mem_candidates_iff, runsOn_reorder_iff]
    rfl
  apply Option.ext
  intro found
  simp only [nextActivation_eq_some_iff, candidates]

end Reorder

/-- Any of the contenders comes first in some order. -/
theorem exists_reorder (member : start ∈ schedule.contenders localNow) :
    ∃ periods, ∃ perm : periods.Perm schedule.periods,
      (schedule.reorder periods perm).activePeriodStart localNow = some start := by
  have moved : ∀ dayOffset, start ∈ schedule.inProgress localNow dayOffset →
      ∃ periods, ∃ perm : periods.Perm schedule.periods,
        ((schedule.reorder periods perm).inProgress localNow dayOffset).head? = some start := by
    intro dayOffset inside
    obtain ⟨period, listed, started⟩ := List.mem_filterMap.mp inside
    obtain ⟨before, after, split⟩ := List.append_of_mem listed
    refine ⟨period :: (before ++ after), split ▸ List.perm_middle.symm, ?_⟩
    simp only [inProgress, reorder, List.filterMap_cons, started, List.head?_cons]
  by_cases none : schedule.inProgress localNow (-1) = []
  · unfold contenders at member
    rw [if_pos none] at member
    obtain ⟨periods, perm, head⟩ := moved 0 member
    refine ⟨periods, perm, ?_⟩
    have still := inProgress_reorder perm localNow (-1)
    rw [none] at still
    rw [activePeriodStart_eq_head?, contenders, if_pos still.eq_nil]
    exact head
  · unfold contenders at member
    rw [if_neg none] at member
    obtain ⟨periods, perm, head⟩ := moved (-1) member
    refine ⟨periods, perm, ?_⟩
    have still := inProgress_reorder perm localNow (-1)
    rw [activePeriodStart_eq_head?, contenders,
      if_neg fun empty => none (empty ▸ still).symm.eq_nil]
    exact head

/-! ## When the order matters -/

/-- Two decisions taken from two starts agree only when the starts do, or both
are past their grace. -/
theorem sameOutcome_started {other : Schedule} {second grace : Int}
    (wall : schedule.timezone.wall now = localNow) (otherWall : other.timezone.wall now = localNow)
    (graceEq : schedule.grace = grace) (otherGraceEq : other.grace = grace)
    (found : schedule.activePeriodStart localNow = some start)
    (foundOther : other.activePeriodStart localNow = some second) :
    SameOutcome (schedule.decision now) (other.decision now) ↔
      start = second ∨ start + grace ≤ localNow ∧ second + grace ≤ localNow := by
  subst wall
  rw [← otherWall] at foundOther
  rw [decision_of_started found, decision_of_started foundOther, graceEq, otherGraceEq, otherWall]
  unfold SameOutcome
  by_cases early : schedule.timezone.wall now < start + grace
  · by_cases earlyOther : schedule.timezone.wall now < second + grace
    · rw [if_pos early, if_pos earlyOther]
      simp only [Option.some.injEq, true_and]
      omega
    · rw [if_pos early, if_neg earlyOther]
      simp only [Bool.false_eq_true, false_and, false_iff]
      omega
  · by_cases earlyOther : schedule.timezone.wall now < second + grace
    · rw [if_neg early, if_pos earlyOther]
      simp only [Bool.true_eq_false, false_and, false_iff]
      omega
    · rw [if_neg early, if_neg earlyOther]
      simp only [true_and, true_iff]
      omega

/-- At an instant, the outcome is the same in every order of the periods exactly
when the order does not decide between runs in different states. -/
theorem outcome_reorder_iff (schedule : Schedule) (now : Int) :
    (∀ periods, ∀ perm : periods.Perm schedule.periods,
      SameOutcome ((schedule.reorder periods perm).decision now) (schedule.decision now)) ↔
    schedule.OrderFree (schedule.timezone.wall now) := by
  constructor
  · intro same first firstMember second secondMember
    obtain ⟨firstPeriods, firstPerm, firstFound⟩ := exists_reorder firstMember
    obtain ⟨secondPeriods, secondPerm, secondFound⟩ := exists_reorder secondMember
    rcases same firstPeriods firstPerm with ⟨active, next, grace⟩
    rcases same secondPeriods secondPerm with ⟨active', next', grace'⟩
    have outcomes : SameOutcome ((schedule.reorder firstPeriods firstPerm).decision now)
        ((schedule.reorder secondPeriods secondPerm).decision now) :=
      ⟨active.trans active'.symm, next.trans next'.symm, grace.trans grace'.symm⟩
    exact (sameOutcome_started (wall_reorder firstPerm now) (wall_reorder secondPerm now)
      (grace_reorder firstPerm) (grace_reorder secondPerm) firstFound secondFound).mp outcomes
  · intro free periods perm
    have contenders := contenders_reorder perm (schedule.timezone.wall now)
    have found := activePeriodStart_eq_head? schedule (schedule.timezone.wall now)
    have foundOther := activePeriodStart_eq_head? (schedule.reorder periods perm)
      (schedule.timezone.wall now)
    cases listed : schedule.contenders (schedule.timezone.wall now) with
    | nil =>
        rw [listed] at contenders found
        rw [contenders.eq_nil] at foundOther
        rw [decision_of_idle found, decision_of_idle foundOther]
        exact ⟨rfl, nextActivation_reorder perm _, rfl⟩
    | cons second rest =>
        cases listedOther : (schedule.reorder periods perm).contenders
            (schedule.timezone.wall now) with
        | nil =>
            rw [listedOther, listed] at contenders
            exact absurd contenders.symm.eq_nil (List.cons_ne_nil _ _)
        | cons first others =>
            rw [listed] at found
            rw [listedOther] at foundOther
            have firstMember : first ∈ schedule.contenders (schedule.timezone.wall now) :=
              contenders.mem_iff.mp (listedOther ▸ List.mem_cons_self)
            have secondMember : second ∈ schedule.contenders (schedule.timezone.wall now) :=
              listed ▸ List.mem_cons_self
            exact (sameOutcome_started (wall_reorder perm now) rfl (grace_reorder perm) rfl foundOther
              found).mpr (free first firstMember second secondMember)

end Schedule

theorem clockTime_eight : ClockTime (8 * hour) := by
  decide

/-- From 08:00 to 12:00 and from 10:00 to 14:00, with an hour of grace. -/
def overlapping : Schedule where
  timezone := ⟨fun _ => 0⟩
  periods := [everyDay (8 * hour) (12 * hour) clockTime_eight (by decide),
    everyDay (10 * hour) (14 * hour) (by decide) (by decide)]
  startupGraceSeconds := 3600
  periods_ne := by simp
  grace_le := by decide

/-- At 10:30 the node is monitored in one order and suspended in the other. -/
theorem overlapping_order_matters :
    (overlapping.decision (10 * hour + 30 * minute)).active = true ∧
      ((overlapping.reorder overlapping.periods.reverse (List.reverse_perm _)).decision
        (10 * hour + 30 * minute)).active = false := by
  constructor
  · decide
  · decide

end OhanaAgent.Observation
