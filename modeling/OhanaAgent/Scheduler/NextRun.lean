import OhanaAgent.Scheduler.CronTrigger

/-!
# The announced next run

The next run of a trigger is searched minute by minute over 366 days of local
time.  The fields of an expression are met together, so that its occurrences may
lie years apart, and a clock change may skip or repeat the local time that is
found: the announcement is right exactly when the search reaches the next
occurrence of the calendar and the clock shows no other one before it.
-/

namespace OhanaAgent.Scheduler.CronTrigger

open Time

variable {trigger : CronTrigger} {zone : LocalZone} {clock : Zone}
  {local_ candidate found after value : Int} {steps : Nat}

/-! ## The search -/

theorem search_eq_none_iff : trigger.search steps candidate = none ↔
    ∀ index : Nat, index < steps → trigger.matches_ (candidate + index * minute) = false := by
  induction steps generalizing candidate with
  | zero => simp [search]
  | succ steps inductionHypothesis =>
      rw [search]
      by_cases first : trigger.matches_ candidate = true
      · rw [if_pos first]
        simp only [reduceCtorEq, false_iff, not_forall]
        exact ⟨0, by omega, by simpa using first⟩
      · rw [if_neg first, inductionHypothesis]
        constructor
        · intro later index small
          cases index with
          | zero => simpa using first
          | succ index =>
              have next := later index (by omega)
              rwa [show candidate + minute + index * minute =
                candidate + ((index + 1 : Nat) : Int) * minute by
                  unfold minute second; omega] at next
        · intro all index small
          have next := all (index + 1) (by omega)
          rwa [show candidate + ((index + 1 : Nat) : Int) * minute =
            candidate + minute + index * minute by unfold minute second; omega] at next

theorem search_eq_some (result : trigger.search steps candidate = some found) :
    ∃ index : Nat, index < steps ∧ found = candidate + index * minute ∧
      trigger.matches_ found = true ∧ ∀ earlier : Nat, earlier < index →
        trigger.matches_ (candidate + earlier * minute) = false := by
  induction steps generalizing candidate with
  | zero => simp [search] at result
  | succ steps inductionHypothesis =>
      rw [search] at result
      by_cases first : trigger.matches_ candidate = true
      · rw [if_pos first, Option.some.injEq] at result
        subst result
        exact ⟨0, by omega, by simp, first, by simp⟩
      · rw [if_neg first] at result
        obtain ⟨index, small, rfl, matched, before⟩ := inductionHypothesis result
        refine ⟨index + 1, by omega, by unfold minute second; omega, matched, ?_⟩
        intro earlier less
        cases earlier with
        | zero => simpa using first
        | succ earlier =>
            have next := before earlier (by omega)
            rwa [show candidate + minute + earlier * minute =
              candidate + ((earlier + 1 : Nat) : Int) * minute by
                unfold minute second; omega] at next

/-! ## Whole minutes after a local time -/

/-- A whole minute of the calendar in which the trigger is due. -/
def Occurrence (trigger : CronTrigger) (value : Int) : Prop :=
  value % minute = 0 ∧ trigger.matches_ value = true

/-- The earliest occurrence strictly after a local time. -/
structure Earliest (trigger : CronTrigger) (local_ next : Int) : Prop where
  occurs : trigger.Occurrence next
  later : local_ < next
  least : ∀ other, trigger.Occurrence other → local_ < other → next ≤ other

/-- The whole minutes after a local time are those that the search numbers. -/
theorem exists_index {value : Int} (whole : value % minute = 0) (later : local_ < value) :
    ∃ index : Nat, value = wholeMinute local_ + minute + index * minute := by
  refine ⟨((value - wholeMinute local_ - minute) / minute).toNat, ?_⟩
  unfold wholeMinute
  unfold minute second at *
  omega

/-- Some occurrence lies within the 366 days after the minute of a local time. -/
def WithinAYear (trigger : CronTrigger) (local_ : Int) : Prop :=
  ∃ value, trigger.Occurrence value ∧ local_ < value ∧ value ≤ wholeMinute local_ + 366 * day

/-- A search over 366 days finds the earliest occurrence. -/
theorem nextLocal_earliest {next : Int} (result : trigger.nextLocal local_ = some next) :
    trigger.Earliest local_ next ∧ next ≤ wholeMinute local_ + 366 * day := by
  obtain ⟨index, small, rfl, matched, before⟩ := search_eq_some result
  constructor
  · constructor
    · constructor
      · unfold wholeMinute minute second
        omega
      · exact matched
    · unfold wholeMinute minute second
      omega
    · rintro other ⟨whole, occurs⟩ later
      obtain ⟨otherIndex, rfl⟩ := exists_index whole later
      by_contra less
      have earlier := before otherIndex (by unfold minute second at less; omega)
      rw [occurs] at earlier
      contradiction
  · unfold day hour minute second
    omega

/-- An occurrence within 366 days is not missed. -/
theorem exists_nextLocal (within : trigger.WithinAYear local_) :
    ∃ next, trigger.nextLocal local_ = some next := by
  obtain ⟨value, ⟨whole, occurs⟩, later, near⟩ := within
  obtain ⟨index, rfl⟩ := exists_index whole later
  cases result : trigger.nextLocal local_ with
  | none =>
      have missed := search_eq_none_iff.mp result index
        (by unfold day hour minute second at near; omega)
      rw [occurs] at missed
      contradiction
  | some next => exact ⟨next, rfl⟩

theorem nextLocal_eq_some_iff {next : Int} : trigger.nextLocal local_ = some next ↔
    trigger.Earliest local_ next ∧ next ≤ wholeMinute local_ + 366 * day := by
  constructor
  · exact nextLocal_earliest
  · rintro ⟨earliest, near⟩
    obtain ⟨other, result⟩ := exists_nextLocal ⟨next, earliest.occurs, earliest.later, near⟩
    have found := (nextLocal_earliest result).1
    have same : other = next := by
      have least := earliest.least other found.occurs found.later
      have foundLeast := found.least next earliest.occurs earliest.later
      omega
    rw [← same]
    exact result

/-! ## Instants -/

/-- The earliest instant strictly after another at which the zone shows an
occurrence. -/
structure NextRun (trigger : CronTrigger) (zone : LocalZone) (after next : Int) : Prop where
  occurs : trigger.Occurrence (zone.wall next)
  later : after < next
  least : ∀ other, trigger.Occurrence (zone.wall other) → after < other → next ≤ other

/-- What `next_run_at` announces is the next run, and it announces none only for
a trigger that has no occurrence. -/
structure AnnouncesNext (trigger : CronTrigger) (clock : Zone) (after : Int) : Prop where
  announced : (∃ value, trigger.Occurrence value) → ∃ next,
    trigger.nextRunAt clock after = some next ∧
      trigger.NextRun (trigger.zoneAt clock after) after next
  none_only : trigger.nextRunAt clock after = none → ¬ ∃ value, trigger.Occurrence value

/-- The next occurrence of the calendar is within reach of the search, and no clock
change disturbs it.

It is read with the offset of its first showing, or with the one before it is
skipped.  That offset does not exceed the one at the given instant by as much as
the local time in between.  Where the zone has another offset by then, the local
time that it shows instead is an occurrence as well.  A clock that is put back to
the given local time or before, or forward to the occurrence or past it, shows no
occurrence on the way. -/
structure Undisturbed (trigger : CronTrigger) (zone : LocalZone) (after value : Int) : Prop where
  earliest : trigger.Earliest (zone.wall after) value
  near : value ≤ wholeMinute (zone.wall after) + 366 * day
  not_over : zone.localOffset value - zone.utcOffset after < value - zone.wall after
  not_skipped : zone.utcOffset (zone.instantOf value) ≠ zone.localOffset value →
    trigger.Occurrence (zone.wall (zone.instantOf value))
  not_repeated : ∀ other, after < other → other < zone.instantOf value →
    zone.wall other ≤ zone.wall after ∨ value ≤ zone.wall other →
      ¬ trigger.Occurrence (zone.wall other)

/-- Where the offset stays the same up to the next occurrence, nothing disturbs it. -/
theorem undisturbed_of_steady {offset until_ : Int}
    (earliest : trigger.Earliest (zone.wall after) value)
    (near : value ≤ wholeMinute (zone.wall after) + 366 * day)
    (steady : ∀ instant, after ≤ instant → instant ≤ until_ → zone.utcOffset instant = offset)
    (ordered : after ≤ until_) (reached : value ≤ until_ + offset)
    (read : zone.localOffset value = offset) : trigger.Undisturbed zone after value := by
  have wall : ∀ instant, after ≤ instant → instant ≤ until_ → zone.wall instant = instant + offset :=
    fun instant low high => congrArg (instant + ·) (steady instant low high)
  have instant : zone.instantOf value = value - offset := by
    rw [LocalZone.instantOf, read]
  have start := wall after (Int.le_refl after) ordered
  have later := earliest.later
  constructor
  · exact earliest
  · exact near
  · rw [read, steady after (Int.le_refl after) ordered]
    omega
  · rw [instant, steady _ (by omega) (by omega), read]
    exact fun changed => absurd rfl changed
  · intro other low high displaced
    have shown := wall other (by omega) (by omega)
    omega

/-- The zone shows a local time at its instant when it has the offset that the local
time is read with. -/
theorem wall_instantOf {zone : LocalZone}
    (same : zone.utcOffset (zone.instantOf value) = zone.localOffset value) :
    zone.wall (zone.instantOf value) = value := by
  rw [Zone.wall, same, LocalZone.instantOf, Int.sub_add_cancel]

theorem after_lt_instantOf_iff : after < zone.instantOf value ↔
    zone.localOffset value - zone.utcOffset after < value - zone.wall after := by
  unfold LocalZone.instantOf Zone.wall
  omega

theorem nextRun_instantOf_iff (earliest : trigger.Earliest (zone.wall after) value)
    (near : value ≤ wholeMinute (zone.wall after) + 366 * day) :
    trigger.NextRun zone after (zone.instantOf value) ↔ trigger.Undisturbed zone after value := by
  constructor
  · intro run
    refine ⟨earliest, near, after_lt_instantOf_iff.mp run.later, fun _ => run.occurs, ?_⟩
    intro other later before _ occurs
    exact absurd (run.least other occurs later) (Int.not_le.mpr before)
  · intro undisturbed
    constructor
    · by_cases same : zone.utcOffset (zone.instantOf value) = zone.localOffset value
      · rw [wall_instantOf same]
        exact earliest.occurs
      · exact undisturbed.not_skipped same
    · exact after_lt_instantOf_iff.mpr undisturbed.not_over
    · intro other occurs later
      by_contra before
      by_cases displaced : zone.wall other ≤ zone.wall after ∨ value ≤ zone.wall other
      · exact undisturbed.not_repeated other later (Int.not_le.mp before) displaced occurs
      · -- In the span from the given local time on, the occurrence is the earliest.
        have least := earliest.least (zone.wall other) occurs (by omega)
        omega

/-- The announcement is right exactly when the next occurrence is within 366 days
and no clock change skips it, repeats it or shows another one before it, or when
there is no occurrence at all. -/
theorem announcesNext_iff (trigger : CronTrigger) (clock : Zone) (after : Int) :
    trigger.AnnouncesNext clock after ↔
      (∃ value, trigger.Undisturbed (trigger.zoneAt clock after) after value) ∨
        ¬ ∃ value, trigger.Occurrence value := by
  constructor
  · intro announces
    by_cases exist : ∃ value, trigger.Occurrence value
    · obtain ⟨next, announced, run⟩ := announces.announced exist
      obtain ⟨value, found, rfl⟩ := Option.map_eq_some_iff.mp announced
      obtain ⟨earliest, near⟩ := nextLocal_earliest found
      exact Or.inl ⟨value, (nextRun_instantOf_iff earliest near).mp run⟩
    · exact Or.inr exist
  · rintro (⟨value, undisturbed⟩ | never)
    · have announced : trigger.nextRunAt clock after =
          some ((trigger.zoneAt clock after).instantOf value) :=
        Option.map_eq_some_iff.mpr
          ⟨value, nextLocal_eq_some_iff.mpr ⟨undisturbed.earliest, undisturbed.near⟩, rfl⟩
      constructor
      · intro _
        exact ⟨_, announced,
          (nextRun_instantOf_iff undisturbed.earliest undisturbed.near).mpr undisturbed⟩
      · rw [announced]
        exact fun none => nomatch none
    · constructor
      · intro exist
        exact absurd exist never
      · intro _
        exact never

/-- Without a timezone the clock does not change, and the reach of the search decides. -/
theorem announcesNext_bare_iff (bare : trigger.timezone = none) :
    trigger.AnnouncesNext clock after ↔
      trigger.WithinAYear (trigger.wall clock after) ∨ ¬ ∃ value, trigger.Occurrence value := by
  have zone : trigger.zoneAt clock after = .fixed (clock.utcOffset after) := by
    rw [zoneAt, bare, Option.getD_none]
  rw [announcesNext_iff, wall, zone]
  generalize clock.utcOffset after = offset
  apply or_congr_left
  constructor
  · rintro ⟨value, undisturbed⟩
    exact ⟨value, undisturbed.earliest.occurs, undisturbed.earliest.later, undisturbed.near⟩
  · intro within
    obtain ⟨value, found⟩ := exists_nextLocal within
    obtain ⟨earliest, near⟩ := nextLocal_earliest found
    have later : after + offset < value := earliest.later
    have ordered : after ≤ value - offset := by omega
    have reached : value ≤ value - offset + offset := by omega
    exact ⟨value, undisturbed_of_steady earliest near (fun _ _ _ => rfl) ordered reached rfl⟩

/-! ## The leap day -/

/-- Midnight of each 29 February. -/
def leapDay : CronTrigger where
  timezone := none
  minutes := .checked [0] (Eq.refl true)
  hours := .checked [0] (Eq.refl true)
  days := .checked [29] (Eq.refl true)
  months := .checked [2] (Eq.refl true)
  weekdays := .checked (range 0 6 1) (Eq.refl true)
  fireCount := 0
  lastExecutedAt := none

theorem ofExpression_leapDay : ofExpression "0 0 29 2 *".toList none = .ok leapDay := rfl

/-- The 366 days from 1 March 2026 hold no leap day. -/
theorem no_leapDay : ∀ offset < 367, (civil (20513 + (offset : Nat))).2 ≠ (2, 29) := by
  decide +kernel

/-- A matching minute lies in a day whose date the fields name. -/
theorem date_of_matches {value : Int} (matched : trigger.matches_ value = true) :
    (civil (value / day)).2.1 ∈ trigger.months.values ∧
      (civil (value / day)).2.2 ∈ trigger.days.values := by
  simp only [matches_, Bool.and_eq_true, List.contains_iff_mem] at matched
  exact ⟨matched.1.2, matched.1.1.2⟩

/-- From 1 March 2026 on, no next run is announced although there is one. -/
theorem leapDay_not_announced :
    ¬ leapDay.AnnouncesNext ⟨fun _ => 0⟩ (20513 * day) := by
  intro announces
  have start : wholeMinute (leapDay.wall ⟨fun _ => 0⟩ (20513 * day)) = 20513 * day := by decide
  have unannounced : leapDay.nextRunAt ⟨fun _ => 0⟩ (20513 * day) = none := by
    refine Option.map_eq_none_iff.mpr (search_eq_none_iff.mpr ?_)
    intro index small
    rw [start, Bool.eq_false_iff]
    intro matched
    obtain ⟨month, dayOfMonth⟩ := date_of_matches matched
    have near : ∃ offset : Nat, offset < 367 ∧
        (20513 * day + minute + index * minute) / day = 20513 + (offset : Int) := by
      refine ⟨((index + 1) / 1440 : Nat), by omega, ?_⟩
      unfold day hour minute second
      omega
    obtain ⟨offset, within, date⟩ := near
    rw [date] at month dayOfMonth
    exact no_leapDay offset within
      (Prod.ext (List.mem_singleton.mp month) (List.mem_singleton.mp dayOfMonth))
  apply announces.none_only unannounced
  exact ⟨21243 * day, by decide, by decide⟩

end OhanaAgent.Scheduler.CronTrigger
