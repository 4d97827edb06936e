import Mathlib.Data.List.Sort
import OhanaAgent.Scheduler.NextRun
import OhanaAgent.Store.Table
import OhanaAgent.Time.Order

/-!
# The freshness of scheduled backups

A backup is late when its latest trace is older than one and a half times the
interval of its schedule, and two hours.  The interval is the distance between the
next two occurrences, while the age of the trace is counted from a past one.
-/

namespace OhanaAgent.Tsunade.BackupFreshness

open OhanaAgent.Encoding.Json (Text)
open OhanaAgent.Scheduler
open OhanaAgent.Scheduler.CronTrigger (wholeMinute)
open OhanaAgent.Store
open OhanaAgent.Time

/-! ## Stored traces -/

/-- A row of `tsunade_backup_runs`; the instant is that of its text. -/
structure BackupRun where
  target : Text
  lastSuccessAt : Int
  successes : Nat
  deriving DecidableEq

/-- What a freshness check reads of a row of `tsunade_archive_checks`. -/
structure ArchiveCheck where
  id : Nat
  target : Text
  backupRef : Text
  checkedAt : Text
  deriving DecidableEq

/-- A row of `tsunade_backup_seen`; the instant is that of its text. -/
structure SeenTarget where
  target : Text
  firstSeen : Int
  deriving DecidableEq

structure Backups where
  runs : Table BackupRun BackupRun.target
  checks : List ArchiveCheck
  seen : Table SeenTarget SeenTarget.target

/-- The zone of Paris and `str.upper`. -/
structure Library where
  paris : LocalZone
  upper : Text → Text

/-- The first row in the order of `last_archive_check`. -/
def newestCheck : List ArchiveCheck → Option ArchiveCheck
  | [] => none
  | row :: rest =>
      match newestCheck rest with
      | none => some row
      | some other =>
          if row.checkedAt < other.checkedAt ∨
              (row.checkedAt = other.checkedAt ∧ row.id < other.id) then some other
          else some row

/-- `last_archive_check`. -/
def lastArchiveCheck (backups : Backups) (target : Text) : Option ArchiveCheck :=
  newestCheck (backups.checks.filter fun row => row.target = target)

/-- `ARCHIVE_STAMP`: eight digits, `T`, six digits and `Z` at the start of a name. -/
def archiveStamp (backupRef : Text) : Option (Text × Text) :=
  let date := backupRef.take 8
  let clock := (backupRef.drop 9).take 6
  if date.length = 8 ∧ date.all Char.isDigit ∧ (backupRef.drop 8).head? = some 'T' ∧
      clock.length = 6 ∧ clock.all Char.isDigit ∧ (backupRef.drop 15).head? = some 'Z' then
    some (date, clock)
  else none

/-- The number of some digits. -/
def digitsValue (digits : Text) : Int :=
  digits.foldl (fun value c => 10 * value + (c.toNat - 48 : Nat)) 0

/-- The day of a date, counted from the epoch. -/
def daysOfCivil (year month dayOfMonth : Int) : Int :=
  let shifted := if month ≤ 2 then year - 1 else year
  let dayOfYear := (153 * (if month ≤ 2 then month + 9 else month - 3) + 2) / 5 + dayOfMonth - 1
  let yearOfEra := shifted % 400
  shifted / 400 * 146097 + (yearOfEra * 365 + yearOfEra / 4 - yearOfEra / 100 + dayOfYear) - 719468

/-- `strptime` and `to_paris` of a stamp; they raise an error on what is no date, and
on a date that Paris does not show. -/
def stampInstant (library : Library) (date clock : Text) : Option Int :=
  let year := digitsValue (date.take 4)
  let month := digitsValue ((date.drop 4).take 2)
  let dayOfMonth := digitsValue (date.drop 6)
  let hours := digitsValue (clock.take 2)
  let minutes := digitsValue ((clock.drop 2).take 2)
  let seconds := digitsValue (clock.drop 4)
  let days := daysOfCivil year month dayOfMonth
  let instant := days * day + hours * hour + minutes * minute + seconds * second
  if civil days = (year, month, dayOfMonth) ∧ hours < 24 ∧ minutes < 60 ∧ seconds < 60 ∧
      Representable instant ∧ Representable (library.paris.wall instant) then
    some instant
  else none

/-- `_latest_backup`, which may raise an error; there may be no trace. -/
def latestBackup (library : Library) (backups : Backups) (target : Text) : Option (Option Int) :=
  let run := (backups.runs.find? target).map BackupRun.lastSuccessAt
  match (lastArchiveCheck backups target).bind fun check => archiveStamp check.backupRef with
  | none => some run
  | some (date, clock) => (stampInstant library date clock).map fun instant =>
      some (run.elim instant fun success => max success instant)

/-! ## The schedule -/

/-- `schedule_gap`.  The second search starts from the local time of Paris that the
first one returned; both times become instants with the earlier offset, where the
clock shows them twice. -/
def scheduleGap (library : Library) (expression : Text) (current : Int) : Option Int :=
  match CronTrigger.ofExpression expression (some library.paris) with
  | .error _ => none
  | .ok trigger =>
      (trigger.nextLocal (library.paris.wall current)).bind fun first =>
        (trigger.nextLocal first).map fun second =>
          library.paris.instantOf second - library.paris.instantOf first

/-! ## The check -/

/-- `FRESHNESS_GRACE`. -/
def freshnessGrace : Int := 2 * hour

inductive FreshnessState where
  | ok
  | watch
  | insufficientData
  deriving DecidableEq

structure NodeState where
  nodeId : Text
  state : FreshnessState
  summary : Text
  deriving DecidableEq

/-- A late backup. -/
structure Item where
  rule : Text
  nodeId : Text
  equipmentId : Text
  subject : Text
  title : Text
  detail : Text
  since : Text
  urgent : Bool
  schedule : Text
  expectedGapHours : Int
  lastBackupAt : Option Text
  deriving DecidableEq

/-- The answer of the rule, without its title and its description. -/
structure Report where
  id : Text
  state : FreshnessState
  nodes : List NodeState
  items : List Item
  deriving DecidableEq

/-- `FRESHNESS_RULE["id"]`. -/
def ruleId : Text := "backup_freshness".toList

/-- `_age_text`. -/
def ageText (age : Int) : Text :=
  let hours := age / hour
  if 48 ≤ hours then
    (toString (hours / 24)).toList ++ " j ".toList ++ (toString (hours % 24)).toList ++ " h".toList
  else (toString hours).toList ++ " h".toList

/-- `age > gap * 1.5 + FRESHNESS_GRACE`; a gap is a whole number of seconds. -/
def Late (gap age : Int) : Prop :=
  2 * age > 3 * gap + 2 * freshnessGrace

instance (gap age : Int) : Decidable (Late gap age) :=
  inferInstanceAs (Decidable (_ > _))

/-- What the check knows of a target with a schedule. -/
structure Trace where
  target : Text
  expression : Text
  gap : Int
  latest : Option Int
  firstSeen : Int

namespace Trace

/-- The latest backup, or else the first check. -/
def reference (trace : Trace) : Int :=
  trace.latest.getD trace.firstSeen

def age (trace : Trace) (current : Int) : Int :=
  current - trace.reference

def node (trace : Trace) (library : Library) (current : Int) : NodeState where
  nodeId := trace.target
  state := if Late trace.gap (trace.age current) then .watch else .ok
  summary := match trace.latest with
    | none => library.upper trace.target ++ " : aucune sauvegarde observée, ".toList ++
        "attendue tous les ".toList ++ ageText trace.gap
    | some _ => library.upper trace.target ++ " : dernière sauvegarde il y a ".toList ++
        ageText (trace.age current)

/-- The minute of a backup, as the detail says it. -/
def shortMoment (library : Library) (instant : Int) : Text :=
  ((library.paris.isoformat instant).take 16).flatMap fun c =>
    if c = 'T' then " à ".toList else [c]

def item (trace : Trace) (library : Library) (current : Int) : Item where
  rule := ruleId
  nodeId := trace.target
  equipmentId := trace.target
  subject := trace.target ++ ":freshness".toList
  title := match trace.latest with
    | none => library.upper trace.target ++ " : aucune sauvegarde observée depuis ".toList ++
        ageText (trace.age current)
    | some _ => library.upper trace.target ++ " : sauvegarde en retard (dernière il y a ".toList ++
        ageText (trace.age current) ++ ")".toList
  detail := "Horaire « ".toList ++ trace.expression ++
    " » : une sauvegarde est attendue tous les ".toList ++ ageText trace.gap ++
    " environ. ".toList ++ match trace.latest with
      | none => "Aucune trace depuis le premier contrôle.".toList
      | some latest => "Dernière trace le ".toList ++ shortMoment library latest ++ ".".toList
  since := library.paris.isoformat trace.reference
  urgent := trace.age current > 3 * trace.gap
  schedule := trace.expression
  expectedGapHours := trace.gap / hour
  lastBackupAt := trace.latest.map library.paris.isoformat

end Trace

/-- The first check of a target, which is noted when there was none. -/
def firstSeen (backups : Backups) (target : Text) (current : Int) : Int × Backups :=
  match backups.seen.find? target with
  | some row => (row.firstSeen, backups)
  | none => (current, { backups with seen := backups.seen.upsert ⟨target, current⟩ })

/-- The loop over the targets. -/
def checkTargets (library : Library) (current : Int) : List (Text × Text) → Backups →
    Option (Backups × List NodeState × List Item)
  | [], backups => some (backups, [], [])
  | (target, expression) :: rest, backups =>
      match scheduleGap library expression current with
      | none => checkTargets library current rest backups
      | some gap =>
          let (firstSeen, backups) := firstSeen backups target current
          (latestBackup library backups target).bind fun latest =>
            let trace : Trace := ⟨target, expression, gap, latest, firstSeen⟩
            (checkTargets library current rest backups).map fun (backups, nodes, items) =>
              (backups, trace.node library current :: nodes,
                if Late gap (trace.age current) then trace.item library current :: items
                else items)

/-- The schedules: one expression for each target. -/
structure Schedules where
  entries : List (Text × Text)
  distinct : (entries.map Prod.fst).Nodup

/-- `sorted(schedules)`, with the expressions. -/
def Schedules.sorted (schedules : Schedules) : List (Text × Text) :=
  schedules.entries.mergeSort fun first second => decide (first.1 ≤ second.1)

/-- `backup_freshness`, which raises an error on an archive name whose stamp is no
date. -/
def backupFreshness (library : Library) (backups : Backups) (current : Int)
    (schedules : Schedules) : Option (Backups × Report) :=
  (checkTargets library current schedules.sorted backups).map fun (backups, nodes, items) =>
    (backups, ⟨ruleId, if items ≠ [] then .watch else if nodes ≠ [] then .ok else .insufficientData,
      nodes, items⟩)

/-! ## The next two occurrences -/

variable {library : Library} {backups : Backups} {current first second : Int}
  {target expression : Text} {trigger : CronTrigger}

/-- The earliest occurrence after a local time, no more than 366 days later. -/
def Upcoming (trigger : CronTrigger) (local_ next : Int) : Prop :=
  trigger.Earliest local_ next ∧ next ≤ wholeMinute local_ + 366 * day

/-- The gap is the distance between the next two occurrences. -/
theorem scheduleGap_eq_some_iff
    (accepted : CronTrigger.ofExpression expression (some library.paris) = .ok trigger)
    {gap : Int} :
    scheduleGap library expression current = some gap ↔
      ∃ first second, Upcoming trigger (library.paris.wall current) first ∧
        Upcoming trigger first second ∧
        library.paris.instantOf second - library.paris.instantOf first = gap := by
  unfold scheduleGap Upcoming
  rw [accepted]
  simp only [Option.bind_eq_some_iff, Option.map_eq_some_iff, CronTrigger.nextLocal_eq_some_iff]
  constructor
  · rintro ⟨first, firstNext, second, secondNext, equal⟩
    exact ⟨first, second, firstNext, secondNext, equal⟩
  · rintro ⟨first, second, firstNext, secondNext, equal⟩
    exact ⟨first, firstNext, second, secondNext, equal⟩

/-! ## The items of a check -/

/-- Noting a first check changes no trace. -/
theorem latestBackup_firstSeen (other : Text) :
    latestBackup library (firstSeen backups other current).2 target =
      latestBackup library backups target := by
  unfold firstSeen
  cases backups.seen.find? other <;> rfl

/-- A target with a recorded backup has an item when one of its schedules has a gap
for which the backup is too old. -/
theorem mem_checkTargets_iff {entries : List (Text × Text)} {after : Backups}
    {nodes : List NodeState} {items : List Item} {latest : Int}
    (returned : checkTargets library current entries backups = some (after, nodes, items))
    (recorded : latestBackup library backups target = some (some latest)) :
    (∃ item ∈ items, item.nodeId = target) ↔
      ∃ expression gap, (target, expression) ∈ entries ∧
        scheduleGap library expression current = some gap ∧ Late gap (current - latest) := by
  induction entries generalizing backups after nodes items with
  | nil =>
      cases returned
      simp
  | cons entry rest inductionHypothesis =>
      rcases entry with ⟨name, expression⟩
      rw [checkTargets] at returned
      cases gapFound : scheduleGap library expression current with
      | none =>
          rw [gapFound] at returned
          rw [inductionHypothesis returned recorded]
          constructor
          · rintro ⟨other, gap, inside, found, late⟩
            exact ⟨other, gap, List.mem_cons_of_mem _ inside, found, late⟩
          · rintro ⟨other, gap, inside, found, late⟩
            rcases List.mem_cons.mp inside with same | inside
            · cases same
              rw [gapFound] at found
              cases found
            · exact ⟨other, gap, inside, found, late⟩
      | some gap =>
          rw [gapFound] at returned
          simp only [Option.bind_eq_some_iff, Option.map_eq_some_iff] at returned
          rcases returned with ⟨trace, traceFound, ⟨later, laterNodes, laterItems⟩, laterReturned,
            result⟩
          have still := recorded
          rw [← @latestBackup_firstSeen library backups current target name] at still
          have others := inductionHypothesis laterReturned still
          cases result
          by_cases same : name = target
          · subst same
            rw [still, Option.some.injEq] at traceFound
            subst traceFound
            by_cases late : Late gap (current - latest)
            · have head : Late gap (Trace.age ⟨name, expression, gap, some latest,
                  (firstSeen backups name current).1⟩ current) := late
              rw [if_pos head]
              constructor
              · intro _
                exact ⟨expression, gap, List.mem_cons_self, gapFound, late⟩
              · intro _
                exact ⟨_, List.mem_cons_self, rfl⟩
            · have head : ¬ Late gap (Trace.age ⟨name, expression, gap, some latest,
                  (firstSeen backups name current).1⟩ current) := late
              rw [if_neg head, others]
              constructor
              · rintro ⟨other, gap, inside, found, late⟩
                exact ⟨other, gap, List.mem_cons_of_mem _ inside, found, late⟩
              · rintro ⟨other, otherGap, inside, found, otherLate⟩
                rcases List.mem_cons.mp inside with equal | inside
                · cases equal
                  rw [gapFound, Option.some.injEq] at found
                  exact absurd (found ▸ otherLate) late
                · exact ⟨other, otherGap, inside, found, otherLate⟩
          · have rests : (∃ other otherGap, (target, other) ∈ (name, expression) :: rest ∧
                scheduleGap library other current = some otherGap ∧
                Late otherGap (current - latest)) ↔
                ∃ other otherGap, (target, other) ∈ rest ∧
                  scheduleGap library other current = some otherGap ∧
                  Late otherGap (current - latest) := by
              simp [List.mem_cons, Ne.symm same]
            rw [rests, ← others]
            split
            · constructor
              · rintro ⟨item, inside, equal⟩
                rcases List.mem_cons.mp inside with rfl | inside
                · exact absurd equal same
                · exact ⟨item, inside, equal⟩
              · rintro ⟨item, inside, equal⟩
                exact ⟨item, List.mem_cons_of_mem _ inside, equal⟩
            · rfl

/-! ## A backup made on schedule -/

/-- An instant at which a schedule is due in Paris. -/
def Scheduled (library : Library) (trigger : CronTrigger) (instant : Int) : Prop :=
  trigger.Occurrence (library.paris.wall instant)

/-- The last instant of a schedule at or before the current one. -/
structure LastScheduled (library : Library) (trigger : CronTrigger) (current last : Int) :
    Prop where
  scheduled : Scheduled library trigger last
  passed : last ≤ current
  greatest : ∀ other, Scheduled library trigger other → other ≤ current → other ≤ last

/-- The check reports no item for a target with a recorded backup exactly when the
age of that backup is at most one and a half times the distance between the next
two occurrences of its schedule, and two hours; or when one of these is more than
366 days away. -/
theorem no_item_iff {schedules : Schedules} {after : Backups} {report : Report} {latest : Int}
    (returned : backupFreshness library backups current schedules = some (after, report))
    (scheduled : (target, expression) ∈ schedules.entries)
    (accepted : CronTrigger.ofExpression expression (some library.paris) = .ok trigger)
    (recorded : latestBackup library backups target = some (some latest)) :
    (∀ item ∈ report.items, item.nodeId ≠ target) ↔
      ∀ first second, Upcoming trigger (library.paris.wall current) first →
        Upcoming trigger first second →
        2 * (current - latest) ≤
          3 * (library.paris.instantOf second - library.paris.instantOf first) + 4 * hour := by
  unfold backupFreshness at returned
  rcases Option.map_eq_some_iff.mp returned with ⟨⟨later, nodes, items⟩, checked, result⟩
  cases result
  have found := mem_checkTargets_iff checked recorded
  have only : ∀ other, (target, other) ∈ schedules.sorted → other = expression := by
    intro other inside
    have member : (target, other) ∈ schedules.entries := List.mem_mergeSort.mp inside
    have same := List.inj_on_of_nodup_map schedules.distinct member scheduled rfl
    exact congrArg Prod.snd same
  constructor
  · intro none first second firstNext secondNext
    by_contra old
    have late : Late (library.paris.instantOf second - library.paris.instantOf first)
        (current - latest) := by
      unfold Late freshnessGrace
      omega
    rcases found.mpr ⟨expression, _, List.mem_mergeSort.mpr scheduled,
      (scheduleGap_eq_some_iff accepted).mpr ⟨first, second, firstNext, secondNext, rfl⟩, late⟩ with
      ⟨item, inside, same⟩
    exact none item inside same
  · intro young item inside same
    rcases found.mp ⟨item, inside, same⟩ with ⟨other, gap, member, gapFound, late⟩
    rw [only other member] at gapFound
    rcases (scheduleGap_eq_some_iff accepted).mp gapFound with
      ⟨first, second, firstNext, secondNext, rfl⟩
    have bound := young first second firstNext secondNext
    unfold Late freshnessGrace at late
    omega

/-- An evenly spaced schedule is never reported for a backup made since its last
occurrence. -/
theorem no_item_of_even {schedules : Schedules} {after : Backups} {report : Report}
    {latest last : Int}
    (returned : backupFreshness library backups current schedules = some (after, report))
    (scheduled : (target, expression) ∈ schedules.entries)
    (accepted : CronTrigger.ofExpression expression (some library.paris) = .ok trigger)
    (recorded : latestBackup library backups target = some (some latest))
    (lastScheduled : LastScheduled library trigger current last) (fresh : last ≤ latest)
    (even : ∀ first second, Upcoming trigger (library.paris.wall current) first →
      Upcoming trigger first second →
      current - last ≤ library.paris.instantOf second - library.paris.instantOf first) :
    ∀ item ∈ report.items, item.nodeId ≠ target := by
  apply (no_item_iff returned scheduled accepted recorded).mpr
  intro first second firstNext secondNext
  have spaced := even first second firstNext secondNext
  have passed := lastScheduled.passed
  unfold hour minute Time.second
  omega

/-! ## Two backups in a night -/

/-- Winter time, and names in ASCII. -/
def winterLibrary : Library where
  paris := ⟨⟨fun _ => hour⟩, fun _ => hour⟩
  upper := List.map Char.toUpper

/-- A backup at 03:00 and one at 04:00. -/
def nightly : Text := "0 3,4 * * *".toList

def nightlyTrigger : CronTrigger where
  timezone := some winterLibrary.paris
  minutes := .checked [0] (Eq.refl true)
  hours := .checked [3, 4] (Eq.refl true)
  days := .checked (range 1 31 1) (Eq.refl true)
  months := .checked (range 1 12 1) (Eq.refl true)
  weekdays := .checked (range 0 6 1) (Eq.refl true)
  fireCount := 0
  lastExecutedAt := none

theorem ofExpression_nightly :
    CronTrigger.ofExpression nightly (some winterLibrary.paris) = .ok nightlyTrigger := rfl

def nightlySchedules : Schedules where
  entries := [("infra-01".toList, nightly)]
  distinct := by decide

/-- 2026-11-01T04:00:00+01:00. -/
def lastNight : Int := 1793502000 * Time.second

/-- The backup of 04:00 was made at 04:05. -/
def madeOnSchedule : Backups where
  runs := ⟨[⟨"infra-01".toList, lastNight + 5 * minute, 1⟩], List.nodup_singleton _⟩
  checks := []
  seen := ∅

theorem contains_range {low high value : Int} (least : low ≤ value) (greatest : value ≤ high) :
    (range low high 1).contains value = true := by
  rw [List.contains_iff_mem]
  unfold range
  rw [List.mem_map]
  use (value - low).toNat
  constructor
  · rw [List.mem_range]
    omega
  · omega

/-- The night's schedule has no end. -/
theorem nightly_unbounded (bound : Int) :
    ∃ value, bound < value ∧ nightlyTrigger.Occurrence value := by
  have date : ((bound / day + 1) * day + 3 * hour) / day = bound / day + 1 := by
    unfold day hour minute Time.second
    omega
  have clock : ((bound / day + 1) * day + 3 * hour) / hour % 24 = 3 := by
    unfold day hour minute Time.second
    omega
  have minutes : ((bound / day + 1) * day + 3 * hour) / minute % 60 = 0 := by
    unfold day hour minute Time.second
    omega
  use (bound / day + 1) * day + 3 * hour
  constructor
  · unfold day hour minute Time.second
    omega
  · constructor
    · unfold day hour minute Time.second
      omega
    · unfold CronTrigger.matches_
      simp only [date, clock, minutes, nightlyTrigger, Bool.and_eq_true]
      refine ⟨⟨⟨⟨by decide, by decide⟩, ?_⟩, ?_⟩, ?_⟩
      · exact contains_range (civil_day_range _).1 (civil_day_range _).2
      · exact contains_range (civil_month_range _).1 (civil_month_range _).2
      · apply contains_range
        · unfold weekday
          omega
        · unfold weekday
          omega

theorem sorted_nightlySchedules : nightlySchedules.sorted = [("infra-01".toList, nightly)] :=
  List.mergeSort_singleton _

/-- An hour after the last run of the night its backup is not reported. -/
theorem nightly_not_late :
    ∃ after report, backupFreshness winterLibrary madeOnSchedule (lastNight + hour)
        nightlySchedules = some (after, report) ∧
      ∀ item ∈ report.items, item.nodeId ≠ "infra-01".toList := by
  have returned : (backupFreshness winterLibrary madeOnSchedule (lastNight + hour)
      nightlySchedules).isSome = true := by
    unfold backupFreshness
    rw [sorted_nightlySchedules]
    decide +kernel
  rcases Option.isSome_iff_exists.mp returned with ⟨⟨after, report⟩, result⟩
  refine ⟨after, report, result, ?_⟩
  apply (@no_item_iff winterLibrary madeOnSchedule _ _ nightly nightlyTrigger nightlySchedules
    after report (lastNight + 5 * minute) result List.mem_cons_self ofExpression_nightly
    (by decide +kernel)).mpr
  intro first second firstNext secondNext
  have ordered : first < second := secondNext.1.later
  have zone : winterLibrary.paris.instantOf second - winterLibrary.paris.instantOf first =
      second - first := by
    show (second - hour) - (first - hour) = second - first
    omega
  rw [zone]
  unfold hour minute Time.second
  omega

/-- The schedule is due at 03:00 and 04:00 each night; at 02:00 of the next night the
last run was that of 04:00, and the backup it made is reported. -/
theorem nightly_reported_late :
    CronTrigger.ofExpression nightly (some winterLibrary.paris) = .ok nightlyTrigger ∧
    (∀ bound, ∃ value, bound < value ∧ nightlyTrigger.Occurrence value) ∧
    LastScheduled winterLibrary nightlyTrigger (lastNight + 22 * hour) lastNight ∧
    latestBackup winterLibrary madeOnSchedule "infra-01".toList =
      some (some (lastNight + 5 * minute)) ∧
    ((backupFreshness winterLibrary madeOnSchedule (lastNight + 22 * hour) nightlySchedules).map
      fun result => result.2.items.map Item.nodeId) = some ["infra-01".toList] := by
  refine ⟨ofExpression_nightly, nightly_unbounded, ⟨⟨by decide +kernel, by decide +kernel⟩, by decide, ?_⟩, by decide +kernel, ?_⟩
  · intro other scheduled passed
    by_contra later
    have zone (instant : Int) : winterLibrary.paris.wall instant = instant + hour := rfl
    have next : nightlyTrigger.nextLocal (winterLibrary.paris.wall lastNight) =
        some (winterLibrary.paris.wall lastNight + 23 * hour) := by decide +kernel
    have least := (CronTrigger.nextLocal_eq_some_iff.mp next).1.least _ scheduled (by
      rw [zone, zone]
      omega)
    rw [zone, zone] at least
    unfold hour minute Time.second at *
    omega
  · unfold backupFreshness
    rw [sorted_nightlySchedules]
    decide +kernel

end OhanaAgent.Tsunade.BackupFreshness
