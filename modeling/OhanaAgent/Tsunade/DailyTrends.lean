import Mathlib.Algebra.BigOperators.Group.List.Basic
import Mathlib.Order.Bounds.Basic
import OhanaAgent.Transition.Run
import OhanaAgent.Tsunade.Preventive

/-!
# The rows of the daily trends

Beside the monitor stand the values that were recorded for each key, the first
row a backfill gave for it and the instants of the flushes.  While no backfill
comes before the samples of its day are written, and no sample after the backfill
of its day, the rows summarise the recorded values.
-/

namespace OhanaAgent.Tsunade

open OhanaAgent.Encoding.Json (Text)
open OhanaAgent.Store
open OhanaAgent.Time
open OhanaAgent.Transition

/-! ## Summaries -/

/-- The minimum, the maximum, the last, the sum and the number of the values. -/
structure Summarizes (values : List ℚ) (minimum maximum last total : ℚ) (count : Nat) : Prop where
  least : IsLeast {value | value ∈ values} minimum
  greatest : IsGreatest {value | value ∈ values} maximum
  latest : values.getLast? = some last
  sum : values.sum = total
  length : values.length = count

namespace Summarizes

variable {values : List ℚ} {minimum maximum last total value : ℚ} {count : Nat}

theorem ne_nil (summary : Summarizes values minimum maximum last total count) : values ≠ [] :=
  List.ne_nil_of_mem summary.least.1

theorem singleton (value : ℚ) : Summarizes [value] value value value value 1 := by
  constructor <;> simp [IsLeast, IsGreatest, lowerBounds, upperBounds]

/-- One more value. -/
theorem concat (summary : Summarizes values minimum maximum last total count) :
    Summarizes (values ++ [value]) (min minimum value) (max maximum value) value (total + value)
      (count + 1) := by
  have same : {other | other ∈ values ++ [value]} = insert value {other | other ∈ values} := by
    ext other
    simp [or_comm]
  constructor
  · rw [same, min_comm]
    exact summary.least.insert value
  · rw [same, max_comm]
    exact summary.greatest.insert value
  · exact List.getLast?_concat
  · rw [List.sum_append, List.sum_singleton, summary.sum]
  · rw [List.length_append, List.length_singleton, summary.length]

end Summarizes

/-- The row of an agent that recorded exactly these values. -/
structure TrendRow.Measures (values : List ℚ) (row : TrendRow) : Prop where
  source : row.source = liveSource
  summary : Summarizes values row.minimum row.maximum row.lastValue row.total row.samples

/-- The aggregate of these values. -/
def DayAggregate.Measures (values : List ℚ) (aggregate : DayAggregate) : Prop :=
  Summarizes values aggregate.minimum aggregate.maximum aggregate.last aggregate.total
    aggregate.samples

/-! ## One key

What a call does to the aggregate and the row of one key, and when these agree
with the recorded values and the first backfilled row. -/

/-- The aggregate that a value is added to. -/
def continued (key : TrendKey) (value : ℚ) (memory : Option DayAggregate)
    (stored : Option TrendRow) : DayAggregate :=
  match memory with
  | some aggregate => aggregate
  | none =>
      match stored with
      | some row => ⟨key, row.minimum, row.maximum, value, row.samples, row.total, true⟩
      | none => ⟨key, value, value, value, 0, 0, true⟩

def DayAggregate.add (key : TrendKey) (value : ℚ) (aggregate : DayAggregate) : DayAggregate where
  key := key
  minimum := min aggregate.minimum value
  maximum := max aggregate.maximum value
  last := value
  samples := aggregate.samples + 1
  total := aggregate.total + value
  dirty := true

/-- The row after a flush. -/
def writtenRow (stamp : Text) (memory : Option DayAggregate) (stored : Option TrendRow) :
    Option TrendRow :=
  match memory with
  | some aggregate => if aggregate.dirty then some (aggregate.saved stamp stored) else stored
  | none => stored

/-- The aggregate and the row of a key, for its recorded values and the first row
a backfill gave for it. -/
inductive Coherent (values : List ℚ) (first : Option TrendRow) :
    Option DayAggregate → Option TrendRow → Prop
  | unmeasured (silent : values = []) : Coherent values first none first
  | stored {row : TrendRow} (measures : row.Measures values) :
      Coherent values first none (some row)
  | clean {aggregate : DayAggregate} {row : TrendRow} (summary : aggregate.Measures values)
      (unchanged : aggregate.dirty = false) (measures : row.Measures values) :
      Coherent values first (some aggregate) (some row)
  | dirty {aggregate : DayAggregate} {row : Option TrendRow} (summary : aggregate.Measures values)
      (changed : aggregate.dirty = true) (own : ∀ old ∈ row, old.source = liveSource) :
      Coherent values first (some aggregate) row

namespace Coherent

variable {values : List ℚ} {first stored added : Option TrendRow} {memory : Option DayAggregate}
  {value : ℚ}

/-- A recorded value, when no backfill was there before the first one. -/
theorem record (coherent : Coherent values first memory stored) (key : TrendKey)
    (fresh : values = [] → stored = none) :
    Coherent (values ++ [value]) first
      (some ((continued key value memory stored).add key value)) stored := by
  cases coherent with
  | unmeasured silent =>
      subst silent
      rw [fresh rfl]
      apply Coherent.dirty
      · have single := Summarizes.singleton value
        simpa [DayAggregate.Measures, DayAggregate.add, continued] using single
      · rfl
      · intro old member
        contradiction
  | @stored row measures =>
      apply Coherent.dirty
      · exact measures.summary.concat
      · rfl
      · intro old member
        rw [← Option.some.inj member]
        exact measures.source
  | @clean aggregate row summary unchanged measures =>
      apply Coherent.dirty
      · exact Summarizes.concat summary
      · rfl
      · intro old member
        rw [← Option.some.inj member]
        exact measures.source
  | dirty summary changed own =>
      apply Coherent.dirty
      · exact Summarizes.concat summary
      · rfl
      · exact own

/-- A backfilled row, when no measured values still have to be written. -/
theorem backfill (coherent : Coherent values first memory stored)
    (calm : stored = none → ∀ row ∈ added, values = [] ∨ row.source = liveSource) :
    Coherent values (first.or added) memory (stored.or added) := by
  cases coherent with
  | unmeasured silent => exact .unmeasured silent
  | stored measures => exact .stored measures
  | clean summary unchanged measures => exact .clean summary unchanged measures
  | dirty summary changed own =>
      apply Coherent.dirty summary changed
      intro old member
      cases stored with
      | some row => exact own old member
      | none =>
          rcases calm rfl old member with unmeasured | live
          · exact absurd unmeasured summary.ne_nil
          · exact live

/-- The row of the aggregate, written over a row of the agent. -/
theorem measures_saved {aggregate : DayAggregate} (stamp : Text)
    (summary : aggregate.Measures values) (own : ∀ old ∈ stored, old.source = liveSource) :
    (aggregate.saved stamp stored).Measures values := by
  constructor
  · cases stored with
    | none => rfl
    | some row => exact own row rfl
  · exact summary

/-- A flush writes the aggregate, and keeps it or drops it. -/
theorem flush (coherent : Coherent values first memory stored) (stamp : Text) (kept : Bool) :
    Coherent values first
      (if kept then memory.map fun aggregate => { aggregate with dirty := false } else none)
      (writtenRow stamp memory stored) := by
  cases coherent with
  | unmeasured silent =>
      rw [Option.map_none, ite_self]
      exact .unmeasured silent
  | stored measures =>
      rw [Option.map_none, ite_self]
      exact .stored measures
  | @clean aggregate row summary unchanged measures =>
      have same : writtenRow stamp (some aggregate) (some row) = some row := by
        simp [writtenRow, unchanged]
      rw [same]
      cases kept with
      | false => exact .stored measures
      | true =>
          apply Coherent.clean
          · exact summary
          · rfl
          · exact measures
  | @dirty aggregate row summary changed own =>
      have same : writtenRow stamp (some aggregate) stored = some (aggregate.saved stamp stored) :=
        if_pos changed
      rw [same]
      cases kept with
      | false => exact .stored (measures_saved stamp summary own)
      | true =>
          apply Coherent.clean
          · exact summary
          · rfl
          · exact measures_saved stamp summary own

end Coherent

/-! ## Lookups -/

theorem key_saved (stamp : Text) (aggregate : DayAggregate) (stored : Option TrendRow) :
    (aggregate.saved stamp stored).key = aggregate.key := rfl

theorem find?_writeDay (stamp : Text) (table : TrendTable) (aggregate : DayAggregate)
    (wanted : TrendKey) : (writeDay stamp table aggregate).find? wanted =
      if aggregate.key = wanted then writtenRow stamp (some aggregate) (table.find? wanted)
      else table.find? wanted := by
  unfold writeDay writtenRow
  by_cases changed : aggregate.dirty = true
  · simp only [changed, if_true]
    split
    · rename_i same
      rw [← same, ← key_saved stamp aggregate (table.find? aggregate.key)]
      exact Table.find?_upsert_self
    · rename_i different
      exact Table.find?_upsert_of_ne (Ne.symm different)
  · simp only [changed, if_false, Bool.false_eq_true, ite_self]

/-- The row of a key after every changed aggregate is written. -/
theorem find?_written (stamp : Text) (days : DayTable) (table : TrendTable) (wanted : TrendKey) :
    (days.rows.foldl (writeDay stamp) table).find? wanted =
      writtenRow stamp (days.find? wanted) (table.find? wanted) := by
  rw [Table.find?_foldl (find?_writeDay stamp) days.rows days.distinct table wanted]
  unfold Table.find?
  cases days.rows.find? fun aggregate => aggregate.key = wanted with
  | none => rfl
  | some aggregate => rfl

namespace TrendMonitor

variable {zone : Zone} {monitor : TrendMonitor} {key wanted : TrendKey} {value : ℚ}
  {instant : Int}

theorem find?_accumulate_self : (monitor.accumulate key value).days.find? key =
    some ((continued key value (monitor.days.find? key) (monitor.table.find? key)).add key value) :=
  Table.find?_upsert_self

theorem find?_accumulate_of_ne (different : wanted ≠ key) :
    (monitor.accumulate key value).days.find? wanted = monitor.days.find? wanted :=
  Table.find?_upsert_of_ne different

/-- A flush keeps the aggregates of its day. -/
theorem find?_flush_days : (monitor.flush zone instant).days.find? wanted =
    if wanted.1 = dayText zone instant then
      (monitor.days.find? wanted).map fun aggregate => { aggregate with dirty := false }
    else none := by
  unfold flush
  rw [Table.find?_mapRows, Table.find?_filter]
  cases found : monitor.days.find? wanted with
  | none => simp
  | some aggregate =>
      rw [← (Table.find?_eq_some_iff.mp found).2]
      by_cases today : aggregate.key.1 = dayText zone instant <;> simp [today]

/-- A flush writes the row of a retained day. -/
theorem find?_flush_table (retained : ¬ wanted.1 < cutoffText zone instant) :
    (monitor.flush zone instant).table.find? wanted =
      writtenRow (zone.isoformat instant) (monitor.days.find? wanted)
        (monitor.table.find? wanted) := by
  rw [← find?_written]
  dsimp only [flush]
  split
  · rfl
  · rw [Table.find?_filter]
    cases found : Table.find? _ wanted with
    | none => rfl
    | some row =>
        have same : row.day = wanted.1 :=
          congrArg Prod.fst (Table.find?_eq_some_iff.mp found).2
        apply Option.filter_some_pos
        rw [same, decide_eq_false retained]
        rfl

end TrendMonitor

/-- The row that a backfill gives for a key. -/
def backfilledRow (zone : Zone) (node metric : Text) (values : List BackfillDay) (source : Text)
    (now : Int) (key : TrendKey) : Option TrendRow :=
  (values.find? fun value => !decide (dayText zone now ≤ value.day) &&
    decide ((value.day, node, metric) = key)).map (BackfillDay.row node metric source (zone.isoformat now))

theorem TrendMonitor.find?_recordBackfill (zone : Zone) (node metric : Text)
    (values : List BackfillDay) (source : Text) (now : Int) (monitor : TrendMonitor)
    (wanted : TrendKey) :
    (monitor.recordBackfill zone node metric values source now).table.find? wanted =
      (monitor.table.find? wanted).or
        (backfilledRow zone node metric values source now wanted) := by
  unfold TrendMonitor.recordBackfill backfilledRow
  generalize monitor.table = table
  induction values generalizing table with
  | nil => simp
  | cons value rest inductionHypothesis =>
      rw [List.foldl_cons, inductionHypothesis, backfillDay, List.find?_cons]
      by_cases late : dayText zone now ≤ value.day
      · simp [late]
      · rw [if_neg late, Table.find?_insertOrIgnore, Option.or_assoc]
        by_cases same : (value.day, node, metric) = wanted
        · have own : (value.row node metric source (zone.isoformat now)).key = wanted := same
          simp [late, same, own]
        · have other : (value.row node metric source (zone.isoformat now)).key ≠ wanted := same
          simp [same, other]

/-! ## Runs -/

inductive TrendCall where
  | recordMetric (node metric : Text) (value : ℚ) (observedAt : Int)
  | recordBackfill (node metric : Text) (values : List BackfillDay) (source : Text) (now : Int)
  | flush (now : Int)
  | restart (now : Int)

/-- The monitor, the values recorded for every key, the first row a backfill gave
for it and the instants of the flushes. -/
structure Measured where
  monitor : TrendMonitor
  values : TrendKey → List ℚ
  backfilled : TrendKey → Option TrendRow
  flushed : List Int

namespace Measured

/-- A new database. -/
def start : Measured where
  monitor := .open ∅
  values := fun _ => []
  backfilled := fun _ => none
  flushed := []

def next (zone : Zone) (measured : Measured) : TrendCall → Measured
  | .recordMetric node metric value observedAt =>
      let key := (dayText zone observedAt, node, metric)
      { measured with
        monitor := measured.monitor.recordMetric zone node metric value observedAt
        values := Function.update measured.values key (measured.values key ++ [value])
        flushed :=
          if (measured.monitor.accumulate key value).due zone observedAt then
            measured.flushed ++ [observedAt]
          else measured.flushed }
  | .recordBackfill node metric values source now =>
      { measured with
        monitor := measured.monitor.recordBackfill zone node metric values source now
        backfilled := fun key => (measured.backfilled key).or
          (backfilledRow zone node metric values source now key) }
  | .flush now =>
      { measured with
        monitor := measured.monitor.flush zone now
        flushed := measured.flushed ++ [now] }
  | .restart now =>
      { measured with
        monitor := measured.monitor.restart zone now
        flushed := measured.flushed ++ [now] }

/-- No flush so far was more than ninety days after the day. -/
def Retains (zone : Zone) (measured : Measured) (key : TrendKey) : Prop :=
  ∀ instant ∈ measured.flushed, ¬ key.1 < cutoffText zone instant

instance (zone : Zone) (measured : Measured) (key : TrendKey) :
    Decidable (measured.Retains zone key) :=
  inferInstanceAs (Decidable (∀ instant ∈ measured.flushed, ¬ key.1 < cutoffText zone instant))

/-- The first value of a key finds no backfilled row, and a row is backfilled by
another source only for a key without values. -/
def Calm (zone : Zone) (measured : Measured) : TrendCall → Prop
  | .recordMetric node metric _ observedAt =>
      let key := (dayText zone observedAt, node, metric)
      measured.Retains zone key → measured.values key = [] →
        measured.monitor.table.find? key = none
  | .recordBackfill node metric values source now =>
      ∀ key, measured.Retains zone key → measured.monitor.table.find? key = none →
        ∀ row ∈ backfilledRow zone node metric values source now key,
          measured.values key = [] ∨ row.source = liveSource
  | .flush _ | .restart _ => True

/-- The row of a key is the summary of its values, or the first backfilled one. -/
structure Exact (measured : Measured) (key : TrendKey) : Prop where
  recorded : measured.values key ≠ [] →
    ∃ row, measured.monitor.table.find? key = some row ∧ row.Measures (measured.values key)
  unmeasured : measured.values key = [] →
    measured.monitor.table.find? key = measured.backfilled key

/-- The aggregate and the row of a key agree with its values. -/
def Tracks (measured : Measured) (key : TrendKey) : Prop :=
  Coherent (measured.values key) (measured.backfilled key) (measured.monitor.days.find? key)
    (measured.monitor.table.find? key)

end Measured

/-- A call that meets the condition. -/
structure CalmCall (zone : Zone) (measured : Measured) (call : TrendCall) (after : Measured) :
    Prop where
  calm : measured.Calm zone call
  call : measured.next zone call = after

variable {zone : Zone} {measured after : Measured} {call : TrendCall} {key : TrendKey}

/-- What is retained was retained. -/
theorem Measured.Retains.of_next (retained : (measured.next zone call).Retains zone key) :
    measured.Retains zone key := by
  intro instant member
  apply retained
  cases call with
  | recordBackfill => exact member
  | flush | restart => exact List.mem_append_left _ member
  | recordMetric node metric value observedAt =>
      dsimp only [Measured.next]
      split
      · exact List.mem_append_left _ member
      · exact member

/-- A flush keeps what it finds for a retained key. -/
theorem Coherent.flushed {values : List ℚ} {first : Option TrendRow} {monitor : TrendMonitor}
    {instant : Int} (retained : ¬ key.1 < cutoffText zone instant)
    (coherent : Coherent values first (monitor.days.find? key) (monitor.table.find? key)) :
    Coherent values first ((monitor.flush zone instant).days.find? key)
      ((monitor.flush zone instant).table.find? key) := by
  rw [TrendMonitor.find?_flush_days, TrendMonitor.find?_flush_table retained]
  have kept := coherent.flush (zone.isoformat instant) (decide (key.1 = dayText zone instant))
  simpa only [decide_eq_true_eq] using kept

/-- A restart flushes and drops every aggregate. -/
theorem Coherent.restarted {values : List ℚ} {first : Option TrendRow} {monitor : TrendMonitor}
    {instant : Int} (retained : ¬ key.1 < cutoffText zone instant)
    (coherent : Coherent values first (monitor.days.find? key) (monitor.table.find? key)) :
    Coherent values first ((monitor.restart zone instant).days.find? key)
      ((monitor.restart zone instant).table.find? key) := by
  have written := coherent.flush (zone.isoformat instant) false
  rw [← TrendMonitor.find?_flush_table retained] at written
  exact written

/-- A recorded value is added to its key. -/
theorem Measured.Tracks.accumulated {node metric : Text} {value : ℚ} {observedAt : Int}
    (tracks : measured.Tracks key) (retained : measured.Retains zone key)
    (calm : measured.Calm zone (.recordMetric node metric value observedAt)) :
    Coherent ((measured.next zone (.recordMetric node metric value observedAt)).values key)
      (measured.backfilled key)
      ((measured.monitor.accumulate (dayText zone observedAt, node, metric) value).days.find? key)
      (measured.monitor.table.find? key) := by
  dsimp only [Measured.next]
  by_cases own : key = (dayText zone observedAt, node, metric)
  · rw [← own, Function.update_self, TrendMonitor.find?_accumulate_self]
    apply Coherent.record tracks key
    intro silent
    rw [own] at silent retained ⊢
    exact calm retained silent
  · rw [Function.update_of_ne own, TrendMonitor.find?_accumulate_of_ne own]
    exact tracks

/-- A call keeps the agreement of every key that is still retained. -/
theorem CalmCall.tracks (called : CalmCall zone measured call after)
    (retained : after.Retains zone key) (tracks : measured.Tracks key) : after.Tracks key := by
  rcases called with ⟨calm, rfl⟩
  have before := retained.of_next
  cases call with
  | flush now =>
      exact Coherent.flushed (retained now List.mem_concat_self) tracks
  | restart now =>
      exact Coherent.restarted (retained now List.mem_concat_self) tracks
  | recordBackfill node metric values source now =>
      unfold Measured.Tracks Measured.next
      dsimp only
      rw [TrendMonitor.find?_recordBackfill]
      exact Coherent.backfill tracks (calm key before)
  | recordMetric node metric value observedAt =>
      have added := tracks.accumulated before calm
      unfold Measured.Retains Measured.next at retained
      unfold Measured.Tracks
      dsimp only [Measured.next, TrendMonitor.recordMetric] at retained added ⊢
      split
      · rename_i due
        rw [if_pos due] at retained
        exact Coherent.flushed (retained observedAt List.mem_concat_self) added
      · exact added

/-- A flush leaves no changed aggregate. -/
theorem TrendMonitor.clean_flush {monitor : TrendMonitor} {instant : Int} :
    ∀ aggregate ∈ (monitor.flush zone instant).days.find? key, aggregate.dirty = false := by
  intro aggregate found
  rw [TrendMonitor.find?_flush_days] at found
  split at found
  · rcases Option.map_eq_some_iff.mp found with ⟨_, _, rfl⟩
    rfl
  · contradiction

theorem CalmCall.clean (called : CalmCall zone measured call after) {now : Int}
    (flush : after.flushed = measured.flushed ++ [now]) :
    ∀ aggregate ∈ after.monitor.days.find? key, aggregate.dirty = false := by
  rcases called with ⟨_, rfl⟩
  cases call with
  | flush now => exact TrendMonitor.clean_flush
  | restart now =>
      intro aggregate found
      contradiction
  | recordBackfill node metric values source now =>
      simp [Measured.next] at flush
  | recordMetric node metric value observedAt =>
      dsimp only [Measured.next, TrendMonitor.recordMetric] at flush ⊢
      split at flush
      · rename_i due
        rw [if_pos due]
        exact TrendMonitor.clean_flush
      · simp at flush

/-- Without changed aggregates, the row is the one of the values. -/
theorem Measured.Tracks.exact (tracks : measured.Tracks key)
    (clean : ∀ aggregate ∈ measured.monitor.days.find? key, aggregate.dirty = false) :
    measured.Exact key := by
  unfold Measured.Tracks at tracks
  generalize memory : measured.monitor.days.find? key = found at tracks clean
  generalize row : measured.monitor.table.find? key = stored at tracks
  cases tracks with
  | unmeasured silent =>
      constructor
      · intro recorded
        contradiction
      · intro _
        exact row
  | stored measures =>
      constructor
      · intro _
        exact ⟨_, row, measures⟩
      · intro silent
        exact absurd silent measures.summary.ne_nil
  | clean summary unchanged measures =>
      constructor
      · intro _
        exact ⟨_, row, measures⟩
      · intro silent
        exact absurd silent measures.summary.ne_nil
  | dirty summary changed own =>
      rw [clean _ rfl] at changed
      contradiction

theorem tracks_run {calls : List TrendCall} (run : Run (CalmCall zone) .start calls measured)
    (retained : measured.Retains zone key) : measured.Tracks key := by
  apply run.invariant (P := fun state => state.Retains zone key → state.Tracks key)
  · intro source label target tracks called kept
    apply called.tracks kept
    apply tracks
    rw [← called.call] at kept
    exact kept.of_next
  · intro _
    exact .unmeasured rfl
  · exact retained

/-- In a run of calls that meet the condition, every flush leaves the rows of the
retained keys as the summaries of their values, or as they were backfilled first. -/
theorem daily_trends_exact (zone : Zone) {calls : List TrendCall} {measured flushed : Measured}
    {call : TrendCall} {now : Int} (run : Run (CalmCall zone) .start calls measured)
    (called : CalmCall zone measured call flushed)
    (flush : flushed.flushed = measured.flushed ++ [now]) {key : TrendKey}
    (retained : flushed.Retains zone key) : flushed.Exact key := by
  have after := tracks_run (run.append (.single called)) retained
  exact after.exact (called.clean flush)

/-! ## A run that meets the condition, and one that does not -/

/-- Paris in winter. -/
def winter : Zone :=
  ⟨fun _ => hour⟩

/-- An instant of the first of January 2026 in Paris. -/
def newYear (hours minutes : Int) : Int :=
  20454 * day + (hours - 1) * hour + minutes * minute

def temperature : TrendKey :=
  ("2026-01-01".toList, "relay".toList, "temperature".toList)

/-- Two values: the first is flushed with its call, the second is not. -/
def noonCalls : List TrendCall :=
  [.recordMetric temperature.2.1 temperature.2.2 21 (newYear 12 0),
    .recordMetric temperature.2.1 temperature.2.2 20 (newYear 12 5)]

theorem noon_run : Run (CalmCall winter) .start noonCalls
    (noonCalls.foldl (Measured.next winter) .start) := by
  have first : CalmCall winter .start noonCalls[0] (Measured.start.next winter noonCalls[0]) :=
    ⟨fun _ _ => rfl, rfl⟩
  apply Run.cons first
  apply Run.single
  constructor
  · intro _ silent
    revert silent
    decide +kernel
  · rfl

/-- After the next flush the row has both values. -/
theorem noon_exact :
    ((noonCalls.foldl (Measured.next winter) .start).next winter (.flush (newYear 12 10))).Exact
      temperature := by
  have flushes : CalmCall winter (noonCalls.foldl (Measured.next winter) .start)
      (.flush (newYear 12 10)) _ := ⟨True.intro, rfl⟩
  apply daily_trends_exact winter noon_run flushes rfl
  decide +kernel

/-- A value just before midnight, the backfill of its day just after, and a flush. -/
def midnightCalls : List TrendCall :=
  [.recordMetric "relay".toList "voltage".toList 230 (newYear 23 40),
    .recordMetric temperature.2.1 temperature.2.2 21 (newYear 23 50),
    .recordBackfill temperature.2.1 temperature.2.2 [⟨temperature.1, 18, 22, 19, 24⟩]
      "home_assistant".toList (newYear 24 5),
    .flush (newYear 24 6)]

/-- The measured day keeps the source of the backfill. -/
theorem backfill_hides_agent :
    (midnightCalls.foldl (Measured.next winter) .start).Retains winter temperature ∧
      (midnightCalls.foldl (Measured.next winter) .start).values temperature = [21] ∧
      ¬ (midnightCalls.foldl (Measured.next winter) .start).Exact temperature := by
  have source : ((midnightCalls.foldl (Measured.next winter) .start).monitor.table.find?
      temperature).map TrendRow.source = some "home_assistant".toList := by decide +kernel
  have values : (midnightCalls.foldl (Measured.next winter) .start).values temperature = [21] := by
    decide +kernel
  constructor
  · decide +kernel
  · constructor
    · exact values
    · intro exact
      rcases exact.recorded (by rw [values]; exact List.cons_ne_nil 21 []) with ⟨row, found, own⟩
      rw [found, Option.map_some, own.source] at source
      revert source
      decide

end OhanaAgent.Tsunade
