import Mathlib.Algebra.Order.Ring.Rat
import OhanaAgent.Store.Table
import OhanaAgent.Time.Order

/-!
# Daily trends

`TsunadePreventiveMonitor` keeps the aggregates of the current day in memory and
writes the changed ones every fifteen minutes.  Past days can be rebuilt from
elsewhere; a row that is there is never replaced by such a backfill.
-/

namespace OhanaAgent.Tsunade

open OhanaAgent.Encoding.Json (Text)
open OhanaAgent.Store
open OhanaAgent.Time

def flushInterval : Int := 15 * minute

def trendRetentionDays : Int := 90

/-- `date.isoformat()` of a day counted from the epoch. -/
def isoDate (days : Int) : Text :=
  padded 4 (civil days).1 ++ '-' :: (padded 2 (civil days).2.1 ++ '-' :: padded 2 (civil days).2.2)

/-- `to_paris(at).date().isoformat()`. -/
def dayText (zone : Zone) (instant : Int) : Text :=
  isoDate (zone.wall instant / day)

/-- The first day of the retention. -/
def cutoffText (zone : Zone) (instant : Int) : Text :=
  isoDate (zone.wall instant / day - trendRetentionDays)

/-- A day, a node and a metric. -/
abbrev TrendKey : Type := Text × Text × Text

/-- A row of `tsunade_trend_daily`. -/
structure TrendRow where
  day : Text
  nodeId : Text
  metric : Text
  minimum : ℚ
  maximum : ℚ
  lastValue : ℚ
  samples : Nat
  updatedAt : Text
  source : Text
  total : ℚ
  deriving DecidableEq

def TrendRow.key (row : TrendRow) : TrendKey :=
  (row.day, row.nodeId, row.metric)

abbrev TrendTable : Type := Table TrendRow TrendRow.key

/-- `_Day`, with its key. -/
structure DayAggregate where
  key : TrendKey
  minimum : ℚ
  maximum : ℚ
  last : ℚ
  samples : Nat
  total : ℚ
  dirty : Bool

abbrev DayTable : Type := Table DayAggregate DayAggregate.key

/-- `TsunadePreventiveMonitor`: the table, the aggregates in memory, and the last
flush and purge of this process. -/
structure TrendMonitor where
  table : TrendTable
  days : DayTable
  lastFlush : Option Int
  purgedOn : Option Text

/-- A monitor opened on a table. -/
def TrendMonitor.open (table : TrendTable) : TrendMonitor where
  table := table
  days := ∅
  lastFlush := none
  purgedOn := none

def liveSource : Text := "agent".toList

/-- The row an aggregate writes: `ON CONFLICT` keeps the source that is there. -/
def DayAggregate.saved (stamp : Text) (aggregate : DayAggregate) (stored : Option TrendRow) :
    TrendRow where
  day := aggregate.key.1
  nodeId := aggregate.key.2.1
  metric := aggregate.key.2.2
  minimum := aggregate.minimum
  maximum := aggregate.maximum
  lastValue := aggregate.last
  samples := aggregate.samples
  updatedAt := stamp
  source := (stored.map TrendRow.source).getD liveSource
  total := aggregate.total

/-- Write one aggregate, when it changed. -/
def writeDay (stamp : Text) (table : TrendTable) (aggregate : DayAggregate) : TrendTable :=
  if aggregate.dirty then table.upsert (aggregate.saved stamp (table.find? aggregate.key))
  else table

namespace TrendMonitor

/-- `_flush`. -/
def flush (zone : Zone) (current : Int) (monitor : TrendMonitor) : TrendMonitor :=
  let today := dayText zone current
  let written := monitor.days.rows.foldl (writeDay (zone.isoformat current)) monitor.table
  { table :=
      if monitor.purgedOn = some today then written
      else written.filter fun row => !decide (row.day < cutoffText zone current)
    days := (monitor.days.filter fun aggregate => aggregate.key.1 = today).mapRows
      (fun aggregate => { aggregate with dirty := false }) fun _ => rfl
    lastFlush := some current
    purgedOn := some today }

/-- The condition of `_maybe_flush`. -/
def due (zone : Zone) (observedAt : Int) (monitor : TrendMonitor) : Bool :=
  match monitor.lastFlush with
  | none => true
  | some last => flushInterval ≤ observedAt - last ||
      monitor.days.rows.any fun aggregate => aggregate.key.1 ≠ dayText zone observedAt

/-- The aggregate in memory, or the one of the stored row, or a new one. -/
def current (key : TrendKey) (value : ℚ) (monitor : TrendMonitor) : DayAggregate :=
  match monitor.days.find? key with
  | some aggregate => aggregate
  | none =>
      match monitor.table.find? key with
      | some row =>
          { key := key
            minimum := row.minimum
            maximum := row.maximum
            last := value
            samples := row.samples
            total := row.total
            dirty := true }
      | none =>
          { key := key
            minimum := value
            maximum := value
            last := value
            samples := 0
            total := 0
            dirty := true }

/-- `_accumulate`. -/
def accumulate (key : TrendKey) (value : ℚ) (monitor : TrendMonitor) : TrendMonitor :=
  let aggregate := monitor.current key value
  { monitor with
    days := monitor.days.upsert
      { key := key
        minimum := min aggregate.minimum value
        maximum := max aggregate.maximum value
        last := value
        samples := aggregate.samples + 1
        total := aggregate.total + value
        dirty := true } }

/-- `record_metric`. -/
def recordMetric (zone : Zone) (node metric : Text) (value : ℚ) (observedAt : Int)
    (monitor : TrendMonitor) : TrendMonitor :=
  let accumulated := monitor.accumulate (dayText zone observedAt, node, metric) value
  if accumulated.due zone observedAt then accumulated.flush zone observedAt else accumulated

end TrendMonitor

/-- A rebuilt day. -/
structure BackfillDay where
  day : Text
  minimum : ℚ
  maximum : ℚ
  last : ℚ
  hours : Nat

/-- The row of a rebuilt day. -/
def BackfillDay.row (node metric source stamp : Text) (value : BackfillDay) : TrendRow where
  day := value.day
  nodeId := node
  metric := metric
  minimum := value.minimum
  maximum := value.maximum
  lastValue := value.last
  samples := value.hours
  updatedAt := stamp
  source := source
  total := 0

/-- One turn of `record_backfill`: `INSERT OR IGNORE`. -/
def backfillDay (today node metric source stamp : Text) (table : TrendTable)
    (value : BackfillDay) : TrendTable :=
  if today ≤ value.day then table
  else (table.insert? (value.row node metric source stamp)).getD table

/-- `record_backfill`. -/
def TrendMonitor.recordBackfill (zone : Zone) (node metric : Text) (values : List BackfillDay)
    (source : Text) (current : Int) (monitor : TrendMonitor) : TrendMonitor :=
  { monitor with
    table := values.foldl
      (backfillDay (dayText zone current) node metric source (zone.isoformat current))
      monitor.table }

/-- `close`, and a new process on the same database. -/
def TrendMonitor.restart (zone : Zone) (current : Int) (monitor : TrendMonitor) : TrendMonitor :=
  .open (monitor.flush zone current).table

end OhanaAgent.Tsunade
