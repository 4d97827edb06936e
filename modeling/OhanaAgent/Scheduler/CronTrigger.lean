import Mathlib.Data.List.Basic
import OhanaAgent.Encoding.Substitution
import OhanaAgent.Privacy.SessionPaths
import OhanaAgent.Time.Zone

/-!
# Cron triggers

A trigger is due in the minutes whose five calendar fields are all in its sets.
Unlike the usual cron, the weekday counts from Monday and the day of the month
and the weekday must both match.  A trigger remembers its last execution, and
is not due again in the minute of it: the wall clock minute of its timezone or,
without one, the minute as an instant.
-/

namespace OhanaAgent.Scheduler

open Encoding Encoding.Json Time
open Privacy (isWhitespace)

/-! ## Expressions -/

/-- Why an expression is refused. -/
inductive CronError where
  | fieldCount
  | step
  | bounds (minimum maximum : Int)
  | literal (text : Text)
deriving DecidableEq

def CronError.message : CronError → String
  | .fieldCount => "cron expression must contain exactly five fields"
  | .step => "cron step must be greater than zero"
  | .bounds minimum maximum => s!"cron field values must be between {minimum} and {maximum}"
  | .literal text => s!"invalid literal for int() with base 10: '{String.ofList text}'"

/-- The values of a field, as the parser accepts them. -/
structure FieldValues (minimum maximum : Int) where
  values : List Int
  values_ne : values ≠ []
  in_range : ∀ value ∈ values, minimum ≤ value ∧ value ≤ maximum

/-- Values that pass the check of their range. -/
def FieldValues.checked {minimum maximum : Int} (values : List Int)
    (valid : (!values.isEmpty && values.all fun value => minimum ≤ value && value ≤ maximum) =
      true) : FieldValues minimum maximum where
  values := values
  values_ne := by
    rintro rfl
    simp at valid
  in_range := by
    simp only [Bool.and_eq_true, List.all_eq_true, decide_eq_true_eq] at valid
    exact valid.2

/-- The zeros of the decimal digits of Unicode; the other nine follow each. -/
def decimalZeros : List Nat :=
  [0x30, 0x660, 0x6f0, 0x7c0, 0x966, 0x9e6, 0xa66, 0xae6, 0xb66, 0xbe6, 0xc66, 0xce6, 0xd66, 0xde6,
    0xe50, 0xed0, 0xf20, 0x1040, 0x1090, 0x17e0, 0x1810, 0x1946, 0x19d0, 0x1a80, 0x1a90, 0x1b50,
    0x1bb0, 0x1c40, 0x1c50, 0xa620, 0xa8d0, 0xa900, 0xa9d0, 0xa9f0, 0xaa50, 0xabf0, 0xff10, 0x104a0,
    0x10d30, 0x11066, 0x110f0, 0x11136, 0x111d0, 0x112f0, 0x11450, 0x114d0, 0x11650, 0x116c0,
    0x11730, 0x118e0, 0x11950, 0x11c50, 0x11d50, 0x11da0, 0x11f50, 0x16a60, 0x16ac0, 0x16b50,
    0x1d7ce, 0x1d7d8, 0x1d7e2, 0x1d7ec, 0x1d7f6, 0x1e140, 0x1e2f0, 0x1e4f0, 0x1e950, 0x1fbf0]

/-- The value of a decimal digit. -/
def decimalValue (c : Char) : Option Nat :=
  (decimalZeros.find? fun first => first ≤ c.toNat && c.toNat < first + 10).map (c.toNat - ·)

/-- Decimal digits, with single underscores between them. -/
def readDigits (text : Text) : Option Int :=
  let groups := text.splitOn '_'
  if groups.all fun group => !group.isEmpty then
    (groups.flatten.mapM decimalValue).map fun digits =>
      digits.foldl (fun value digit => 10 * value + (digit : Int)) 0
  else none

/-- `int(text)`. -/
def readInt (text : Text) : Except CronError Int :=
  let value :=
    match text with
    | '-' :: digits => (readDigits digits).map fun value => -value
    | '+' :: digits => readDigits digits
    | digits => readDigits digits
  match value with
  | some value => .ok value
  | none => .error (.literal text)

/-- `range(start, end + 1, step)`. -/
def range (start end_ step : Int) : List Int :=
  (List.range ((end_ - start + step) / step).toNat).map fun (index : Nat) => start + index * step

/-- `text.split(separator, 1)`, of a text with the separator. -/
def splitOnce (separator : Char) (text : Text) : Text × Text :=
  (text.takeWhile (· ≠ separator), (text.dropWhile (· ≠ separator)).tail)

/-- The numbers of `start-end`. -/
def readBounds (text : Text) : Except CronError (Int × Int) := do
  let (startRaw, endRaw) := splitOnce '-' text
  let start ← readInt startRaw
  let end_ ← readInt endRaw
  return (start, end_)

/-- The values of a part of a field. -/
def readPart (minimum maximum : Int) (part : Text) : Except CronError (List Int) :=
  if '/' ∈ part then do
    let (base, stepRaw) := splitOnce '/' part
    let step ← readInt stepRaw
    if step ≤ 0 then throw .step
    if base = ['*'] then return range minimum maximum step
    if '-' ∈ base then
      let (start, end_) ← readBounds base
      return range start end_ step
    let start ← readInt base
    return range start maximum step
  else if '-' ∈ part then do
    let (start, end_) ← readBounds part
    return range start end_ 1
  else do
    let value ← readInt part
    return [value]

/-- `_parse_field`. -/
def parseField (minimum maximum : Int) (field : Text) :
    Except CronError (FieldValues minimum maximum) := do
  let values ←
    if field = ['*'] then pure (range minimum maximum 1)
    else (·.flatten) <$> (field.splitOn ',').mapM (readPart minimum maximum)
  if accepted : values ≠ [] ∧ ∀ value ∈ values, minimum ≤ value ∧ value ≤ maximum then
    return ⟨values, accepted.1, accepted.2⟩
  else throw (.bounds minimum maximum)

/-- `WEEKDAY_NAMES`. -/
def weekdayNames : List (Text × Text) :=
  ["mon", "tue", "wed", "thu", "fri", "sat", "sun"].zipIdx.map fun (name, number) =>
    (name.toList, (toString number).toList)

/-- `WEEKDAY_NAME`, and the number that takes its place. -/
def weekdayName (_ : Option Char) : Text → Option (Replacement Char)
  | first :: second :: third :: _ =>
      (weekdayNames.lookup [first.toLower, second.toLower, third.toLower]).map fun number =>
        ⟨3, number⟩
  | _ => none

/-! ## The trigger -/

/-- `CronTrigger`, with the state of `BaseTrigger`. -/
structure CronTrigger where
  timezone : Option LocalZone
  minutes : FieldValues 0 59
  hours : FieldValues 0 23
  days : FieldValues 1 31
  months : FieldValues 1 12
  weekdays : FieldValues 0 6
  fireCount : Nat
  lastExecutedAt : Option Int

/-- `CronTrigger(expression, timezone)`. -/
def CronTrigger.ofExpression (expression : Text) (timezone : Option LocalZone) :
    Except CronError CronTrigger :=
  match (expression.splitOnP isWhitespace).filter fun field => !field.isEmpty with
  | [minutes, hours, days, months, weekdays] => do
      let minutes ← parseField 0 59 minutes
      let hours ← parseField 0 23 hours
      let days ← parseField 1 31 days
      let months ← parseField 1 12 months
      let weekdays ← parseField 0 6 (substitute weekdayName weekdays)
      return ⟨timezone, minutes, hours, days, months, weekdays, 0, none⟩
  | _ => throw .fieldCount

namespace CronTrigger

/-- The zone in which a trigger shows an instant: its own, or else the fixed offset
that the instant came with. -/
def zoneAt (trigger : CronTrigger) (clock : Zone) (instant : Int) : LocalZone :=
  trigger.timezone.getD (.fixed (clock.utcOffset instant))

/-- The local time of an instant. -/
def wall (trigger : CronTrigger) (clock : Zone) (instant : Int) : Int :=
  (trigger.zoneAt clock instant).wall instant

/-- `replace(second=0, microsecond=0)`. -/
def wholeMinute (local_ : Int) : Int :=
  local_ - local_ % minute

/-- `_matches`. -/
def matches_ (trigger : CronTrigger) (value : Int) : Bool :=
  let (_, month, dayOfMonth) := civil (value / day)
  trigger.minutes.values.contains (value / minute % 60) &&
    trigger.hours.values.contains (value / hour % 24) &&
    trigger.days.values.contains dayOfMonth && trigger.months.values.contains month &&
    trigger.weekdays.values.contains (weekday (value / day))

/-- The minutes that a search of `next_run_at` tries. -/
def search (trigger : CronTrigger) : Nat → Int → Option Int
  | 0, _ => none
  | steps + 1, candidate =>
      if trigger.matches_ candidate then some candidate
      else trigger.search steps (candidate + minute)

/-- The local time that `next_run_at` finds after a local time. -/
def nextLocal (trigger : CronTrigger) (local_ : Int) : Option Int :=
  trigger.search (366 * 24 * 60) (wholeMinute local_ + minute)

/-- `next_run_at`.  The addition clears the `fold` of the datetime it returns: a
local time that the clock shows twice is the earlier instant. -/
def nextRunAt (trigger : CronTrigger) (clock : Zone) (after : Int) : Option Int :=
  (trigger.nextLocal (trigger.wall clock after)).map (trigger.zoneAt clock after).instantOf

/-- The minute in which `is_due` compares executions.  Without a timezone the
datetimes keep the offsets they came with, and compare as instants. -/
def minuteOf (trigger : CronTrigger) (clock : Zone) (instant : Int) : Int :=
  match trigger.timezone with
  | some zone => wholeMinute (zone.wall instant)
  | none =>
      let offset := LocalZone.fixed (clock.utcOffset instant)
      offset.instantOf (wholeMinute (offset.wall instant))

def isDue (trigger : CronTrigger) (clock : Zone) (now : Int) : Bool :=
  let alreadyExecuted :=
    match trigger.lastExecutedAt with
    | none => false
    | some last => trigger.minuteOf clock last == trigger.minuteOf clock now
  trigger.matches_ (wholeMinute (trigger.wall clock now)) && !alreadyExecuted

def markExecuted (trigger : CronTrigger) (executedAt : Int) : CronTrigger :=
  { trigger with
    fireCount := trigger.fireCount + 1
    lastExecutedAt := some executedAt }

end CronTrigger

end OhanaAgent.Scheduler
