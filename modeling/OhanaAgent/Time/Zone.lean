import Mathlib.Data.List.Basic

/-!
# Instants, local time and their texts

An instant is an integer, its number of microseconds since the epoch.  A zone gives the UTC
offset of every instant; local fields and ISO 8601 texts are computed from the
shifted instant.  Databases compare the texts, programs compare the instants.
-/

namespace OhanaAgent.Time

def second : Int := 1000000

def minute : Int := 60 * second

def hour : Int := 60 * minute

def day : Int := 24 * hour

/-- A whole number of seconds. -/
def seconds (n : Nat) : Int :=
  n * second

/-- A time zone: the UTC offset in force at an instant, in microseconds. -/
structure Zone where
  utcOffset : Int → Int

/-- The calendar fields of a day counted from the epoch, in the proleptic
Gregorian calendar. -/
def civil (days : Int) : Int × Int × Int :=
  let shifted := days + 719468
  let era := shifted / 146097
  let dayOfEra := shifted % 146097
  let yearOfEra :=
    (dayOfEra - dayOfEra / 1460 + dayOfEra / 36524 - dayOfEra / 146096) / 365
  let dayOfYear := dayOfEra - (365 * yearOfEra + yearOfEra / 4 - yearOfEra / 100)
  let monthIndex := (5 * dayOfYear + 2) / 153
  let dayOfMonth := dayOfYear - (153 * monthIndex + 2) / 5 + 1
  let month := if monthIndex < 10 then monthIndex + 3 else monthIndex - 9
  let year := yearOfEra + era * 400 + (if month ≤ 2 then 1 else 0)
  (year, month, dayOfMonth)

/-- `date.weekday()`, from Monday, of a day counted from the epoch. -/
def weekday (date : Int) : Int :=
  (date + 3) % 7

/-- A number in decimal, padded with zeros on the left. -/
def padded (width : Nat) (n : Int) : List Char :=
  let digits := (toString n.toNat).toList
  List.replicate (width - digits.length) '0' ++ digits

/-- The suffix of an offset, with seconds only when there are some. -/
def offsetText (offset : Int) : List Char :=
  let size := offset.natAbs
  let total : Int := size / second.toNat
  (if offset < 0 then '-' else '+') :: (padded 2 (total / 3600) ++ ':' :: padded 2 (total / 60 % 60) ++
    if total % 60 = 0 then [] else ':' :: padded 2 (total % 60))

/-- The date and the time of a local time, with microseconds only when there
are some. -/
def localText (shown : Int) : List Char :=
  let (year, month, dayOfMonth) := civil (shown / day)
  let rest := shown % day
  padded 4 year ++ '-' :: padded 2 month ++ '-' :: padded 2 dayOfMonth ++
    'T' :: padded 2 (rest / hour) ++ ':' :: padded 2 (rest / minute % 60) ++
    ':' :: padded 2 (rest / second % 60) ++
    (if rest % second = 0 then [] else '.' :: padded 6 (rest % second))

/-- `datetime.isoformat` of an instant shown with an offset. -/
def isoText (offset : Int) (instant : Int) : List Char :=
  localText (instant + offset) ++ offsetText offset

namespace Zone

/-- The local time of an instant, as if it were UTC. -/
def wall (zone : Zone) (instant : Int) : Int :=
  instant + zone.utcOffset instant

/-- The local time since midnight. -/
def timeOfDay (zone : Zone) (instant : Int) : Int :=
  zone.wall instant % day

/-- The local hour. -/
def hourOfDay (zone : Zone) (instant : Int) : Int :=
  zone.timeOfDay instant / hour

/-- `value.astimezone(zone).isoformat()`. -/
def isoformat (zone : Zone) (instant : Int) : List Char :=
  isoText (zone.utcOffset instant) instant

end Zone

/-- A zone that also resolves local times: the offset of a local time, the
earlier one where the clock shows it twice. -/
structure LocalZone extends Zone where
  localOffset : Int → Int

/-- The instant of a local time. -/
def LocalZone.instantOf (zone : LocalZone) (wall : Int) : Int :=
  wall - zone.localOffset wall

/-- A fixed offset. -/
def LocalZone.fixed (offset : Int) : LocalZone where
  utcOffset _ := offset
  localOffset _ := offset

@[simp]
theorem LocalZone.wall_fixed (offset instant : Int) :
    (LocalZone.fixed offset).wall instant = instant + offset := rfl

@[simp]
theorem LocalZone.instantOf_fixed (offset wall : Int) :
    (LocalZone.fixed offset).instantOf wall = wall - offset := rfl

/-- `datetime.min` and the first instant after `datetime.max`. -/
def datetimeMin : Int := -62135596800 * second

def datetimeEnd : Int := 253402300800 * second

/-- A date and time that `datetime` can hold. -/
def Representable (wall : Int) : Prop :=
  datetimeMin ≤ wall ∧ wall < datetimeEnd

instance (wall : Int) : Decidable (Representable wall) :=
  inferInstanceAs (Decidable (_ ∧ _))

/-- `math.ceil` of a duration in seconds. -/
def ceilSeconds (duration : Int) : Int :=
  -(-duration / second)

theorem le_ceilSeconds (duration : Int) : duration ≤ ceilSeconds duration * second := by
  unfold ceilSeconds second
  omega

theorem ceilSeconds_pos_iff {duration : Int} : 0 < ceilSeconds duration ↔ 0 < duration := by
  unfold ceilSeconds second
  omega

/-- SQLite's `julianday` keeps milliseconds. -/
def julianday (instant : Int) : Int :=
  (instant + 500) / 1000

theorem julianday_mono {first second : Int} (ordered : first ≤ second) :
    julianday first ≤ julianday second := by
  unfold julianday
  omega

end OhanaAgent.Time
