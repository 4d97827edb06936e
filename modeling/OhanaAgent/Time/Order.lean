import Mathlib.Algebra.Group.Int.Defs
import Mathlib.Algebra.Group.Nat.Defs
import OhanaAgent.Encoding.Json
import OhanaAgent.Time.Zone

/-!
# The order of stored timestamps

Timestamps of one offset sort as texts in the order of their instants: the
fields of the calendar grow with the days, numbers of one width compare as their
digits, and a text without microseconds comes before the ones that have some.
-/

namespace OhanaAgent.Time

open Encoding.Json (Text)

/-! ## The calendar -/

/-- The year of a day within its era of 400 years. -/
def yearOfEra (dayOfEra : Int) : Int :=
  (dayOfEra - dayOfEra / 1460 + dayOfEra / 36524 - dayOfEra / 146096) / 365

/-- The day of that year, counted from the first of March. -/
def dayOfYear (dayOfEra : Int) : Int :=
  dayOfEra - (365 * yearOfEra dayOfEra + yearOfEra dayOfEra / 4 - yearOfEra dayOfEra / 100)

/-- The month of a day of the year, counted from March. -/
def monthIndex (dayOfYear : Int) : Int :=
  (5 * dayOfYear + 2) / 153

/-- The day of the month. -/
def dayOfMonth (dayOfYear : Int) : Int :=
  dayOfYear - (153 * monthIndex dayOfYear + 2) / 5 + 1

theorem leapDays_step (n : Int) :
    n - n / 1460 + n / 36524 - n / 146096 ≤
      n + 1 - (n + 1) / 1460 + (n + 1) / 36524 - (n + 1) / 146096 := by
  omega

theorem yearOfEra_mono {first second : Int} (ordered : first ≤ second) :
    yearOfEra first ≤ yearOfEra second := by
  apply Int.ediv_le_ediv (by decide)
  rcases Int.le.dest ordered with ⟨gap, rfl⟩
  clear ordered
  induction gap with
  | zero => simp
  | succ gap inductionHypothesis =>
      rw [Int.natCast_succ, ← Int.add_assoc]
      exact Int.le_trans inductionHypothesis (leapDays_step (first + gap))

theorem yearOfEra_range {n : Int} (low : 0 ≤ n) (high : n < 146097) :
    0 ≤ yearOfEra n ∧ yearOfEra n ≤ 399 := by
  unfold yearOfEra
  omega

theorem yearOfEra_century {n : Int} (low : 0 ≤ n) (high : n < 146096) :
    yearOfEra n / 100 = n / 36524 := by
  have last : n / 146096 = 0 := by omega
  have centuries : n / 36524 = 0 ∨ n / 36524 = 1 ∨ n / 36524 = 2 ∨ n / 36524 = 3 := by omega
  unfold yearOfEra
  rw [last]
  rcases centuries with century | century | century | century <;> rw [century] <;> omega

theorem dayOfYear_range {n : Int} (low : 0 ≤ n) (high : n < 146097) :
    0 ≤ dayOfYear n ∧ dayOfYear n ≤ 365 := by
  rcases (by omega : n < 146096 ∨ n = 146096) with inside | rfl
  · have last : n / 146096 = 0 := by omega
    have centuries : n / 36524 = 0 ∨ n / 36524 = 1 ∨ n / 36524 = 2 ∨ n / 36524 = 3 := by omega
    unfold dayOfYear
    rw [yearOfEra_century low inside]
    unfold yearOfEra
    rw [last]
    rcases centuries with century | century | century | century <;> rw [century] <;> omega
  · decide

theorem monthIndex_range {n : Int} (low : 0 ≤ n) (high : n ≤ 365) :
    0 ≤ monthIndex n ∧ monthIndex n ≤ 11 := by
  unfold monthIndex
  omega

theorem dayOfMonth_range {n : Int} : 1 ≤ dayOfMonth n ∧ dayOfMonth n ≤ 31 := by
  unfold dayOfMonth monthIndex
  omega

/-- The order of dates. -/
def Earlier (first second : Int × Int × Int) : Prop :=
  first.1 < second.1 ∨ first.1 = second.1 ∧
    (first.2.1 < second.2.1 ∨ first.2.1 = second.2.1 ∧ first.2.2 < second.2.2)

/-- The calendar year and month of a year that starts in March. -/
def calendarDate (year monthIndex dayOfMonth : Int) : Int × Int × Int :=
  let month := if monthIndex < 10 then monthIndex + 3 else monthIndex - 9
  (year + (if month ≤ 2 then 1 else 0), month, dayOfMonth)

theorem civil_eq (days : Int) :
    civil days =
      calendarDate (yearOfEra ((days + 719468) % 146097) + (days + 719468) / 146097 * 400)
        (monthIndex (dayOfYear ((days + 719468) % 146097)))
        (dayOfMonth (dayOfYear ((days + 719468) % 146097))) := rfl

theorem calendarDate_earlier {year year' month month' day day' : Int}
    (range : 0 ≤ month ∧ month ≤ 11) (range' : 0 ≤ month' ∧ month' ≤ 11)
    (earlier : Earlier (year, month, day) (year', month', day')) :
    Earlier (calendarDate year month day) (calendarDate year' month' day') := by
  simp only [Earlier, calendarDate] at earlier ⊢
  split <;> split <;> split <;> split <;> omega

/-- Later days have later dates. -/
theorem civil_earlier {first second : Int} (ordered : first < second) :
    Earlier (civil first) (civil second) := by
  rw [civil_eq, civil_eq]
  have firstDay := dayOfYear_range (n := (first + 719468) % 146097) (by omega) (by omega)
  have secondDay := dayOfYear_range (n := (second + 719468) % 146097) (by omega) (by omega)
  apply calendarDate_earlier (monthIndex_range firstDay.1 firstDay.2)
    (monthIndex_range secondDay.1 secondDay.2)
  have firstYear := yearOfEra_range (n := (first + 719468) % 146097) (by omega) (by omega)
  have secondYear := yearOfEra_range (n := (second + 719468) % 146097) (by omega) (by omega)
  rcases (by omega : (first + 719468) / 146097 < (second + 719468) / 146097 ∨
    (first + 719468) / 146097 = (second + 719468) / 146097 ∧
      (first + 719468) % 146097 < (second + 719468) % 146097) with eras | ⟨era, days⟩
  · left
    show _ < _
    simp only
    omega
  · have years := yearOfEra_mono (Int.le_of_lt days)
    rw [era]
    rcases Int.lt_or_eq_of_le years with years | years
    · left
      show _ < _
      simp only
      omega
    · right
      refine ⟨by simp only [years], ?_⟩
      have later : dayOfYear ((first + 719468) % 146097) <
          dayOfYear ((second + 719468) % 146097) := by
        unfold dayOfYear
        rw [years]
        omega
      show _ < _ ∨ _ = _ ∧ _ < _
      simp only
      unfold dayOfMonth monthIndex
      omega

/-! ## Numbers of one width -/

/-- The last digits of a number, as many as asked for. -/
def lastDigits : Nat → Nat → Text
  | 0, _ => []
  | width + 1, n => lastDigits width (n / 10) ++ [Nat.digitChar (n % 10)]

theorem length_lastDigits (width n : Nat) : (lastDigits width n).length = width := by
  induction width generalizing n with
  | zero => rfl
  | succ width ih => simp [lastDigits, ih]

theorem lastDigits_zero (width : Nat) : lastDigits width 0 = List.replicate width '0' := by
  induction width with
  | zero => rfl
  | succ width ih =>
      rw [lastDigits, Nat.zero_div, ih, List.replicate_succ']
      rfl

theorem length_toDigits_le {width n : Nat} (small : n < 10 ^ (width + 1)) :
    (Nat.toDigits 10 n).length ≤ width + 1 := by
  induction width generalizing n with
  | zero =>
      rw [Nat.toDigits_of_lt_base (by omega)]
      exact Nat.le_refl 1
  | succ width ih =>
      by_cases single : n < 10
      · rw [Nat.toDigits_of_lt_base single]
        exact Nat.le_add_left 1 _
      · rw [Nat.toDigits_of_base_le (by decide) (by omega), List.length_append]
        have rest := ih (n := n / 10) (by rw [Nat.pow_succ] at small; omega)
        simpa using rest

/-- Padding a number that fits gives its last digits. -/
theorem padded_eq {width n : Nat} (small : n < 10 ^ (width + 1)) :
    padded (width + 1) n = lastDigits (width + 1) n := by
  unfold padded
  rw [Int.toNat_natCast, show (toString n).toList = Nat.toDigits 10 n by simp]
  induction width generalizing n with
  | zero =>
      rw [Nat.toDigits_of_lt_base (by omega)]
      simp [lastDigits, Nat.mod_eq_of_lt (show n < 10 by omega)]
  | succ width ih =>
      rw [lastDigits]
      by_cases single : n < 10
      · rw [Nat.toDigits_of_lt_base single, Nat.div_eq_of_lt single, lastDigits_zero,
          Nat.mod_eq_of_lt single]
        rfl
      · have rest : n / 10 < 10 ^ (width + 1) := by rw [Nat.pow_succ] at small; omega
        rw [← ih rest, Nat.toDigits_of_base_le (by decide) (by omega), ← List.append_assoc]
        have fits := length_toDigits_le rest
        congr 3
        simp

theorem append_lt_append {first second left right : Text} (same : first.length = second.length)
    (less : first < second) : first ++ left < second ++ right := by
  induction first generalizing second with
  | nil => cases second with
    | nil => exact absurd less (List.lt_irrefl _)
    | cons head rest => simp at same
  | cons c first ih => cases second with
    | nil => simp at same
    | cons d second =>
        rw [List.cons_append, List.cons_append, List.cons_lt_cons_iff]
        rw [List.cons_lt_cons_iff] at less
        rcases less with smaller | ⟨rfl, rest⟩
        · exact Or.inl smaller
        · exact Or.inr ⟨rfl, ih (by simpa using same) rest⟩

theorem digitChar_lt {a b : Nat} (less : a < b) (small : b < 10) :
    Nat.digitChar a < Nat.digitChar b := by
  have table : ∀ b < 10, ∀ a < b, Nat.digitChar a < Nat.digitChar b := by decide
  exact table b small a less

theorem lastDigits_lt {width a b : Nat} (less : a < b) (small : b < 10 ^ width) :
    lastDigits width a < lastDigits width b := by
  induction width generalizing a b with
  | zero => simp at small; omega
  | succ width ih =>
      have rest : b / 10 < 10 ^ width := by rw [Nat.pow_succ] at small; omega
      rw [lastDigits, lastDigits]
      rcases (by omega : a / 10 < b / 10 ∨ a / 10 = b / 10 ∧ a % 10 < b % 10) with
        front | ⟨front, last⟩
      · exact append_lt_append (by simp [length_lastDigits]) (ih front rest)
      · rw [front]
        apply List.append_left_lt
        rw [List.cons_lt_cons_iff]
        exact Or.inl (digitChar_lt last (by omega))

/-- Texts that start with a number of one width compare by it first. -/
theorem padded_append_lt {width : Nat} {a b : Int} {left right : Text} (low : 0 ≤ a ∧ 0 ≤ b)
    (small : a < 10 ^ (width + 1) ∧ b < 10 ^ (width + 1))
    (less : a < b ∨ a = b ∧ left < right) :
    padded (width + 1) a ++ left < padded (width + 1) b ++ right := by
  rcases less with less | ⟨rfl, less⟩
  · obtain ⟨a, rfl⟩ := Int.eq_ofNat_of_zero_le low.1
    obtain ⟨b, rfl⟩ := Int.eq_ofNat_of_zero_le low.2
    rw [padded_eq (by exact_mod_cast small.1), padded_eq (by exact_mod_cast small.2)]
    apply append_lt_append (by simp [length_lastDigits])
    exact lastDigits_lt (by omega) (by exact_mod_cast small.2)
  · exact List.append_left_lt less

/-! ## The texts of instants -/

theorem civil_month_range (days : Int) : 1 ≤ (civil days).2.1 ∧ (civil days).2.1 ≤ 12 := by
  have inYear := dayOfYear_range (n := (days + 719468) % 146097) (by omega) (by omega)
  have month := monthIndex_range inYear.1 inYear.2
  rw [civil_eq]
  simp only [calendarDate]
  split <;> omega

theorem civil_day_range (days : Int) : 1 ≤ (civil days).2.2 ∧ (civil days).2.2 ≤ 31 := by
  rw [civil_eq]
  exact dayOfMonth_range

theorem year_le_of_le {first second : Int} (ordered : first ≤ second) :
    (civil first).1 ≤ (civil second).1 := by
  rcases Int.lt_or_eq_of_le ordered with before | rfl
  · rcases civil_earlier before with year | ⟨year, _⟩ <;> omega
  · exact Int.le_refl _

theorem civil_year_range {instant : Int} (held : Representable instant) :
    1 ≤ (civil (instant / day)).1 ∧ (civil (instant / day)).1 ≤ 9999 := by
  have first : (civil (-719162)).1 = 1 := by decide
  have last : (civil 2932896).1 = 9999 := by decide
  have bounds : -719162 ≤ instant / day ∧ instant / day ≤ 2932896 := by
    unfold Representable datetimeMin datetimeEnd at held
    unfold day hour minute
    unfold second at held ⊢
    omega
  have low := year_le_of_le bounds.1
  have high := year_le_of_le bounds.2
  omega

theorem cons_lt_cons {c : Char} {left right : Text} (less : left < right) :
    c :: left < c :: right :=
  List.cons_lt_cons_iff.mpr (Or.inr ⟨rfl, less⟩)

/-- The microseconds of a text. -/
def fraction (rest : Int) : Text :=
  if rest % second = 0 then [] else '.' :: padded 6 (rest % second)

/-- The time of a day down to the seconds, before a tail. -/
def clockText (rest : Int) (tail : Text) : Text :=
  padded 2 (rest / hour) ++ ':' :: (padded 2 (rest / minute % 60) ++
    ':' :: (padded 2 (rest / second % 60) ++ tail))

/-- A date, before a tail. -/
def dateText (days : Int) (tail : Text) : Text :=
  padded 4 (civil days).1 ++ '-' :: (padded 2 (civil days).2.1 ++
    '-' :: (padded 2 (civil days).2.2 ++ 'T' :: tail))

theorem localText_append (shown : Int) (tail : Text) :
    localText shown ++ tail =
      dateText (shown / day) (clockText (shown % day) (fraction (shown % day) ++ tail)) := by
  simp [localText, dateText, clockText, fraction]

/-- Later seconds of a day have later texts, whatever follows. -/
theorem clockText_lt {first last : Int} {left right : Text} (low : 0 ≤ first) (high : last < day)
    (less : first / second < last / second) : clockText first left < clockText last right := by
  have hours : 0 ≤ first / hour ∧ 0 ≤ last / hour ∧ first / hour < 100 ∧ last / hour < 100 := by
    unfold day at high
    unfold hour minute second at *
    omega
  unfold clockText
  rcases (by unfold hour minute second at *; omega : first / hour < last / hour ∨
    first / hour = last / hour ∧ (first / minute % 60 < last / minute % 60 ∨
      first / minute % 60 = last / minute % 60 ∧ first / second % 60 < last / second % 60))
    with hour | ⟨hour, minute | ⟨minute, seconds⟩⟩
  · exact padded_append_lt (by omega) (by omega) (Or.inl hour)
  · apply padded_append_lt (by omega) (by omega)
    exact Or.inr ⟨hour, cons_lt_cons (padded_append_lt (by omega) (by omega) (Or.inl minute))⟩
  · apply padded_append_lt (by omega) (by omega)
    refine Or.inr ⟨hour, cons_lt_cons ?_⟩
    apply padded_append_lt (by omega) (by omega)
    exact Or.inr ⟨minute, cons_lt_cons (padded_append_lt (by omega) (by omega) (Or.inl seconds))⟩

/-- Later days have later texts, whatever follows. -/
theorem dateText_lt {first last : Int} {left right : Text} (firstHeld : Representable (first * day))
    (lastHeld : Representable (last * day)) (less : first < last ∨ first = last ∧ left < right) :
    dateText first left < dateText last right := by
  have firstYear := civil_year_range firstHeld
  have lastYear := civil_year_range lastHeld
  rw [Int.mul_ediv_cancel _ (by decide)] at firstYear lastYear
  have firstMonth := civil_month_range first
  have lastMonth := civil_month_range last
  have firstDay := civil_day_range first
  have lastDay := civil_day_range last
  rcases less with days | ⟨rfl, tail⟩
  · rcases civil_earlier days with year | ⟨year, month | ⟨month, date⟩⟩
    · exact padded_append_lt (by omega) (by omega) (Or.inl year)
    · apply padded_append_lt (by omega) (by omega)
      exact Or.inr ⟨year, cons_lt_cons (padded_append_lt (by omega) (by omega) (Or.inl month))⟩
    · apply padded_append_lt (by omega) (by omega)
      refine Or.inr ⟨year, cons_lt_cons ?_⟩
      apply padded_append_lt (by omega) (by omega)
      exact Or.inr ⟨month, cons_lt_cons (padded_append_lt (by omega) (by omega) (Or.inl date))⟩
  · exact List.append_left_lt (cons_lt_cons (List.append_left_lt (cons_lt_cons
      (List.append_left_lt (cons_lt_cons tail)))))

theorem Representable.midnight {shown : Int} (held : Representable shown) :
    Representable (shown / day * day) := by
  unfold Representable datetimeMin datetimeEnd at *
  unfold day hour minute second at *
  omega

/-- What follows the microseconds sorts before them. -/
def Tail (text : Text) : Prop :=
  ∃ c rest, text = c :: rest ∧ c < '.'

/-- Local times of one second compare by their microseconds. -/
theorem fraction_lt {first last : Int} {left right : Text} (suffix : Tail left)
    (less : first % second < last % second) : fraction first ++ left < fraction last ++ right := by
  have range : 0 ≤ first % second ∧ last % second < 10 ^ 6 := by
    unfold second
    omega
  rcases suffix with ⟨c, rest, rfl, before⟩
  unfold fraction
  rw [if_neg (show ¬ last % second = 0 by omega)]
  split
  · rw [List.nil_append, List.cons_append, List.cons_lt_cons_iff]
    exact Or.inl before
  · rw [List.cons_append, List.cons_append]
    exact cons_lt_cons (padded_append_lt (by omega) (by omega) (Or.inl less))

/-- Local times in different seconds compare as texts, whatever follows. -/
theorem localText_lt_of_second {first last : Int} {left right : Text}
    (firstHeld : Representable first) (lastHeld : Representable last)
    (less : first / second < last / second) : localText first ++ left < localText last ++ right := by
  rw [localText_append, localText_append]
  apply dateText_lt firstHeld.midnight lastHeld.midnight
  rcases (by unfold day hour minute second at *; omega : first / day < last / day ∨
    first / day = last / day ∧ first % day / second < last % day / second) with days | ⟨days, time⟩
  · exact Or.inl days
  · refine Or.inr ⟨days, ?_⟩
    exact clockText_lt (Int.emod_nonneg first (by decide)) (Int.emod_lt_of_pos last (by decide)) time

/-- A local time down to the seconds. -/
def secondText (shown : Int) : Text :=
  dateText (shown / day) (clockText (shown % day) [])

theorem localText_append_eq (shown : Int) (tail : Text) :
    localText shown ++ tail = secondText shown ++ (fraction shown ++ tail) := by
  have micros : shown % day % second = shown % second := by
    unfold day hour minute second
    omega
  rw [localText_append]
  simp [secondText, dateText, clockText, fraction, micros]

theorem secondText_congr {first last : Int} (same : first / second = last / second) :
    secondText first = secondText last := by
  have days : first / day = last / day := by
    unfold day hour minute second at *
    omega
  have clock : first % day / hour = last % day / hour ∧
      first % day / minute % 60 = last % day / minute % 60 ∧
        first % day / second % 60 = last % day / second % 60 := by
    unfold day hour minute second at *
    omega
  unfold secondText clockText
  rw [days, clock.1, clock.2.1, clock.2.2]

/-- Later local times have later texts. -/
theorem localText_lt {first last : Int} {left right : Text} (firstHeld : Representable first)
    (lastHeld : Representable last) (suffix : Tail left) (less : first < last) :
    localText first ++ left < localText last ++ right := by
  rcases (by unfold second; omega : first / second < last / second ∨
    first / second = last / second ∧ first % second < last % second) with seconds | ⟨same, micros⟩
  · exact localText_lt_of_second firstHeld lastHeld seconds
  · rw [localText_append_eq, localText_append_eq, secondText_congr same]
    exact List.append_left_lt (fraction_lt suffix micros)

theorem offsetText_tail (offset : Int) : Tail (offsetText offset) := by
  unfold offsetText
  split
  · exact ⟨'-', _, rfl, by decide⟩
  · exact ⟨'+', _, rfl, by decide⟩

/-- In UTC a later instant has a later text. -/
theorem isoText_lt {first last : Int} (firstHeld : Representable first)
    (lastHeld : Representable last) (less : first < last) :
    isoText 0 first < isoText 0 last := by
  unfold isoText
  rw [Int.add_zero, Int.add_zero]
  exact localText_lt firstHeld lastHeld (offsetText_tail 0) less

/-- In UTC the texts of instants compare as the instants. -/
theorem isoText_le_iff {first last : Int} (firstHeld : Representable first)
    (lastHeld : Representable last) : isoText 0 first ≤ isoText 0 last ↔ first ≤ last := by
  constructor
  · intro texts
    by_contra after
    exact texts (isoText_lt lastHeld firstHeld (by omega))
  · intro ordered
    rcases Int.lt_or_eq_of_le ordered with before | rfl
    · exact fun after => List.lt_asymm after (isoText_lt firstHeld lastHeld before)
    · exact List.lt_irrefl _

theorem isoText_lt_iff {first last : Int} (firstHeld : Representable first)
    (lastHeld : Representable last) : isoText 0 first < isoText 0 last ↔ first < last := by
  rw [← not_iff_not, List.not_lt, Int.not_lt]
  exact isoText_le_iff lastHeld firstHeld

end OhanaAgent.Time
