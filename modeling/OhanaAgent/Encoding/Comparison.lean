import Mathlib.Data.Rat.Defs
import OhanaAgent.Encoding.JsonRoundTrip

/-!
# Equality of decoded documents

A program compares decoded documents by their values: an integer equals the
floating-point number of the same value, the booleans are the numbers 0 and 1, and
`NaN` equals nothing.
-/

namespace OhanaAgent.Encoding.Json

/-! ## Numbers -/

/-- A number, exactly, or an infinity. -/
inductive Magnitude where
  | finite (value : ℚ)
  | infinite (negative : Bool)
  deriving DecidableEq

/-- The exponent of a token, after the marker `e` or `E`. -/
def exponentOf : Text → Int
  | '-' :: digits => -(Nat.ofDigitChars 10 digits 0 : Int)
  | '+' :: digits => Nat.ofDigitChars 10 digits 0
  | digits => Nat.ofDigitChars 10 digits 0

/-- The binary64 number of some digits and a power of ten. -/
def floatMagnitude (negative : Bool) (digits : Nat) (power : Int) : Magnitude :=
  match (Float.Model.ofScientific digits power).unpack with
  | .finite _ mantissa exponent _ =>
      .finite ((if negative then -1 else 1) * mantissa * 2 ^ exponent)
  | .infinity _ => .infinite negative
  | .zero _ | .notANumber => .finite 0

/-- A token with a fraction or an exponent is a floating-point number, any other an
integer. -/
def Number.magnitude (number : Number) : Magnitude :=
  match number.toInt? with
  | some integer => .finite integer
  | none =>
      let unsigned := number.token.dropWhile (· == '-')
      let marked := unsigned.dropWhile fun c => c ≠ 'e' ∧ c ≠ 'E'
      let significand := unsigned.takeWhile fun c => c ≠ 'e' ∧ c ≠ 'E'
      let whole := significand.takeWhile Char.isDigit
      let fraction := (significand.dropWhile Char.isDigit).drop 1
      floatMagnitude (number.token.head? == some '-')
        (Nat.ofDigitChars 10 (whole ++ fraction) 0)
        (exponentOf (marked.drop 1) - fraction.length)

/-! ## Documents -/

/-- The number that a value is, if any. -/
def Value.magnitude? : Value → Option Magnitude
  | .number value => some value.magnitude
  | .atom .true => some (.finite 1)
  | .atom .false => some (.finite 0)
  | .atom .infinity => some (.infinite false)
  | .atom .negInfinity => some (.infinite true)
  | _ => none

mutual

/-- Two documents with sorted keys are equal. -/
def Value.same : Value → Value → Bool
  | .string first, .string second => first = second
  | .array first, .array second => first.same second
  | .object first, .object second => first.same second
  | .atom .null, .atom .null => true
  | first, second =>
      match first.magnitude?, second.magnitude? with
      | some magnitude, some other => magnitude = other
      | _, _ => false

def Items.same : Items → Items → Bool
  | .nil, .nil => true
  | .cons first items, .cons second others => first.same second && items.same others
  | _, _ => false

def Fields.same : Fields → Fields → Bool
  | .nil, .nil => true
  | .cons key first fields, .cons other second others =>
      key = other && first.same second && fields.same others
  | _, _ => false

end

/-- The integer 1 and the number 1.0 are equal, the integer 10²³ and the number 1e23
are not. -/
example :
    (Value.number ⟨"1".toList, by decide⟩).same (.number ⟨"1.0".toList, by decide⟩) = true ∧
      (Value.number ⟨"100000000000000000000000".toList, by decide⟩).same
        (.number ⟨"1e23".toList, by decide⟩) = false := by
  decide +kernel

end OhanaAgent.Encoding.Json
