import OhanaAgent.Encoding.Json
import Mathlib.Data.List.Nodup
import Mathlib.Data.List.TakeWhile
import Mathlib.Tactic.IntervalCases

/-!
# The JSON reader inverts the JSON writer

Reading the text of a value with distinct keys gives the value back and leaves
the rest of the input untouched.  Distinct keys are also what every successful
read produces, and sorting the keys of a value does not change it when they
are already sorted, so the compact writer is injective on such values.
-/

namespace OhanaAgent.Encoding.Json

/-! ## Strings -/

theorem scanStringFrom_eq_scanString_drop (skip : Nat) (text : Text) :
    scanStringFrom skip text = scanString (text.drop skip) := by
  induction text generalizing skip with
  | nil => cases skip <;> rfl
  | cons c rest ih =>
      cases skip with
      | zero => rfl
      | succ skip => simpa [scanStringFrom] using ih skip

theorem hexValue_hexDigit : ∀ n, n < 16 → hexValue (hexDigit n) = some n := by
  decide

theorem scalar_toNat (c : Char) : scalar c.toNat = some c := by
  have valid : c.toNat.isValidChar := c.valid
  simp [scalar, valid]

theorem unicodeEscape_control {n : Nat} (small : n < 32) (rest : Text) :
    unicodeEscape ('0' :: '0' :: hexDigit (n / 16) :: hexDigit (n % 16) :: rest) =
      (scalar n).map fun c => (c, 4) := by
  have high : hexValue (hexDigit (n / 16)) = some (n / 16) :=
    hexValue_hexDigit _ (by omega)
  have low : hexValue (hexDigit (n % 16)) = some (n % 16) :=
    hexValue_hexDigit _ (by omega)
  have zero : hexValue '0' = some 0 := by decide
  have code : hexCode '0' '0' (hexDigit (n / 16)) (hexDigit (n % 16)) = some n := by
    simp only [hexCode, high, low, zero, Option.bind_eq_bind, Option.bind_some,
      Option.pure_def, Option.some.injEq]
    omega
  have scalarCode : ¬ (0xd800 ≤ n ∧ n ≤ 0xdbff) := by omega
  simp only [unicodeEscape, code, Option.bind_eq_bind, Option.bind_some, scalarCode, if_false]
  cases scalar n <;> rfl

/-- The reader decodes exactly the text the writer gives to a character. -/
theorem scanChar_escapeChar (c : Char) (rest : Text) :
    scanChar (escapeChar c ++ rest) = some (c, (escapeChar c).length) := by
  unfold escapeChar
  split_ifs with quote backslash newline carriage tab feed back control
  · subst quote; rfl
  · subst backslash; rfl
  · subst newline; rfl
  · subst carriage; rfl
  · subst tab; rfl
  · subst feed; rfl
  · subst back; rfl
  · change (unicodeEscape _).map _ = _
    simp [unicodeEscape_control control, scalar_toNat]
  · have plain : scanChar (c :: rest) = if c.toNat < 32 then none else some (c, 1) := by
      unfold scanChar
      split <;> simp_all
    simp [plain, control]

/-- The text of a character starts neither a string end nor an empty text. -/
theorem escapeChar_eq_cons (c : Char) :
    ∃ head tail, escapeChar c = head :: tail ∧ head ≠ '\x22' := by
  unfold escapeChar
  split_ifs with quote
  all_goals exact ⟨_, _, rfl, by first | decide | exact quote⟩

@[simp]
theorem escape_nil : escape [] = [] := rfl

@[simp]
theorem escape_cons (c : Char) (content : Text) :
    escape (c :: content) = escapeChar c ++ escape content := rfl

@[simp]
theorem escape_append (first second : Text) :
    escape (first ++ second) = escape first ++ escape second := by
  simp [escape]

/-- One character of a string is read before the rest of the string. -/
theorem scanString_escapeChar_append (c : Char) (rest : Text) :
    scanString (escapeChar c ++ rest) =
      (scanString rest).map fun found => (c :: found.1, found.2) := by
  have decoded := scanChar_escapeChar c rest
  obtain ⟨head, tail, headEq, notQuote⟩ := escapeChar_eq_cons c
  rw [headEq, List.cons_append] at decoded ⊢
  simp only [scanString, scanStringFrom, notQuote, if_false, decoded]
  rw [scanStringFrom_eq_scanString_drop]
  simp [scanString]

/-- The reader rejects a raw character that the writer escapes. -/
theorem scanString_control {c : Char} {rest : Text} (quote : c ≠ '\x22') (backslash : c ≠ '\\')
    (escaped : escapeChar c ≠ [c]) : scanString (c :: rest) = none := by
  have control : c.toNat < 32 := by
    by_contra visible
    apply escaped
    unfold escapeChar
    split_ifs
    all_goals simp_all
  have rejected : scanChar (c :: rest) = none := by
    unfold scanChar
    split
    all_goals simp_all
  simp [scanString, scanStringFrom, quote, rejected]

theorem scanString_escape (content rest : Text) :
    scanString (escape content ++ '\x22' :: rest) = some (content, rest) := by
  induction content with
  | nil => simp [scanString, scanStringFrom]
  | cons c content ih =>
      rw [escape_cons, List.append_assoc, scanString_escapeChar_append, ih]
      rfl

/-! ## Scalars -/

/-- The rest of the input does not continue a number. -/
def EndsNumber (rest : Text) : Prop :=
  ∀ c tail, rest = c :: tail → isNumberChar c = false

theorem endsNumber_nil : EndsNumber [] := by
  intro c tail equal
  contradiction

theorem endsNumber_cons {c : Char} {rest : Text} (other : isNumberChar c = false) :
    EndsNumber (c :: rest) := by
  intro d tail equal
  cases equal
  exact other

theorem takeWhile_append_of_endsNumber {token rest : Text}
    (inside : ∀ c ∈ token, isNumberChar c = true) (ends : EndsNumber rest) :
    (token ++ rest).takeWhile isNumberChar = token ∧
      (token ++ rest).dropWhile isNumberChar = rest := by
  induction token with
  | nil =>
      cases rest with
      | nil => exact ⟨rfl, rfl⟩
      | cons c tail => simp [ends c tail rfl]
  | cons c token ih =>
      have head : isNumberChar c = true := inside c List.mem_cons_self
      have tail := ih fun d member => inside d (List.mem_cons_of_mem c member)
      simp [head, tail]

theorem isNumberToken_all {token : Text} (wellFormed : isNumberToken token = true) :
    ∀ c ∈ token, isNumberChar c = true := by
  unfold isNumberToken at wellFormed
  split at wellFormed
  · simp only [Bool.and_eq_true, List.all_eq_true] at wellFormed
    intro c member
    rcases List.mem_cons.mp member with rfl | member
    · decide
    · exact wellFormed.2 c member
  · simp only [Bool.and_eq_true, List.all_eq_true] at wellFormed
    exact wellFormed.2

/-- A number token starts with a digit, or with a minus sign and a digit. -/
theorem isNumberToken_head {token : Text} (wellFormed : isNumberToken token = true) :
    (∃ c tail, token = c :: tail ∧ c.isDigit = true) ∨
      ∃ c tail, token = '-' :: c :: tail ∧ c.isDigit = true := by
  have unsigned : ∀ {text : Text}, isUnsigned text = true →
      ∃ c tail, text = c :: tail ∧ c.isDigit = true := by
    intro text digits
    unfold isUnsigned at digits
    split at digits
    · exact ⟨_, _, rfl, rfl⟩
    · rename_i c rest _
      exact ⟨c, rest, rfl, (Bool.and_eq_true _ _ ▸ digits).1⟩
    · contradiction
  unfold isNumberToken at wellFormed
  split at wellFormed
  · right
    obtain ⟨c, tail, equal, digit⟩ := unsigned (Bool.and_eq_true _ _ ▸ wellFormed).1
    exact ⟨c, tail, by rw [equal], digit⟩
  · left
    exact unsigned (Bool.and_eq_true _ _ ▸ wellFormed).1

theorem isDigit_ne {c : Char} (digit : c.isDigit = true) (other : Char)
    (notDigit : other.isDigit = false) : c ≠ other := by
  rintro rfl
  simp [notDigit] at digit

theorem scanAtom_text (literal : Atom) (rest : Text) :
    scanAtom Atom.all (literal.text ++ rest) = some (literal, rest) := by
  cases literal <;> simp [Atom.all, Atom.text, scanAtom, strip]

theorem scanAtom_number {token : Text} (wellFormed : isNumberToken token = true) (rest : Text) :
    scanAtom Atom.all (token ++ rest) = none := by
  rcases isNumberToken_head wellFormed with ⟨c, tail, rfl, digit⟩ | ⟨c, tail, rfl, digit⟩
  · have n := (isDigit_ne digit 'n' rfl).symm
    have t := (isDigit_ne digit 't' rfl).symm
    have f := (isDigit_ne digit 'f' rfl).symm
    have bigN := (isDigit_ne digit 'N' rfl).symm
    have bigI := (isDigit_ne digit 'I' rfl).symm
    have minus := (isDigit_ne digit '-' rfl).symm
    simp [Atom.all, Atom.text, scanAtom, strip, n, t, f, bigN, bigI, minus]
  · have bigI := (isDigit_ne digit 'I' rfl).symm
    simp [Atom.all, Atom.text, scanAtom, strip, bigI]

theorem scanScalar_atom (literal : Atom) (rest : Text) :
    scanScalar (literal.text ++ rest) = some (.atom literal, rest) := by
  simp [scanScalar, scanAtom_text]

theorem scanScalar_number (number : Number) {rest : Text} (ends : EndsNumber rest) :
    scanScalar (number.token ++ rest) = some (.number number, rest) := by
  have parts := takeWhile_append_of_endsNumber (isNumberToken_all number.wellFormed) ends
  rw [scanScalar, scanAtom_number number.wellFormed]
  simp only [scanNumber, parts.1, parts.2, number.wellFormed, dite_true, Option.map_some]

/-! ## Distinct keys -/

mutual

/-- Every object of the value has distinct keys. -/
def DistinctKeys : Value → Prop
  | .atom _ => True
  | .number _ => True
  | .string _ => True
  | .array items => DistinctItems items
  | .object fields => DistinctFields fields

def DistinctItems : Items → Prop
  | .nil => True
  | .cons head tail => DistinctKeys head ∧ DistinctItems tail

def DistinctFields : Fields → Prop
  | .nil => True
  | .cons key value rest => key ∉ rest.keys ∧ DistinctKeys value ∧ DistinctFields rest

end

namespace Fields

theorem lookup_eq_none_iff (key : Text) :
    ∀ fields : Fields, fields.lookup key = none ↔ key ∉ fields.keys
  | .nil => by simp [lookup, keys]
  | .cons other value rest => by
      have ih := lookup_eq_none_iff key rest
      by_cases equal : other = key
      · simp [lookup, keys, equal]
      · simp [lookup, keys, equal, ih, Ne.symm equal]

theorem mem_keys_erase {key other : Text} :
    ∀ {fields : Fields}, other ∈ (fields.erase key).keys → other ∈ fields.keys ∧ other ≠ key
  | .nil => by simp [erase, keys]
  | .cons first value rest => by
      intro member
      by_cases equal : first = key
      · have kept : other ∈ rest.keys ∧ other ≠ key :=
          mem_keys_erase (by simpa [erase, equal] using member)
        exact ⟨List.mem_cons_of_mem first kept.1, kept.2⟩
      · simp only [erase, equal, if_false, keys, List.mem_cons] at member
        rcases member with rfl | member
        · exact ⟨List.mem_cons_self, equal⟩
        · have kept := mem_keys_erase member
          exact ⟨List.mem_cons_of_mem first kept.1, kept.2⟩

end Fields

theorem DistinctFields.erase {key : Text} :
    ∀ {fields : Fields}, DistinctFields fields → DistinctFields (fields.erase key)
  | .nil => fun _ => trivial
  | .cons first value rest => by
      rintro ⟨fresh, distinctValue, distinctRest⟩
      have ih : DistinctFields (rest.erase key) := DistinctFields.erase distinctRest
      by_cases equal : first = key
      · simpa [Fields.erase, equal] using ih
      · simp only [Fields.erase, equal, if_false]
        exact ⟨fun member => fresh (Fields.mem_keys_erase member).1, distinctValue, ih⟩

theorem DistinctFields.lookup {key : Text} {value : Value} :
    ∀ {fields : Fields}, DistinctFields fields → fields.lookup key = some value →
      DistinctKeys value
  | .nil => by
      intro _ found
      simp [Fields.lookup] at found
  | .cons first content rest => by
      rintro ⟨_, distinctValue, distinctRest⟩ found
      by_cases equal : first = key
      · have same : content = value := by simpa [Fields.lookup, equal] using found
        exact same ▸ distinctValue
      · exact DistinctFields.lookup distinctRest (by simpa [Fields.lookup, equal] using found)

/-- Putting a field in front keeps keys distinct, whatever its key. -/
theorem DistinctFields.prepend {key : Text} {value : Value} {rest : Fields}
    (distinctValue : DistinctKeys value) (distinctRest : DistinctFields rest) :
    DistinctFields (rest.prepend key value) := by
  unfold Fields.prepend
  cases found : rest.lookup key with
  | none =>
      exact ⟨(Fields.lookup_eq_none_iff key rest).mp found, distinctValue, distinctRest⟩
  | some last =>
      exact ⟨fun member => (Fields.mem_keys_erase member).2 rfl,
        distinctRest.lookup found, distinctRest.erase⟩

/-- A fresh key is simply put in front. -/
theorem Fields.prepend_of_not_mem {key : Text} {rest : Fields} (fresh : key ∉ rest.keys)
    (value : Value) : rest.prepend key value = .cons key value rest := by
  rw [Fields.prepend, (Fields.lookup_eq_none_iff key rest).mpr fresh]

/-! ## Values -/

/-- The first character of a written value: never white space, never a closing
bracket. -/
theorem render_eq_cons (value : Value) :
    ∃ head tail, render value = head :: tail ∧ isSpace head = false ∧ head ≠ ']' := by
  cases value with
  | atom literal =>
      rw [render]
      cases literal <;> exact ⟨_, _, rfl, rfl, by decide⟩
  | number number =>
      rw [render]
      rcases isNumberToken_head number.wellFormed with
        ⟨c, tail, equal, digit⟩ | ⟨c, tail, equal, digit⟩
      · refine ⟨c, tail, equal, ?_, isDigit_ne digit _ rfl⟩
        have space := isDigit_ne digit ' ' rfl
        have tab := isDigit_ne digit '\t' rfl
        have newline := isDigit_ne digit '\n' rfl
        have carriage := isDigit_ne digit '\r' rfl
        simp [isSpace, space, tab, newline, carriage]
      · exact ⟨'-', c :: tail, equal, rfl, by decide⟩
  | string content => exact ⟨_, _, by rw [render], rfl, by decide⟩
  | array items => exact ⟨_, _, by rw [render], rfl, by decide⟩
  | object fields => exact ⟨_, _, by rw [render], rfl, by decide⟩

theorem skipSpace_cons {c : Char} (visible : isSpace c = false) (rest : Text) :
    skipSpace (c :: rest) = c :: rest := by
  simp [skipSpace, visible]

theorem skipSpace_render_append (value : Value) (rest : Text) :
    skipSpace (render value ++ rest) = render value ++ rest := by
  obtain ⟨head, tail, equal, visible, _⟩ := render_eq_cons value
  rw [equal, List.cons_append, skipSpace_cons visible]

theorem render_length_pos (value : Value) : 0 < (render value).length := by
  obtain ⟨head, tail, equal, _⟩ := render_eq_cons value
  simp [equal]

/-- Scalars are the values the reader leaves to `scanScalar`. -/
theorem scanValue_of_scalar {fuel : Nat} {c : Char} {rest : Text} (quote : c ≠ '\x22')
    (bracket : c ≠ '[') (brace : c ≠ '\x7b') :
    scanValue (fuel + 1) (c :: rest) = scanScalar (c :: rest) := by
  unfold scanValue
  split <;> simp_all

mutual

/-- Reading a written value gives the value back. -/
theorem scanValue_render : ∀ (value : Value) (fuel : Nat) (rest : Text),
    DistinctKeys value → EndsNumber rest → 2 * (render value).length ≤ fuel →
      scanValue fuel (render value ++ rest) = some (value, rest)
  | value, 0, rest, _, _, enough => by
      have positive := render_length_pos value
      omega
  | .atom literal, fuel + 1, rest, _, _, _ => by
      have read := scanScalar_atom literal rest
      rw [render]
      cases literal <;>
        exact (scanValue_of_scalar (by decide) (by decide) (by decide)).trans read
  | .number number, fuel + 1, rest, _, ends, _ => by
      have read := scanScalar_number number ends
      rw [render]
      rcases isNumberToken_head number.wellFormed with
        ⟨c, tail, equal, digit⟩ | ⟨c, tail, equal, digit⟩
      · rw [equal] at read ⊢
        exact (scanValue_of_scalar (isDigit_ne digit _ rfl) (isDigit_ne digit _ rfl)
          (isDigit_ne digit _ rfl)).trans read
      · rw [equal] at read ⊢
        exact (scanValue_of_scalar (by decide) (by decide) (by decide)).trans read
  | .string content, fuel + 1, rest, _, _, _ => by
      simp [render, scanValue, scanString_escape]
  | .array .nil, fuel + 1, rest, _, _, _ => by
      simp [render, renderItems, scanValue, skipSpace, isSpace]
  | .array (.cons head tail), fuel + 1, rest, distinct, _, enough => by
      have read := scanItems_render (.cons head tail) fuel rest (by simp) distinct (by
        simp only [render, List.length_cons, List.length_append, List.length_nil] at enough
        omega)
      obtain ⟨c, more, equal, visible, notBracket⟩ := render_eq_cons head
      have start : ∃ more, renderItems (.cons head tail) ++ ']' :: rest = c :: more := by
        cases tail <;> simp [renderItems, equal]
      obtain ⟨more, start⟩ := start
      have text : render (.array (.cons head tail)) ++ rest =
          '[' :: (renderItems (.cons head tail) ++ ']' :: rest) := by
        simp [render]
      rw [text]
      rw [start] at read ⊢
      simp only [scanValue, skipSpace_cons visible]
      split
      · simp_all
      · rw [read]
        rfl
  | .object .nil, fuel + 1, rest, _, _, _ => by
      simp [render, renderFields, scanValue, skipSpace, isSpace]
  | .object (.cons key value more), fuel + 1, rest, distinct, _, enough => by
      have length : (render (.object (.cons key value more))).length =
          (renderFields (.cons key value more)).length + 2 := by
        simp [render]
      obtain ⟨body, bodyEq, read⟩ := scanFields_render key value more fuel rest distinct
        (by omega)
      have text : render (.object (.cons key value more)) ++ rest =
          '\x7b' :: (renderFields (.cons key value more) ++ '\x7d' :: rest) := by
        simp [render]
      rw [text, bodyEq]
      simp [scanValue, skipSpace, isSpace, read]

theorem scanItems_render : ∀ (items : Items) (fuel : Nat) (rest : Text),
    items ≠ .nil → DistinctItems items → 2 * (renderItems items).length + 1 ≤ fuel →
      scanItems fuel (renderItems items ++ ']' :: rest) = some (items, rest)
  | .nil, _, _, nonempty, _, _ => absurd rfl nonempty
  | _, 0, _, _, _, enough => by omega
  | .cons head .nil, fuel + 1, rest, _, distinct, enough => by
      have read := scanValue_render head fuel (']' :: rest) distinct.1
        (endsNumber_cons rfl) (by simp only [renderItems] at enough; omega)
      simp [scanItems, renderItems, read, skipSpace, isSpace]
  | .cons head (.cons next tail), fuel + 1, rest, _, distinct, enough => by
      simp only [renderItems, List.length_append, List.length_cons] at enough
      have read := scanValue_render head fuel
        (',' :: (renderItems (.cons next tail) ++ ']' :: rest)) distinct.1
        (endsNumber_cons rfl) (by omega)
      have readRest := scanItems_render (.cons next tail) fuel rest (by simp) distinct.2
        (by omega)
      obtain ⟨c, more, equal, visible, _⟩ := render_eq_cons next
      have skip : skipSpace (renderItems (.cons next tail) ++ ']' :: rest) =
          renderItems (.cons next tail) ++ ']' :: rest := by
        cases tail <;> simp [renderItems, equal, skipSpace, visible]
      have comma : skipSpace (',' :: (renderItems (.cons next tail) ++ ']' :: rest)) =
          ',' :: (renderItems (.cons next tail) ++ ']' :: rest) := skipSpace_cons rfl _
      simp [scanItems, renderItems, read, comma, skip, readRest]

theorem scanFields_render : ∀ (key : Text) (value : Value) (more : Fields) (fuel : Nat)
    (rest : Text), DistinctFields (.cons key value more) →
      2 * (renderFields (.cons key value more)).length ≤ fuel →
      ∃ body, renderFields (.cons key value more) ++ '\x7d' :: rest = '\x22' :: body ∧
        scanFields fuel body = some (.cons key value more, rest)
  | key, value, more, 0, rest, _, enough => by
      cases more <;> simp [renderFields] at enough
  | key, value, .nil, fuel + 1, rest, distinct, enough => by
      simp only [renderFields, List.length_append, List.length_cons] at enough
      have read := scanValue_render value fuel ('\x7d' :: rest) distinct.2.1
        (endsNumber_cons rfl) (by omega)
      have colon : skipSpace (':' :: (render value ++ '\x7d' :: rest)) =
          ':' :: (render value ++ '\x7d' :: rest) := skipSpace_cons rfl _
      have brace : skipSpace ('\x7d' :: rest) = '\x7d' :: rest := skipSpace_cons rfl _
      refine ⟨escape key ++ '\x22' :: ':' :: (render value ++ '\x7d' :: rest), ?_, ?_⟩
      · simp [renderFields]
      · rw [scanFields, scanString_escape]
        simp only [colon, skipSpace_render_append, read, brace]
        rw [Fields.prepend_of_not_mem (by simp [Fields.keys])]
  | key, value, .cons next content others, fuel + 1, rest, distinct, enough => by
      simp only [renderFields, List.length_append, List.length_cons] at enough
      obtain ⟨body, bodyEq, readRest⟩ := scanFields_render next content others fuel rest
        distinct.2.2 (by omega)
      have read := scanValue_render value fuel (',' :: '\x22' :: body) distinct.2.1
        (endsNumber_cons rfl) (by omega)
      have colon : skipSpace (':' :: (render value ++ ',' :: '\x22' :: body)) =
          ':' :: (render value ++ ',' :: '\x22' :: body) := skipSpace_cons rfl _
      have comma : skipSpace (',' :: '\x22' :: body) = ',' :: '\x22' :: body :=
        skipSpace_cons rfl _
      have quote : skipSpace ('\x22' :: body) = '\x22' :: body := skipSpace_cons rfl _
      refine ⟨escape key ++ '\x22' :: ':' :: (render value ++ ',' :: '\x22' :: body), ?_, ?_⟩
      · simp [renderFields, ← bodyEq]
      · rw [scanFields, scanString_escape]
        simp only [colon, skipSpace_render_append, read, comma, quote, readRest, Option.map_some]
        rw [Fields.prepend_of_not_mem distinct.1]

end

/-- The reader inverts the field-order writer. -/
theorem loads_render {value : Value} (distinct : DistinctKeys value) :
    loads (render value) = some value := by
  have read := scanValue_render value (2 * (render value).length + 2) [] distinct
    endsNumber_nil (by omega)
  have skip := skipSpace_render_append value []
  simp only [List.append_nil] at read skip
  rw [loads, skip, read]
  rfl

/-- A line feed at the end does not matter. -/
theorem loads_render_newline {value : Value} (distinct : DistinctKeys value) :
    loads (render value ++ ['\n']) = some value := by
  have read := scanValue_render value (2 * (render value ++ ['\n']).length + 2) ['\n'] distinct
    (endsNumber_cons rfl) (by rw [List.length_append]; omega)
  rw [loads, skipSpace_render_append, read]
  rfl

/-- The field-order writer is injective on values with distinct keys. -/
theorem render_injective {first second : Value} (firstDistinct : DistinctKeys first)
    (secondDistinct : DistinctKeys second) (equal : render first = render second) :
    first = second := by
  have read := loads_render firstDistinct
  rw [equal, loads_render secondDistinct] at read
  exact (Option.some.inj read).symm

/-! ## Natural numbers -/

/-- The decimal digits of a positive number do not start with a zero. -/
theorem toDigits_eq_cons {n : Nat} (positive : 0 < n) :
    ∃ c rest, Nat.toDigits 10 n = c :: rest ∧ c.isDigit = true ∧ c ≠ '0' ∧
      ∀ d ∈ rest, d.isDigit = true := by
  induction n using Nat.strong_induction_on with
  | _ n ih =>
      by_cases small : n < 10
      · refine ⟨n.digitChar, [], Nat.toDigits_of_lt_base small, ?_, ?_, by simp⟩
        · exact Nat.isDigit_of_mem_toDigits (b := 10) (n := n) (by omega) (by omega)
            (by simp [Nat.toDigits_of_lt_base small])
        · interval_cases n <;> decide
      · obtain ⟨c, rest, equal, digit, nonzero, _⟩ := ih (n / 10) (by omega) (by omega)
        have digits : Nat.toDigits 10 n = c :: (rest ++ [(n % 10).digitChar]) := by
          rw [Nat.toDigits_of_base_le (by omega) (by omega), equal, List.cons_append]
        refine ⟨c, _, digits, digit, nonzero, fun d member => ?_⟩
        exact Nat.isDigit_of_mem_toDigits (b := 10) (n := n) (by omega) (by omega)
          (digits ▸ List.mem_cons_of_mem c member)

theorem all_isNumberChar_toDigits (n : Nat) : (Nat.toDigits 10 n).all isNumberChar = true := by
  rw [List.all_eq_true]
  intro c member
  have digit := Nat.isDigit_of_mem_toDigits (b := 10) (n := n) (by omega) (by omega) member
  simp [isNumberChar, digit]

theorem isUnsigned_toDigits (n : Nat) : isUnsigned (Nat.toDigits 10 n) = true := by
  rcases Nat.eq_zero_or_pos n with rfl | positive
  · decide
  · obtain ⟨c, rest, equal, digit, nonzero, digits⟩ := toDigits_eq_cons positive
    have consumed : rest.dropWhile Char.isDigit = [] := List.dropWhile_eq_nil_iff.mpr digits
    rw [equal]
    unfold isUnsigned
    split
    · simp_all
    · rename_i head tail _ shape
      obtain ⟨rfl, rfl⟩ := List.cons.inj shape
      simp [digit, consumed, isNumberTail]
    · contradiction

theorem isNumberToken_toDigits (n : Nat) : isNumberToken (Nat.toDigits 10 n) = true := by
  unfold isNumberToken
  split
  · rename_i shape
    have digit := Nat.isDigit_of_mem_toDigits (b := 10) (n := n) (c := '-') (by omega) (by omega)
      (shape ▸ List.mem_cons_self)
    simp [Char.isDigit] at digit
  · rw [isUnsigned_toDigits, all_isNumberChar_toDigits]
    rfl

/-- The number of a natural number. -/
def Number.ofNat (n : Nat) : Number :=
  ⟨Nat.toDigits 10 n, isNumberToken_toDigits n⟩

theorem Number.ofNat_injective {first second : Nat}
    (equal : Number.ofNat first = Number.ofNat second) : first = second := by
  have tokens : Nat.toDigits 10 first = Nat.toDigits 10 second := congrArg Number.token equal
  have read := Nat.ofDigitChars_ten_toDigits (n := first)
  rw [tokens, Nat.ofDigitChars_ten_toDigits] at read
  exact read.symm

/-- The number of an integer. -/
def Number.ofInt : Int → Number
  | .ofNat n => Number.ofNat n
  | .negSucc n => ⟨'-' :: Nat.toDigits 10 (n + 1), by
      rw [isNumberToken, isUnsigned_toDigits, all_isNumberChar_toDigits]
      rfl⟩

/-- The integer of a number without fraction and exponent. -/
def Number.toInt? (number : Number) : Option Int :=
  match number.token with
  | '-' :: digits =>
      if isDigits digits then some (-(Nat.ofDigitChars 10 digits 0 : Int)) else none
  | digits => if isDigits digits then some (Nat.ofDigitChars 10 digits 0 : Int) else none

theorem isDigits_toDigits (n : Nat) : isDigits (Nat.toDigits 10 n) = true := by
  have allDigits : (Nat.toDigits 10 n).all Char.isDigit = true :=
    List.all_eq_true.mpr fun c member =>
      Nat.isDigit_of_mem_toDigits (b := 10) (n := n) (by omega) (by omega) member
  have nonempty : (Nat.toDigits 10 n).isEmpty = false := by
    cases digits : Nat.toDigits 10 n with
    | nil => simp at digits
    | cons _ _ => rfl
  rw [isDigits, allDigits, nonempty]
  rfl

theorem Number.toInt?_ofInt (n : Int) : (Number.ofInt n).toInt? = some n := by
  cases n with
  | ofNat n =>
      simp only [Number.ofInt, Number.ofNat, Number.toInt?]
      split
      · rename_i shape
        have digit := Nat.isDigit_of_mem_toDigits (b := 10) (n := n) (c := '-') (by omega) (by omega)
          (shape ▸ List.mem_cons_self)
        simp [Char.isDigit] at digit
      · rw [isDigits_toDigits, if_pos rfl, Nat.ofDigitChars_ten_toDigits]
        rfl
  | negSucc n =>
      simp only [Number.ofInt, Number.toInt?]
      rw [isDigits_toDigits, if_pos rfl, Nat.ofDigitChars_ten_toDigits]
      rfl

/-! ## Assigned keys -/

theorem Fields.lookup_set_self (key : Text) (value : Value) :
    (fields : Fields) → (fields.set key value).lookup key = some value
  | .nil => by simp [Fields.set, Fields.lookup]
  | .cons other old rest => by
      have ih := Fields.lookup_set_self key value rest
      by_cases same : other = key <;> simp [Fields.set, Fields.lookup, same, ih]

theorem Fields.lookup_set_of_ne {key asked : Text} (value : Value) (different : asked ≠ key) :
    (fields : Fields) → (fields.set key value).lookup asked = fields.lookup asked
  | .nil => by simp [Fields.set, Fields.lookup, different.symm]
  | .cons other old rest => by
      have ih := Fields.lookup_set_of_ne value different rest
      by_cases same : other = key
      · subst same
        simp [Fields.set, Fields.lookup, different.symm]
      · simp [Fields.set, Fields.lookup, same, ih]

theorem Fields.keys_set_of_lookup {key : Text} {old : Value} (value : Value) :
    (fields : Fields) → fields.lookup key = some old → (fields.set key value).keys = fields.keys
  | .nil, found => by simp [Fields.lookup] at found
  | .cons other content rest, found => by
      by_cases same : other = key
      · simp [Fields.set, Fields.keys, same]
      · simp only [Fields.lookup, same, if_false] at found
        simp [Fields.set, Fields.keys, same, Fields.keys_set_of_lookup value rest found]

end OhanaAgent.Encoding.Json
