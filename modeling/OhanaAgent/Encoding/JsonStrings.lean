import OhanaAgent.Encoding.JsonRoundTrip
import Mathlib.Data.List.TakeWhile

/-!
# The strings of a JSON value

The strings of a value are its string contents and its keys.  This file maps a
function over them, relates both to the sorted-key form, and gives the one
induction over the reader that every statement about read values needs: a
property closed under the constructors holds of every value read from an
acceptable text.
-/

namespace OhanaAgent.Encoding.Json

mutual

/-- Every string content and every key of a value. -/
def strings : Value → List Text
  | .atom _ => []
  | .number _ => []
  | .string content => [content]
  | .array items => stringsItems items
  | .object fields => stringsFields fields

def stringsItems : Items → List Text
  | .nil => []
  | .cons head tail => strings head ++ stringsItems tail

def stringsFields : Fields → List Text
  | .nil => []
  | .cons key value rest => key :: (strings value ++ stringsFields rest)

end

mutual

/-- Apply a function to every string content and every key, and change
nothing else. -/
def mapStrings (f : Text → Text) : Value → Value
  | .atom literal => .atom literal
  | .number value => .number value
  | .string content => .string (f content)
  | .array items => .array (mapItems f items)
  | .object fields => .object (mapFields f fields)

def mapItems (f : Text → Text) : Items → Items
  | .nil => .nil
  | .cons head tail => .cons (mapStrings f head) (mapItems f tail)

def mapFields (f : Text → Text) : Fields → Fields
  | .nil => .nil
  | .cons key value rest => .cons (f key) (mapStrings f value) (mapFields f rest)

end

mutual

theorem strings_mapStrings (f : Text → Text) :
    ∀ value, strings (mapStrings f value) = (strings value).map f
  | .atom _ => rfl
  | .number _ => rfl
  | .string _ => rfl
  | .array items => by simpa [mapStrings, strings] using stringsItems_mapItems f items
  | .object fields => by simpa [mapStrings, strings] using stringsFields_mapFields f fields

theorem stringsItems_mapItems (f : Text → Text) :
    ∀ items, stringsItems (mapItems f items) = (stringsItems items).map f
  | .nil => rfl
  | .cons head tail => by
      simp [mapItems, stringsItems, strings_mapStrings f head, stringsItems_mapItems f tail]

theorem stringsFields_mapFields (f : Text → Text) :
    ∀ fields, stringsFields (mapFields f fields) = (stringsFields fields).map f
  | .nil => rfl
  | .cons key value rest => by
      simp [mapFields, stringsFields, strings_mapStrings f value,
        stringsFields_mapFields f rest]

end

/-! ## Sorted keys -/

theorem mem_stringsFields_insertSorted (content key : Text) (value : Value) :
    ∀ fields : Fields, content ∈ stringsFields (fields.insertSorted key value) ↔
      content = key ∨ content ∈ strings value ∨ content ∈ stringsFields fields
  | .nil => by simp [Fields.insertSorted, stringsFields]
  | .cons other found rest => by
      have ih := mem_stringsFields_insertSorted content key value rest
      by_cases before : key ≤ other
      · simp [Fields.insertSorted, before, stringsFields]
      · simp only [Fields.insertSorted, before, if_false, stringsFields, List.mem_cons,
          List.mem_append, ih]
        tauto

mutual

/-- Sorting keys keeps the strings of a value. -/
theorem mem_strings_sortKeys (content : Text) :
    ∀ value, content ∈ strings (sortKeys value) ↔ content ∈ strings value
  | .atom _ => Iff.rfl
  | .number _ => Iff.rfl
  | .string _ => Iff.rfl
  | .array items => by simpa [sortKeys, strings] using mem_stringsItems_sortItems content items
  | .object fields => by
      simpa [sortKeys, strings] using mem_stringsFields_sortFields content fields

theorem mem_stringsItems_sortItems (content : Text) :
    ∀ items, content ∈ stringsItems (sortItems items) ↔ content ∈ stringsItems items
  | .nil => Iff.rfl
  | .cons head tail => by
      simp [sortItems, stringsItems, mem_strings_sortKeys content head,
        mem_stringsItems_sortItems content tail]

theorem mem_stringsFields_sortFields (content : Text) :
    ∀ fields, content ∈ stringsFields (sortFields fields) ↔ content ∈ stringsFields fields
  | .nil => Iff.rfl
  | .cons key value rest => by
      simp [sortFields, stringsFields, mem_stringsFields_insertSorted,
        mem_strings_sortKeys content value, mem_stringsFields_sortFields content rest]

end

theorem mem_keys_mapFields_insertSorted (f : Text → Text) (other key : Text) (value : Value) :
    ∀ fields : Fields, other ∈ (mapFields f (fields.insertSorted key value)).keys ↔
      other = f key ∨ other ∈ (mapFields f fields).keys
  | .nil => by simp [Fields.insertSorted, mapFields, Fields.keys]
  | .cons first found rest => by
      have ih := mem_keys_mapFields_insertSorted f other key value rest
      by_cases before : key ≤ first
      · simp [Fields.insertSorted, before, mapFields, Fields.keys]
      · simp only [Fields.insertSorted, before, if_false, mapFields, Fields.keys,
          List.mem_cons, ih]
        tauto

theorem distinctFields_mapFields_insertSorted (f : Text → Text) (key : Text) (value : Value) :
    ∀ fields : Fields, DistinctFields (mapFields f (fields.insertSorted key value)) ↔
      f key ∉ (mapFields f fields).keys ∧ DistinctKeys (mapStrings f value) ∧
        DistinctFields (mapFields f fields)
  | .nil => by simp [Fields.insertSorted, mapFields, DistinctFields, Fields.keys]
  | .cons first found rest => by
      have ih := distinctFields_mapFields_insertSorted f key value rest
      by_cases before : key ≤ first
      · simp [Fields.insertSorted, before, mapFields, DistinctFields, Fields.keys]
      · simp only [Fields.insertSorted, before, if_false, mapFields, DistinctFields,
          Fields.keys, ih, mem_keys_mapFields_insertSorted, List.mem_cons, not_or]
        constructor
        · rintro ⟨⟨different, fresh⟩, foundDistinct, keyFresh, valueDistinct, restDistinct⟩
          exact ⟨⟨Ne.symm different, keyFresh⟩, valueDistinct, fresh, foundDistinct,
            restDistinct⟩
        · rintro ⟨⟨different, keyFresh⟩, valueDistinct, fresh, foundDistinct, restDistinct⟩
          exact ⟨⟨Ne.symm different, fresh⟩, foundDistinct, keyFresh, valueDistinct,
            restDistinct⟩

mutual

/-- Sorting keys neither creates nor removes a collision between mapped keys. -/
theorem distinctKeys_mapStrings_sortKeys (f : Text → Text) :
    ∀ value, DistinctKeys (mapStrings f (sortKeys value)) ↔ DistinctKeys (mapStrings f value)
  | .atom _ => Iff.rfl
  | .number _ => Iff.rfl
  | .string _ => Iff.rfl
  | .array items => by
      simpa [sortKeys, mapStrings, DistinctKeys] using distinctItems_mapItems_sortItems f items
  | .object fields => by
      simpa [sortKeys, mapStrings, DistinctKeys] using
        (distinctFields_mapFields_sortFields f fields).1

theorem distinctItems_mapItems_sortItems (f : Text → Text) :
    ∀ items, DistinctItems (mapItems f (sortItems items)) ↔ DistinctItems (mapItems f items)
  | .nil => Iff.rfl
  | .cons head tail => by
      simp [sortItems, mapItems, DistinctItems, distinctKeys_mapStrings_sortKeys f head,
        distinctItems_mapItems_sortItems f tail]

theorem distinctFields_mapFields_sortFields (f : Text → Text) :
    ∀ fields, (DistinctFields (mapFields f (sortFields fields)) ↔
        DistinctFields (mapFields f fields)) ∧
      ∀ key, key ∈ (mapFields f (sortFields fields)).keys ↔ key ∈ (mapFields f fields).keys
  | .nil => ⟨Iff.rfl, fun _ => Iff.rfl⟩
  | .cons key value rest => by
      have ih := distinctFields_mapFields_sortFields f rest
      constructor
      · rw [sortFields, distinctFields_mapFields_insertSorted, ih.1, ih.2,
          distinctKeys_mapStrings_sortKeys f value]
        rfl
      · intro other
        rw [sortFields, mem_keys_mapFields_insertSorted, ih.2]
        simp [mapFields, Fields.keys]

end

mutual

theorem mapStrings_id : ∀ value, mapStrings id value = value
  | .atom _ => rfl
  | .number _ => rfl
  | .string _ => rfl
  | .array items => by rw [mapStrings, mapItems_id items]
  | .object fields => by rw [mapStrings, mapFields_id fields]

theorem mapItems_id : ∀ items, mapItems id items = items
  | .nil => rfl
  | .cons head tail => by rw [mapItems, mapStrings_id head, mapItems_id tail]

theorem mapFields_id : ∀ fields, mapFields id fields = fields
  | .nil => rfl
  | .cons key value rest => by rw [mapFields, mapStrings_id value, mapFields_id rest]; rfl

end

theorem distinctKeys_sortKeys (value : Value) :
    DistinctKeys (sortKeys value) ↔ DistinctKeys value := by
  have mapped := distinctKeys_mapStrings_sortKeys id value
  rwa [mapStrings_id, mapStrings_id] at mapped

/-- The reader inverts the compact writer up to the order of the keys. -/
theorem loads_dumps {value : Value} (distinct : DistinctKeys value) :
    loads (dumps value) = some (sortKeys value) :=
  loads_render ((distinctKeys_sortKeys value).mpr distinct)

/-- Two values with distinct keys have the same compact text exactly when they
differ at most in the order of their keys. -/
theorem dumps_eq_iff {first second : Value} (firstDistinct : DistinctKeys first)
    (secondDistinct : DistinctKeys second) :
    dumps first = dumps second ↔ sortKeys first = sortKeys second := by
  constructor
  · intro equal
    exact render_injective ((distinctKeys_sortKeys first).mpr firstDistinct)
      ((distinctKeys_sortKeys second).mpr secondDistinct) equal
  · intro equal
    rw [dumps, dumps, equal]

/-! ## Induction over the reader -/

/-- What a property of read values must satisfy to hold of every value read
from an acceptable text: acceptable texts stay acceptable after a character
that starts no escape and after a string, every string read is good, and the
property is closed under the constructors the reader applies. -/
structure ReaderInduction (Ok Good : Text → Prop) (P : Value → Prop) (PI : Items → Prop)
    (PF : Fields → Prop) : Prop where
  step : ∀ {c rest}, c ≠ '\\' → Ok (c :: rest) → Ok rest
  scan : ∀ {text content rest}, Ok text → scanString text = some (content, rest) →
    Good content ∧ Ok rest
  atom : ∀ literal, P (.atom literal)
  number : ∀ value, P (.number value)
  string : ∀ {content}, Good content → P (.string content)
  array : ∀ {items}, PI items → P (.array items)
  object : ∀ {fields}, PF fields → P (.object fields)
  nilItems : PI .nil
  consItems : ∀ {head tail}, P head → PI tail → PI (.cons head tail)
  nilFields : PF .nil
  prepend : ∀ {key value rest}, Good key → P value → PF rest → PF (rest.prepend key value)

namespace ReaderInduction

variable {Ok Good : Text → Prop} {P : Value → Prop} {PI : Items → Prop} {PF : Fields → Prop}

theorem ok_append (rule : ReaderInduction Ok Good P PI PF) {first rest : Text}
    (plain : ∀ c ∈ first, c ≠ '\\') (ok : Ok (first ++ rest)) : Ok rest := by
  induction first with
  | nil => exact ok
  | cons c first ih =>
      exact ih (fun d member => plain d (List.mem_cons_of_mem c member))
        (rule.step (plain c List.mem_cons_self) ok)

theorem ok_dropWhile (rule : ReaderInduction Ok Good P PI PF) {p : Char → Bool} {text : Text}
    (plain : p '\\' = false) (ok : Ok text) : Ok (text.dropWhile p) := by
  have split := List.takeWhile_append_dropWhile (p := p) (l := text)
  have joined : Ok (text.takeWhile p ++ text.dropWhile p) := split.symm ▸ ok
  refine rule.ok_append ?_ joined
  rintro c member rfl
  have inside := List.mem_takeWhile_imp member
  simp [plain] at inside

theorem ok_skipSpace (rule : ReaderInduction Ok Good P PI PF) {text : Text} (ok : Ok text) :
    Ok (skipSpace text) :=
  rule.ok_dropWhile rfl ok

theorem ok_strip (rule : ReaderInduction Ok Good P PI PF) {expected text rest : Text}
    (plain : ∀ c ∈ expected, c ≠ '\\') (found : strip expected text = some rest)
    (ok : Ok text) : Ok rest := by
  induction expected generalizing text with
  | nil =>
      cases text <;> simp_all [strip]
  | cons c expected ih =>
      cases text with
      | nil => simp [strip] at found
      | cons d text =>
          by_cases same : c = d
          · exact ih (fun e member => plain e (List.mem_cons_of_mem c member))
              (by simpa [strip, same] using found)
              (rule.step (same ▸ plain c List.mem_cons_self) ok)
          · simp [strip, same] at found

theorem ok_scanAtom (rule : ReaderInduction Ok Good P PI PF) {literals : List Atom}
    {text rest : Text} {literal : Atom} (found : scanAtom literals text = some (literal, rest))
    (ok : Ok text) : Ok rest := by
  induction literals with
  | nil => simp [scanAtom] at found
  | cons first literals ih =>
      simp only [scanAtom] at found
      split at found
      · rename_i after stripped
        cases found
        exact rule.ok_strip (by cases literal <;> decide) stripped ok
      · exact ih found

theorem scanScalar (rule : ReaderInduction Ok Good P PI PF) {text rest : Text} {value : Value}
    (found : Json.scanScalar text = some (value, rest)) (ok : Ok text) : P value ∧ Ok rest := by
  unfold Json.scanScalar at found
  split at found
  · rename_i literal after scanned
    cases found
    exact ⟨rule.atom literal, rule.ok_scanAtom scanned ok⟩
  · unfold scanNumber at found
    split at found
    · cases found
      exact ⟨rule.number _, rule.ok_dropWhile rfl ok⟩
    · simp at found

/-- The induction over the fuel of the three reading functions together. -/
theorem scan_all (rule : ReaderInduction Ok Good P PI PF) (fuel : Nat) :
    (∀ {text value rest}, scanValue fuel text = some (value, rest) → Ok text →
      P value ∧ Ok rest) ∧
    (∀ {text items rest}, scanItems fuel text = some (items, rest) → Ok text →
      PI items ∧ Ok rest) ∧
    (∀ {text fields rest}, scanFields fuel text = some (fields, rest) → Ok text →
      PF fields ∧ Ok rest) := by
  induction fuel with
  | zero => simp [scanValue, scanItems, scanFields]
  | succ fuel ih =>
      obtain ⟨ihValue, ihItems, ihFields⟩ := ih
      refine ⟨?_, ?_, ?_⟩
      · intro text value rest found ok
        unfold scanValue at found
        split at found
        · rename_i after
          obtain ⟨⟨content, tail⟩, scanned, equal⟩ := Option.map_eq_some_iff.mp found
          cases equal
          have good := rule.scan (rule.step (by decide) ok) scanned
          exact ⟨rule.string good.1, good.2⟩
        · rename_i after
          have okBody := rule.ok_skipSpace (rule.step (by decide) ok)
          split at found
          · rename_i close
            cases found
            rw [close] at okBody
            exact ⟨rule.array rule.nilItems, rule.step (by decide) okBody⟩
          · obtain ⟨⟨items, tail⟩, scanned, equal⟩ := Option.map_eq_some_iff.mp found
            cases equal
            have read := ihItems scanned okBody
            exact ⟨rule.array read.1, read.2⟩
        · rename_i after
          have okBody := rule.ok_skipSpace (rule.step (by decide) ok)
          split at found
          · rename_i close
            cases found
            rw [close] at okBody
            exact ⟨rule.object rule.nilFields, rule.step (by decide) okBody⟩
          · rename_i body opened
            obtain ⟨⟨fields, tail⟩, scanned, equal⟩ := Option.map_eq_some_iff.mp found
            cases equal
            rw [opened] at okBody
            have read := ihFields scanned (rule.step (by decide) okBody)
            exact ⟨rule.object read.1, read.2⟩
          · contradiction
        · exact rule.scanScalar found ok
      · intro text items rest found ok
        unfold scanItems at found
        split at found
        · contradiction
        · rename_i head tail scanned
          have read := ihValue scanned ok
          have okTail := rule.ok_skipSpace read.2
          split at found
          · rename_i after closed
            cases found
            rw [closed] at okTail
            exact ⟨rule.consItems read.1 rule.nilItems, rule.step (by decide) okTail⟩
          · rename_i more comma
            obtain ⟨⟨others, after⟩, scannedRest, equal⟩ := Option.map_eq_some_iff.mp found
            cases equal
            rw [comma] at okTail
            have readRest := ihItems scannedRest
              (rule.ok_skipSpace (rule.step (by decide) okTail))
            exact ⟨rule.consItems read.1 readRest.1, readRest.2⟩
          · contradiction
      · intro text fields rest found ok
        unfold scanFields at found
        split at found
        · contradiction
        · rename_i key afterKey scannedKey
          have readKey := rule.scan ok scannedKey
          have okColon := rule.ok_skipSpace readKey.2
          split at found
          · rename_i afterColon colon
            rw [colon] at okColon
            have okValue := rule.ok_skipSpace (rule.step (by decide) okColon)
            split at found
            · contradiction
            · rename_i value tail scanned
              have read := ihValue scanned okValue
              have okTail := rule.ok_skipSpace read.2
              split at found
              · rename_i after closed
                cases found
                rw [closed] at okTail
                exact ⟨rule.prepend readKey.1 read.1 rule.nilFields,
                  rule.step (by decide) okTail⟩
              · rename_i more comma
                rw [comma] at okTail
                have okQuote := rule.ok_skipSpace (rule.step (by decide) okTail)
                split at found
                · rename_i body quote
                  obtain ⟨⟨others, after⟩, scannedRest, equal⟩ :=
                    Option.map_eq_some_iff.mp found
                  cases equal
                  rw [quote] at okQuote
                  have readRest := ihFields scannedRest (rule.step (by decide) okQuote)
                  exact ⟨rule.prepend readKey.1 read.1 readRest.1, readRest.2⟩
                · contradiction
              · contradiction
          · contradiction

/-- The property holds of every value read from an acceptable text. -/
theorem loads (rule : ReaderInduction Ok Good P PI PF) {text : Text} {value : Value}
    (found : Json.loads text = some value) (ok : Ok text) : P value := by
  unfold Json.loads at found
  split at found
  · rename_i read rest scanned
    split at found
    · cases found
      exact ((rule.scan_all _).1 scanned (rule.ok_skipSpace ok)).1
    · contradiction
  · contradiction

end ReaderInduction

/-- Every value read has distinct keys: a repeated key keeps one value. -/
theorem loads_distinctKeys {text : Text} {value : Value} (found : loads text = some value) :
    DistinctKeys value := by
  have rule : ReaderInduction (fun _ => True) (fun _ => True) DistinctKeys DistinctItems
      DistinctFields :=
    { step := fun _ _ => trivial
      scan := fun _ _ => ⟨trivial, trivial⟩
      atom := fun _ => trivial
      number := fun _ => trivial
      string := fun _ => trivial
      array := fun distinct => distinct
      object := fun distinct => distinct
      nilItems := trivial
      consItems := fun head tail => ⟨head, tail⟩
      nilFields := trivial
      prepend := fun _ value rest => DistinctFields.prepend value rest }
  exact rule.loads found trivial

theorem mem_stringsFields_erase {content key : Text} :
    ∀ {fields : Fields}, content ∈ stringsFields (fields.erase key) →
      content ∈ stringsFields fields
  | .nil => by simp [Fields.erase]
  | .cons other value rest => by
      intro member
      by_cases same : other = key
      · have kept : content ∈ stringsFields rest := mem_stringsFields_erase
          (by simpa [Fields.erase, same] using member)
        simp [stringsFields, kept]
      · simp only [Fields.erase, same, if_false, stringsFields, List.mem_cons,
          List.mem_append] at member ⊢
        rcases member with rfl | member | member
        · exact Or.inl rfl
        · exact Or.inr (Or.inl member)
        · exact Or.inr (Or.inr (mem_stringsFields_erase member))

theorem mem_stringsFields_of_lookup {content key : Text} {value : Value} :
    ∀ {fields : Fields}, fields.lookup key = some value → content ∈ strings value →
      content ∈ stringsFields fields
  | .nil => by simp [Fields.lookup]
  | .cons other found rest => by
      intro looked member
      by_cases same : other = key
      · have equal : found = value := by simpa [Fields.lookup, same] using looked
        simp [stringsFields, equal, member]
      · have kept : content ∈ stringsFields rest := mem_stringsFields_of_lookup
          (by simpa [Fields.lookup, same] using looked) member
        simp [stringsFields, kept]

theorem mem_stringsFields_prepend {content key : Text} {value : Value} {rest : Fields}
    (member : content ∈ stringsFields (rest.prepend key value)) :
    content = key ∨ content ∈ strings value ∨ content ∈ stringsFields rest := by
  unfold Fields.prepend at member
  split at member
  · simpa [stringsFields] using member
  · rename_i last found
    simp only [stringsFields, List.mem_cons, List.mem_append] at member
    rcases member with rfl | member | member
    · exact Or.inl rfl
    · exact Or.inr (Or.inr (mem_stringsFields_of_lookup found member))
    · exact Or.inr (Or.inr (mem_stringsFields_erase member))

/-- Every string of a read value is good when acceptable texts only yield good
strings. -/
theorem loads_strings {Ok Good : Text → Prop}
    (step : ∀ {c rest}, c ≠ '\\' → Ok (c :: rest) → Ok rest)
    (scan : ∀ {text content rest}, Ok text → scanString text = some (content, rest) →
      Good content ∧ Ok rest)
    {text : Text} {value : Value} (found : loads text = some value) (ok : Ok text) :
    ∀ content ∈ strings value, Good content := by
  have rule : ReaderInduction Ok Good (fun value => ∀ content ∈ strings value, Good content)
      (fun items => ∀ content ∈ stringsItems items, Good content)
      (fun fields => ∀ content ∈ stringsFields fields, Good content) :=
    { step := step
      scan := scan
      atom := by simp [strings]
      number := by simp [strings]
      string := by simp [strings]
      array := fun good => good
      object := fun good => good
      nilItems := by simp [stringsItems]
      consItems := by
        intro head tail goodHead goodTail content member
        rcases List.mem_append.mp member with member | member
        · exact goodHead content member
        · exact goodTail content member
      nilFields := by simp [stringsFields]
      prepend := by
        intro key value rest goodKey goodValue goodRest content member
        rcases mem_stringsFields_prepend member with rfl | member | member
        · exact goodKey
        · exact goodValue content member
        · exact goodRest content member }
  exact rule.loads found ok

end OhanaAgent.Encoding.Json
