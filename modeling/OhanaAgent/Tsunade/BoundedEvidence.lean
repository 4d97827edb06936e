import OhanaAgent.Encoding.Trimming
import OhanaAgent.Privacy.Redaction
import Mathlib.Data.List.MinMax

/-!
# Bounded evidence

The evidence of an analysis is written as JSON of at most 8000 characters.  The
longest list loses its last entry, round after round, until the text is short
enough; without a list left, the longest string of a dictionary is halved.
-/

namespace OhanaAgent.Tsunade

open OhanaAgent.Encoding.Json
open OhanaAgent.Privacy

namespace Evidence

/-- The bound on the characters of the text. -/
def limit : Nat :=
  8000

/-- The text is short enough. -/
def Fits (document : Value) : Prop :=
  (render document).length ≤ limit

instance (document : Value) : Decidable (Fits document) :=
  inferInstanceAs (Decidable (_ ≤ _))

/-- A document of a great weight does not fit. -/
theorem not_fits_of_weight {document : Value} (heavy : limit ≤ weight document) :
    ¬ Fits document := by
  intro fits
  exact absurd (weight_lt_render document) (Nat.not_lt.mpr (fits.trans heavy))

/-! ## One round -/

/-- A list that is not empty, with the length of its text; it loses its last entry. -/
def popCandidate : Items → List (Nat × Items)
  | .nil => []
  | .cons head tail => [((render (.array (.cons head tail))).length, (Items.cons head tail).pop)]

/-- A string, with its length; it loses its second half. -/
def halveCandidate (content : Text) : List (Nat × Text) :=
  [(content.length, content.take (content.length / 2) ++ ['…'])]

/-- The lists of a document. -/
def lists (document : Value) : List (Nat × Value) :=
  cuts popCandidate (fun _ => []) document

/-- The strings of the dictionaries of a document. -/
def strings (document : Value) : List (Nat × Value) :=
  cuts (fun _ => []) halveCandidate document

/-- The body of the loop: the document after one cut, or nothing when there is
no list and no string of more than 32 characters. -/
def cut (document : Value) : Option Value :=
  match (lists document).argmax Prod.fst with
  | some (_, shorter) => some shorter
  | none =>
      match (strings document).argmax Prod.fst with
      | some (size, shorter) => if 32 < size then some shorter else none
      | none => none

/-- A cut takes away a list entry, or more than half of a string with its
ellipsis. -/
theorem cut_related {ofItems : Items → Items → Prop} {ofFields : Fields → Fields → Prop}
    {ofValue : Value → Value → Prop} (rule : CutRule ofValue ofItems ofFields)
    (atItems : ∀ head tail, ofItems (Items.cons head tail).pop (.cons head tail))
    (atString : ∀ content : Text, 32 < content.length → ∀ key rest,
      ofFields (.cons key (.string (content.take (content.length / 2) ++ ['…'])) rest)
        (.cons key (.string content) rest))
    {document shorter : Value} (found : cut document = some shorter) :
    ofValue shorter document := by
  have popped (items : Items) : ∀ candidate ∈ popCandidate items, True →
      ofItems candidate.2 items := by
    cases items with
    | nil => nofun
    | cons head tail =>
        intro candidate member _
        rw [List.mem_singleton.mp member]
        exact atItems head tail
  have halved (content : Text) : ∀ candidate ∈ halveCandidate content, 32 < candidate.1 →
      ∀ key rest, ofFields (.cons key (.string candidate.2) rest)
        (.cons key (.string content) rest) := by
    intro candidate member large
    rw [List.mem_singleton.mp member] at large ⊢
    exact atString content large
  unfold cut at found
  cases longest : (lists document).argmax Prod.fst with
  | some candidate =>
      rw [longest, Option.some.injEq] at found
      rw [← found]
      exact rule.cuts (fun _ => True) popped (fun _ _ member => absurd member List.not_mem_nil)
        document candidate (List.argmax_mem longest) trivial
  | none =>
      rw [longest] at found
      cases longestString : (strings document).argmax Prod.fst with
      | none =>
          rw [longestString] at found
          contradiction
      | some candidate =>
          rw [longestString] at found
          by_cases large : 32 < candidate.1
          · simp only [large, if_true, Option.some.injEq] at found
            rw [← found]
            exact rule.cuts (32 < ·) (fun _ _ member => absurd member List.not_mem_nil) halved
              document candidate (List.argmax_mem longestString) large
          · simp only [large, if_false] at found
            contradiction

/-- Half of a string and an ellipsis. -/
theorem shortened_halve {content : Text} (large : 32 < content.length) :
    Shortened (content.take (content.length / 2) ++ ['…']) content := by
  refine ⟨_, List.take_prefix _ content, ?_, rfl⟩
  rw [List.length_take]
  omega

theorem trimmed_cut {document shorter : Value} (found : cut document = some shorter) :
    Trimmed shorter document :=
  cut_related trimmed_cutRule (fun head tail => trimmedItems_pop (.cons head tail))
    (fun _ large key rest => .shortened key (shortened_halve large) (.refl rest)) found

/-- Every round makes the document lighter. -/
theorem weight_cut_lt {document shorter : Value} (found : cut document = some shorter) :
    weight shorter < weight document := by
  apply cut_related lighter_cutRule weightItems_pop_lt _ found
  intro content large key rest
  simp only [weightFields, weight, List.length_append, List.length_take, List.length_singleton]
  omega

/-! ## The loop -/

/-- `_evidence_truncated`. -/
def truncatedKey : Text :=
  "_evidence_truncated".toList

/-- The document that stands for evidence that cannot be cut down. -/
def tooLarge : Value :=
  .object (.cons truncatedKey (.atom .true)
    (.cons "status".toList (.string "evidence_too_large".toList) .nil))

/-- The loop: cut until the document fits. -/
def shrink (document : Value) : Value :=
  if Fits document then document
  else
    match _found : cut document with
    | some shorter => shrink shorter
    | none => tooLarge
termination_by weight document
decreasing_by exact weight_cut_lt _found

/-- Mark a redacted value as truncated; a value that is not a dictionary becomes
the items of one. -/
def flagged : Value → Value
  | .object fields => .object (fields.set truncatedKey (.atom .true))
  | document =>
      .object ((Fields.cons "items".toList document .nil).set truncatedKey (.atom .true))

/-- The document whose text `_bounded_json` returns. -/
def boundedDocument (unicode : Unicode) (value : Value) : Value :=
  let document := redactSensitiveValue unicode value
  if Fits document then document else shrink (flagged document)

/-- `_bounded_json`. -/
def boundedJson (unicode : Unicode) (value : Value) : Text :=
  render (boundedDocument unicode value)

theorem shrink_of_fits {document : Value} (fits : Fits document) : shrink document = document := by
  rw [shrink, if_pos fits]

theorem shrink_of_cut {document shorter : Value} (large : ¬ Fits document)
    (found : cut document = some shorter) : shrink document = shrink shorter := by
  rw [shrink, if_neg large]
  split
  · rename_i other also
    rw [found, Option.some.injEq] at also
    rw [also]
  · rename_i missing
    rw [found] at missing
    contradiction

theorem shrink_of_uncut {document : Value} (large : ¬ Fits document) (none : cut document = none) :
    shrink document = tooLarge := by
  rw [shrink, if_neg large]
  split
  · rename_i other found
    rw [none] at found
    contradiction
  · rfl

theorem fits_tooLarge : Fits tooLarge := by
  decide

/-- The loop ends on a document that fits: a trimmed one or the one that stands
for it. -/
theorem shrink_fits_or_trimmed (document : Value) :
    Fits (shrink document) ∧ (shrink document = tooLarge ∨ Trimmed (shrink document) document) := by
  induction document using shrink.induct with
  | case1 document fits =>
      rw [shrink_of_fits fits]
      exact ⟨fits, Or.inr (.same document)⟩
  | case2 document large shorter found inductionHypothesis =>
      rw [shrink_of_cut large found]
      exact ⟨inductionHypothesis.1, inductionHypothesis.2.imp_right fun trimmed =>
        trimmed.trans (trimmed_cut found)⟩
  | case3 document large none =>
      rw [shrink_of_uncut large none]
      exact ⟨fits_tooLarge, Or.inl rfl⟩

/-! ## The redacted document -/

section

variable {unicode : Unicode}

theorem keys_redactSensitiveFields (fields : Fields) :
    (redactSensitiveFields unicode fields).keys = fields.keys := by
  cases fields with
  | nil => rfl
  | cons key _ rest => exact congrArg (key :: ·) (keys_redactSensitiveFields rest)

mutual

theorem distinctKeys_redacted : ∀ {value : Value}, DistinctKeys value →
    DistinctKeys (redactSensitiveValue unicode value)
  | .atom _, _ => trivial
  | .number _, _ => trivial
  | .string _, _ => trivial
  | .array _, distinct => distinctItems_redacted distinct
  | .object _, distinct => distinctFields_redacted distinct

theorem distinctItems_redacted : ∀ {items : Items}, DistinctItems items →
    DistinctItems (redactSensitiveItems unicode items)
  | .nil, _ => trivial
  | .cons _ _, ⟨head, tail⟩ => ⟨distinctKeys_redacted head, distinctItems_redacted tail⟩

theorem distinctFields_redacted : ∀ {fields : Fields}, DistinctFields fields →
    DistinctFields (redactSensitiveFields unicode fields)
  | .nil, _ => trivial
  | .cons key value rest, ⟨fresh, distinctValue, distinctRest⟩ => by
      constructor
      · rw [keys_redactSensitiveFields]
        exact fresh
      · constructor
        · split
          · trivial
          · exact distinctKeys_redacted distinctValue
        · exact distinctFields_redacted distinctRest

end

mutual

theorem finite_redacted : ∀ {value : Value}, Finite value →
    Finite (redactSensitiveValue unicode value)
  | .atom _, finite => finite
  | .number _, _ => trivial
  | .string _, _ => trivial
  | .array _, finite => finiteItems_redacted finite
  | .object _, finite => finiteFields_redacted finite

theorem finiteItems_redacted : ∀ {items : Items}, FiniteItems items →
    FiniteItems (redactSensitiveItems unicode items)
  | .nil, _ => trivial
  | .cons _ _, ⟨head, tail⟩ => ⟨finite_redacted head, finiteItems_redacted tail⟩

theorem finiteFields_redacted : ∀ {fields : Fields}, FiniteFields fields →
    FiniteFields (redactSensitiveFields unicode fields)
  | .nil, _ => trivial
  | .cons key value rest, ⟨finiteValue, finiteRest⟩ => by
      constructor
      · split
        · trivial
        · exact finite_redacted finiteValue
      · exact finiteFields_redacted finiteRest

end

end

theorem distinctKeys_true : DistinctKeys (.atom .true) :=
  trivial

theorem distinctKeys_flagged {document : Value} (distinct : DistinctKeys document) :
    DistinctKeys (flagged document) := by
  cases document with
  | object fields => exact DistinctFields.set distinctKeys_true distinct
  | _ => exact DistinctFields.set distinctKeys_true ⟨List.not_mem_nil, distinct, trivial⟩

theorem finite_true : Finite (.atom .true) := by
  simp [Encoding.Json.Finite]

theorem finite_tooLarge : Finite tooLarge :=
  ⟨finite_true, trivial, trivial⟩

theorem finite_flagged {document : Value} (finite : Finite document) :
    Finite (flagged document) := by
  cases document with
  | object fields => exact FiniteFields.set finite_true finite
  | _ => exact FiniteFields.set finite_true ⟨finite, trivial⟩

/-- The document is an object that says that it was truncated. -/
def SaysTruncated (document : Value) : Prop :=
  ∃ fields, document = .object fields ∧ fields.lookup truncatedKey = some (.atom .true)

theorem saysTruncated_flagged (document : Value) : SaysTruncated (flagged document) := by
  cases document with
  | object fields => exact ⟨_, rfl, Fields.lookup_set_self _ _ _⟩
  | _ => exact ⟨_, rfl, Fields.lookup_set_self _ _ _⟩

theorem saysTruncated_tooLarge : SaysTruncated tooLarge :=
  ⟨_, rfl, rfl⟩

theorem SaysTruncated.trimmed {cut document : Value} (marked : SaysTruncated document)
    (trimmed : Trimmed cut document) : SaysTruncated cut := by
  rcases marked with ⟨fields, rfl, found⟩
  cases trimmed with
  | same => exact ⟨fields, rfl, found⟩
  | object trimmed => exact ⟨_, rfl, trimmed.lookup_atom found⟩

theorem distinctKeys_tooLarge : DistinctKeys tooLarge :=
  ⟨by decide, trivial, List.not_mem_nil, trivial, trivial⟩

/-! ## Every value -/

section

variable (unicode : Unicode) (value : Value)

/-- The document is the redacted value when that fits; otherwise it is the marker
or what trimming leaves of the flagged value. -/
theorem boundedDocument_cases :
    (Fits (redactSensitiveValue unicode value) ∧
      boundedDocument unicode value = redactSensitiveValue unicode value) ∨
    (¬ Fits (redactSensitiveValue unicode value) ∧
      (boundedDocument unicode value = tooLarge ∨
        Trimmed (boundedDocument unicode value)
          (flagged (redactSensitiveValue unicode value)))) := by
  unfold boundedDocument
  by_cases fits : Fits (redactSensitiveValue unicode value)
  · exact Or.inl ⟨fits, if_pos fits⟩
  · simp only [if_neg fits]
    exact Or.inr ⟨fits, (shrink_fits_or_trimmed _).2⟩

variable {unicode value} in
theorem boundedDocument_of_large (large : ¬ Fits (redactSensitiveValue unicode value)) :
    boundedDocument unicode value = shrink (flagged (redactSensitiveValue unicode value)) :=
  if_neg large

theorem fits_boundedDocument : Fits (boundedDocument unicode value) := by
  unfold boundedDocument
  by_cases fits : Fits (redactSensitiveValue unicode value)
  · simp only [if_pos fits]
    exact fits
  · simp only [if_neg fits]
    exact (shrink_fits_or_trimmed _).1

/-- What holds of the redacted value, of the marker, and after flagging and
trimming, holds of the document. -/
theorem boundedDocument_induction {Good : Value → Prop}
    (redacted : Good (redactSensitiveValue unicode value)) (marker : Good tooLarge)
    (flag : ∀ {document}, Good document → Good (flagged document))
    (trim : ∀ {cut document}, Trimmed cut document → Good document → Good cut) :
    Good (boundedDocument unicode value) := by
  rcases boundedDocument_cases unicode value with ⟨_, same⟩ | ⟨_, same | trimmed⟩
  · rw [same]
    exact redacted
  · rw [same]
    exact marker
  · exact trim trimmed (flag redacted)

/-- The text has at most 8000 characters and reads back as JSON without infinite or
undefined numbers: as the redacted value when that fits, and otherwise as an object that
says that it was truncated, which is the marker or what trimming leaves of the redacted
value with that flag. -/
theorem bounded_evidence (distinct : DistinctKeys value) :
    (boundedJson unicode value).length ≤ 8000 ∧
    ∃ document, loads (boundedJson unicode value) = some document ∧
      (Finite value → Finite document) ∧
      (Fits (redactSensitiveValue unicode value) →
        document = redactSensitiveValue unicode value) ∧
      (¬ Fits (redactSensitiveValue unicode value) → SaysTruncated document ∧
        (document = tooLarge ∨
          Trimmed document (flagged (redactSensitiveValue unicode value)))) := by
  have readable : DistinctKeys (boundedDocument unicode value) :=
    boundedDocument_induction unicode value (distinctKeys_redacted distinct) distinctKeys_tooLarge
      distinctKeys_flagged Trimmed.distinctKeys
  constructor
  · exact fits_boundedDocument unicode value
  · refine ⟨boundedDocument unicode value, loads_render readable, ?_, ?_, ?_⟩
    · intro finite
      exact boundedDocument_induction unicode value (finite_redacted finite) finite_tooLarge
        finite_flagged Trimmed.finite
    · intro fits
      rcases boundedDocument_cases unicode value with ⟨_, same⟩ | ⟨large, _⟩
      · exact same
      · exact absurd fits large
    · intro large
      rcases boundedDocument_cases unicode value with ⟨fits, _⟩ | ⟨_, same | trimmed⟩
      · exact absurd fits large
      · rw [same]
        exact ⟨saysTruncated_tooLarge, Or.inl rfl⟩
      · exact ⟨(saysTruncated_flagged _).trimmed trimmed, Or.inr trimmed⟩

end

/-! ## A list of one long string -/

/-- Truncated evidence differs from the redacted value only by its flag, removed
ends of lists and shortened strings of dictionaries, unless it is the marker. -/
def OnlyTrimmed (unicode : Unicode) (value : Value) : Prop :=
  ¬ Fits (redactSensitiveValue unicode value) →
    boundedDocument unicode value = tooLarge ∨
      ∃ fields, redactSensitiveValue unicode value = .object fields ∧
        Trimmed (boundedDocument unicode value) (flagged (.object fields))

def longList : Value :=
  .array (.cons (.string (List.replicate 8000 'a')) .nil)

theorem redacted_longList : redactSensitiveValue asciiUnicode longList = longList := by
  have plain : Plain (List.replicate 8000 'a') := by
    intro c member
    rw [(List.mem_replicate.mp member).2]
    rfl
  simp only [longList, redactSensitiveValue, redactSensitiveItems, plain.redactSensitiveText]

/-- The flagged list without its only entry. -/
def emptiedList : Value :=
  .object (.cons "items".toList (.array .nil) (.cons truncatedKey (.atom .true) .nil))

theorem weight_longList : weight longList = 8001 := by
  simp only [longList, weight, weightItems, List.length_replicate]

theorem weight_flagged_array (items : Items) :
    weight (flagged (.array items)) = weight (.array items) := rfl

theorem cut_flagged_singleton (item : Text) :
    cut (flagged (.array (.cons (.string item) .nil))) = some emptiedList := rfl

theorem not_fits_longList : ¬ Fits longList := by
  apply not_fits_of_weight
  rw [weight_longList]
  decide

theorem not_fits_flagged_longList : ¬ Fits (flagged longList) := by
  apply not_fits_of_weight
  rw [longList, weight_flagged_array, ← longList, weight_longList]
  decide

theorem boundedDocument_longList : boundedDocument asciiUnicode longList = emptiedList := by
  rw [boundedDocument_of_large (redacted_longList.symm ▸ not_fits_longList), redacted_longList,
    shrink_of_cut not_fits_flagged_longList (cut_flagged_singleton _),
    shrink_of_fits (by decide : Fits emptiedList)]

/-- The list becomes the items of a dictionary, which no trimming does. -/
theorem longList_not_onlyTrimmed : ¬ OnlyTrimmed asciiUnicode longList := by
  intro trimmed
  rw [OnlyTrimmed, redacted_longList, boundedDocument_longList] at trimmed
  rcases trimmed not_fits_longList with marker | ⟨fields, object, _⟩
  · exact absurd marker (by decide)
  · contradiction

theorem longList_bounded : (boundedJson asciiUnicode longList).length ≤ 8000 :=
  (bounded_evidence asciiUnicode longList ⟨trivial, trivial⟩).1

end Evidence

end OhanaAgent.Tsunade
