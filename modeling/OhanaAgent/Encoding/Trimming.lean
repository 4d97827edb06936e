import OhanaAgent.Encoding.JsonRoundTrip

/-!
# Cutting a JSON value down

A value is cut at one place: the items of one array are replaced, or one string
of an object is.  A family of relations that every context keeps holds of each
cut when it holds at the place, so that facts about cuts are shown on one array
and on one string only.  What any number of cuts at ends leaves is a trimmed
value.
-/

namespace OhanaAgent.Encoding.Json

/-! ## One cut -/

section

variable (ofItems : Items → List (Nat × Items)) (ofString : Text → List (Nat × Text))

mutual

/-- The cuts of a value in the order of the text, each with its size: the value
after one cut. -/
def cuts : Value → List (Nat × Value)
  | .array items =>
      (ofItems items).map (Prod.map id .array) ++ (cutsItems items).map (Prod.map id .array)
  | .object fields => (cutsFields fields).map (Prod.map id .object)
  | .atom _ => []
  | .number _ => []
  | .string _ => []

def cutsItems : Items → List (Nat × Items)
  | .nil => []
  | .cons head tail =>
      (cuts head).map (Prod.map id fun cut => .cons cut tail) ++
        (cutsItems tail).map (Prod.map id fun cut => .cons head cut)

/-- A string is cut only as the content of a field. -/
def cutsFields : Fields → List (Nat × Fields)
  | .nil => []
  | .cons key value rest =>
      (match value with
        | .string content => (ofString content).map (Prod.map id fun cut => .cons key (.string cut) rest)
        | value => (cuts value).map (Prod.map id fun cut => .cons key cut rest)) ++
        (cutsFields rest).map (Prod.map id fun cut => .cons key value cut)

end

end

/-- Relations between a cut and what it is a cut of, in every context. -/
structure CutRule (ofValue : Value → Value → Prop) (ofItems : Items → Items → Prop)
    (ofFields : Fields → Fields → Prop) : Prop where
  array : ∀ {cut items}, ofItems cut items → ofValue (.array cut) (.array items)
  object : ∀ {cut fields}, ofFields cut fields → ofValue (.object cut) (.object fields)
  head : ∀ {cut head} tail, ofValue cut head → ofItems (.cons cut tail) (.cons head tail)
  tail : ∀ {cut tail} head, ofItems cut tail → ofItems (.cons head cut) (.cons head tail)
  content : ∀ {cut value} key rest, ofValue cut value →
    ofFields (.cons key cut rest) (.cons key value rest)
  rest : ∀ {cut rest} key value, ofFields cut rest →
    ofFields (.cons key value cut) (.cons key value rest)

namespace CutRule

variable {ofValue : Value → Value → Prop} {ofItems : Items → Items → Prop}
variable {ofFields : Fields → Fields → Prop} {itemCuts : Items → List (Nat × Items)}
variable {stringCuts : Text → List (Nat × Text)} (Counts : Nat → Prop)

mutual

/-- The rule holds of every cut that counts, when it holds at the places. -/
theorem cuts (rule : CutRule ofValue ofItems ofFields)
    (atItems : ∀ items, ∀ cut ∈ itemCuts items, Counts cut.1 → ofItems cut.2 items)
    (atString : ∀ content, ∀ cut ∈ stringCuts content, Counts cut.1 → ∀ key rest,
      ofFields (.cons key (.string cut.2) rest) (.cons key (.string content) rest)) :
    ∀ value, ∀ cut ∈ Json.cuts itemCuts stringCuts value, Counts cut.1 → ofValue cut.2 value
  | .array items => by
      intro cut member counts
      rcases List.mem_append.mp member with here | inside
      · rcases List.mem_map.mp here with ⟨shorter, among, rfl⟩
        exact rule.array (atItems items shorter among counts)
      · rcases List.mem_map.mp inside with ⟨shorter, among, rfl⟩
        exact rule.array (cutsItems rule atItems atString items shorter among counts)
  | .object fields => by
      intro cut member counts
      rcases List.mem_map.mp member with ⟨shorter, among, rfl⟩
      exact rule.object (cutsFields rule atItems atString fields shorter among counts)
  | .atom _ => nofun
  | .number _ => nofun
  | .string _ => nofun

theorem cutsItems (rule : CutRule ofValue ofItems ofFields)
    (atItems : ∀ items, ∀ cut ∈ itemCuts items, Counts cut.1 → ofItems cut.2 items)
    (atString : ∀ content, ∀ cut ∈ stringCuts content, Counts cut.1 → ∀ key rest,
      ofFields (.cons key (.string cut.2) rest) (.cons key (.string content) rest)) :
    ∀ items, ∀ cut ∈ Json.cutsItems itemCuts stringCuts items, Counts cut.1 → ofItems cut.2 items
  | .nil => nofun
  | .cons head tail => by
      intro cut member counts
      rcases List.mem_append.mp member with first | later
      · rcases List.mem_map.mp first with ⟨shorter, among, rfl⟩
        exact rule.head tail (cuts rule atItems atString head shorter among counts)
      · rcases List.mem_map.mp later with ⟨shorter, among, rfl⟩
        exact rule.tail head (cutsItems rule atItems atString tail shorter among counts)

theorem cutsFields (rule : CutRule ofValue ofItems ofFields)
    (atItems : ∀ items, ∀ cut ∈ itemCuts items, Counts cut.1 → ofItems cut.2 items)
    (atString : ∀ content, ∀ cut ∈ stringCuts content, Counts cut.1 → ∀ key rest,
      ofFields (.cons key (.string cut.2) rest) (.cons key (.string content) rest)) :
    ∀ fields, ∀ cut ∈ Json.cutsFields itemCuts stringCuts fields, Counts cut.1 →
      ofFields cut.2 fields
  | .nil => nofun
  | .cons key value others => by
      intro cut member counts
      have later (listed : cut ∈ (Json.cutsFields itemCuts stringCuts others).map
          (Prod.map id fun cut => .cons key value cut)) : ofFields cut.2 (.cons key value others) := by
        rcases List.mem_map.mp listed with ⟨shorter, among, rfl⟩
        exact rule.rest key value (cutsFields rule atItems atString others shorter among counts)
      have first (listed : cut ∈ (Json.cuts itemCuts stringCuts value).map
          (Prod.map id fun cut => .cons key cut others)) :
          ofFields cut.2 (.cons key value others) := by
        rcases List.mem_map.mp listed with ⟨shorter, among, rfl⟩
        exact rule.content key others (cuts rule atItems atString value shorter among counts)
      cases value with
      | string content =>
          rcases List.mem_append.mp member with here | among
          · rcases List.mem_map.mp here with ⟨shorter, among, rfl⟩
            exact atString content shorter among counts key others
          · exact later among
      | array items => exact (List.mem_append.mp member).elim first later
      | object fields => exact (List.mem_append.mp member).elim first later
      | atom literal => exact (List.mem_append.mp member).elim first later
      | number value => exact (List.mem_append.mp member).elim first later

end

end CutRule

/-! ## The weight of a value -/

mutual

/-- The items of all arrays and the characters of all strings. -/
def weight : Value → Nat
  | .atom _ => 0
  | .number _ => 0
  | .string content => content.length
  | .array items => weightItems items
  | .object fields => weightFields fields

def weightItems : Items → Nat
  | .nil => 0
  | .cons head tail => 1 + weight head + weightItems tail

def weightFields : Fields → Nat
  | .nil => 0
  | .cons _ value rest => weight value + weightFields rest

end

theorem length_le_escape (content : Text) : content.length ≤ (escape content).length := by
  induction content with
  | nil => exact Nat.le_refl 0
  | cons c rest inductionHypothesis =>
      rcases escapeChar_eq_cons c with ⟨first, others, escaped, _⟩
      rw [escape_cons, escaped, List.length_cons, List.length_append, List.length_cons]
      omega

mutual

/-- The text of a value has more characters than its weight. -/
theorem weight_lt_render : ∀ value, weight value < (render value).length
  | .atom literal => by
      cases literal <;> decide
  | .number value => render_length_pos (.number value)
  | .string content => by
      have escaped := length_le_escape content
      simp only [weight, render, List.length_cons, List.length_append]
      omega
  | .array items => by
      have inside := weightItems_le_render items
      simp only [weight, render, List.length_cons, List.length_append]
      omega
  | .object fields => by
      have inside := weightFields_le_render fields
      simp only [weight, render, List.length_cons, List.length_append]
      omega

theorem weightItems_le_render : ∀ items, weightItems items ≤ (renderItems items).length
  | .nil => Nat.le_refl 0
  | .cons head .nil => by
      have first := weight_lt_render head
      simp only [weightItems, renderItems]
      omega
  | .cons head (.cons next tail) => by
      have first := weight_lt_render head
      have others := weightItems_le_render (.cons next tail)
      rw [weightItems, renderItems, List.length_append, List.length_cons]
      omega

theorem weightFields_le_render : ∀ fields, weightFields fields ≤ (renderFields fields).length
  | .nil => Nat.le_refl 0
  | .cons key value .nil => by
      have content := weight_lt_render value
      simp only [weightFields, renderFields, List.length_cons, List.length_append]
      omega
  | .cons key value (.cons next content rest) => by
      have first := weight_lt_render value
      have others := weightFields_le_render (.cons next content rest)
      rw [weightFields, renderFields]
      simp only [List.length_cons, List.length_append]
      omega

end

/-- A cut that is lighter at its place is lighter in every context. -/
theorem lighter_cutRule : CutRule (fun cut value => weight cut < weight value)
    (fun cut items => weightItems cut < weightItems items)
    (fun cut fields => weightFields cut < weightFields fields) where
  array := id
  object := id
  head tail lighter := by
    simp only [weightItems]
    omega
  tail head lighter := by
    simp only [weightItems]
    omega
  content key rest lighter := Nat.add_lt_add_right lighter _
  rest key value lighter := Nat.add_lt_add_left lighter _

/-! ## Cuts at the end -/

/-- Remove the last item. -/
def Items.pop : Items → Items
  | .nil => .nil
  | .cons _ .nil => .nil
  | .cons head (.cons next tail) => .cons head (pop (.cons next tail))

/-- A text that lost its end to an ellipsis. -/
def Shortened (cut content : Text) : Prop :=
  ∃ kept, kept <+: content ∧ kept.length < content.length ∧ cut = kept ++ ['…']

theorem Shortened.trans {first second third : Text} (left : Shortened first second)
    (right : Shortened second third) : Shortened first third := by
  rcases left with ⟨kept, inSecond, shorter, rfl⟩
  rcases right with ⟨before, inThird, less, rfl⟩
  have bound : kept.length ≤ before.length := by
    simpa [Nat.lt_succ_iff] using shorter
  have inBefore : kept <+: before :=
    List.prefix_of_prefix_length_le inSecond (List.prefix_append before ['…']) bound
  exact ⟨kept, inBefore.trans inThird, Nat.lt_of_le_of_lt bound less, rfl⟩

mutual

/-- What is left of a value when arrays lost items at their ends and the strings
of objects were shortened. -/
inductive Trimmed : Value → Value → Prop
  | same (value : Value) : Trimmed value value
  | array {cut items : Items} : TrimmedItems cut items → Trimmed (.array cut) (.array items)
  | object {cut fields : Fields} : TrimmedFields cut fields → Trimmed (.object cut) (.object fields)

inductive TrimmedItems : Items → Items → Prop
  | removed (items : Items) : TrimmedItems .nil items
  | cons {cut head : Value} {rest tail : Items} : Trimmed cut head → TrimmedItems rest tail →
      TrimmedItems (.cons cut rest) (.cons head tail)

inductive TrimmedFields : Fields → Fields → Prop
  | nil : TrimmedFields .nil .nil
  | cons (key : Text) {cut value : Value} {others rest : Fields} : Trimmed cut value →
      TrimmedFields others rest → TrimmedFields (.cons key cut others) (.cons key value rest)
  | shortened (key : Text) {cut content : Text} {others rest : Fields} : Shortened cut content →
      TrimmedFields others rest →
      TrimmedFields (.cons key (.string cut) others) (.cons key (.string content) rest)

end

theorem TrimmedItems.refl : ∀ items, TrimmedItems items items
  | .nil => .removed .nil
  | .cons head tail => .cons (.same head) (refl tail)

theorem TrimmedFields.refl : ∀ fields, TrimmedFields fields fields
  | .nil => .nil
  | .cons key value rest => .cons key (.same value) (refl rest)

/-- One cut at an end trims. -/
theorem trimmed_cutRule : CutRule Trimmed TrimmedItems TrimmedFields where
  array := .array
  object := .object
  head tail trimmed := .cons trimmed (.refl tail)
  tail head trimmed := .cons (.same head) trimmed
  content key rest trimmed := .cons key trimmed (.refl rest)
  rest key value trimmed := .cons key (.same value) trimmed

theorem trimmedItems_pop : ∀ items : Items, TrimmedItems items.pop items
  | .nil => .removed .nil
  | .cons _ .nil => .removed _
  | .cons head (.cons next tail) => .cons (.same head) (trimmedItems_pop (.cons next tail))

theorem weightItems_pop_lt : ∀ head tail, weightItems (Items.cons head tail).pop <
    weightItems (.cons head tail)
  | head, .nil => by
      simp only [Items.pop, weightItems]
      omega
  | head, .cons next tail => by
      have lighter := weightItems_pop_lt next tail
      simp only [Items.pop, weightItems] at lighter ⊢
      omega

mutual

theorem Trimmed.trans {first second third : Value} : Trimmed first second →
    Trimmed second third → Trimmed first third
  | .same _, right => right
  | .array left, .same _ => .array left
  | .array left, .array right => .array (TrimmedItems.trans left right)
  | .object left, .same _ => .object left
  | .object left, .object right => .object (TrimmedFields.trans left right)

theorem TrimmedItems.trans {first second third : Items} : TrimmedItems first second →
    TrimmedItems second third → TrimmedItems first third
  | .removed _, _ => .removed _
  | .cons head tail, .cons next rest => .cons (Trimmed.trans head next) (TrimmedItems.trans tail rest)

theorem TrimmedFields.trans {first second third : Fields} : TrimmedFields first second →
    TrimmedFields second third → TrimmedFields first third
  | .nil, .nil => .nil
  | .cons key value rest, .cons _ content others =>
      .cons key (Trimmed.trans value content) (TrimmedFields.trans rest others)
  | .cons key value rest, .shortened _ cut others => by
      cases value
      exact .shortened key cut (TrimmedFields.trans rest others)
  | .shortened key cut rest, .cons _ content others => by
      cases content
      exact .shortened key cut (TrimmedFields.trans rest others)
  | .shortened key cut rest, .shortened _ before others =>
      .shortened key (cut.trans before) (TrimmedFields.trans rest others)

end

/-! ## What trimming keeps -/

theorem TrimmedFields.keys {cut fields : Fields} : TrimmedFields cut fields →
    cut.keys = fields.keys
  | .nil => rfl
  | .cons key _ rest => congrArg (key :: ·) rest.keys
  | .shortened key _ rest => congrArg (key :: ·) rest.keys

mutual

theorem Trimmed.distinctKeys {cut value : Value} : Trimmed cut value → DistinctKeys value →
    DistinctKeys cut
  | .same _, distinct => distinct
  | .array trimmed, distinct => TrimmedItems.distinctItems trimmed distinct
  | .object trimmed, distinct => TrimmedFields.distinctFields trimmed distinct

theorem TrimmedItems.distinctItems {cut items : Items} : TrimmedItems cut items →
    DistinctItems items → DistinctItems cut
  | .removed _, _ => trivial
  | .cons head tail, ⟨first, rest⟩ =>
      ⟨Trimmed.distinctKeys head first, TrimmedItems.distinctItems tail rest⟩

theorem TrimmedFields.distinctFields {cut fields : Fields} : TrimmedFields cut fields →
    DistinctFields fields → DistinctFields cut
  | .nil, _ => trivial
  | .cons _ value rest, ⟨fresh, content, others⟩ =>
      ⟨rest.keys ▸ fresh, Trimmed.distinctKeys value content,
        TrimmedFields.distinctFields rest others⟩
  | .shortened _ _ rest, ⟨fresh, _, others⟩ =>
      ⟨rest.keys ▸ fresh, trivial, TrimmedFields.distinctFields rest others⟩

end

section Lookup

variable {others rest : Fields} {name key : Text} {literal : Atom}

theorem Trimmed.lookup_atom_cons {cut value : Value} (trimmed : Trimmed cut value)
    (tail : rest.lookup key = some (.atom literal) → others.lookup key = some (.atom literal))
    (found : (Fields.cons name value rest).lookup key = some (.atom literal)) :
    (Fields.cons name cut others).lookup key = some (.atom literal) := by
  by_cases same : name = key
  · rw [Fields.lookup, if_pos same, Option.some.injEq] at found ⊢
    subst found
    cases trimmed
    rfl
  · rw [Fields.lookup, if_neg same] at found ⊢
    exact tail found

theorem lookup_atom_shortened {cut content : Text}
    (tail : rest.lookup key = some (.atom literal) → others.lookup key = some (.atom literal))
    (found : (Fields.cons name (.string content) rest).lookup key = some (.atom literal)) :
    (Fields.cons name (.string cut) others).lookup key = some (.atom literal) := by
  by_cases same : name = key
  · rw [Fields.lookup, if_pos same] at found
    cases found
  · rw [Fields.lookup, if_neg same] at found ⊢
    exact tail found

end Lookup

/-- A literal field of an object stays. -/
theorem TrimmedFields.lookup_atom {cut fields : Fields} {key : Text} {literal : Atom} :
    TrimmedFields cut fields → fields.lookup key = some (.atom literal) →
      cut.lookup key = some (.atom literal)
  | .nil, found => found
  | .cons _ value rest, found => value.lookup_atom_cons rest.lookup_atom found
  | .shortened _ _ rest, found => lookup_atom_shortened rest.lookup_atom found

/-! ## Finite numbers -/

mutual

/-- No number of the value is infinite or undefined. -/
def Finite : Value → Prop
  | .atom literal => literal ∉ [Atom.nan, .infinity, .negInfinity]
  | .number _ => True
  | .string _ => True
  | .array items => FiniteItems items
  | .object fields => FiniteFields fields

def FiniteItems : Items → Prop
  | .nil => True
  | .cons head tail => Finite head ∧ FiniteItems tail

def FiniteFields : Fields → Prop
  | .nil => True
  | .cons _ value rest => Finite value ∧ FiniteFields rest

end

mutual

theorem Trimmed.finite {cut value : Value} : Trimmed cut value → Finite value → Finite cut
  | .same _, finite => finite
  | .array trimmed, finite => TrimmedItems.finite trimmed finite
  | .object trimmed, finite => TrimmedFields.finite trimmed finite

theorem TrimmedItems.finite {cut items : Items} : TrimmedItems cut items → FiniteItems items →
    FiniteItems cut
  | .removed _, _ => trivial
  | .cons head tail, ⟨first, rest⟩ => ⟨Trimmed.finite head first, TrimmedItems.finite tail rest⟩

theorem TrimmedFields.finite {cut fields : Fields} : TrimmedFields cut fields →
    FiniteFields fields → FiniteFields cut
  | .nil, _ => trivial
  | .cons _ value rest, ⟨content, others⟩ =>
      ⟨Trimmed.finite value content, TrimmedFields.finite rest others⟩
  | .shortened _ _ rest, ⟨_, others⟩ => ⟨trivial, TrimmedFields.finite rest others⟩

end

/-! ## Assigned fields -/

theorem Fields.mem_keys_set {key other : Text} {value : Value} :
    ∀ {fields : Fields}, other ∈ (fields.set key value).keys → other = key ∨ other ∈ fields.keys
  | .nil, member => Or.inl (List.mem_singleton.mp member)
  | .cons name content rest, member => by
      rw [Fields.set] at member
      by_cases same : name = key
      · rw [if_pos same] at member
        exact Or.inr member
      · rw [if_neg same] at member
        rcases List.mem_cons.mp member with here | later
        · exact Or.inr (List.mem_cons.mpr (Or.inl here))
        · exact (Fields.mem_keys_set later).imp_right (List.mem_cons_of_mem name)

theorem DistinctFields.set {key : Text} {value : Value} (distinctValue : DistinctKeys value) :
    ∀ {fields : Fields}, DistinctFields fields → DistinctFields (fields.set key value)
  | .nil, _ => ⟨List.not_mem_nil, distinctValue, trivial⟩
  | .cons name content rest, ⟨fresh, distinctContent, distinctRest⟩ => by
      rw [Fields.set]
      by_cases same : name = key
      · rw [if_pos same]
        exact ⟨fresh, distinctValue, distinctRest⟩
      · rw [if_neg same]
        constructor
        · intro member
          exact (Fields.mem_keys_set member).elim same fresh
        · exact ⟨distinctContent, DistinctFields.set distinctValue distinctRest⟩

theorem FiniteFields.set {key : Text} {value : Value} (finiteValue : Finite value) :
    ∀ {fields : Fields}, FiniteFields fields → FiniteFields (fields.set key value)
  | .nil, _ => ⟨finiteValue, trivial⟩
  | .cons name content rest, ⟨finiteContent, finiteRest⟩ => by
      rw [Fields.set]
      by_cases same : name = key
      · rw [if_pos same]
        exact ⟨finiteValue, finiteRest⟩
      · rw [if_neg same]
        exact ⟨finiteContent, FiniteFields.set finiteValue finiteRest⟩

end OhanaAgent.Encoding.Json
