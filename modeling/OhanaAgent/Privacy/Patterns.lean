import OhanaAgent.Encoding.Masking
import OhanaAgent.Privacy.Redaction
import Mathlib.Data.List.Forall2

/-!
# What the patterns match

Each pattern that masks a value reads a head, which the mask keeps, and a value
with what ends it.  The functions that match are shown to find exactly these.
-/

namespace OhanaAgent.Privacy

open OhanaAgent.Encoding
open OhanaAgent.Encoding.Json

/-! ## Shapes -/

/-- The heads and the values of a pattern, and its mask. -/
structure Shape where
  bound : Option Char → Bool
  IsHead : Text → Prop
  IsValue : Text → Text → Prop
  mask : Text

/-- A head, a value and the rest at a position. -/
structure Shape.Reads (shape : Shape) (before : Option Char) (head value rest : Text) : Prop where
  bound : shape.bound before = true
  head : shape.IsHead head
  value : shape.IsValue value rest

/-- The pattern matches what the shape reads. -/
def Shape.Describes (shape : Shape) (find : Option Char → Text → Option (Replacement Char)) :
    Prop :=
  ∀ before text found, find before text = some found ↔ ∃ head value rest,
    text = head ++ (value ++ rest) ∧ shape.Reads before head value rest ∧
      found = ⟨(head ++ value).length, head ++ shape.mask⟩

/-- Heads and values are not empty. -/
structure Shape.Proper (shape : Shape) : Prop where
  head : ∀ head, shape.IsHead head → head ≠ []
  value : ∀ value rest, shape.IsValue value rest → value ≠ []

section Shapes

variable {shape : Shape} {find : Option Char → Text → Option (Replacement Char)}
  {before : Option Char} {head value rest text : Text}

theorem Shape.Describes.found (describes : shape.Describes find)
    (reads : shape.Reads before head value rest) :
    find before (head ++ (value ++ rest)) = some ⟨(head ++ value).length, head ++ shape.mask⟩ :=
  (describes _ _ _).mpr ⟨head, value, rest, rfl, reads, rfl⟩

theorem Shape.Describes.maskedAt (describes : shape.Describes find) (proper : shape.Proper)
    (reads : shape.Reads before head value rest) :
    MaskedAt find shape.mask before head value rest :=
  ⟨describes.found reads, proper.head head reads.head, proper.value value rest reads.value⟩

theorem Shape.Describes.masks (describes : shape.Describes find) (proper : shape.Proper) :
    Masks find shape.mask := by
  intro before text found matched
  obtain ⟨head, value, rest, textEq, reads, foundEq⟩ := (describes _ _ _).mp matched
  exact ⟨head, value, rest, textEq, describes.maskedAt proper reads, foundEq⟩

/-- A match with a given head reads that head. -/
theorem Shape.Describes.reads (describes : shape.Describes find)
    (matched : MaskedAt find shape.mask before head value rest) :
    shape.Reads before head value rest := by
  obtain ⟨other, hidden, after, textEq, reads, foundEq⟩ := (describes _ _ _).mp matched.found
  simp only [Replacement.mk.injEq] at foundEq
  obtain rfl := List.append_cancel_right foundEq.2
  have values := List.append_cancel_left textEq
  have lengths : value.length = hidden.length := by simpa using foundEq.1
  obtain ⟨rfl, rfl⟩ := List.append_inj values lengths
  exact reads

/-- What a pattern reads in a stable text is masked already. -/
theorem Shape.Describes.value_eq (describes : shape.Describes find) (proper : shape.Proper)
    {first : Text} (stable : Stable find (first ++ (head ++ (value ++ rest))))
    (reads : shape.Reads first.getLast? head value rest) : value = shape.mask :=
  (stable first _ rfl).value_eq (describes.maskedAt proper reads)

theorem Shape.Describes.quiet (describes : shape.Describes find)
    (masked : ∀ head value rest, text = head ++ (value ++ rest) →
      shape.Reads before head value rest → value = shape.mask) : Quiet find before text := by
  intro found matched
  obtain ⟨head, value, rest, rfl, reads, rfl⟩ := (describes _ _ _).mp matched
  rw [← List.append_assoc, List.take_left' rfl, masked head value rest rfl reads]

end Shapes

/-! ## Runs -/

/-- A rest that ends a run: nothing, or a character that the condition excludes. -/
def Stops (condition : Char → Bool) (rest : Text) : Prop :=
  ∀ c tail, rest = c :: tail → condition c = false

/-- A text of the characters that a condition allows. -/
def All (condition : Char → Bool) (text : Text) : Prop :=
  ∀ c ∈ text, condition c = true

section Runs

variable {condition : Char → Bool} {inside rest text : Text} {c : Char}

theorem stops_nil : Stops condition [] := by
  intro c tail equal
  contradiction

theorem stops_cons : Stops condition (c :: rest) ↔ condition c = false := by
  constructor
  · intro stops
    exact stops c rest rfl
  · rintro ends d tail equal
    cases equal
    exact ends

theorem all_nil : All condition [] := by
  intro c member
  cases member

theorem all_cons : All condition (c :: text) ↔ condition c = true ∧ All condition text := by
  simp [All]

theorem all_append : All condition (text ++ rest) ↔ All condition text ∧ All condition rest := by
  constructor
  · intro all
    exact ⟨fun c member => all c (List.mem_append_left _ member),
      fun c member => all c (List.mem_append_right _ member)⟩
  · rintro ⟨left, right⟩ c member
    rcases List.mem_append.mp member with member | member
    · exact left c member
    · exact right c member

theorem run_append_of_stops (all : All condition inside) (stops : Stops condition rest) :
    run condition (inside ++ rest) = (inside, rest) := by
  induction inside with
  | nil =>
      cases rest with
      | nil => rfl
      | cons c tail => simp [run, stops c tail rfl]
  | cons c inside inductionHypothesis =>
      obtain ⟨head, tail⟩ := all_cons.mp all
      have after := inductionHypothesis tail
      simp only [run, Prod.mk.injEq] at after
      simp [run, head, after]

theorem all_run (condition : Char → Bool) (text : Text) : All condition (run condition text).1 :=
  fun _ member => List.mem_takeWhile_imp member

theorem stops_run (condition : Char → Bool) (text : Text) :
    Stops condition (run condition text).2 := by
  intro c tail equal
  have nonempty : text.dropWhile condition ≠ [] := by
    simp only [run] at equal
    simp [equal]
  have first := List.head_dropWhile_not condition nonempty
  simp only [run] at equal
  simpa [equal] using first

theorem exists_run (condition : Char → Bool) (text : Text) :
    ∃ inside rest, text = inside ++ rest ∧ All condition inside ∧ Stops condition rest :=
  ⟨_, _, (run_append condition text).symm, all_run condition text, stops_run condition text⟩

/-- Two runs that begin one text are the same. -/
theorem runs_unique {other left : Text} (equal : inside ++ rest = other ++ left)
    (all : All condition inside) (stops : Stops condition rest) (otherAll : All condition other)
    (otherStops : Stops condition left) : inside = other ∧ rest = left := by
  have first := run_append_of_stops all stops
  rw [equal, run_append_of_stops otherAll otherStops] at first
  exact ⟨(congrArg Prod.fst first).symm, (congrArg Prod.snd first).symm⟩

end Runs

/-! ## Session paths -/

/-- `_SESSION_PATH`. -/
def sessionPath (_ : Option Char) (text : Text) : Option (Replacement Char) :=
  (sessionMatch text).map fun (marker, run) => ⟨(marker ++ run).length, marker ++ redacted⟩

theorem redactSessionPaths_eq_substitute (text : Text) :
    redactSessionPaths text = substitute sessionPath text := by
  have from_ (before : Option Char) (skip : Nat) (text : Text) :
      subFrom skip text = substituteFrom sessionPath before skip text := by
    induction text generalizing before skip with
    | nil => simp [subFrom, substituteFrom]
    | cons c rest inductionHypothesis =>
        cases skip with
        | succ skip => exact inductionHypothesis (some c) skip
        | zero =>
            rw [subFrom, substituteFrom, sessionPath]
            cases found : sessionMatch (c :: rest) with
            | none => simp only [Option.map_none, inductionHypothesis (some c) 0]
            | some parts =>
                obtain ⟨_, _, marked, _⟩ := sessionMatch_eq_some found
                have skip : (parts.1 ++ parts.2).length - 1 = parts.2.length + 5 := by
                  rw [List.length_append, isMarker_length marked]
                  omega
                simp only [Option.map_some, skip, inductionHypothesis (some c) (parts.2.length + 5)]
  exact from_ none 0 text

def isSessionChar (c : Char) : Bool :=
  !endsSession c

def sessionShape : Shape where
  bound := fun _ => true
  IsHead := fun head => isMarker head = true
  IsValue := fun value rest => value ≠ [] ∧ All isSessionChar value ∧ Stops isSessionChar rest
  mask := redacted

theorem sessionShape_describes : sessionShape.Describes sessionPath := by
  intro before text found
  constructor
  · intro matched
    obtain ⟨⟨marker, run⟩, found, rfl⟩ := Option.map_eq_some_iff.mp matched
    obtain ⟨rest, textEq, marked, nonempty, inside, ended⟩ := sessionMatch_eq_some found
    refine ⟨marker, run, rest, textEq, ⟨rfl, marked, nonempty, ?_, ?_⟩, rfl⟩
    · intro c member
      simp [isSessionChar, inside c member]
    · intro c tail equal
      simp [isSessionChar, ended c tail equal]
  · rintro ⟨head, value, rest, rfl, ⟨_, marked, nonempty, all, stops⟩, rfl⟩
    have ended : Ended rest := fun c tail equal => by
      simpa [isSessionChar] using stops c tail equal
    have inside : ∀ c ∈ value, endsSession c = false := fun c member => by
      simpa [isSessionChar] using all c member
    rw [sessionPath, sessionMatch_append marked nonempty inside ended]
    rfl

theorem sessionShape_proper : sessionShape.Proper where
  head := by
    rintro head marked rfl
    simp [sessionShape, isMarker] at marked
  value := fun _ _ reads => reads.1

/-! ## URL authorities -/

def isSchemeChar (c : Char) : Bool :=
  isLetterOrDigit c || c == '+' || c == '.' || c == '-'

def isUserChar (c : Char) : Bool :=
  !(c == '/' || c == '@' || isWhitespace c)

def urlShape (unicode : Unicode) : Shape where
  bound := boundary unicode
  IsHead := fun head => ∃ c scheme, head = c :: (scheme ++ "://".toList) ∧ isLetter c = true ∧
    All isSchemeChar scheme
  IsValue := fun value _ => ∃ user, value = user ++ ['@'] ∧ user ≠ [] ∧ All isUserChar user
  mask := redacted ++ ['@']

theorem strip_eq_some_iff {mark text rest : Text} :
    strip mark text = some rest ↔ text = mark ++ rest := by
  induction mark generalizing text with
  | nil => simp [strip, eq_comm]
  | cons c mark inductionHypothesis =>
      cases text with
      | nil => simp [strip]
      | cons d text =>
          simp only [strip]
          split
          · rename_i same
            simp [same, inductionHypothesis]
          · rename_i different
            simp [Ne.symm different]

theorem urlUserinfo_cons (unicode : Unicode) (before : Option Char) (c : Char) (tail : Text) :
    urlUserinfo unicode before (c :: tail) =
      if boundary unicode before && isLetter c then
        match strip "://".toList (run isSchemeChar tail).2 with
        | none => none
        | some authority =>
            match (run isUserChar authority).2 with
            | '@' :: rest =>
                if (run isUserChar authority).1.isEmpty then none
                else some (upTo (c :: tail) rest
                  ((c :: (run isSchemeChar tail).1) ++ "://".toList ++ redacted ++ ['@']))
            | _ => none
      else none := rfl

/-- The length of a match that ends before the rest. -/
theorem upTo_append (first rest replacement : Text) :
    upTo (first ++ rest) rest replacement = ⟨first.length, replacement⟩ := by
  simp [upTo]

theorem urlShape_describes (unicode : Unicode) :
    (urlShape unicode).Describes (urlUserinfo unicode) := by
  intro before text found
  constructor
  · intro matched
    cases text with
    | nil => contradiction
    | cons c tail =>
        rw [urlUserinfo_cons] at matched
        split at matched
        · rename_i opens
          rw [Bool.and_eq_true] at opens
          split at matched
          · contradiction
          · rename_i authority colon
            split at matched
            · rename_i rest after
              split at matched
              · contradiction
              · rename_i nonempty
                have tailEq := run_append isSchemeChar tail
                have authorityEq := run_append isUserChar authority
                rw [after] at authorityEq
                rw [strip_eq_some_iff.mp colon, ← authorityEq] at tailEq
                have whole : c :: tail = c :: ((run isSchemeChar tail).1 ++ "://".toList) ++
                    ((run isUserChar authority).1 ++ ['@']) ++ rest := by
                  conv_lhs => rw [← tailEq]
                  simp
                rw [whole, upTo_append] at matched
                refine ⟨c :: ((run isSchemeChar tail).1 ++ "://".toList),
                  (run isUserChar authority).1 ++ ['@'], rest, by rw [whole]; simp,
                  ⟨opens.1, ⟨c, _, rfl, opens.2, all_run _ _⟩,
                    ⟨_, rfl, by simpa using nonempty, all_run _ _⟩⟩, ?_⟩
                rw [← Option.some.inj matched]
                simp [urlShape]
            · contradiction
        · contradiction
  · rintro ⟨head, value, rest, rfl, ⟨opens, ⟨c, scheme, rfl, letter, allScheme⟩,
      user, rfl, nonempty, allUser⟩, rfl⟩
    have schemeRun : run isSchemeChar (scheme ++ ("://".toList ++ (user ++ '@' :: rest))) =
        (scheme, "://".toList ++ (user ++ '@' :: rest)) :=
      run_append_of_stops allScheme (stops_cons.mpr rfl)
    have userRun : run isUserChar (user ++ '@' :: rest) = (user, '@' :: rest) :=
      run_append_of_stops allUser (stops_cons.mpr rfl)
    have whole : c :: (scheme ++ "://".toList) ++ (user ++ ['@'] ++ rest) =
        c :: (scheme ++ ("://".toList ++ (user ++ '@' :: rest))) := by simp
    have opened : (boundary unicode before && isLetter c) = true := by
      rw [letter, Bool.and_true]
      exact opens
    rw [whole, urlUserinfo_cons, if_pos opened, schemeRun]
    simp only [strip_eq_some_iff.mpr rfl, userRun]
    rw [if_neg (by simpa using nonempty), ← whole, ← List.append_assoc, upTo_append]
    simp [urlShape]

theorem urlShape_proper (unicode : Unicode) : (urlShape unicode).Proper where
  head := by
    rintro _ ⟨c, scheme, rfl, _⟩
    simp
  value := by
    rintro _ _ ⟨user, rfl, _⟩
    simp

/-! ## Words and signs -/

/-- The letters of a word without regard to case. -/
def Spells (letters text : Text) : Prop :=
  List.Forall₂ (fun letter c => sameLetter letter c = true) letters text

theorem word_eq_some_iff {letters text read rest : Text} :
    word letters text = some (read, rest) ↔ text = read ++ rest ∧ Spells letters read := by
  induction letters generalizing text read with
  | nil =>
      simp only [word, Option.some.injEq, Prod.mk.injEq]
      constructor
      · rintro ⟨rfl, rfl⟩
        exact ⟨rfl, .nil⟩
      · rintro ⟨rfl, spelled⟩
        cases spelled
        exact ⟨rfl, rfl⟩
  | cons letter letters inductionHypothesis =>
      cases text with
      | nil =>
          simp only [word, reduceCtorEq, false_iff, not_and]
          rintro equal spelled
          cases spelled
          contradiction
      | cons c text =>
          simp only [word]
          split
          · rename_i same
            simp only [Option.map_eq_some_iff, Prod.exists, Prod.mk.injEq]
            constructor
            · rintro ⟨found, left, inner, rfl, rfl⟩
              obtain ⟨rfl, spelled⟩ := inductionHypothesis.mp inner
              exact ⟨rfl, .cons same spelled⟩
            · rintro ⟨equal, spelled⟩
              obtain _ | ⟨_, tail⟩ := spelled
              rename_i d found same
              simp only [List.cons_append, List.cons.injEq] at equal
              exact ⟨found, rest, inductionHypothesis.mpr ⟨equal.2, tail⟩, by rw [equal.1], rfl⟩
          · rename_i different
            simp only [reduceCtorEq, false_iff, not_and]
            rintro equal spelled
            obtain _ | ⟨same, _⟩ := spelled
            simp only [List.cons_append, List.cons.injEq] at equal
            exact different (equal.1 ▸ same)

theorem Spells.length {letters text : Text} (spelled : Spells letters text) :
    text.length = letters.length :=
  (List.Forall₂.length_eq spelled).symm

/-- Apart from three letters, case is the only variation. -/
theorem toLower_of_sameLetter {letter c : Char} (lower : letter.toLower = letter)
    (plain : letter ≠ 'i' ∧ letter ≠ 's' ∧ letter ≠ 'k') (same : sameLetter letter c = true) :
    c.toLower = letter := by
  obtain ⟨notI, notS, notK⟩ := plain
  have variation : c = letter ∨ c.toLower = letter := by
    simpa [sameLetter, notI, notS, notK] using same
  rcases variation with rfl | same
  · exact lower
  · exact same

theorem isLetter_of_sameLetter {letter c : Char} (lower : letter.isLower = true)
    (same : sameLetter letter c = true) : isLetter c = true := by
  simp only [sameLetter, Bool.or_eq_true, Bool.and_eq_true, beq_iff_eq] at same
  rcases same with (((rfl | same) | ⟨_, rfl | rfl⟩) | ⟨_, rfl⟩) | ⟨_, rfl⟩
  · simp [isLetter, isAlpha_eq, lower]
  · have alpha : c.isAlpha = true := by
      rw [isAlpha_eq, Bool.or_eq_true]
      by_cases upper : c.isUpper = true
      · exact Or.inl upper
      · have unchanged : c.toLower = c := by
          rw [isUpper_eq, decide_eq_true_eq] at upper
          exact dif_neg upper
        exact Or.inr (unchanged.symm.trans same ▸ lower)
    simp [isLetter, alpha]
  · decide
  · decide
  · decide
  · decide

/-- A colon or an equals sign with white space around it. -/
def IsSign (text : Text) : Prop :=
  ∃ space c gap, text = space ++ c :: gap ∧ All isWhitespace space ∧ (c = ':' ∨ c = '=') ∧
    All isWhitespace gap

theorem sign_eq_some_iff {text read rest : Text} :
    sign text = some (read, rest) ↔
      text = read ++ rest ∧ IsSign read ∧ Stops isWhitespace rest := by
  constructor
  · intro matched
    rw [sign] at matched
    have textEq := run_append isWhitespace text
    cases after : (run isWhitespace text).2 with
    | nil => simp [after] at matched
    | cons c tail =>
        rw [after] at textEq
        simp only [after] at matched
        split at matched
        · rename_i signed
          simp only [Option.some.injEq, Prod.mk.injEq] at matched
          obtain ⟨rfl, rfl⟩ := matched
          have tailEq := run_append isWhitespace tail
          refine ⟨?_, ⟨(run isWhitespace text).1, c, (run isWhitespace tail).1, by simp, all_run _ _,
            by simpa using signed, all_run _ _⟩,
            stops_run _ _⟩
          conv_lhs => rw [← textEq]
          simp [tailEq]
        · contradiction
  · rintro ⟨rfl, ⟨space, c, gap, rfl, allSpace, signed, allGap⟩, stops⟩
    have blank : isWhitespace c = false := by rcases signed with rfl | rfl <;> rfl
    have first : run isWhitespace (space ++ c :: (gap ++ rest)) = (space, c :: (gap ++ rest)) :=
      run_append_of_stops allSpace (stops_cons.mpr blank)
    have second := run_append_of_stops allGap stops
    have isSign : (c == ':' || c == '=') = true := by simpa using signed
    rw [sign, List.append_assoc, List.cons_append, first]
    simp [isSign, second]

/-- White space, at least one character of it. -/
def IsBlank (text : Text) : Prop :=
  text ≠ [] ∧ All isWhitespace text

theorem isWhitespace_of_isSecretChar {c : Char} (secret : isSecretChar c = true) :
    isWhitespace c = false := by
  simp only [isSecretChar, Bool.not_eq_true', Bool.or_eq_false_iff] at secret
  exact secret.1.1

theorem stops_isWhitespace {value rest : Text} (nonempty : value ≠ [])
    (all : All isSecretChar value) : Stops isWhitespace (value ++ rest) := by
  obtain ⟨c, tail, rfl⟩ := List.exists_cons_of_ne_nil nonempty
  exact stops_cons.mpr (isWhitespace_of_isSecretChar (all c List.mem_cons_self))

theorem secret_eq (least : Nat) (text : Text) : secret least text =
    if (run isWhitespace text).1.isEmpty ||
        (run isSecretChar (run isWhitespace text).2).1.length < least then none
    else some ((run isWhitespace text).1, (run isSecretChar (run isWhitespace text).2).2) := rfl

theorem secret_eq_some_iff {least : Nat} (positive : 0 < least) {text blank rest : Text} :
    secret least text = some (blank, rest) ↔ ∃ value, text = blank ++ (value ++ rest) ∧
      IsBlank blank ∧ least ≤ value.length ∧ All isSecretChar value ∧ Stops isSecretChar rest := by
  constructor
  · intro matched
    rw [secret_eq] at matched
    have textEq := run_append isWhitespace text
    have afterEq := run_append isSecretChar (run isWhitespace text).2
    split at matched
    · contradiction
    · rename_i long
      simp only [Option.some.injEq, Prod.mk.injEq] at matched
      obtain ⟨rfl, rfl⟩ := matched
      simp only [Bool.or_eq_true, List.isEmpty_iff, decide_eq_true_eq, not_or, not_lt] at long
      exact ⟨_, by rw [afterEq, textEq], ⟨long.1, all_run _ _⟩, long.2, all_run _ _, stops_run _ _⟩
  · rintro ⟨value, rfl, ⟨nonempty, allBlank⟩, long, allValue, stops⟩
    have filled : value ≠ [] := List.length_pos_iff.mp (lt_of_lt_of_le positive long)
    have first : run isWhitespace (blank ++ (value ++ rest)) = (blank, value ++ rest) :=
      run_append_of_stops allBlank (stops_isWhitespace filled allValue)
    have second := run_append_of_stops allValue stops
    have short : (blank.isEmpty || decide (value.length < least)) = false := by
      simp [nonempty, long]
    rw [secret_eq, first]
    simp [second, short]

/-! ## Headers -/

theorem scheme_eq_some_iff {text read rest : Text} : scheme text = some (read, rest) ↔
    text = read ++ rest ∧ (Spells "bearer".toList read ∨ Spells "basic".toList read) := by
  rw [scheme]
  cases found : word "bearer".toList text with
  | some parts =>
      obtain ⟨other, left⟩ := parts
      obtain ⟨textEq, spelled⟩ := word_eq_some_iff.mp found
      simp only [Option.some.injEq, Prod.mk.injEq]
      constructor
      · rintro ⟨rfl, rfl⟩
        exact ⟨textEq, Or.inl spelled⟩
      · rintro ⟨equal, bearer | basic⟩
        · exact List.append_inj (textEq.symm.trans equal) (spelled.length.trans bearer.length.symm)
        · -- the second letters differ
          obtain _ | ⟨_, _ | ⟨first, _⟩⟩ := spelled
          obtain _ | ⟨_, _ | ⟨second, _⟩⟩ := basic
          rw [textEq] at equal
          simp only [List.cons_append, List.cons.injEq] at equal
          rw [equal.2.1] at first
          have e := toLower_of_sameLetter (by decide) (by decide) first
          have a := toLower_of_sameLetter (by decide) (by decide) second
          exact absurd (e.symm.trans a) (by decide)
  | none =>
      have silent (spelled : Spells "bearer".toList read) : text ≠ read ++ rest := by
        intro equal
        rw [word_eq_some_iff.mpr ⟨equal, spelled⟩] at found
        contradiction
      rw [word_eq_some_iff]
      constructor
      · rintro ⟨equal, spelled⟩
        exact ⟨equal, Or.inr spelled⟩
      · rintro ⟨equal, spelled | spelled⟩
        · exact absurd equal (silent spelled)
        · exact ⟨equal, spelled⟩

theorem isWhitespace_of_isLetterOrDigit {c : Char} (name : isLetterOrDigit c = true) :
    isWhitespace c = false := by
  simp only [isLetterOrDigit, isLetter, Bool.or_eq_true, beq_iff_eq] at name
  rcases name with ((((alpha | rfl) | rfl) | rfl) | rfl) | digit
  · exact isWhitespace_of_plain (by simp [isPlain, Char.isAlphanum, alpha])
  · decide
  · decide
  · decide
  · decide
  · exact isWhitespace_of_plain (by simp [isPlain, Char.isAlphanum, digit])

theorem isLetterOrDigit_of_isLetter {c : Char} (letter : isLetter c = true) :
    isLetterOrDigit c = true := by
  simp [isLetterOrDigit, letter]

theorem stops_of_spells {letter : Char} {letters read rest : Text} (lower : letter.isLower = true)
    (spelled : Spells (letter :: letters) read) : Stops isWhitespace (read ++ rest) := by
  obtain _ | ⟨first, _⟩ := spelled
  exact stops_cons.mpr (isWhitespace_of_isLetterOrDigit
    (isLetterOrDigit_of_isLetter (isLetter_of_sameLetter lower first)))

theorem stops_kind {kind rest : Text}
    (isKind : Spells "bearer".toList kind ∨ Spells "basic".toList kind) :
    Stops isWhitespace (kind ++ rest) := by
  rcases isKind with spelled | spelled
  · exact stops_of_spells (by decide) spelled
  · exact stops_of_spells (by decide) spelled

def authorizationShape (unicode : Unicode) : Shape where
  bound := boundary unicode
  IsHead := fun head => ∃ name assigned kind blank,
    head = name ++ (assigned ++ (kind ++ blank)) ∧ Spells "authorization".toList name ∧
      IsSign assigned ∧ (Spells "bearer".toList kind ∨ Spells "basic".toList kind) ∧ IsBlank blank
  IsValue := fun value rest => value ≠ [] ∧ All isSecretChar value ∧ Stops isSecretChar rest
  mask := redacted

theorem authorizationShape_describes (unicode : Unicode) :
    (authorizationShape unicode).Describes (authorization unicode) := by
  intro before text found
  constructor
  · intro matched
    rw [authorization] at matched
    split at matched
    · rename_i opens
      simp only [Option.bind_eq_bind, Option.bind_eq_some_iff, Prod.exists, Option.some.injEq]
        at matched
      obtain ⟨name, afterName, named, assigned, afterSign, signed, kind, afterKind, kinded, blank,
        rest, hidden, rfl⟩ := matched
      obtain ⟨rfl, spelled⟩ := word_eq_some_iff.mp named
      obtain ⟨rfl, isSign, _⟩ := sign_eq_some_iff.mp signed
      obtain ⟨rfl, isKind⟩ := scheme_eq_some_iff.mp kinded
      obtain ⟨value, rfl, blanked, filled, all, stops⟩ := (secret_eq_some_iff Nat.one_pos).mp hidden
      refine ⟨name ++ (assigned ++ (kind ++ blank)), value, rest, by simp,
        ⟨opens, ⟨name, assigned, kind, blank, rfl, spelled, isSign, isKind, blanked⟩,
          ⟨List.length_pos_iff.mp filled, all, stops⟩⟩, ?_⟩
      have whole : name ++ (assigned ++ (kind ++ (blank ++ (value ++ rest)))) =
          name ++ (assigned ++ (kind ++ blank)) ++ value ++ rest := by simp
      rw [whole, upTo_append]
      simp [authorizationShape]
    · contradiction
  · rintro ⟨head, value, rest, rfl, ⟨opens, ⟨name, assigned, kind, blank, rfl, spelled, isSign,
      isKind, blanked⟩, ⟨filled, all, stops⟩⟩, rfl⟩
    have named : word "authorization".toList
        (name ++ (assigned ++ (kind ++ (blank ++ (value ++ rest))))) =
          some (name, assigned ++ (kind ++ (blank ++ (value ++ rest)))) :=
      word_eq_some_iff.mpr ⟨rfl, spelled⟩
    have signed : sign (assigned ++ (kind ++ (blank ++ (value ++ rest)))) =
        some (assigned, kind ++ (blank ++ (value ++ rest))) :=
      sign_eq_some_iff.mpr ⟨rfl, isSign, stops_kind isKind⟩
    have kinded : scheme (kind ++ (blank ++ (value ++ rest))) =
        some (kind, blank ++ (value ++ rest)) :=
      scheme_eq_some_iff.mpr ⟨rfl, isKind⟩
    have hidden : secret 1 (blank ++ (value ++ rest)) = some (blank, rest) :=
      (secret_eq_some_iff Nat.one_pos).mpr
        ⟨value, rfl, blanked, List.length_pos_iff.mpr filled, all, stops⟩
    have whole : name ++ (assigned ++ (kind ++ blank)) ++ (value ++ rest) =
        name ++ (assigned ++ (kind ++ (blank ++ (value ++ rest)))) := by simp
    have opened : boundary unicode before = true := opens
    rw [whole, authorization, if_pos opened, named]
    simp only [Option.bind_eq_bind, Option.bind_some, signed, kinded, hidden]
    have long : name ++ (assigned ++ (kind ++ (blank ++ (value ++ rest)))) =
        name ++ (assigned ++ (kind ++ blank)) ++ value ++ rest := by simp
    rw [long, upTo_append]
    simp [authorizationShape]

theorem authorizationShape_proper (unicode : Unicode) : (authorizationShape unicode).Proper where
  head := by
    rintro _ ⟨name, assigned, kind, blank, rfl, spelled, _⟩ empty
    simp only [List.append_eq_nil_iff] at empty
    have length := spelled.length
    simp [empty.1] at length
  value := fun _ _ reads => reads.1

def bearerShape (unicode : Unicode) : Shape where
  bound := boundary unicode
  IsHead := Spells "bearer".toList
  IsValue := fun value rest => ∃ blank hidden, value = blank ++ hidden ∧ IsBlank blank ∧
    8 ≤ hidden.length ∧ All isSecretChar hidden ∧ Stops isSecretChar rest
  mask := ' ' :: redacted

theorem bearerShape_describes (unicode : Unicode) :
    (bearerShape unicode).Describes (bearer unicode) := by
  intro before text found
  constructor
  · intro matched
    rw [bearer] at matched
    split at matched
    · rename_i opens
      simp only [Option.bind_eq_bind, Option.bind_eq_some_iff, Prod.exists, Option.some.injEq]
        at matched
      obtain ⟨name, afterName, named, blank, rest, secret, rfl⟩ := matched
      obtain ⟨rfl, spelled⟩ := word_eq_some_iff.mp named
      obtain ⟨hidden, rfl, blanked, long, all, stops⟩ :=
        (secret_eq_some_iff (by decide)).mp secret
      refine ⟨name, blank ++ hidden, rest, by simp,
        ⟨opens, spelled, ⟨blank, hidden, rfl, blanked, long, all, stops⟩⟩, ?_⟩
      have whole : name ++ (blank ++ (hidden ++ rest)) = name ++ (blank ++ hidden) ++ rest := by
        simp
      rw [whole, upTo_append]
      simp [bearerShape]
    · contradiction
  · rintro ⟨name, value, rest, rfl, ⟨opens, spelled, ⟨blank, hidden, rfl, blanked, long, all,
      stops⟩⟩, rfl⟩
    have named : word "bearer".toList (name ++ (blank ++ (hidden ++ rest))) =
        some (name, blank ++ (hidden ++ rest)) :=
      word_eq_some_iff.mpr ⟨rfl, spelled⟩
    have secret : secret 8 (blank ++ (hidden ++ rest)) = some (blank, rest) :=
      (secret_eq_some_iff (by decide)).mpr ⟨hidden, rfl, blanked, long, all, stops⟩
    have opened : boundary unicode before = true := opens
    rw [List.append_assoc, bearer, if_pos opened, named]
    simp only [Option.bind_eq_bind, Option.bind_some, secret]
    have whole : name ++ (blank ++ (hidden ++ rest)) = name ++ (blank ++ hidden) ++ rest := by simp
    rw [whole, upTo_append]
    simp [bearerShape]

theorem bearerShape_proper (unicode : Unicode) : (bearerShape unicode).Proper where
  head := by
    rintro _ spelled rfl
    cases spelled
  value := by
    rintro _ _ ⟨blank, hidden, rfl, ⟨nonempty, _⟩, _⟩
    simp [nonempty]

/-! ## Assignments -/

/-- `(?:[a-z0-9]+[_-])*`. -/
inductive Grouped : Text → Prop where
  | nil : Grouped []
  | cons {name rest : Text} {c : Char} (nonempty : name ≠ []) (all : All isLetterOrDigit name)
      (separated : c = '_' ∨ c = '-') (grouped : Grouped rest) : Grouped (name ++ c :: rest)

/-- Two words with an optional `_` or `-` between them. -/
def Joined (first second text : Text) : Prop :=
  ∃ head tail, Spells first head ∧ Spells second tail ∧
    (text = head ++ tail ∨ ∃ c, (c = '_' ∨ c = '-') ∧ text = head ++ c :: tail)

/-- The names of a sensitive assignment. -/
def IsName (text : Text) : Prop :=
  (∃ grouped token, text = grouped ++ token ∧ Grouped grouped ∧ Spells "token".toList token) ∨
    Joined "api".toList "key".toList text ∨ Spells "password".toList text ∨
      Spells "passwd".toList text ∨ Joined "client".toList "secret".toList text ∨
        Spells "secret".toList text

theorem grouped_groups (fuel : Nat) (text : Text) : Grouped (groups fuel text).1 := by
  induction fuel generalizing text with
  | zero => exact .nil
  | succ fuel inductionHypothesis =>
      simp only [groups]
      cases after : (run isLetterOrDigit text).2 with
      | nil => exact .nil
      | cons c rest =>
          by_cases separated : (!(run isLetterOrDigit text).1.isEmpty &&
              (c == '_' || c == '-')) = true
          · simp only [separated, if_true]
            simp only [Bool.and_eq_true, Bool.not_eq_true', List.isEmpty_eq_false_iff,
              Bool.or_eq_true, beq_iff_eq] at separated
            have grouped := Grouped.cons separated.1 (all_run isLetterOrDigit text) separated.2
              (inductionHypothesis rest)
            simpa using grouped
          · simp only [separated]
            exact .nil

theorem joined_eq_some {first second text read rest : Text}
    (matched : joined first second text = some (read, rest)) :
    text = read ++ rest ∧ Joined first second read := by
  simp only [joined, Option.bind_eq_bind, Option.bind_eq_some_iff, Prod.exists] at matched
  obtain ⟨head, after, named, matched⟩ := matched
  obtain ⟨rfl, spelled⟩ := word_eq_some_iff.mp named
  cases after with
  | nil => contradiction
  | cons c tail =>
      simp only at matched
      split at matched
      · rename_i separated
        simp only [Option.bind_eq_some_iff, Option.some.injEq, Prod.exists, Prod.mk.injEq]
          at matched
        obtain ⟨last, left, lastNamed, rfl, rfl⟩ := matched
        obtain ⟨rfl, lastSpelled⟩ := word_eq_some_iff.mp lastNamed
        exact ⟨by simp, head, last, spelled, lastSpelled,
          Or.inr ⟨c, by simpa using separated, by simp⟩⟩
      · simp only [Option.bind_eq_some_iff, Option.some.injEq, Prod.exists, Prod.mk.injEq]
          at matched
        obtain ⟨last, left, lastNamed, rfl, rfl⟩ := matched
        obtain ⟨equal, lastSpelled⟩ := word_eq_some_iff.mp lastNamed
        exact ⟨by simp [equal], head, last, spelled, lastSpelled, Or.inl rfl⟩

theorem isName_of_mem {text name after : Text} (member : (name, after) ∈ sensitiveNames text) :
    text = name ++ after ∧ IsName name := by
  simp only [sensitiveNames, List.mem_append, Option.mem_toList, Option.map_eq_some_iff,
    Prod.mk.injEq, Prod.exists] at member
  rcases member with ((((⟨token, left, found, rfl, rfl⟩ | found) | found) | found) | found) | found
  · obtain ⟨equal, spelled⟩ := word_eq_some_iff.mp found
    have whole := groups_append text.length text
    rw [equal] at whole
    exact ⟨by rw [List.append_assoc, whole],
      Or.inl ⟨_, token, rfl, grouped_groups text.length text, spelled⟩⟩
  · obtain ⟨equal, isJoined⟩ := joined_eq_some found
    exact ⟨equal, Or.inr (Or.inl isJoined)⟩
  · obtain ⟨equal, spelled⟩ := word_eq_some_iff.mp found
    exact ⟨equal, Or.inr (Or.inr (Or.inl spelled))⟩
  · obtain ⟨equal, spelled⟩ := word_eq_some_iff.mp found
    exact ⟨equal, Or.inr (Or.inr (Or.inr (Or.inl spelled)))⟩
  · obtain ⟨equal, isJoined⟩ := joined_eq_some found
    exact ⟨equal, Or.inr (Or.inr (Or.inr (Or.inr (Or.inl isJoined))))⟩
  · obtain ⟨equal, spelled⟩ := word_eq_some_iff.mp found
    exact ⟨equal, Or.inr (Or.inr (Or.inr (Or.inr (Or.inr spelled))))⟩

/-! ### A name before a sign is read as a whole -/

/-- The characters of the names and of the schemes. -/
def isNameChar (c : Char) : Bool :=
  isLetterOrDigit c || c == '+' || c == '.' || c == '-' || c == '_'

theorem isNameChar_of_isLetterOrDigit {c : Char} (name : isLetterOrDigit c = true) :
    isNameChar c = true := by
  simp [isNameChar, name]

theorem Spells.all {letters text : Text} (lower : ∀ letter ∈ letters, letter.isLower = true)
    (spelled : Spells letters text) : All isLetterOrDigit text := by
  induction spelled with
  | nil => exact all_nil
  | @cons letter c letters text same _ inductionHypothesis =>
      have first := isLetter_of_sameLetter (lower letter List.mem_cons_self) same
      exact all_cons.mpr ⟨isLetterOrDigit_of_isLetter first,
        inductionHypothesis fun other member => lower other (List.mem_cons_of_mem letter member)⟩

theorem All.imp {first second : Char → Bool} {text : Text}
    (imp : ∀ c, first c = true → second c = true) (all : All first text) : All second text :=
  fun c member => imp c (all c member)

theorem isNameChar_of_separator {c : Char} (separated : c = '_' ∨ c = '-') :
    isNameChar c = true := by
  rcases separated with rfl | rfl <;> rfl

theorem Grouped.all {text : Text} (grouped : Grouped text) : All isNameChar text := by
  induction grouped with
  | nil => exact all_nil
  | cons _ all separated _ inductionHypothesis =>
      exact all_append.mpr ⟨all.imp fun _ => isNameChar_of_isLetterOrDigit,
        all_cons.mpr ⟨isNameChar_of_separator separated, inductionHypothesis⟩⟩

theorem Spells.allName {letters text : Text} (lower : ∀ letter ∈ letters, letter.isLower = true)
    (spelled : Spells letters text) : All isNameChar text :=
  (spelled.all lower).imp fun _ => isNameChar_of_isLetterOrDigit

theorem Joined.all {first second text : Text} (firstLower : ∀ c ∈ first, c.isLower = true)
    (secondLower : ∀ c ∈ second, c.isLower = true) (isJoined : Joined first second text) :
    All isNameChar text := by
  obtain ⟨head, tail, spelled, lastSpelled, rfl | ⟨c, separated, rfl⟩⟩ := isJoined
  · exact all_append.mpr ⟨spelled.allName firstLower, lastSpelled.allName secondLower⟩
  · exact all_append.mpr ⟨spelled.allName firstLower,
      all_cons.mpr ⟨isNameChar_of_separator separated, lastSpelled.allName secondLower⟩⟩

theorem IsName.all {text : Text} (named : IsName text) : All isNameChar text := by
  rcases named with ⟨grouped, token, rfl, isGrouped, spelled⟩ | isJoined | spelled | spelled |
    isJoined | spelled
  · exact all_append.mpr ⟨isGrouped.all, spelled.allName (by decide)⟩
  · exact isJoined.all (by decide) (by decide)
  · exact spelled.allName (by decide)
  · exact spelled.allName (by decide)
  · exact isJoined.all (by decide) (by decide)
  · exact spelled.allName (by decide)

theorem isLetterOrDigit_of_isNameChar {c : Char} (other : isNameChar c = false) :
    isLetterOrDigit c = false ∧ ¬ (c = '_' ∨ c = '-') := by
  simp only [isNameChar, Bool.or_eq_false_iff, beq_eq_false_iff_ne] at other
  exact ⟨other.1.1.1.1, by simp [other.1.2, other.2]⟩

theorem groups_append_of_stops {grouped token after : Text} (isGrouped : Grouped grouped)
    (all : All isLetterOrDigit token) (stops : Stops isNameChar after) {fuel : Nat}
    (enough : grouped.length ≤ fuel) :
    groups fuel (grouped ++ (token ++ after)) = (grouped, token ++ after) := by
  induction isGrouped generalizing fuel with
  | nil =>
      cases fuel with
      | zero => rfl
      | succ fuel =>
          have ends : Stops isLetterOrDigit after := fun c tail equal =>
            (isLetterOrDigit_of_isNameChar (stops c tail equal)).1
          simp only [groups, List.nil_append, run_append_of_stops all ends]
          cases after with
          | nil => rfl
          | cons c tail =>
              have other := (isLetterOrDigit_of_isNameChar (stops c tail rfl)).2
              simp [not_or.mp other]
  | @cons name rest c nonempty allName separated _ inductionHypothesis =>
      cases fuel with
      | zero => simp at enough
      | succ fuel =>
          have ends : isLetterOrDigit c = false := by rcases separated with rfl | rfl <;> rfl
          have left : rest.length ≤ fuel := by
            simp only [List.length_append, List.length_cons] at enough
            omega
          have whole : name ++ c :: rest ++ (token ++ after) =
              name ++ c :: (rest ++ (token ++ after)) := by simp
          rw [whole, groups, run_append_of_stops allName (stops_cons.mpr ends)]
          simp [nonempty, separated, inductionHypothesis left]

theorem joined_append {first second text after : Text} {letter : Char} {letters : Text}
    (secondEq : second = letter :: letters) (lower : letter.isLower = true)
    (isJoined : Joined first second text) :
    joined first second (text ++ after) = some (text, after) := by
  obtain ⟨head, tail, spelled, lastSpelled, rfl | ⟨c, separated, rfl⟩⟩ := isJoined
  · have named : word first (head ++ tail ++ after) = some (head, tail ++ after) :=
      word_eq_some_iff.mpr ⟨by simp, spelled⟩
    have lastNamed : word second (tail ++ after) = some (tail, after) :=
      word_eq_some_iff.mpr ⟨rfl, lastSpelled⟩
    rw [secondEq] at lastSpelled
    obtain _ | ⟨same, _⟩ := lastSpelled
    rename_i d rest _
    have other : ¬ (d == '_' || d == '-') = true := by
      have isLetter := isLetter_of_sameLetter lower same
      rw [Bool.or_eq_true, beq_iff_eq, beq_iff_eq]
      rintro (rfl | rfl)
      · exact absurd isLetter (by decide)
      · exact absurd isLetter (by decide)
    rw [List.cons_append] at lastNamed
    simp only [joined, Option.bind_eq_bind, named, Option.bind_some, List.cons_append]
    rw [if_neg other, lastNamed]
    rfl
  · have named : word first (head ++ c :: tail ++ after) = some (head, c :: (tail ++ after)) :=
      word_eq_some_iff.mpr ⟨by simp, spelled⟩
    have lastNamed : word second (tail ++ after) = some (tail, after) :=
      word_eq_some_iff.mpr ⟨rfl, lastSpelled⟩
    have isSeparator : (c == '_' || c == '-') = true := by simpa using separated
    simp only [joined, Option.bind_eq_bind, named, Option.bind_some]
    rw [if_pos isSeparator, lastNamed]
    simp

theorem mem_of_isName {name after : Text} (named : IsName name) (stops : Stops isNameChar after) :
    (name, after) ∈ sensitiveNames (name ++ after) := by
  simp only [sensitiveNames, List.mem_append, Option.mem_toList, Option.map_eq_some_iff,
    Prod.mk.injEq, Prod.exists]
  rcases named with ⟨grouped, token, rfl, isGrouped, spelled⟩ | isJoined | spelled | spelled |
    isJoined | spelled
  · have read : groups (grouped ++ token ++ after).length (grouped ++ token ++ after) =
        (grouped, token ++ after) := by
      rw [List.append_assoc]
      exact groups_append_of_stops isGrouped (spelled.all (by decide)) stops (by simp)
    refine Or.inl (Or.inl (Or.inl (Or.inl (Or.inl ⟨token, after, ?_, ?_, rfl⟩))))
    · rw [read]
      exact word_eq_some_iff.mpr ⟨rfl, spelled⟩
    · rw [read]
  · exact Or.inl (Or.inl (Or.inl (Or.inl (Or.inr (joined_append rfl (by decide) isJoined)))))
  · exact Or.inl (Or.inl (Or.inl (Or.inr (word_eq_some_iff.mpr ⟨rfl, spelled⟩))))
  · exact Or.inl (Or.inl (Or.inr (word_eq_some_iff.mpr ⟨rfl, spelled⟩)))
  · exact Or.inl (Or.inr (joined_append rfl (by decide) isJoined))
  · exact Or.inr (word_eq_some_iff.mpr ⟨rfl, spelled⟩)

/-! ### Values -/

def isBareChar (c : Char) : Bool :=
  !(isWhitespace c || c == '&' || c == ',' || c == ';')

def isQuote (c : Char) : Bool :=
  c == '\x22' || c == '\x27'

/-- A value of an assignment: quoted, or up to a separator. -/
def IsAssigned (value rest : Text) : Prop :=
  (∃ quote inside, isQuote quote = true ∧ value = quote :: (inside ++ [quote])) ∨
    (value ≠ [] ∧ All isBareChar value ∧ Stops isBareChar rest)

/-- The rest after a value between two quotes. -/
def quotedRest (quote : Char) : Text → Option Text
  | c :: inside =>
      if c == quote then
        match (run (fun d => d != quote) inside).2 with
        | _ :: rest => some rest
        | [] => none
      else none
  | [] => none

theorem assigned_eq (text : Text) : assigned text =
    match quotedRest '\x22' text with
    | some rest => some rest
    | none =>
        match quotedRest '\x27' text with
        | some rest => some rest
        | none =>
            if (run isBareChar text).1.isEmpty then none else some (run isBareChar text).2 := by
  cases text <;> rfl

theorem quotedRest_eq_some {quote : Char} {text rest : Text}
    (found : quotedRest quote text = some rest) :
    ∃ inside, text = quote :: (inside ++ [quote]) ++ rest := by
  cases text with
  | nil => contradiction
  | cons c inside =>
      simp only [quotedRest] at found
      split at found
      · rename_i same
        rw [beq_iff_eq] at same
        split at found
        · rename_i d left after
          obtain rfl := Option.some.inj found
          have textEq := run_append (fun d => d != quote) inside
          have stops := stops_run (fun d => d != quote) inside
          rw [after] at textEq stops
          have closes : d = quote := by simpa using stops_cons.mp stops
          rw [closes] at textEq
          refine ⟨(run (fun d => d != quote) inside).1, ?_⟩
          conv_lhs => rw [same, ← textEq]
          simp
        · contradiction
      · contradiction

theorem assigned_eq_some {text rest : Text} (found : assigned text = some rest) :
    ∃ value, text = value ++ rest ∧ IsAssigned value rest := by
  rw [assigned_eq] at found
  cases double : quotedRest '\x22' text with
  | some left =>
      obtain rfl : left = rest := by simpa [double] using found
      obtain ⟨inside, rfl⟩ := quotedRest_eq_some double
      exact ⟨_, rfl, Or.inl ⟨'\x22', inside, rfl, rfl⟩⟩
  | none =>
      cases single : quotedRest '\x27' text with
      | some left =>
          obtain rfl : left = rest := by simpa [double, single] using found
          obtain ⟨inside, rfl⟩ := quotedRest_eq_some single
          exact ⟨_, rfl, Or.inl ⟨'\x27', inside, rfl, rfl⟩⟩
      | none =>
          simp only [double, single] at found
          split at found
          · contradiction
          · rename_i filled
            obtain rfl := Option.some.inj found
            exact ⟨_, (run_append isBareChar text).symm,
              Or.inr ⟨by simpa using filled, all_run _ _, stops_run _ _⟩⟩

theorem isWhitespace_of_isBareChar {c : Char} (bare : isBareChar c = true) :
    isWhitespace c = false := by
  simp only [isBareChar, Bool.not_eq_true', Bool.or_eq_false_iff] at bare
  exact bare.1.1.1

theorem isBareChar_of_isQuote {c : Char} (quote : isQuote c = true) : isBareChar c = true := by
  simp only [isQuote, Bool.or_eq_true, beq_iff_eq] at quote
  rcases quote with rfl | rfl <;> decide

theorem IsAssigned.exists_cons {value rest : Text} (isAssigned : IsAssigned value rest) :
    ∃ c tail, value = c :: tail ∧ isBareChar c = true := by
  rcases isAssigned with ⟨quote, inside, isQuote, rfl⟩ | ⟨filled, all, _⟩
  · exact ⟨quote, _, rfl, isBareChar_of_isQuote isQuote⟩
  · obtain ⟨c, tail, rfl⟩ := List.exists_cons_of_ne_nil filled
    exact ⟨c, tail, rfl, all c List.mem_cons_self⟩

def assignmentShape (unicode : Unicode) : Shape where
  bound := boundary unicode
  IsHead := fun head => ∃ name signed, head = name ++ signed ∧ IsName name ∧ IsSign signed
  IsValue := fun value rest => IsAssigned value rest ∧ assigned (value ++ rest) = some rest
  mask := redacted

theorem isNameChar_of_isWhitespace {c : Char} (blank : isWhitespace c = true) :
    isNameChar c = false := by
  by_contra named
  simp only [Bool.not_eq_false, isNameChar, Bool.or_eq_true, beq_iff_eq] at named
  rcases named with (((name | rfl) | rfl) | rfl) | rfl
  · simp [isWhitespace_of_isLetterOrDigit name] at blank
  · exact absurd blank (by decide)
  · exact absurd blank (by decide)
  · exact absurd blank (by decide)
  · exact absurd blank (by decide)

theorem IsSign.stops {signed rest : Text} (isSign : IsSign signed) :
    Stops isNameChar (signed ++ rest) := by
  obtain ⟨space, c, gap, rfl, allSpace, isMark, _⟩ := isSign
  cases space with
  | nil =>
      refine stops_cons.mpr ?_
      rcases isMark with rfl | rfl <;> rfl
  | cons d space =>
      exact stops_cons.mpr (isNameChar_of_isWhitespace (allSpace d List.mem_cons_self))

theorem IsAssigned.stops {value rest : Text} (isAssigned : IsAssigned value rest) :
    Stops isWhitespace (value ++ rest) := by
  obtain ⟨c, tail, rfl, bare⟩ := isAssigned.exists_cons
  exact stops_cons.mpr (isWhitespace_of_isBareChar bare)

theorem assignment_eq_some {text name after : Text} {found : Replacement Char}
    (matched : assignment text name after = some found) (textEq : text = name ++ after) :
    ∃ signed value rest, after = signed ++ (value ++ rest) ∧ IsSign signed ∧
      (assignmentShape asciiUnicode).IsValue value rest ∧
        found = ⟨(name ++ signed ++ value).length, name ++ signed ++ redacted⟩ := by
  simp only [assignment, Option.bind_eq_bind, Option.bind_eq_some_iff, Prod.exists,
    Option.some.injEq] at matched
  obtain ⟨signed, left, isSigned, rest, found, rfl⟩ := matched
  obtain ⟨rfl, isSign, _⟩ := sign_eq_some_iff.mp isSigned
  obtain ⟨value, rfl, isAssigned⟩ := assigned_eq_some found
  have whole : text = name ++ signed ++ value ++ rest := by simp [textEq]
  exact ⟨signed, value, rest, rfl, isSign, ⟨isAssigned, found⟩, by rw [whole, upTo_append]⟩

theorem assignment_append {name signed value rest : Text} (isSign : IsSign signed)
    (isValue : (assignmentShape asciiUnicode).IsValue value rest) :
    assignment (name ++ (signed ++ (value ++ rest))) name (signed ++ (value ++ rest)) =
      some ⟨(name ++ signed ++ value).length, name ++ signed ++ redacted⟩ := by
  have isSigned : sign (signed ++ (value ++ rest)) = some (signed, value ++ rest) :=
    sign_eq_some_iff.mpr ⟨rfl, isSign, isValue.1.stops⟩
  have whole : name ++ (signed ++ (value ++ rest)) = name ++ signed ++ value ++ rest := by simp
  simp only [assignment, Option.bind_eq_bind, isSigned, Option.bind_some, isValue.2]
  rw [whole, upTo_append]

theorem assignmentShape_describes (unicode : Unicode) :
    (assignmentShape unicode).Describes (sensitiveAssignment unicode) := by
  intro before text found
  constructor
  · intro matched
    rw [sensitiveAssignment] at matched
    split at matched
    · rename_i opens
      obtain ⟨⟨name, after⟩, member, matched⟩ := List.exists_of_findSome?_eq_some matched
      obtain ⟨textEq, named⟩ := isName_of_mem member
      obtain ⟨signed, value, rest, rfl, isSign, isValue, rfl⟩ := assignment_eq_some matched textEq
      exact ⟨name ++ signed, value, rest, by simp [textEq],
        ⟨opens, ⟨name, signed, rfl, named, isSign⟩, isValue⟩, by simp [assignmentShape]⟩
    · contradiction
  · rintro ⟨head, value, rest, rfl, ⟨opens, ⟨name, signed, rfl, named, isSign⟩, isValue⟩, rfl⟩
    have opened : boundary unicode before = true := opens
    have member : (name, signed ++ (value ++ rest)) ∈
        sensitiveNames (name ++ (signed ++ (value ++ rest))) := mem_of_isName named isSign.stops
    have matched : assignment (name ++ (signed ++ (value ++ rest))) name
        (signed ++ (value ++ rest)) =
          some ⟨(name ++ signed ++ value).length, name ++ signed ++ redacted⟩ :=
      assignment_append isSign isValue
    rw [sensitiveAssignment, if_pos opened, List.append_assoc]
    cases first : (sensitiveNames (name ++ (signed ++ (value ++ rest)))).findSome?
        (fun x => assignment (name ++ (signed ++ (value ++ rest))) x.1 x.2) with
    | none =>
        have silent := List.findSome?_eq_none_iff.mp first _ member
        rw [matched] at silent
        contradiction
    | some other =>
        -- another name that a sign follows is the same one
        obtain ⟨⟨otherName, after⟩, otherMember, otherMatched⟩ :=
          List.exists_of_findSome?_eq_some first
        obtain ⟨textEq, otherNamed⟩ := isName_of_mem otherMember
        obtain ⟨otherSigned, _, _, rfl, otherSign, _⟩ := assignment_eq_some otherMatched textEq
        obtain ⟨rfl, afterEq⟩ :=
          runs_unique textEq named.all isSign.stops otherNamed.all otherSign.stops
        simp only [← afterEq, matched] at otherMatched
        simp [← otherMatched, assignmentShape]

theorem assignmentShape_proper (unicode : Unicode) : (assignmentShape unicode).Proper where
  head := by
    rintro _ ⟨name, signed, rfl, _, ⟨space, c, gap, rfl, _⟩⟩
    simp
  value := by
    rintro value rest ⟨isAssigned, _⟩
    obtain ⟨c, tail, rfl, _⟩ := isAssigned.exists_cons
    simp

end OhanaAgent.Privacy
