import OhanaAgent.Encoding.Substitution
import OhanaAgent.Privacy.SessionPaths

/-!
# Masking credentials

`redact_sensitive_text` applies six substitutions, one for each pattern of a
credential; `redact_sensitive_value` applies it to the strings of a structured
value and replaces the content of a field with a sensitive name.  Each pattern
is written as the function that matches it at a position; none of them needs to
backtrack, because every repetition is followed by a character it excludes.
-/

namespace OhanaAgent.Privacy

open OhanaAgent.Encoding
open OhanaAgent.Encoding.Json

/-- What the patterns use of the Unicode database: word characters and case
folding, which are the usual ones on ASCII. -/
structure Unicode where
  isWord : Char → Bool
  casefold : Char → Text
  isWord_ascii : ∀ c, c.toNat < 128 → isWord c = (c.isAlphanum || c == '_')
  casefold_ascii : ∀ c, c.toNat < 128 → casefold c = [c.toLower]

/-- The database on ASCII. -/
def asciiUnicode : Unicode where
  isWord := fun c => c.isAlphanum || c == '_'
  casefold := fun c => [c.toLower]
  isWord_ascii := fun _ _ => rfl
  casefold_ascii := fun _ _ => rfl

/-! ## Pieces of patterns -/

/-- A lower case letter, or another character, matched without regard to case.
Three letters have case variants outside ASCII. -/
def sameLetter (letter c : Char) : Bool :=
  c == letter || c.toLower == letter ||
    (letter == 'i' && (c == Char.ofNat 0x130 || c == Char.ofNat 0x131)) ||
    (letter == 's' && c == Char.ofNat 0x17f) || (letter == 'k' && c == Char.ofNat 0x212a)

/-- The class `[a-z]` without regard to case. -/
def isLetter (c : Char) : Bool :=
  c.isAlpha || c == Char.ofNat 0x130 || c == Char.ofNat 0x131 || c == Char.ofNat 0x17f ||
    c == Char.ofNat 0x212a

/-- The class `[a-z0-9]` without regard to case. -/
def isLetterOrDigit (c : Char) : Bool :=
  isLetter c || c.isDigit

/-- Match the letters of a word without regard to case; the rest follows. -/
def word : Text → Text → Option (Text × Text)
  | [], text => some ([], text)
  | letter :: letters, c :: text =>
      if sameLetter letter c then (word letters text).map fun (read, rest) => (c :: read, rest)
      else none
  | _ :: _, [] => none

/-- The characters at the head that satisfy a condition, and the rest. -/
def run (condition : Char → Bool) (text : Text) : Text × Text :=
  (text.takeWhile condition, text.dropWhile condition)

/-- A match that covers a text up to its rest. -/
def upTo (text rest replacement : Text) : Replacement Char :=
  ⟨text.length - rest.length, replacement⟩

/-- The boundary before a word character. -/
def boundary (unicode : Unicode) : Option Char → Bool
  | none => true
  | some c => !unicode.isWord c

/-- A character of a value that a comma, a semicolon or white space ends. -/
def isSecretChar (c : Char) : Bool :=
  !(isWhitespace c || c == ',' || c == ';')

/-! ## The patterns -/

/-- A line `-----<label> ...PRIVATE KEY-----` at the head: the rest after it. -/
def keyLine (label text : Text) : Option Text :=
  match strip ("-----".toList ++ label ++ " ".toList) text with
  | none => none
  | some inside =>
      let (name, rest) := run (fun c => c != '-') inside
      if "PRIVATE KEY".toList.isSuffixOf name then strip "-----".toList rest else none

/-- The rest after the first end line of a key. -/
def keyEnd : Text → Option Text
  | [] => none
  | c :: text =>
      match keyLine "END".toList (c :: text) with
      | some rest => some rest
      | none => keyEnd text

/-- `_PRIVATE_KEY`. -/
def privateKey (_ : Option Char) (text : Text) : Option (Replacement Char) := do
  let body ← keyLine "BEGIN".toList text
  let rest ← keyEnd body
  some (upTo text rest "[redacted-private-key]".toList)

/-- `_URL_USERINFO`. -/
def urlUserinfo (unicode : Unicode) (before : Option Char) (text : Text) :
    Option (Replacement Char) :=
  match text with
  | [] => none
  | c :: tail =>
      if boundary unicode before && isLetter c then
        let (scheme, after) :=
          run (fun d => isLetterOrDigit d || d == '+' || d == '.' || d == '-') tail
        match strip "://".toList after with
        | none => none
        | some authority =>
            let (user, rest) := run (fun d => !(d == '/' || d == '@' || isWhitespace d)) authority
            match rest with
            | '@' :: rest =>
                if user.isEmpty then none
                else some (upTo text rest
                  ((c :: scheme) ++ "://".toList ++ redacted ++ ['@']))
            | _ => none
      else none

/-- `\s*[:=]\s*`. -/
def sign (text : Text) : Option (Text × Text) :=
  let (space, after) := run isWhitespace text
  match after with
  | [] => none
  | c :: rest =>
      if c == ':' || c == '=' then
        let (gap, left) := run isWhitespace rest
        some (space ++ [c] ++ gap, left)
      else none

/-- White space and a value of at least so many characters. -/
def secret (least : Nat) (text : Text) : Option (Text × Text) :=
  let (blank, after) := run isWhitespace text
  let (value, rest) := run isSecretChar after
  if blank.isEmpty || value.length < least then none else some (blank, rest)

/-- `(?:bearer|basic)`. -/
def scheme (text : Text) : Option (Text × Text) :=
  match word "bearer".toList text with
  | some found => some found
  | none => word "basic".toList text

/-- `_AUTHORIZATION`. -/
def authorization (unicode : Unicode) (before : Option Char) (text : Text) :
    Option (Replacement Char) :=
  if boundary unicode before then do
    let (name, afterName) ← word "authorization".toList text
    let (assigned, afterSign) ← sign afterName
    let (kind, afterKind) ← scheme afterSign
    let (blank, rest) ← secret 1 afterKind
    some (upTo text rest (name ++ assigned ++ kind ++ blank ++ redacted))
  else none

/-- `_BEARER`. -/
def bearer (unicode : Unicode) (before : Option Char) (text : Text) :
    Option (Replacement Char) :=
  if boundary unicode before then do
    let (name, afterName) ← word "bearer".toList text
    let (_, rest) ← secret 8 afterName
    some (upTo text rest (name ++ [' '] ++ redacted))
  else none

/-- The groups `(?:[a-z0-9]+[_-])*`, as many as there are; the fuel is the
length of the text. -/
def groups : Nat → Text → Text × Text
  | 0, text => ([], text)
  | fuel + 1, text =>
      let (name, after) := run isLetterOrDigit text
      match after with
      | c :: rest =>
          if !name.isEmpty && (c == '_' || c == '-') then
            let (read, left) := groups fuel rest
            (name ++ [c] ++ read, left)
          else ([], text)
      | [] => ([], text)

/-- Two words with an optional `_` or `-` between them. -/
def joined (first second text : Text) : Option (Text × Text) := do
  let (read, after) ← word first text
  match after with
  | c :: rest =>
      if c == '_' || c == '-' then
        let (tail, left) ← word second rest
        some (read ++ [c] ++ tail, left)
      else
        let (tail, left) ← word second after
        some (read ++ tail, left)
  | [] => none

/-- The names of a sensitive assignment, in the order of the alternatives. -/
def sensitiveNames (text : Text) : List (Text × Text) :=
  let (read, after) := groups text.length text
  (((word "token".toList after).map fun (token, rest) => (read ++ token, rest)).toList ++
    (joined "api".toList "key".toList text).toList ++ (word "password".toList text).toList ++
    (word "passwd".toList text).toList ++ (joined "client".toList "secret".toList text).toList ++
    (word "secret".toList text).toList)

/-- The value of an assignment: quoted, or up to a separator. -/
def assigned (text : Text) : Option Text :=
  let bare := run (fun c => !(isWhitespace c || c == '&' || c == ',' || c == ';')) text
  let quoted := fun quote : Char =>
    match text with
    | c :: inside =>
        if c == quote then
          match (run (fun d => d != quote) inside).2 with
          | _ :: rest => some rest
          | [] => none
        else none
    | [] => none
  match quoted '\x22' with
  | some rest => some rest
  | none =>
      match quoted '\x27' with
      | some rest => some rest
      | none => if bare.1.isEmpty then none else some bare.2

/-- The sign and the value that follow a sensitive name. -/
def assignment (text name after : Text) : Option (Replacement Char) := do
  let (signed, value) ← sign after
  let rest ← assigned value
  some (upTo text rest (name ++ signed ++ redacted))

/-- `_SENSITIVE_ASSIGNMENT`: the first name that an assignment follows. -/
def sensitiveAssignment (unicode : Unicode) (before : Option Char) (text : Text) :
    Option (Replacement Char) :=
  if boundary unicode before then
    (sensitiveNames text).findSome? fun (name, after) => assignment text name after
  else none

/-- Mask common credentials while preserving useful diagnostic context. -/
def redactSensitiveText (unicode : Unicode) (text : Text) : Text :=
  substitute (sensitiveAssignment unicode) (substitute (bearer unicode)
    (substitute (authorization unicode) (substitute (urlUserinfo unicode)
      (redactSessionPaths (substitute privateKey text)))))

/-! ## Structured values -/

/-- `_SENSITIVE_KEYS`. -/
def sensitiveKeys : List Text :=
  ["token", "access_token", "accesstoken", "refresh_token", "refreshtoken", "api_token", "apitoken",
    "api_key", "apikey", "password", "passwd", "client_secret", "clientsecret", "secret",
    "authorization", "proxy_authorization", "proxyauthorization", "cookie", "set_cookie",
    "setcookie", "stok", "private_key", "privatekey", "credentials"].map String.toList

/-- Runs of other characters become one underscore. -/
def normalizeKey : Bool → Text → Text
  | _, [] => []
  | inRun, c :: rest =>
      if c.isDigit || c.isLower then c :: normalizeKey false rest
      else if inRun then normalizeKey true rest
      else '_' :: normalizeKey true rest

/-- `strip("_")`. -/
def stripUnderscores (text : Text) : Text :=
  ((text.dropWhile fun c => c == '_').reverse.dropWhile fun c => c == '_').reverse

/-- `_is_sensitive_key`. -/
def isSensitiveKey (unicode : Unicode) (key : Text) : Bool :=
  let normalized := stripUnderscores (normalizeKey false (key.flatMap unicode.casefold))
  sensitiveKeys.contains normalized ||
    ["_token", "_password", "_passwd", "_secret", "_api_key"].any fun ending =>
      ending.toList.isSuffixOf normalized

mutual

/-- Recursively sanitize structured evidence without changing its shape. -/
def redactSensitiveValue (unicode : Unicode) : Value → Value
  | .string content => .string (redactSensitiveText unicode content)
  | .object fields => .object (redactSensitiveFields unicode fields)
  | .array items => .array (redactSensitiveItems unicode items)
  | .atom literal => .atom literal
  | .number value => .number value

def redactSensitiveItems (unicode : Unicode) : Items → Items
  | .nil => .nil
  | .cons head tail =>
      .cons (redactSensitiveValue unicode head) (redactSensitiveItems unicode tail)

def redactSensitiveFields (unicode : Unicode) : Fields → Fields
  | .nil => .nil
  | .cons key value rest =>
      .cons key (if isSensitiveKey unicode key then .string redacted
        else redactSensitiveValue unicode value) (redactSensitiveFields unicode rest)

end

/-! ## Every mask shows a bracket -/

section Marks

variable {unicode : Unicode} {before : Option Char} {text : Text} {found : Replacement Char}

theorem bracket_mem_redacted : '[' ∈ redacted := by
  decide

theorem bracket_mem_privateKey (matched : privateKey before text = some found) :
    '[' ∈ found.text := by
  simp only [privateKey, Option.bind_eq_bind, Option.bind_eq_some_iff, Option.some.injEq] at matched
  obtain ⟨body, _, rest, _, rfl⟩ := matched
  simp [upTo]

theorem bracket_mem_urlUserinfo (matched : urlUserinfo unicode before text = some found) :
    '[' ∈ found.text := by
  unfold urlUserinfo at matched
  repeat' split at matched
  all_goals first
    | contradiction
    | (obtain rfl := Option.some.inj matched
       simp [upTo, bracket_mem_redacted])

theorem bracket_mem_authorization (matched : authorization unicode before text = some found) :
    '[' ∈ found.text := by
  unfold authorization at matched
  split at matched
  · simp only [Option.bind_eq_bind, Option.bind_eq_some_iff, Option.some.injEq] at matched
    obtain ⟨_, _, _, _, _, _, _, _, rfl⟩ := matched
    simp [upTo, bracket_mem_redacted]
  · contradiction

theorem bracket_mem_bearer (matched : bearer unicode before text = some found) :
    '[' ∈ found.text := by
  unfold bearer at matched
  split at matched
  · simp only [Option.bind_eq_bind, Option.bind_eq_some_iff, Option.some.injEq] at matched
    obtain ⟨_, _, _, _, rfl⟩ := matched
    simp [upTo, bracket_mem_redacted]
  · contradiction

theorem bracket_mem_sensitiveAssignment
    (matched : sensitiveAssignment unicode before text = some found) : '[' ∈ found.text := by
  unfold sensitiveAssignment at matched
  split at matched
  · obtain ⟨name, _, assigned⟩ := List.exists_of_findSome?_eq_some matched
    simp only [assignment, Option.bind_eq_bind, Option.bind_eq_some_iff, Option.some.injEq]
      at assigned
    obtain ⟨_, _, _, _, rfl⟩ := assigned
    simp [upTo, bracket_mem_redacted]
  · contradiction

theorem redactSessionPaths_eq_or_mem (text : Text) :
    redactSessionPaths text = text ∨ '[' ∈ redactSessionPaths text := by
  unfold redactSessionPaths
  induction text with
  | nil => exact Or.inl rfl
  | cons c rest ih =>
      rw [subFrom]
      split
      · exact Or.inr (by simp [bracket_mem_redacted])
      · rcases ih with same | shown
        · exact Or.inl (by rw [same])
        · exact Or.inr (List.mem_cons_of_mem c shown)

/-- A step that leaves a text or shows the mark does so after another one. -/
theorem eq_or_mem_comp {mark : Char} {first second : Text → Text}
    (left : ∀ text, first text = text ∨ mark ∈ first text)
    (right : ∀ text, second text = text ∨ mark ∈ second text) (text : Text) :
    second (first text) = text ∨ mark ∈ second (first text) := by
  rcases right (first text) with same | shown
  · rw [same]
    exact left text
  · exact Or.inr shown

/-- A masked text is the text itself or shows a bracket. -/
theorem redactSensitiveText_eq_or_mem (unicode : Unicode) (text : Text) :
    redactSensitiveText unicode text = text ∨ '[' ∈ redactSensitiveText unicode text := by
  have keys := substitute_eq_or_mem privateKey fun _ _ _ => bracket_mem_privateKey
  have paths := eq_or_mem_comp keys redactSessionPaths_eq_or_mem
  have urls := eq_or_mem_comp paths
    (substitute_eq_or_mem (urlUserinfo unicode) fun _ _ _ => bracket_mem_urlUserinfo)
  have headers := eq_or_mem_comp urls
    (substitute_eq_or_mem (authorization unicode) fun _ _ _ => bracket_mem_authorization)
  have bearers := eq_or_mem_comp headers
    (substitute_eq_or_mem (bearer unicode) fun _ _ _ => bracket_mem_bearer)
  exact eq_or_mem_comp bearers (substitute_eq_or_mem (sensitiveAssignment unicode)
    fun _ _ _ => bracket_mem_sensitiveAssignment) text

theorem redactSensitiveText_nil (unicode : Unicode) : redactSensitiveText unicode [] = [] := by
  simp [redactSensitiveText, redact_nil]

/-- Masking does not empty a text. -/
theorem redactSensitiveText_eq_nil_iff {unicode : Unicode} {text : Text} :
    redactSensitiveText unicode text = [] ↔ text = [] := by
  constructor
  · intro empty
    rcases redactSensitiveText_eq_or_mem unicode text with same | shown
    · exact same.symm.trans empty
    · rw [empty] at shown
      cases shown
  · rintro rfl
    exact redactSensitiveText_nil unicode

end Marks

/-! ## Plain names are not masked -/

/-- A letter or digit of ASCII, an underscore or a hyphen. -/
def isPlain (c : Char) : Bool :=
  c.isAlphanum || c == '_' || c == '-'

/-- A text of plain characters. -/
def Plain (text : Text) : Prop :=
  ∀ c ∈ text, isPlain c = true

theorem Plain.suffix {text suffix : Text} (plain : Plain text) (inside : suffix <:+ text) :
    Plain suffix :=
  fun c member => plain c (inside.mem member)

theorem Plain.ne {c : Char} {rest : Text} (plain : Plain (c :: rest)) (other : Char)
    (loud : isPlain other = false) : c ≠ other := by
  rintro rfl
  have quiet := plain c List.mem_cons_self
  simp [loud] at quiet

theorem isAlpha_eq (c : Char) : c.isAlpha = (c.isUpper || c.isLower) := rfl

theorem isUpper_eq (c : Char) : c.isUpper = decide (c.val ≥ 'A'.val ∧ c.val ≤ 'Z'.val) := rfl

theorem isLower_eq (c : Char) : c.isLower = (c.val ≥ 'a'.val && c.val ≤ 'z'.val) := rfl

theorem isWhitespace_of_plain {c : Char} (plain : isPlain c = true) : isWhitespace c = false := by
  have printable : 45 ≤ c.toNat ∧ c.toNat ≤ 122 := by
    simp only [isPlain, Char.isAlphanum, isAlpha_eq, isUpper_eq, isLower_eq, Char.isDigit,
      Bool.or_eq_true, Bool.and_eq_true, decide_eq_true_eq, beq_iff_eq] at plain
    rcases plain with ((((⟨low, high⟩ | ⟨low, high⟩) | ⟨low, high⟩) | rfl) | rfl)
    · have atLeast : 65 ≤ c.toNat := low
      have atMost : c.toNat ≤ 90 := high
      omega
    · have atLeast : 97 ≤ c.toNat := low
      have atMost : c.toNat ≤ 122 := high
      omega
    · have atLeast : 48 ≤ c.toNat := low
      have atMost : c.toNat ≤ 57 := high
      omega
    · decide
    · decide
  simp only [isWhitespace, Bool.or_eq_false_iff, Bool.and_eq_false_iff, decide_eq_false_iff_not,
    beq_eq_false_iff_ne]
  omega

theorem Plain.run_isWhitespace {text : Text} (plain : Plain text) :
    run isWhitespace text = ([], text) := by
  cases text with
  | nil => rfl
  | cons c rest => simp [run, isWhitespace_of_plain (plain c List.mem_cons_self)]

theorem word_eq_append {letters text read rest : Text} (matched : word letters text = some (read, rest)) :
    text = read ++ rest := by
  induction letters generalizing text read with
  | nil =>
      simp only [word, Option.some.injEq, Prod.mk.injEq] at matched
      rw [← matched.1, ← matched.2]
      rfl
  | cons letter letters ih =>
      cases text with
      | nil => simp [word] at matched
      | cons c text =>
          simp only [word] at matched
          split at matched
          · simp only [Option.map_eq_some_iff, Prod.mk.injEq] at matched
            obtain ⟨⟨found, left⟩, inner, rfl, rfl⟩ := matched
            rw [ih inner]
            rfl
          · contradiction

theorem Plain.word_rest {letters text read rest : Text} (plain : Plain text)
    (matched : word letters text = some (read, rest)) : Plain rest :=
  plain.suffix (word_eq_append matched ▸ List.suffix_append read rest)

theorem Plain.sign {text : Text} (plain : Plain text) : sign text = none := by
  rw [Privacy.sign, plain.run_isWhitespace]
  cases text with
  | nil => rfl
  | cons c rest =>
      have colon := plain.ne ':' (by decide)
      have equals := plain.ne '=' (by decide)
      simp [colon, equals]

theorem Plain.secret {text : Text} (plain : Plain text) (least : Nat) :
    secret least text = none := by
  rw [Privacy.secret, plain.run_isWhitespace]
  rfl

theorem run_append (condition : Char → Bool) (text : Text) :
    (run condition text).1 ++ (run condition text).2 = text :=
  List.takeWhile_append_dropWhile

/-- The groups are at the head of the text. -/
theorem groups_append (fuel : Nat) (text : Text) :
    (groups fuel text).1 ++ (groups fuel text).2 = text := by
  induction fuel generalizing text with
  | zero => rfl
  | succ fuel ih =>
      have whole := run_append isLetterOrDigit text
      simp only [groups]
      cases after : (run isLetterOrDigit text).2 with
      | nil => rfl
      | cons c rest =>
          by_cases separated : (!(run isLetterOrDigit text).1.isEmpty &&
              (c == '_' || c == '-')) = true
          · simp only [separated, if_true]
            rw [List.append_assoc, ih rest, List.append_assoc, List.singleton_append, ← after, whole]
          · simp only [separated]
            rfl

theorem Plain.groups {text : Text} (plain : Plain text) (fuel : Nat) :
    Plain (groups fuel text).2 :=
  plain.suffix ⟨_, groups_append fuel text⟩

theorem Plain.joined_rest {first second text read rest : Text} (plain : Plain text)
    (matched : joined first second text = some (read, rest)) : Plain rest := by
  simp only [joined, Option.bind_eq_bind, Option.bind_eq_some_iff] at matched
  obtain ⟨⟨head, after⟩, firstWord, matched⟩ := matched
  have left := plain.word_rest firstWord
  cases after with
  | nil => contradiction
  | cons c tail =>
      simp only at matched
      split at matched
      · simp only [Option.bind_eq_some_iff, Option.some.injEq, Prod.mk.injEq] at matched
        obtain ⟨⟨last, end_⟩, secondWord, _, rfl⟩ := matched
        exact (left.suffix (List.suffix_cons c tail)).word_rest secondWord
      · simp only [Option.bind_eq_some_iff, Option.some.injEq, Prod.mk.injEq] at matched
        obtain ⟨⟨last, end_⟩, secondWord, _, rfl⟩ := matched
        exact left.word_rest secondWord

/-- What follows a sensitive name in a plain text is plain. -/
theorem Plain.sensitiveNames_rest {text : Text} (plain : Plain text) {name : Text × Text}
    (member : name ∈ sensitiveNames text) : Plain name.2 := by
  obtain ⟨read, rest⟩ := name
  simp only [sensitiveNames, List.mem_append, Option.mem_toList, Option.map_eq_some_iff,
    Prod.mk.injEq] at member
  rcases member with ((((⟨⟨token, left⟩, found, _, rfl⟩ | found) | found) | found) | found) | found
  · exact (plain.groups text.length).word_rest found
  · exact plain.joined_rest found
  · exact plain.word_rest found
  · exact plain.word_rest found
  · exact plain.joined_rest found
  · exact plain.word_rest found

section Silent

variable {unicode : Unicode} {before : Option Char} {text : Text}

theorem strip_mem {mark text rest : Text} (matched : strip mark text = some rest) {c : Char}
    (member : c ∈ mark) : c ∈ text := by
  induction mark generalizing text with
  | nil => cases member
  | cons first expected ih =>
      cases text with
      | nil => contradiction
      | cons d text =>
          simp only [strip] at matched
          split at matched
          · rename_i same
            rcases List.mem_cons.mp member with rfl | inside
            · exact same ▸ List.mem_cons_self
            · exact List.mem_cons_of_mem d (ih matched inside)
          · contradiction

theorem Plain.privateKey (plain : Plain text) : privateKey before text = none := by
  have noLine : keyLine "BEGIN".toList text = none := by
    have noBlank : strip ("-----".toList ++ "BEGIN".toList ++ " ".toList) text = none := by
      rw [Option.eq_none_iff_forall_ne_some]
      intro rest matched
      have blank := strip_mem matched (c := ' ') (by decide)
      exact absurd (plain ' ' blank) (by decide)
    rw [keyLine, noBlank]
  rw [Privacy.privateKey, noLine]
  rfl

theorem Plain.urlUserinfo (plain : Plain text) : urlUserinfo unicode before text = none := by
  cases text with
  | nil => rfl
  | cons c rest =>
      have noMark : ∀ condition : Char → Bool,
          strip "://".toList (rest.dropWhile condition) = none := by
        intro condition
        have tail := plain.suffix
          ((List.dropWhile_suffix condition).trans (List.suffix_cons c rest))
        cases after : rest.dropWhile condition with
        | nil => rfl
        | cons d left =>
            rw [after] at tail
            have colon := tail.ne ':' (by decide)
            simp [strip, colon.symm]
      simp only [Privacy.urlUserinfo, run, noMark]
      split <;> rfl

theorem Plain.authorization (plain : Plain text) : authorization unicode before text = none := by
  unfold Privacy.authorization
  split
  · cases matched : word "authorization".toList text with
    | none => rfl
    | some found =>
        have noSign := (plain.word_rest matched).sign
        simp [noSign]
  · rfl

theorem Plain.bearer (plain : Plain text) : bearer unicode before text = none := by
  unfold Privacy.bearer
  split
  · cases matched : word "bearer".toList text with
    | none => rfl
    | some found =>
        have noSecret := (plain.word_rest matched).secret 8
        simp [noSecret]
  · rfl

theorem Plain.sensitiveAssignment (plain : Plain text) :
    sensitiveAssignment unicode before text = none := by
  unfold Privacy.sensitiveAssignment
  split
  · rw [List.findSome?_eq_none_iff]
    intro name member
    have noSign := (plain.sensitiveNames_rest member).sign
    simp [assignment, noSign]
  · rfl

/-- A plain text is not masked. -/
theorem Plain.redactSensitiveText (plain : Plain text) :
    redactSensitiveText unicode text = text := by
  have keys : substitute Privacy.privateKey text = text :=
    substitute_eq_self fun _ _ inside => (plain.suffix inside).privateKey
  have paths : redactSessionPaths text = text := by
    have slash : '/' ∉ text := fun member => absurd (plain '/' member) (by decide)
    simpa [redact_nil] using redact_append_of_not_mem slash []
  have urls : substitute (Privacy.urlUserinfo unicode) text = text :=
    substitute_eq_self fun _ _ inside => (plain.suffix inside).urlUserinfo
  have headers : substitute (Privacy.authorization unicode) text = text :=
    substitute_eq_self fun _ _ inside => (plain.suffix inside).authorization
  have bearers : substitute (Privacy.bearer unicode) text = text :=
    substitute_eq_self fun _ _ inside => (plain.suffix inside).bearer
  have assignments : substitute (Privacy.sensitiveAssignment unicode) text = text :=
    substitute_eq_self fun _ _ inside => (plain.suffix inside).sensitiveAssignment
  rw [Privacy.redactSensitiveText, keys, paths, urls, headers, bearers, assignments]

end Silent

/-- Masking neither makes nor loses a plain name. -/
theorem redactSensitiveText_eq_plain_iff {unicode : Unicode} {text name : Text}
    (plain : Plain name) : redactSensitiveText unicode text = name ↔ text = name := by
  constructor
  · intro equal
    rcases redactSensitiveText_eq_or_mem unicode text with same | shown
    · exact same.symm.trans equal
    · rw [equal] at shown
      exact absurd (plain '[' shown) (by decide)
  · rintro rfl
    exact plain.redactSensitiveText

/-- Case folding leaves a lower case ASCII text as it is. -/
theorem flatMap_casefold (unicode : Unicode) {key : Text}
    (lower : ∀ c ∈ key, c.toNat < 128 ∧ c.toLower = c) : key.flatMap unicode.casefold = key := by
  have single : ∀ c ∈ key, unicode.casefold c = [c] := by
    intro c member
    obtain ⟨ascii, same⟩ := lower c member
    rw [unicode.casefold_ascii c ascii, same]
  rw [List.flatMap_congr single, List.flatMap_singleton']

/-- Masking keeps the keys of an object. -/
theorem lookup_redactSensitiveFields (unicode : Unicode) (key : Text) (fields : Fields) :
    (redactSensitiveFields unicode fields).lookup key = (fields.lookup key).map fun value =>
      if isSensitiveKey unicode key then .string redacted
      else redactSensitiveValue unicode value := by
  cases fields with
  | nil => rfl
  | cons other value rest =>
      rw [redactSensitiveFields, Fields.lookup, Fields.lookup]
      by_cases same : other = key
      · rw [if_pos same, if_pos same, same]
        rfl
      · rw [if_neg same, if_neg same]
        exact lookup_redactSensitiveFields unicode key rest

end OhanaAgent.Privacy
