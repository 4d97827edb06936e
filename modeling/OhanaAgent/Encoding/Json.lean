import Mathlib.Data.List.Basic

/-!
# JSON values and their text form

The values, the writer and the reader of a standard JSON codec, over texts as
lists of characters.  The writer is the compact one with sorted keys and raw
non-ASCII characters; the reader accepts insignificant white space, all
escapes, repeated keys (the last one wins) and the three non-finite numbers.

A number is kept as the token that denotes it: writing a number is writing its
canonical token, and reading that token back gives the same number.  The
reader rejects unpaired surrogate escapes, which `Char` cannot hold.
-/

namespace OhanaAgent.Encoding.Json

/-- A text is the list of its characters. -/
abbrev Text := List Char

/-- Texts compare character by character. -/
instance (priority := 1100) textLE : LE Text :=
  List.instLE

/-- Membership in a list of texts compares the texts. -/
instance (priority := 1100) decidableMemTexts (text : Text) (texts : List Text) :
    Decidable (text ∈ texts) :=
  List.instDecidableMemOfLawfulBEq text texts

/-- A condition on the characters of a text is decided along the text. -/
instance (priority := 1100) decidableText (P : Char → Prop) [DecidablePred P] (text : Text) :
    Decidable (∀ c ∈ text, P c) :=
  List.decidableBAll P text

/-- The literals of the format, the non-finite numbers included. -/
inductive Atom where
  | null
  | true
  | false
  | nan
  | infinity
  | negInfinity
  deriving DecidableEq, Repr

/-- The text of a literal. -/
def Atom.text : Atom → Text
  | .null => ['n', 'u', 'l', 'l']
  | .true => ['t', 'r', 'u', 'e']
  | .false => ['f', 'a', 'l', 's', 'e']
  | .nan => ['N', 'a', 'N']
  | .infinity => ['I', 'n', 'f', 'i', 'n', 'i', 't', 'y']
  | .negInfinity => ['-', 'I', 'n', 'f', 'i', 'n', 'i', 't', 'y']

/-- The literals in the order in which the reader tries them. -/
def Atom.all : List Atom :=
  [.null, .true, .false, .nan, .infinity, .negInfinity]

/-- Characters that can occur in a number token. -/
def isNumberChar (c : Char) : Bool :=
  c.isDigit || c == '+' || c == '-' || c == '.' || c == 'e' || c == 'E'

/-- A nonempty run of digits reaching the end of the token. -/
def isDigits (token : Text) : Bool :=
  !token.isEmpty && token.all Char.isDigit

/-- An optional exponent, after the marker `e` or `E`. -/
def isExponent : Text → Bool
  | '+' :: digits => isDigits digits
  | '-' :: digits => isDigits digits
  | digits => isDigits digits

/-- What may follow the integer part: a fraction and an exponent. -/
def isNumberTail : Text → Bool
  | [] => true
  | '.' :: rest =>
      let fraction := rest.takeWhile Char.isDigit
      !fraction.isEmpty &&
        match rest.dropWhile Char.isDigit with
        | [] => true
        | c :: exponent => (c == 'e' || c == 'E') && isExponent exponent
  | c :: exponent => (c == 'e' || c == 'E') && isExponent exponent

/-- An unsigned number: no leading zero before another digit. -/
def isUnsigned : Text → Bool
  | '0' :: rest => isNumberTail rest
  | c :: rest => c.isDigit && isNumberTail (rest.dropWhile Char.isDigit)
  | [] => false

/-- The number grammar. -/
def isNumberToken : Text → Bool
  | '-' :: rest => isUnsigned rest && rest.all isNumberChar
  | token => isUnsigned token && token.all isNumberChar

/-- A number, as the token that denotes it. -/
structure Number where
  token : Text
  wellFormed : isNumberToken token = true
  deriving DecidableEq

mutual

/-- A JSON value. -/
inductive Value where
  | atom (literal : Atom)
  | number (value : Number)
  | string (content : Text)
  | array (items : Items)
  | object (fields : Fields)

/-- The items of an array. -/
inductive Items where
  | nil
  | cons (head : Value) (tail : Items)

/-- The fields of an object, in insertion order. -/
inductive Fields where
  | nil
  | cons (key : Text) (value : Value) (rest : Fields)

end

deriving instance DecidableEq for Value, Items, Fields

namespace Items

/-- Items from a list of values. -/
def ofList : List Value → Items
  | [] => .nil
  | value :: values => .cons value (ofList values)

end Items

namespace Fields

/-- Fields from a list of keyed values. -/
def ofList : List (Text × Value) → Fields
  | [] => .nil
  | (key, value) :: rest => .cons key value (ofList rest)

/-- The keys in order. -/
def keys : Fields → List Text
  | .nil => []
  | .cons key _ rest => key :: keys rest

/-- The value of a key. -/
def lookup (key : Text) : Fields → Option Value
  | .nil => none
  | .cons other value rest => if other = key then some value else lookup key rest

/-- Assign a key: in its place when it is there, at the end when it is not. -/
def set (key : Text) (value : Value) : Fields → Fields
  | .nil => .cons key value .nil
  | .cons other old rest =>
      if other = key then .cons other value rest else .cons other old (set key value rest)

/-- Remove every field with the given key. -/
def erase (key : Text) : Fields → Fields
  | .nil => .nil
  | .cons other value rest =>
      if other = key then erase key rest else .cons other value (erase key rest)

/-- Put one field in front of a dictionary read after it.  A key that is read
again keeps its first position and its last value. -/
def prepend (key : Text) (value : Value) (rest : Fields) : Fields :=
  match rest.lookup key with
  | none => .cons key value rest
  | some last => .cons key last (rest.erase key)

/-- Insert a field before the first greater key. -/
def insertSorted (key : Text) (value : Value) : Fields → Fields
  | .nil => .cons key value .nil
  | .cons other content rest =>
      if key ≤ other then .cons key value (.cons other content rest)
      else .cons other content (insertSorted key value rest)

end Fields

/-! ## Writing -/

/-- One hexadecimal digit, in lower case. -/
def hexDigit (n : Nat) : Char :=
  if n < 10 then Char.ofNat (48 + n) else Char.ofNat (87 + n)

/-- The text of one character inside a string. -/
def escapeChar (c : Char) : Text :=
  if c = '\x22' then ['\\', '\x22']
  else if c = '\\' then ['\\', '\\']
  else if c = '\n' then ['\\', 'n']
  else if c = '\r' then ['\\', 'r']
  else if c = '\t' then ['\\', 't']
  else if c = '\x0c' then ['\\', 'f']
  else if c = '\x08' then ['\\', 'b']
  else if c.toNat < 32 then
    ['\\', 'u', '0', '0', hexDigit (c.toNat / 16), hexDigit (c.toNat % 16)]
  else [c]

/-- The text of a string, without its quotes. -/
def escape (content : Text) : Text :=
  content.flatMap escapeChar

mutual

/-- Write a value in the order of its fields, without white space. -/
def render : Value → Text
  | .atom literal => literal.text
  | .number value => value.token
  | .string content => '\x22' :: (escape content ++ ['\x22'])
  | .array items => '[' :: (renderItems items ++ [']'])
  | .object fields => '\x7b' :: (renderFields fields ++ ['\x7d'])

def renderItems : Items → Text
  | .nil => []
  | .cons head .nil => render head
  | .cons head (.cons next tail) => render head ++ ',' :: renderItems (.cons next tail)

def renderFields : Fields → Text
  | .nil => []
  | .cons key value .nil => '\x22' :: (escape key ++ '\x22' :: ':' :: render value)
  | .cons key value (.cons next content rest) =>
      '\x22' :: (escape key ++ '\x22' :: ':' ::
        (render value ++ ',' :: renderFields (.cons next content rest)))

end

mutual

/-- Order the fields of every object by key. -/
def sortKeys : Value → Value
  | .atom literal => .atom literal
  | .number value => .number value
  | .string content => .string content
  | .array items => .array (sortItems items)
  | .object fields => .object (sortFields fields)

def sortItems : Items → Items
  | .nil => .nil
  | .cons head tail => .cons (sortKeys head) (sortItems tail)

def sortFields : Fields → Fields
  | .nil => .nil
  | .cons key value rest => (sortFields rest).insertSorted key (sortKeys value)

end

/-- Compact JSON text with sorted keys. -/
def dumps (value : Value) : Text :=
  render (sortKeys value)

/-! ## Reading -/

/-- Insignificant white space. -/
def isSpace (c : Char) : Bool :=
  c == ' ' || c == '\t' || c == '\n' || c == '\r'

/-- Skip insignificant white space. -/
def skipSpace (text : Text) : Text :=
  text.dropWhile isSpace

/-- The value of a hexadecimal digit. -/
def hexValue (c : Char) : Option Nat :=
  if '0' ≤ c ∧ c ≤ '9' then some (c.toNat - 48)
  else if 'a' ≤ c ∧ c ≤ 'f' then some (c.toNat - 87)
  else if 'A' ≤ c ∧ c ≤ 'F' then some (c.toNat - 55)
  else none

/-- The value of four hexadecimal digits. -/
def hexCode (a b c d : Char) : Option Nat := do
  let a ← hexValue a
  let b ← hexValue b
  let c ← hexValue c
  let d ← hexValue d
  pure (((a * 16 + b) * 16 + c) * 16 + d)

/-- The character of a one-letter escape. -/
def simpleEscape (c : Char) : Option Char :=
  if c = '\x22' then some '\x22'
  else if c = '\\' then some '\\'
  else if c = '/' then some '/'
  else if c = 'b' then some '\x08'
  else if c = 'f' then some '\x0c'
  else if c = 'n' then some '\n'
  else if c = 'r' then some '\r'
  else if c = 't' then some '\t'
  else none

/-- The character of a code point that is not a surrogate. -/
def scalar (code : Nat) : Option Char :=
  if code.isValidChar then some (Char.ofNat code) else none

/-- Decode what follows `\u`: the character and the number of characters
read.  A high surrogate needs the low surrogate of its pair. -/
def unicodeEscape : Text → Option (Char × Nat)
  | a :: b :: c :: d :: rest => do
      let high ← hexCode a b c d
      if 0xd800 ≤ high ∧ high ≤ 0xdbff then
        match rest with
        | '\\' :: 'u' :: e :: f :: g :: h :: _ =>
            let low ← hexCode e f g h
            if 0xdc00 ≤ low ∧ low ≤ 0xdfff then
              let c ← scalar (0x10000 + (high - 0xd800) * 0x400 + (low - 0xdc00))
              pure (c, 10)
            else none
        | _ => none
      else
        let c ← scalar high
        pure (c, 4)
  | _ => none

/-- Decode one character of a string: the character and the number of
characters of its text. -/
def scanChar : Text → Option (Char × Nat)
  | [] => none
  | '\\' :: 'u' :: rest => (unicodeEscape rest).map fun found => (found.1, found.2 + 2)
  | '\\' :: c :: _ => (simpleEscape c).map fun found => (found, 2)
  | '\\' :: [] => none
  | c :: _ => if c.toNat < 32 then none else some (c, 1)

/-- Read a string after its opening quote, skipping first the characters that
an escape already consumed. -/
def scanStringFrom : Nat → Text → Option (Text × Text)
  | _, [] => none
  | skip + 1, _ :: rest => scanStringFrom skip rest
  | 0, c :: rest =>
      if c = '\x22' then some ([], rest)
      else
        match scanChar (c :: rest) with
        | none => none
        | some (decoded, width) =>
            (scanStringFrom (width - 1) rest).map fun found => (decoded :: found.1, found.2)

/-- Read a string after its opening quote. -/
def scanString (text : Text) : Option (Text × Text) :=
  scanStringFrom 0 text

/-- Remove an expected prefix. -/
def strip : Text → Text → Option Text
  | [], text => some text
  | _ :: _, [] => none
  | c :: expected, d :: text => if c = d then strip expected text else none

/-- The first literal of a list that starts the text. -/
def scanAtom : List Atom → Text → Option (Atom × Text)
  | [], _ => none
  | literal :: literals, text =>
      match strip literal.text text with
      | some rest => some (literal, rest)
      | none => scanAtom literals text

/-- Read a number: the longest run of number characters must be a token. -/
def scanNumber (text : Text) : Option (Number × Text) :=
  if wellFormed : isNumberToken (text.takeWhile isNumberChar) = true then
    some (⟨text.takeWhile isNumberChar, wellFormed⟩, text.dropWhile isNumberChar)
  else none

/-- Read a literal or a number. -/
def scanScalar (text : Text) : Option (Value × Text) :=
  match scanAtom Atom.all text with
  | some (literal, rest) => some (.atom literal, rest)
  | none => (scanNumber text).map fun found => (.number found.1, found.2)

mutual

/-- Read one value.  The fuel bounds the nesting and the number of items. -/
def scanValue : Nat → Text → Option (Value × Text)
  | 0, _ => none
  | fuel + 1, text =>
      match text with
      | '\x22' :: rest => (scanString rest).map fun found => (.string found.1, found.2)
      | '[' :: rest =>
          match skipSpace rest with
          | ']' :: after => some (.array .nil, after)
          | body => (scanItems fuel body).map fun found => (.array found.1, found.2)
      | '\x7b' :: rest =>
          match skipSpace rest with
          | '\x7d' :: after => some (.object .nil, after)
          | '\x22' :: body => (scanFields fuel body).map fun found => (.object found.1, found.2)
          | _ => none
      | _ => scanScalar text

/-- Read the items of a nonempty array up to its closing bracket. -/
def scanItems : Nat → Text → Option (Items × Text)
  | 0, _ => none
  | fuel + 1, text =>
      match scanValue fuel text with
      | none => none
      | some (head, rest) =>
          match skipSpace rest with
          | ']' :: after => some (.cons head .nil, after)
          | ',' :: more =>
              (scanItems fuel (skipSpace more)).map fun found => (.cons head found.1, found.2)
          | _ => none

/-- Read the fields of a nonempty object, after the opening quote of the first
key, up to its closing brace. -/
def scanFields : Nat → Text → Option (Fields × Text)
  | 0, _ => none
  | fuel + 1, text =>
      match scanString text with
      | none => none
      | some (key, afterKey) =>
          match skipSpace afterKey with
          | ':' :: afterColon =>
              match scanValue fuel (skipSpace afterColon) with
              | none => none
              | some (value, rest) =>
                  match skipSpace rest with
                  | '\x7d' :: after => some (Fields.prepend key value .nil, after)
                  | ',' :: more =>
                      match skipSpace more with
                      | '\x22' :: body =>
                          (scanFields fuel body).map fun found =>
                            (found.1.prepend key value, found.2)
                      | _ => none
                  | _ => none
          | _ => none

end

/-- Read a whole text as one value. -/
def loads (text : Text) : Option Value :=
  match scanValue (2 * text.length + 2) (skipSpace text) with
  | some (value, rest) => if skipSpace rest = [] then some value else none
  | none => none

end OhanaAgent.Encoding.Json
