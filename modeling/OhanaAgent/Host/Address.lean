import Mathlib.Data.Fintype.Fin
import Mathlib.Data.Fintype.Prod
import Mathlib.Data.List.Basic
import OhanaAgent.Encoding.Json

/-!
# IPv4 addresses

An address is its four octets.  Its text is dotted decimal, and the reader
accepts exactly the texts of addresses: four nonempty runs of at most three
digits, none with a leading zero and none above 255.
-/

namespace OhanaAgent.Host

open Encoding.Json (Text)

/-- An IPv4 address. -/
structure Address where
  first : Fin 256
  second : Fin 256
  third : Fin 256
  fourth : Fin 256
  deriving DecidableEq

/-- The address of four octets. -/
def Address.ofOctets (first second third fourth : Nat) : Address :=
  ⟨Fin.ofNat 256 first, Fin.ofNat 256 second, Fin.ofNat 256 third, Fin.ofNat 256 fourth⟩

/-- The integer of an address. -/
def Address.value (address : Address) : Nat :=
  ((address.first * 256 + address.second) * 256 + address.third) * 256 + address.fourth

/-- The decimal text of an octet. -/
def octetText (octet : Fin 256) : Text :=
  Nat.toDigits 10 octet

/-- The integer of a run of decimal digits. -/
def decimal (digits : Text) : Nat :=
  digits.foldl (fun value c => value * 10 + (c.toNat - 48)) 0

/-- `_parse_octet`. -/
def parseOctet (text : Text) : Option (Fin 256) :=
  if text = [] then none
  else if !text.all Char.isDigit then none
  else if 3 < text.length then none
  else if text ≠ ['0'] ∧ text.head? = some '0' then none
  else if inRange : decimal text < 256 then some ⟨decimal text, inRange⟩ else none

namespace Address

/-- `str(address)`. -/
def text (address : Address) : Text :=
  ['.'].intercalate [octetText address.first, octetText address.second, octetText address.third,
    octetText address.fourth]

/-- `IPv4Address(text)`. -/
def parse (text : Text) : Option Address :=
  if '/' ∈ text then none
  else
    match text.splitOn '.' with
    | [a, b, c, d] => do
        let first ← parseOctet a
        let second ← parseOctet b
        let third ← parseOctet c
        let fourth ← parseOctet d
        pure ⟨first, second, third, fourth⟩
    | _ => none

end Address

/-! ## Octets -/

/-- A decimal digit. -/
def digit (n : Fin 10) : Char :=
  Char.ofNat (48 + n)

theorem exists_digit {c : Char} (isDigit : c.isDigit = true) : ∃ n, digit n = c := by
  have bounds : 48 ≤ c.toNat ∧ c.toNat ≤ 57 := Char.isDigit_iff_toNat.mp isDigit
  refine ⟨⟨c.toNat - 48, by omega⟩, ?_⟩
  have value : 48 + (c.toNat - 48) = c.toNat := by omega
  simp only [digit, value, Char.ofNat_toNat]

theorem parseOctet_octetText : ∀ octet, parseOctet (octetText octet) = some octet := by
  decide +kernel

theorem octetText_digits : ∀ octet, ∀ c ∈ octetText octet, c.isDigit = true := by
  decide +kernel

theorem octetText_nonempty : ∀ octet, octetText octet ≠ [] := by
  decide +kernel

/-- Whether a run of digits is read as an octet with another text. -/
def misread (digits : Text) : Bool :=
  (parseOctet digits).any fun octet => octetText octet != digits

theorem not_misread_one : ∀ a, misread [digit a] = false := by
  decide

theorem not_misread_two : ∀ a b, misread [digit a, digit b] = false := by
  decide

theorem not_misread_three : ∀ a b c, misread [digit a, digit b, digit c] = false := by
  decide

theorem parseOctet_cases {text : Text} {octet : Fin 256} (found : parseOctet text = some octet) :
    text ≠ [] ∧ (∀ c ∈ text, c.isDigit = true) ∧ text.length ≤ 3 := by
  unfold parseOctet at found
  split at found
  · contradiction
  · rename_i nonempty
    split at found
    · contradiction
    · rename_i digits
      split at found
      · contradiction
      · rename_i short
        exact ⟨nonempty, by simpa using digits, by omega⟩

/-- The reader of octets accepts no other text than its own. -/
theorem octetText_of_parseOctet {text : Text} {octet : Fin 256}
    (found : parseOctet text = some octet) : octetText octet = text := by
  obtain ⟨nonempty, digits, short⟩ := parseOctet_cases found
  suffices accurate : misread text = false by
    simpa [misread, found] using accurate
  have read : ∀ c ∈ text, ∃ n, digit n = c := fun c member => exists_digit (digits c member)
  rcases text with _ | ⟨a, _ | ⟨b, _ | ⟨c, _ | ⟨d, rest⟩⟩⟩⟩
  · contradiction
  · obtain ⟨a, rfl⟩ := read a (by simp)
    exact not_misread_one a
  · obtain ⟨a, rfl⟩ := read a (by simp)
    obtain ⟨b, rfl⟩ := read b (by simp)
    exact not_misread_two a b
  · obtain ⟨a, rfl⟩ := read a (by simp)
    obtain ⟨b, rfl⟩ := read b (by simp)
    obtain ⟨c, rfl⟩ := read c (by simp)
    exact not_misread_three a b c
  · simp only [List.length_cons] at short
    omega

/-! ## Addresses -/

namespace Address

/-- The characters of an address are digits and dots. -/
theorem mem_text {address : Address} {c : Char} (member : c ∈ address.text) :
    c.isDigit = true ∨ c = '.' := by
  obtain ⟨first, second, third, fourth⟩ := address
  simp only [text, List.intercalate, List.intersperse, List.flatten_cons, List.flatten_nil,
    List.mem_append, List.mem_singleton, List.not_mem_nil, or_false] at member
  rcases member with member | rfl | member | rfl | member | rfl | member
  · exact Or.inl (octetText_digits first c member)
  · exact Or.inr rfl
  · exact Or.inl (octetText_digits second c member)
  · exact Or.inr rfl
  · exact Or.inl (octetText_digits third c member)
  · exact Or.inr rfl
  · exact Or.inl (octetText_digits fourth c member)

theorem text_nonempty (address : Address) : address.text ≠ [] := by
  simp [text, List.intercalate, octetText_nonempty]

theorem not_mem_octetText {c : Char} (other : c.isDigit = false) (octet : Fin 256) :
    c ∉ octetText octet := by
  intro member
  rw [octetText_digits octet c member] at other
  contradiction

/-- An address is read back from its text. -/
theorem parse_text (address : Address) : parse address.text = some address := by
  have slash : '/' ∉ address.text := by
    intro member
    rcases mem_text member with digit | dot
    · exact absurd digit (by decide)
    · exact absurd dot (by decide)
  have octets : address.text.splitOn '.' = [octetText address.first, octetText address.second,
      octetText address.third, octetText address.fourth] := by
    apply List.splitOn_intercalate
    · intro octet member
      simp only [List.mem_cons, List.not_mem_nil, or_false] at member
      rcases member with rfl | rfl | rfl | rfl <;> exact not_mem_octetText (by decide) _
    · simp
  simp [parse, slash, octets, parseOctet_octetText]

/-- The reader of addresses accepts no other text than theirs. -/
theorem text_of_parse {read : Text} {address : Address} (found : parse read = some address) :
    address.text = read := by
  unfold parse at found
  split at found
  · contradiction
  · split at found
    · rename_i a b c d octets
      simp only [Option.bind_eq_bind, Option.bind_eq_some_iff, Option.pure_def,
        Option.some.injEq] at found
      obtain ⟨first, firstRead, second, secondRead, third, thirdRead, fourth, fourthRead, rfl⟩ :=
        found
      calc text ⟨first, second, third, fourth⟩ = ['.'].intercalate [a, b, c, d] := by
            simp only [text, octetText_of_parseOctet firstRead,
              octetText_of_parseOctet secondRead, octetText_of_parseOctet thirdRead,
              octetText_of_parseOctet fourthRead]
        _ = read := by rw [← octets, List.intercalate_splitOn]
    · contradiction

end Address

end OhanaAgent.Host
