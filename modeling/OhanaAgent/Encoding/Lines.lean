import Mathlib.Data.List.DropRight
import Mathlib.Data.List.TakeWhile
import OhanaAgent.Encoding.Json

/-!
# Lines of a text

Trimming a text, joining lines, and splitting a text at every line boundary:
the separators are line feeds, carriage returns, vertical tabs, form feeds, the
information separators, the next line character and the two Unicode separators,
and a carriage return followed by a line feed is one boundary.  A text read from
a file first has its carriage returns translated.
-/

namespace OhanaAgent.Encoding

open Json (Text)

/-! ## Trimming -/

section Trim

universe u

variable {α : Type u} {p : α → Bool} {text : List α}

/-- Remove the characters of a class from both ends. -/
def trim (p : α → Bool) (text : List α) : List α :=
  (text.dropWhile p).rdropWhile p

/-- A text whose ends are not of the class. -/
def Trimmed (p : α → Bool) (text : List α) : Prop :=
  (∀ c ∈ text.head?, p c = false) ∧ ∀ c ∈ text.getLast?, p c = false

instance (p : α → Bool) (text : List α) : Decidable (Trimmed p text) :=
  inferInstanceAs (Decidable (_ ∧ _))

theorem trim_sublist (p : α → Bool) (text : List α) : (trim p text).Sublist text :=
  (List.rdropWhile_prefix p _).sublist.trans (List.dropWhile_suffix p).sublist

theorem trim_eq_self_iff : trim p text = text ↔ Trimmed p text := by
  have front : text.dropWhile p = text ↔ ∀ c ∈ text.head?, p c = false := by
    cases text with
    | nil => simp
    | cons c rest => simp [List.dropWhile_eq_self_iff]
  have back : text.rdropWhile p = text ↔ ∀ c ∈ text.getLast?, p c = false := by
    rw [List.rdropWhile_eq_self_iff]
    cases text with
    | nil => simp
    | cons c rest => simp [List.getLast?_eq_some_getLast]
  constructor
  · intro same
    have whole : text.dropWhile p = text := by
      apply (List.dropWhile_suffix p).eq_of_length_le
      calc text.length = (trim p text).length := by rw [same]
        _ ≤ (text.dropWhile p).length := (List.rdropWhile_prefix p _).length_le
    refine ⟨front.mp whole, back.mp ?_⟩
    rwa [trim, whole] at same
  · rintro ⟨first, last⟩
    rw [trim, front.mpr first, back.mpr last]

theorem dropWhile_trim (text : List α) : (trim p text).dropWhile p = trim p text := by
  cases kept : trim p text with
  | nil => rfl
  | cons c rest =>
      obtain ⟨tail, whole⟩ := List.rdropWhile_prefix p (text.dropWhile p)
      have start : text.dropWhile p = c :: (rest ++ tail) := by
        rw [← whole]
        exact congrArg (· ++ tail) kept
      have first := List.dropWhile_eq_self_iff.mp (List.dropWhile_idempotent (p := p) text)
      simp only [start, List.length_cons, List.getElem_cons_zero] at first
      exact List.dropWhile_cons_of_neg (first (by omega))

theorem trim_trim (text : List α) : trim p (trim p text) = trim p text := by
  rw [trim, dropWhile_trim]
  exact List.rdropWhile_idempotent p _

/-- The end of a text may be trimmed before both ends are. -/
theorem trim_rdropWhile (text : List α) : trim p (text.rdropWhile p) = trim p text := by
  induction text using List.reverseRecOn with
  | nil => rfl
  | append_singleton text c ih =>
      rw [List.rdropWhile_concat]
      split
      · rename_i last
        rw [ih, trim, trim, List.dropWhile_append]
        split
        · rename_i empty
          rw [List.isEmpty_iff.mp empty, List.dropWhile_cons_of_pos last]
          rfl
        · rw [List.rdropWhile_concat_pos p _ c last]
      · rfl

/-- Trimming keeps a front whose ends are not of the class. -/
theorem trim_append {front : List α} (trimmed : Trimmed p front) (some' : front ≠ [])
    (text : List α) : trim p (front ++ text) = front ++ text.rdropWhile p := by
  have first : (front ++ text).dropWhile p = front ++ text := by
    cases front with
    | nil => exact absurd rfl some'
    | cons c front =>
        have visible : p c = false := trimmed.1 c rfl
        simp [visible]
  have whole : front.rdropWhile p = front := by
    rw [List.rdropWhile_eq_self_iff]
    intro nonempty
    simp [trimmed.2 _ (List.getLast?_eq_some_getLast nonempty)]
  rw [trim, first]
  clear first
  induction text using List.reverseRecOn with
  | nil => simpa using whole
  | append_singleton text c ih =>
      rw [← List.append_assoc, List.rdropWhile_concat, List.rdropWhile_concat]
      split
      · exact ih
      · simp

end Trim

/-! ## Separated parts -/

section Parts

universe u v

variable {α : Type u} {β : Type v} [BEq α] [BEq β]

/-- An element of a text is a separator or stands in one of the parts. -/
theorem mem_splitOn [LawfulBEq α] (separator : α) {a : α} {text : List α} (member : a ∈ text) :
    a = separator ∨ ∃ part ∈ text.splitOn separator, a ∈ part := by
  induction text with
  | nil => simp at member
  | cons b text ih =>
      obtain ⟨part, parts, equal⟩ := List.exists_cons_of_ne_nil (List.splitOn_ne_nil separator text)
      rw [List.splitOn_cons_eq_if_modifyHead]
      rw [equal] at ih ⊢
      rcases List.mem_cons.mp member with rfl | member
      · by_cases same : a = separator
        · exact Or.inl same
        · exact Or.inr ⟨a :: part, by simp [same], List.mem_cons_self⟩
      · rcases ih member with same | ⟨found, among, inside⟩
        · exact Or.inl same
        · refine Or.inr ?_
          split
          · exact ⟨found, List.mem_cons_of_mem _ among, inside⟩
          · rcases List.mem_cons.mp among with rfl | among
            · exact ⟨b :: found, by simp, List.mem_cons_of_mem b inside⟩
            · exact ⟨found, by simp [among], inside⟩

/-- A map that keeps the separators maps the parts. -/
theorem splitOn_map {separator : α} {other : β} {f : α → β} {text : List α}
    (keeps : ∀ a ∈ text, (f a == other) = (a == separator)) :
    (text.map f).splitOn other = (text.splitOn separator).map (List.map f) := by
  induction text with
  | nil => simp
  | cons a text ih =>
      rw [List.map_cons, List.splitOn_cons_eq_if_modifyHead, List.splitOn_cons_eq_if_modifyHead,
        ih fun b member => keeps b (List.mem_cons_of_mem a member), keeps a List.mem_cons_self]
      obtain ⟨part, parts, equal⟩ := List.exists_cons_of_ne_nil (List.splitOn_ne_nil separator text)
      rw [equal]
      split
      · simp
      · simp

end Parts

/-! ## Lines -/

/-- The line boundaries of a text. -/
def isSeparator (c : Char) : Bool :=
  (10 ≤ c.toNat && c.toNat ≤ 13) || (28 ≤ c.toNat && c.toNat ≤ 30) || c.toNat == 0x85 ||
    c.toNat == 0x2028 || c.toNat == 0x2029

/-- Split a text at its line boundaries; a boundary at the end starts no line,
and a carriage return before a line feed is no boundary of its own. -/
def splitLines : Text → List Text
  | [] => []
  | c :: rest =>
      if c = '\r' ∧ rest.head? = some '\n' then splitLines rest
      else if isSeparator c then [] :: splitLines rest
      else (splitLines rest).head?.elim [[c]] fun line => (c :: line) :: (splitLines rest).tail

/-- The text that a file is read as: every carriage return, with a line feed
after it or without, is one line feed. -/
def universalNewlines : Text → Text
  | [] => []
  | c :: rest =>
      if c = '\r' then
        if rest.head? = some '\n' then universalNewlines rest else '\n' :: universalNewlines rest
      else c :: universalNewlines rest

/-- Lines joined by line feeds. -/
def joinLines (lines : List Text) : Text :=
  ['\n'].intercalate lines

/-- A text on one line. -/
def OneLine (text : Text) : Prop :=
  ∀ c ∈ text, isSeparator c = false

instance (text : Text) : Decidable (OneLine text) :=
  inferInstanceAs (Decidable (∀ c ∈ text, isSeparator c = false))

theorem OneLine.append {first second : Text} (left : OneLine first) (right : OneLine second) :
    OneLine (first ++ second) := by
  intro c member
  rcases List.mem_append.mp member with member | member
  · exact left c member
  · exact right c member

theorem splitLines_cons {c : Char} {rest : Text} (inside : isSeparator c = false) :
    splitLines (c :: rest) =
      (splitLines rest).head?.elim [[c]] fun line => (c :: line) :: (splitLines rest).tail := by
  have plain : c ≠ '\r' := by
    rintro rfl
    exact absurd inside (by decide)
  simp [splitLines, plain, inside]

theorem splitLines_newline (rest : Text) : splitLines ('\n' :: rest) = [] :: splitLines rest := by
  rw [splitLines, if_neg (by simp), if_pos (by decide)]

/-- A first line ends at the first line feed. -/
theorem splitLines_append_newline {line : Text} (clean : OneLine line) (rest : Text) :
    splitLines (line ++ '\n' :: rest) = line :: splitLines rest := by
  induction line with
  | nil => exact splitLines_newline rest
  | cons c line ih =>
      rw [List.cons_append, splitLines_cons (clean c List.mem_cons_self),
        ih fun d member => clean d (List.mem_cons_of_mem c member)]
      rfl

theorem joinLines_cons_concat_nil (line : Text) (lines : List Text) :
    joinLines (line :: (lines ++ [[]])) = line ++ '\n' :: joinLines (lines ++ [[]]) := by
  cases lines with
  | nil => simp [joinLines, List.intercalate]
  | cons next lines => simp [joinLines, List.intercalate]

/-- Joined lines are read back up to a text with more lines. -/
theorem splitLines_joinLines_append {lines : List Text} (clean : ∀ line ∈ lines, OneLine line)
    (more : List Text) : splitLines (joinLines (lines ++ more ++ [[]])) =
      lines ++ splitLines (joinLines (more ++ [[]])) := by
  induction lines with
  | nil => rfl
  | cons line lines ih =>
      rw [List.cons_append, List.cons_append, joinLines_cons_concat_nil,
        splitLines_append_newline (clean line List.mem_cons_self),
        ih fun other member => clean other (List.mem_cons_of_mem line member), List.cons_append]

/-- Joined lines with a line feed at the end are read back. -/
theorem splitLines_joinLines {lines : List Text} (clean : ∀ line ∈ lines, OneLine line) :
    splitLines (joinLines (lines ++ [[]])) = lines := by
  have whole := splitLines_joinLines_append clean []
  rw [List.append_nil] at whole
  rw [whole]
  exact List.append_nil lines

theorem oneLine_of_mem_splitLines {text line : Text} (member : line ∈ splitLines text) :
    OneLine line := by
  induction text generalizing line with
  | nil => simp [splitLines] at member
  | cons c rest ih =>
      rw [splitLines] at member
      split at member
      · exact ih member
      · split at member
        · rcases List.mem_cons.mp member with rfl | member
          · simp [OneLine]
          · exact ih member
        · rename_i inside
          have visible : isSeparator c = false := by simpa using inside
          cases found : splitLines rest with
          | nil =>
              have single : line = [c] := by simpa [found] using member
              simpa [single, OneLine] using visible
          | cons first others =>
              rw [found] at member ih
              rcases List.mem_cons.mp member with rfl | member
              · intro d inside
                rcases List.mem_cons.mp inside with rfl | inside
                · exact visible
                · exact ih List.mem_cons_self d inside
              · exact ih (List.mem_cons_of_mem first member)

/-- The first line of a text goes up to its first separator. -/
theorem splitLines_head {text : Text} (some' : text ≠ []) :
    (splitLines text).head? = some (text.takeWhile fun c => !isSeparator c) := by
  induction text with
  | nil => exact absurd rfl some'
  | cons c rest ih =>
      rw [splitLines]
      split
      · rename_i pair
        obtain ⟨rfl, next⟩ := pair
        cases rest with
        | nil => simp at next
        | cons d rest =>
            obtain rfl : d = '\n' := by simpa using next
            rw [splitLines_newline]
            simp [isSeparator]
      · split
        · rename_i boundary
          simp [boundary]
        · rename_i inside
          cases rest with
          | nil => simp [splitLines, inside]
          | cons d rest =>
              rw [ih (by simp)]
              simp [inside]

theorem splitLines_universalNewlines (text : Text) :
    splitLines (universalNewlines text) = splitLines text := by
  induction text with
  | nil => rfl
  | cons c rest ih =>
      rw [universalNewlines]
      split
      · rename_i carriage
        subst carriage
        split
        · rename_i pair
          rw [ih, splitLines.eq_def ('\r' :: rest)]
          simp [pair]
        · rename_i alone
          rw [splitLines_newline, ih, splitLines.eq_def ('\r' :: rest)]
          simp [alone, isSeparator]
      · rename_i plain
        rw [splitLines, splitLines, ih]
        simp [plain]

end OhanaAgent.Encoding
