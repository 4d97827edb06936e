import Mathlib.Data.List.Basic

/-!
# Substituting matches in a text

The substitution of a pattern scans a text from left to right and replaces each
match it meets by a text of its own, going on after the match.  A pattern is a
partial function from the character before a position and the text at it to the
length of the match and its replacement; matches are not empty.
-/

namespace OhanaAgent.Encoding

universe u

variable {α : Type u}

/-- What a pattern matches at a position: how many characters, and what stands
in their place. -/
structure Replacement (α : Type u) where
  length : Nat
  text : List α

/-- Substitute after `skip` characters that a match already consumed. -/
def substituteFrom (find : Option α → List α → Option (Replacement α)) :
    Option α → Nat → List α → List α
  | _, _, [] => []
  | _, skip + 1, c :: rest => substituteFrom find (some c) skip rest
  | before, 0, c :: rest =>
      match find before (c :: rest) with
      | some found => found.text ++ substituteFrom find (some c) (found.length - 1) rest
      | none => c :: substituteFrom find (some c) 0 rest

/-- Substitute every match. -/
def substitute (find : Option α → List α → Option (Replacement α)) (text : List α) : List α :=
  substituteFrom find none 0 text

variable {find : Option α → List α → Option (Replacement α)}

@[simp]
theorem substitute_nil : substitute find [] = [] := by
  simp [substitute, substituteFrom]

/-- A text is unchanged, or it shows a mark that every replacement has. -/
theorem substituteFrom_eq_or_mem {mark : α}
    (marked : ∀ before text found, find before text = some found → mark ∈ found.text)
    (before : Option α) (text : List α) :
    substituteFrom find before 0 text = text ∨ mark ∈ substituteFrom find before 0 text := by
  induction text generalizing before with
  | nil => exact Or.inl (by simp [substituteFrom])
  | cons c rest ih =>
      rw [substituteFrom]
      cases found : find before (c :: rest) with
      | some replacement =>
          exact Or.inr (List.mem_append_left _ (marked before _ replacement found))
      | none =>
          rcases ih (some c) with same | shown
          · exact Or.inl (by simp only [same])
          · exact Or.inr (List.mem_cons_of_mem c shown)

theorem substitute_eq_or_mem (find : Option α → List α → Option (Replacement α)) {mark : α}
    (marked : ∀ before text found, find before text = some found → mark ∈ found.text)
    (text : List α) : substitute find text = text ∨ mark ∈ substitute find text :=
  substituteFrom_eq_or_mem marked none text

/-- A text in which no suffix matches is unchanged. -/
theorem substituteFrom_eq_self {text : List α} (before : Option α)
    (silent : ∀ before suffix, suffix <:+ text → find before suffix = none) :
    substituteFrom find before 0 text = text := by
  induction text generalizing before with
  | nil => simp [substituteFrom]
  | cons c rest ih =>
      have tail := ih (some c) fun before' suffix inside =>
        silent before' suffix (inside.trans (List.suffix_cons c rest))
      rw [substituteFrom, silent before (c :: rest) List.suffix_rfl]
      simp only [tail]

theorem substitute_eq_self {text : List α}
    (silent : ∀ before suffix, suffix <:+ text → find before suffix = none) :
    substitute find text = text :=
  substituteFrom_eq_self none silent

end OhanaAgent.Encoding
