import OhanaAgent.Encoding.Json
import Mathlib.Data.List.TakeWhile

/-!
# Masking camera session paths

`redact_session_paths` replaces, from left to right, every nonempty run of
session characters that follows `/stok=` (in any case) by `[redacted]`.  The
substitution is defined by structural recursion over the text with a count of
the characters a match already consumed; the equations below give it back as a
recursion over matches.
-/

namespace OhanaAgent.Privacy

open OhanaAgent.Encoding.Json (Text)

/-- The constant `REDACTED`. -/
def redacted : Text :=
  ['[', 'r', 'e', 'd', 'a', 'c', 't', 'e', 'd', ']']

/-- Unicode white space, as `\s` matches it in a text pattern. -/
def isWhitespace (c : Char) : Bool :=
  (9 ≤ c.toNat && c.toNat ≤ 13) || (28 ≤ c.toNat && c.toNat ≤ 32) ||
    c.toNat == 0x85 || c.toNat == 0xa0 || c.toNat == 0x1680 ||
    (0x2000 ≤ c.toNat && c.toNat ≤ 0x200a) || c.toNat == 0x2028 || c.toNat == 0x2029 ||
    c.toNat == 0x202f || c.toNat == 0x205f || c.toNat == 0x3000

/-- The characters a session never contains: `/`, white space, quotes and
angle brackets. -/
def endsSession (c : Char) : Bool :=
  c == '/' || isWhitespace c || c == '\x22' || c == '\x27' || c == '<' || c == '>'

/-- The marker `/stok=` without regard to case.  Two letters have a third case
variant, the long s (U+017F) and the Kelvin sign (U+212A). -/
def isMarker : Text → Bool
  | [a, b, c, d, e, f] =>
      a == '/' && (b == 's' || b == 'S' || b == Char.ofNat 0x17f) && (c == 't' || c == 'T') &&
        (d == 'o' || d == 'O') && (e == 'k' || e == 'K' || e == Char.ofNat 0x212a) && f == '='
  | _ => false

/-- The longest run of session characters at the head of a text. -/
def sessionRun (text : Text) : Text :=
  text.takeWhile fun c => !endsSession c

/-- The match of `_SESSION_PATH` at the head of a text: the marker and a
nonempty run. -/
def sessionMatch (text : Text) : Option (Text × Text) :=
  if isMarker (text.take 6) && !(sessionRun (text.drop 6)).isEmpty then
    some (text.take 6, sessionRun (text.drop 6))
  else none

/-- Substitute from left to right, after `skip` characters that a match
already consumed. -/
def subFrom : Nat → Text → Text
  | _, [] => []
  | skip + 1, _ :: rest => subFrom skip rest
  | 0, c :: rest =>
      match sessionMatch (c :: rest) with
      | some (marker, run) => marker ++ redacted ++ subFrom (run.length + 5) rest
      | none => c :: subFrom 0 rest

/-- Mask camera session paths while keeping the shape of the endpoint. -/
def redactSessionPaths (text : Text) : Text :=
  subFrom 0 text

/-! ## Markers -/

theorem isMarker_eq_cons {marker : Text} (found : isMarker marker = true) :
    ∃ letters, marker = '/' :: letters ∧ letters.length = 5 ∧ '/' ∉ letters := by
  unfold isMarker at found
  split at found
  · simp only [Bool.and_eq_true, Bool.or_eq_true, beq_iff_eq] at found
    obtain ⟨⟨⟨⟨⟨rfl, b⟩, c⟩, d⟩, e⟩, rfl⟩ := found
    refine ⟨_, rfl, rfl, ?_⟩
    rcases b with (rfl | rfl) | rfl <;> rcases c with rfl | rfl <;> rcases d with rfl | rfl <;>
      rcases e with (rfl | rfl) | rfl <;> decide
  · contradiction

theorem isMarker_length {marker : Text} (found : isMarker marker = true) :
    marker.length = 6 := by
  obtain ⟨letters, rfl, length, _⟩ := isMarker_eq_cons found
  simp [length]

/-- The rest of a text after a run: nothing, or a character that ends it. -/
def Ended (rest : Text) : Prop :=
  ∀ c tail, rest = c :: tail → endsSession c = true

theorem ended_nil : Ended [] := by
  intro c tail equal
  contradiction

theorem ended_cons {c : Char} {rest : Text} (ends : endsSession c = true) :
    Ended (c :: rest) := by
  intro d tail equal
  cases equal
  exact ends

theorem sessionRun_append {run rest : Text} (inside : ∀ c ∈ run, endsSession c = false)
    (ended : Ended rest) : sessionRun (run ++ rest) = run := by
  induction run with
  | nil =>
      cases rest with
      | nil => rfl
      | cons c tail => simp [sessionRun, ended c tail rfl]
  | cons c run ih =>
      have head : endsSession c = false := inside c List.mem_cons_self
      have tail := ih fun d member => inside d (List.mem_cons_of_mem c member)
      simpa [sessionRun, head] using tail

theorem Ended.sessionRun_eq {text : Text} (ended : Ended text) : sessionRun text = [] :=
  @sessionRun_append [] text (by simp) ended

/-- Dropping the run leaves a rest that ends it. -/
theorem ended_dropWhile (text : Text) : Ended (text.dropWhile fun c => !endsSession c) := by
  intro c tail equal
  have nonempty : text.dropWhile (fun c => !endsSession c) ≠ [] := by simp [equal]
  have first := List.head_dropWhile_not _ nonempty
  simpa [equal] using first

/-- A match is a marker, a nonempty run and a rest that ends the run. -/
theorem sessionMatch_append {marker run rest : Text} (found : isMarker marker = true)
    (nonempty : run ≠ []) (inside : ∀ c ∈ run, endsSession c = false) (ended : Ended rest) :
    sessionMatch (marker ++ (run ++ rest)) = some (marker, run) := by
  have length := isMarker_length found
  have head : (marker ++ (run ++ rest)).take 6 = marker := by
    rw [← length, List.take_left]
  have tail : (marker ++ (run ++ rest)).drop 6 = run ++ rest := by
    rw [← length, List.drop_left]
  simp [sessionMatch, head, tail, sessionRun_append inside ended, found, nonempty]

theorem sessionMatch_eq_some {text marker run : Text}
    (found : sessionMatch text = some (marker, run)) :
    ∃ rest, text = marker ++ (run ++ rest) ∧ isMarker marker = true ∧ run ≠ [] ∧
      (∀ c ∈ run, endsSession c = false) ∧ Ended rest := by
  unfold sessionMatch at found
  split at found
  · rename_i condition
    simp only [Bool.and_eq_true, Bool.not_eq_true', List.isEmpty_eq_false_iff] at condition
    cases found
    refine ⟨(text.drop 6).dropWhile fun c => !endsSession c, ?_, condition.1, condition.2, ?_,
      ended_dropWhile _⟩
    · rw [sessionRun, List.takeWhile_append_dropWhile, List.take_append_drop]
    · intro c member
      simpa using List.mem_takeWhile_imp member
  · contradiction

/-- Without a match, a marker at the head is followed by nothing or by a
character that ends the run at once. -/
theorem ended_of_sessionMatch_eq_none {marker rest : Text} (found : isMarker marker = true)
    (absent : sessionMatch (marker ++ rest) = none) : Ended rest := by
  intro c tail equal
  subst equal
  by_contra inside
  have run := List.takeWhile_append_dropWhile (p := fun c => !endsSession c) (l := c :: tail)
  have nonempty : (c :: tail).takeWhile (fun c => !endsSession c) ≠ [] := by
    simp [inside]
  rw [← run, sessionMatch_append found nonempty ?_ (ended_dropWhile _)] at absent
  · contradiction
  · intro d member
    simpa using List.mem_takeWhile_imp member

theorem sessionMatch_eq_none_of_ne {c : Char} (other : c ≠ '/') (rest : Text) :
    sessionMatch (c :: rest) = none := by
  cases found : sessionMatch (c :: rest) with
  | none => rfl
  | some parts =>
      obtain ⟨after, equal, marked, _⟩ := sessionMatch_eq_some found
      obtain ⟨letters, markerEq, _⟩ := isMarker_eq_cons marked
      rw [markerEq] at equal
      exact absurd (List.cons.inj equal).1 other

/-! ## Equations of the substitution -/

theorem subFrom_eq_redact_drop (skip : Nat) (text : Text) :
    subFrom skip text = redactSessionPaths (text.drop skip) := by
  induction text generalizing skip with
  | nil => cases skip <;> rfl
  | cons c rest ih =>
      cases skip with
      | zero => rfl
      | succ skip => simpa [subFrom] using ih skip

@[simp]
theorem redact_nil : redactSessionPaths [] = [] := rfl

theorem redact_cons_of_none {c : Char} {rest : Text} (absent : sessionMatch (c :: rest) = none) :
    redactSessionPaths (c :: rest) = c :: redactSessionPaths rest := by
  simp [redactSessionPaths, subFrom, absent]

theorem redact_cons_of_ne {c : Char} (other : c ≠ '/') (rest : Text) :
    redactSessionPaths (c :: rest) = c :: redactSessionPaths rest :=
  redact_cons_of_none (sessionMatch_eq_none_of_ne other rest)

theorem redact_match {marker run rest : Text} (found : isMarker marker = true)
    (nonempty : run ≠ []) (inside : ∀ c ∈ run, endsSession c = false) (ended : Ended rest) :
    redactSessionPaths (marker ++ (run ++ rest)) =
      marker ++ redacted ++ redactSessionPaths rest := by
  have matched := sessionMatch_append found nonempty inside ended
  obtain ⟨letters, rfl, length, _⟩ := isMarker_eq_cons found
  rw [List.cons_append] at matched ⊢
  have consumed : (letters ++ (run ++ rest)).drop (run.length + 5) = rest := by
    have total : run.length + 5 = (letters ++ run).length := by simp [length, Nat.add_comm]
    rw [← List.append_assoc, total, List.drop_left]
  rw [redactSessionPaths, subFrom, matched]
  simp only [subFrom_eq_redact_drop, consumed]

/-- Text without a slash is copied. -/
theorem redact_append_of_not_mem {first : Text} (plain : '/' ∉ first) (rest : Text) :
    redactSessionPaths (first ++ rest) = first ++ redactSessionPaths rest := by
  induction first with
  | nil => rfl
  | cons c first ih =>
      simp only [List.mem_cons, not_or] at plain
      rw [List.cons_append, redact_cons_of_ne (Ne.symm plain.1), ih plain.2, List.cons_append]

/-- Induction along the substitution: either a match is consumed at once, or
one character is copied. -/
theorem redact_induction {motive : Text → Prop} (nil : motive [])
    (matched : ∀ marker run rest, isMarker marker = true → run ≠ [] →
      (∀ c ∈ run, endsSession c = false) → Ended rest → motive rest →
      motive (marker ++ (run ++ rest)))
    (copied : ∀ c rest, sessionMatch (c :: rest) = none → motive rest → motive (c :: rest))
    (text : Text) : motive text := by
  induction length : text.length using Nat.strong_induction_on generalizing text with
  | _ n ih =>
      cases text with
      | nil => exact nil
      | cons c rest =>
          cases found : sessionMatch (c :: rest) with
          | none => exact copied c rest found (ih rest.length (by simp [← length]) rest rfl)
          | some parts =>
              obtain ⟨after, equal, marked, nonempty, inside, ended⟩ :=
                sessionMatch_eq_some found
              rw [equal] at length ⊢
              refine matched _ _ after marked nonempty inside ended
                (ih after.length ?_ after rfl)
              have markerLength := isMarker_length marked
              simp only [List.length_append] at length
              omega

/-- Masking keeps the first character of a text that ends a run. -/
theorem Ended.redact {text : Text} (ended : Ended text) : Ended (redactSessionPaths text) := by
  cases text with
  | nil => exact ended_nil
  | cons c rest =>
      cases found : sessionMatch (c :: rest) with
      | none =>
          rw [redact_cons_of_none found]
          exact ended_cons (ended c rest rfl)
      | some parts =>
          obtain ⟨after, equal, marked, nonempty, inside, afterEnded⟩ :=
            sessionMatch_eq_some found
          rw [equal, redact_match marked nonempty inside afterEnded]
          obtain ⟨letters, markerEq, _⟩ := isMarker_eq_cons marked
          rw [markerEq]
          exact ended_cons rfl

/-- Slash-free text at the head of a masked text was copied there. -/
theorem redact_eq_append {first text rest : Text} (plain : '/' ∉ first)
    (equal : redactSessionPaths text = first ++ rest) :
    ∃ after, text = first ++ after ∧ rest = redactSessionPaths after := by
  induction first generalizing text with
  | nil => exact ⟨text, rfl, equal.symm⟩
  | cons c first ih =>
      simp only [List.mem_cons, not_or] at plain
      cases text with
      | nil => simp at equal
      | cons d text =>
          cases found : sessionMatch (d :: text) with
          | none =>
              rw [redact_cons_of_none found, List.cons_append, List.cons.injEq] at equal
              obtain ⟨after, textEq, restEq⟩ := ih plain.2 equal.2
              exact ⟨after, by rw [textEq, equal.1, List.cons_append], restEq⟩
          | some parts =>
              obtain ⟨after, textEq, marked, nonempty, inside, ended⟩ :=
                sessionMatch_eq_some found
              rw [textEq, redact_match marked nonempty inside ended] at equal
              obtain ⟨letters, markerEq, _⟩ := isMarker_eq_cons marked
              rw [markerEq] at equal
              exact absurd (List.cons.inj equal).1 plain.1

end OhanaAgent.Privacy
