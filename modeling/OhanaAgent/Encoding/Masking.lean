import OhanaAgent.Encoding.Substitution
import Mathlib.Data.List.Flatten

/-!
# Substitutions that mask values

A pattern masks values when each match is a head that the replacement keeps and a
value that a fixed mask replaces.  The scan of a text then leaves pieces: characters
that are kept and values that are masked.  The text and its substitution are two
readings of the same pieces, so a match of another pattern in the substitution can
be followed back into the text.
-/

namespace OhanaAgent.Encoding

universe u

/-- What a substitution does with a stretch of a text. -/
inductive Piece (α : Type u) where
  | kept (c : α)
  | masked (value : List α)

variable {α : Type u}

def Piece.source : Piece α → List α
  | .kept c => [c]
  | .masked value => value

def Piece.shown (mask : List α) : Piece α → List α
  | .kept c => [c]
  | .masked _ => mask

/-- The text of the pieces. -/
def source (pieces : List (Piece α)) : List α :=
  pieces.flatMap Piece.source

/-- The substitution of the pieces. -/
def shown (mask : List α) (pieces : List (Piece α)) : List α :=
  pieces.flatMap (Piece.shown mask)

/-- The pieces of a text, after `skip` characters that a match already consumed. -/
def piecesFrom (find : Option α → List α → Option (Replacement α)) (mask : List α) :
    Option α → Nat → List α → List (Piece α)
  | _, _, [] => []
  | _, skip + 1, c :: rest => piecesFrom find mask (some c) skip rest
  | before, 0, c :: rest =>
      match find before (c :: rest) with
      | some found =>
          let head := found.text.take (found.text.length - mask.length)
          head.map .kept ++
            .masked (((c :: rest).take found.length).drop head.length) ::
              piecesFrom find mask (some c) (found.length - 1) rest
      | none => .kept c :: piecesFrom find mask (some c) 0 rest

/-- The pieces that a substitution leaves. -/
def pieces (find : Option α → List α → Option (Replacement α)) (mask text : List α) :
    List (Piece α) :=
  piecesFrom find mask none 0 text

section Readings

variable {mask : List α} {c : α} {value text : List α} {first second : List (Piece α)}

@[simp]
theorem source_nil : source ([] : List (Piece α)) = [] := rfl

@[simp]
theorem source_kept : source (.kept c :: first) = c :: source first := by
  simp [source, Piece.source]

@[simp]
theorem source_masked : source (.masked value :: first) = value ++ source first := by
  simp [source, Piece.source]

@[simp]
theorem source_append : source (first ++ second) = source first ++ source second := by
  simp [source]

@[simp]
theorem source_map_kept : source (text.map Piece.kept) = text := by
  induction text with
  | nil => rfl
  | cons c text inductionHypothesis => simp [inductionHypothesis]

@[simp]
theorem shown_nil : shown mask ([] : List (Piece α)) = [] := rfl

@[simp]
theorem shown_kept : shown mask (.kept c :: first) = c :: shown mask first := by
  simp [shown, Piece.shown]

@[simp]
theorem shown_masked : shown mask (.masked value :: first) = mask ++ shown mask first := by
  simp [shown, Piece.shown]

@[simp]
theorem shown_append : shown mask (first ++ second) = shown mask first ++ shown mask second := by
  simp [shown]

@[simp]
theorem shown_map_kept : shown mask (text.map Piece.kept) = text := by
  induction text with
  | nil => rfl
  | cons c text inductionHypothesis => simp [inductionHypothesis]

/-- A stretch of the substitution without the first character of the mask is kept. -/
theorem kept_of_shown {bracket : α} {tail text rest : List α} {pieces : List (Piece α)}
    (plain : bracket ∉ text) (equal : shown (bracket :: tail) pieces = text ++ rest) :
    ∃ left, pieces = text.map Piece.kept ++ left ∧ shown (bracket :: tail) left = rest := by
  induction text generalizing pieces with
  | nil => exact ⟨pieces, rfl, equal⟩
  | cons c text inductionHypothesis =>
      simp only [List.mem_cons, not_or] at plain
      cases pieces with
      | nil => simp at equal
      | cons piece pieces =>
          cases piece with
          | kept d =>
              simp only [shown_kept, List.cons_append, List.cons.injEq] at equal
              obtain ⟨rfl, equal⟩ := equal
              obtain ⟨left, rfl, shownLeft⟩ := inductionHypothesis plain.2 equal
              exact ⟨left, rfl, shownLeft⟩
          | masked value =>
              simp only [shown_masked, List.cons_append, List.cons.injEq] at equal
              exact absurd equal.1 plain.1

/-- A stretch of the substitution is kept up to its end or up to a mask. -/
theorem kept_or_masked {text rest : List α} {pieces : List (Piece α)}
    (equal : shown mask pieces = text ++ rest) :
    (∃ left, pieces = text.map Piece.kept ++ left ∧ shown mask left = rest) ∨
      ∃ first second value left, text = first ++ second ∧ second ≠ [] ∧
        pieces = first.map Piece.kept ++ .masked value :: left ∧
          mask ++ shown mask left = second ++ rest := by
  induction text generalizing pieces with
  | nil => exact Or.inl ⟨pieces, rfl, equal⟩
  | cons c text inductionHypothesis =>
      cases pieces with
      | nil => simp at equal
      | cons piece pieces =>
          cases piece with
          | masked value =>
              exact Or.inr ⟨[], c :: text, value, pieces, rfl, List.cons_ne_nil c text, rfl,
                by simpa using equal⟩
          | kept d =>
              simp only [shown_kept, List.cons_append, List.cons.injEq] at equal
              obtain ⟨rfl, equal⟩ := equal
              rcases inductionHypothesis equal with
                ⟨left, rfl, shownLeft⟩ | ⟨first, second, value, left, rfl, filled, rfl, shownEq⟩
              · exact Or.inl ⟨left, rfl, shownLeft⟩
              · exact Or.inr ⟨d :: first, second, value, left, rfl, filled, rfl, shownEq⟩

/-- A position in the substitution is between two pieces or inside a mask. -/
theorem shown_eq_append {pieces : List (Piece α)} {before after : List α}
    (equal : shown mask pieces = before ++ after) :
    (∃ first second, pieces = first ++ second ∧ before = shown mask first ∧
        after = shown mask second) ∨
      ∃ first value second start rest, pieces = first ++ .masked value :: second ∧
        mask = start ++ rest ∧ start ≠ [] ∧ rest ≠ [] ∧ before = shown mask first ++ start ∧
          after = rest ++ shown mask second := by
  induction pieces generalizing before with
  | nil =>
      simp only [shown_nil, List.nil_eq, List.append_eq_nil_iff] at equal
      exact Or.inl ⟨[], [], rfl, equal.1, equal.2⟩
  | cons piece pieces inductionHypothesis =>
      rcases List.append_eq_append_iff.mp
          (show piece.shown mask ++ shown mask pieces = before ++ after from by
            rw [← equal]; simp [shown]) with
        ⟨more, beforeEq, restEq⟩ | ⟨more, headEq, afterEq⟩
      · rcases inductionHypothesis restEq with
          ⟨first, second, rfl, rfl, afterEq⟩ |
          ⟨first, value, second, start, rest, rfl, maskEq, nonempty, left, rfl, afterEq⟩
        · refine Or.inl ⟨piece :: first, second, rfl, ?_, afterEq⟩
          rw [beforeEq]
          simp [shown]
        · refine Or.inr ⟨piece :: first, value, second, start, rest, rfl, maskEq, nonempty, left,
            ?_, afterEq⟩
          rw [beforeEq]
          simp [shown]
      · by_cases none : before = []
        · subst none
          exact Or.inl ⟨[], piece :: pieces, rfl, rfl, equal.symm⟩
        · by_cases all : more = []
          · subst all
            refine Or.inl ⟨[piece], pieces, rfl, ?_, by simpa using afterEq⟩
            simpa [shown] using headEq.symm
          · cases piece with
            | kept c =>
                have length := congrArg List.length headEq
                have nonempty := List.length_pos_iff.mpr none
                have left := List.length_pos_iff.mpr all
                simp only [Piece.shown, List.length_singleton, List.length_append] at length
                omega
            | masked value =>
                exact Or.inr ⟨[], value, pieces, before, more, rfl, headEq, none, all, rfl, afterEq⟩

end Readings

/-! ## Matches that mask a value -/

variable {find : Option α → List α → Option (Replacement α)} {mask : List α}

/-- The match at a position: a head and a value that the mask replaces. -/
structure MaskedAt (find : Option α → List α → Option (Replacement α)) (mask : List α)
    (before : Option α) (head value rest : List α) : Prop where
  found : find before (head ++ (value ++ rest)) =
    some ⟨(head ++ value).length, head ++ mask⟩
  head : head ≠ []
  value : value ≠ []

/-- Every match masks a value. -/
def Masks (find : Option α → List α → Option (Replacement α)) (mask : List α) : Prop :=
  ∀ before text found, find before text = some found →
    ∃ head value rest, text = head ++ (value ++ rest) ∧ MaskedAt find mask before head value rest ∧
      found = ⟨(head ++ value).length, head ++ mask⟩

/-- The last character of a text that follows another one. -/
def lastOr (before : Option α) (text : List α) : Option α :=
  text.getLast?.or before

@[simp]
theorem lastOr_nil (before : Option α) : lastOr before [] = before := by
  simp [lastOr]

theorem lastOr_cons (before : Option α) (c : α) (text : List α) :
    lastOr before (c :: text) = lastOr (some c) text := by
  cases text with
  | nil => simp [lastOr]
  | cons d text => simp [lastOr, List.getLast?_cons]

theorem lastOr_append (before : Option α) (first second : List α) :
    lastOr before (first ++ second) = lastOr (lastOr before first) second := by
  induction first generalizing before with
  | nil => simp
  | cons c first inductionHypothesis =>
      rw [List.cons_append, lastOr_cons, lastOr_cons, inductionHypothesis]

theorem piecesFrom_append (before : Option α) (first rest : List α) :
    piecesFrom find mask before first.length (first ++ rest) =
      piecesFrom find mask (lastOr before first) 0 rest := by
  induction first generalizing before with
  | nil => simp
  | cons c first inductionHypothesis =>
      rw [List.cons_append, List.length_cons, piecesFrom, inductionHypothesis, lastOr_cons]

theorem substituteFrom_append (before : Option α) (first rest : List α) :
    substituteFrom find before first.length (first ++ rest) =
      substituteFrom find (lastOr before first) 0 rest := by
  induction first generalizing before with
  | nil => simp
  | cons c first inductionHypothesis =>
      rw [List.cons_append, List.length_cons, substituteFrom, inductionHypothesis, lastOr_cons]

/-- The scan goes on after a match. -/
theorem MaskedAt.piecesFrom {before : Option α} {head value rest : List α}
    (matched : MaskedAt find mask before head value rest) :
    piecesFrom find mask before 0 (head ++ (value ++ rest)) =
      head.map .kept ++
        .masked value :: piecesFrom find mask (lastOr before (head ++ value)) 0 rest := by
  obtain ⟨found, nonempty, _⟩ := matched
  obtain ⟨c, body, headEq⟩ := List.exists_cons_of_ne_nil nonempty
  have whole : head ++ (value ++ rest) = c :: (body ++ value ++ rest) := by simp [headEq]
  have kept : (head ++ mask).take ((head ++ mask).length - mask.length) = head := by simp
  have hidden : ((head ++ (value ++ rest)).take (head ++ value).length).drop head.length =
      value := by
    rw [← List.append_assoc, List.take_left' rfl, List.drop_left' rfl]
  have skip : (head ++ value).length - 1 = (body ++ value).length := by simp [headEq]
  have last : lastOr (some c) (body ++ value) = lastOr before (head ++ value) := by
    rw [headEq, List.cons_append, lastOr_cons]
  rw [whole, Encoding.piecesFrom, ← whole, found]
  simp only [kept, hidden, skip, piecesFrom_append, last]

theorem MaskedAt.substituteFrom {before : Option α} {head value rest : List α}
    (matched : MaskedAt find mask before head value rest) :
    substituteFrom find before 0 (head ++ (value ++ rest)) =
      head ++ mask ++ substituteFrom find (lastOr before (head ++ value)) 0 rest := by
  obtain ⟨found, nonempty, _⟩ := matched
  obtain ⟨c, body, headEq⟩ := List.exists_cons_of_ne_nil nonempty
  have whole : head ++ (value ++ rest) = c :: (body ++ value ++ rest) := by simp [headEq]
  have skip : (head ++ value).length - 1 = (body ++ value).length := by simp [headEq]
  have last : lastOr (some c) (body ++ value) = lastOr before (head ++ value) := by
    rw [headEq, List.cons_append, lastOr_cons]
  rw [whole, Encoding.substituteFrom, ← whole, found]
  simp only [skip, substituteFrom_append, last]

/-- The scan of a text into its pieces. -/
inductive Scan (find : Option α → List α → Option (Replacement α)) (mask : List α) :
    Option α → List (Piece α) → Prop where
  | nil (before : Option α) : Scan find mask before []
  | kept {before : Option α} {c : α} {pieces : List (Piece α)}
      (silent : find before (c :: source pieces) = none)
      (rest : Scan find mask (some c) pieces) : Scan find mask before (.kept c :: pieces)
  | masked {before : Option α} {head value : List α} {pieces : List (Piece α)}
      (matched : MaskedAt find mask before head value (source pieces))
      (rest : Scan find mask (lastOr before (head ++ value)) pieces) :
      Scan find mask before (head.map .kept ++ .masked value :: pieces)

/-- A pattern that masks values leaves the pieces of the text, and the substitution
shows them. -/
theorem scan_piecesFrom (masks : Masks find mask) (before : Option α) (text : List α) :
    Scan find mask before (piecesFrom find mask before 0 text) ∧
      source (piecesFrom find mask before 0 text) = text ∧
        shown mask (piecesFrom find mask before 0 text) = substituteFrom find before 0 text := by
  induction length : text.length using Nat.strongRecOn generalizing before text with
  | ind size inductionHypothesis =>
      cases text with
      | nil => exact ⟨.nil before, rfl, by simp [substituteFrom, piecesFrom]⟩
      | cons c rest =>
          cases found : find before (c :: rest) with
          | none =>
              obtain ⟨scan, text, shows⟩ :=
                inductionHypothesis rest.length (by simp [← length]) (some c) rest rfl
              rw [piecesFrom, found, substituteFrom, found]
              refine ⟨.kept (by rw [text]; exact found) scan, ?_, ?_⟩
              · simp [text]
              · simp [shows]
          | some replacement =>
              obtain ⟨head, value, after, textEq, matched, _⟩ := masks before _ replacement found
              have nonempty := List.length_pos_iff.mpr matched.head
              have shorter : after.length < size := by
                rw [← length, textEq]
                simp only [List.length_append]
                omega
              obtain ⟨scan, text, shows⟩ := inductionHypothesis after.length shorter
                (lastOr before (head ++ value)) after rfl
              rw [textEq, matched.piecesFrom, matched.substituteFrom]
              refine ⟨.masked (text.symm ▸ matched) scan, ?_, ?_⟩
              · simp [text]
              · simp [shows]

/-! ## The pieces around a position -/

section Positions

variable {before : Option α} {first second : List (Piece α)} {c : α} {value : List α}

/-- A masked value follows its head. -/
theorem Scan.head_of_masked (scan : Scan find mask before (first ++ .masked value :: second)) :
    ∃ start head, first = start ++ head.map .kept ∧
      MaskedAt find mask (lastOr before (source start)) head value (source second) := by
  generalize equal : first ++ .masked value :: second = pieces at scan
  induction scan generalizing first with
  | nil => simp at equal
  | @kept before d pieces silent rest inductionHypothesis =>
      cases first with
      | nil => simp at equal
      | cons piece first =>
          simp only [List.cons_append, List.cons.injEq] at equal
          obtain ⟨rfl, equal⟩ := equal
          obtain ⟨start, head, rfl, matched⟩ := inductionHypothesis equal
          exact ⟨.kept d :: start, head, rfl, by simpa [lastOr_cons] using matched⟩
  | @masked before head other pieces matched rest inductionHypothesis =>
      rcases List.append_eq_append_iff.mp equal with ⟨more, headEq, restEq⟩ | ⟨more, firstEq, restEq⟩
      · cases more with
        | nil =>
            simp only [List.nil_append, List.cons.injEq, Piece.masked.injEq] at restEq
            obtain ⟨rfl, rfl⟩ := restEq
            exact ⟨[], head, by simpa using headEq.symm, by simpa using matched⟩
        | cons piece more =>
            simp only [List.cons_append, List.cons.injEq] at restEq
            have member : Piece.masked value ∈ head.map Piece.kept := by
              rw [headEq, ← restEq.1]
              simp
            simp at member
      · cases more with
        | nil =>
            simp only [List.nil_append, List.cons.injEq, Piece.masked.injEq] at restEq
            obtain ⟨rfl, rfl⟩ := restEq
            exact ⟨[], head, by simpa using firstEq, by simpa using matched⟩
        | cons piece more =>
            simp only [List.cons_append, List.cons.injEq] at restEq
            obtain ⟨rfl, restEq⟩ := restEq
            obtain ⟨start, inner, rfl, matchedInner⟩ := inductionHypothesis restEq.symm
            refine ⟨head.map .kept ++ .masked other :: start, inner, by simp [firstEq], ?_⟩
            simpa [lastOr_append] using matchedInner

/-- A kept character does not begin a match, or it is in the head of one. -/
theorem Scan.silent_of_kept (scan : Scan find mask before (first ++ .kept c :: second)) :
    find (lastOr before (source first)) (c :: source second) = none ∨
      ∃ start left right value rest, first = start ++ left.map .kept ∧
        .kept c :: second = right.map .kept ++ .masked value :: rest ∧
          MaskedAt find mask (lastOr before (source start)) (left ++ right) value (source rest) := by
  generalize equal : first ++ .kept c :: second = pieces at scan
  induction scan generalizing first with
  | nil => simp at equal
  | @kept before d pieces silent rest inductionHypothesis =>
      cases first with
      | nil =>
          simp only [List.nil_append, List.cons.injEq, Piece.kept.injEq] at equal
          obtain ⟨rfl, rfl⟩ := equal
          exact Or.inl (by simpa using silent)
      | cons piece first =>
          simp only [List.cons_append, List.cons.injEq] at equal
          obtain ⟨rfl, equal⟩ := equal
          rcases inductionHypothesis equal with silent | ⟨start, left, right, value, rest, rfl, inside⟩
          · exact Or.inl (by simpa [lastOr_cons] using silent)
          · exact Or.inr ⟨.kept d :: start, left, right, value, rest, rfl,
              by simpa [lastOr_cons] using inside⟩
  | @masked before head value pieces matched rest inductionHypothesis =>
      rcases List.append_eq_append_iff.mp equal with ⟨more, headEq, restEq⟩ | ⟨more, firstEq, restEq⟩
      · obtain ⟨left, right, rfl, rfl, rfl⟩ := List.map_eq_append_iff.mp headEq
        exact Or.inr ⟨[], left, right, value, pieces, rfl, restEq, by simpa using matched⟩
      · cases more with
        | nil => simp at restEq
        | cons piece more =>
            simp only [List.cons_append, List.cons.injEq] at restEq
            obtain ⟨rfl, restEq⟩ := restEq
            rcases inductionHypothesis restEq.symm with
              silent | ⟨start, left, right, inner, after, rfl, inside⟩
            · exact Or.inl (by simpa [firstEq, lastOr_append] using silent)
            · exact Or.inr ⟨head.map .kept ++ .masked value :: start, left, right, inner, after,
                by simp [firstEq], by simpa [lastOr_append] using inside⟩

end Positions

/-! ## Texts that a pattern leaves as they are -/

/-- A match at the position replaces itself. -/
def Quiet (find : Option α → List α → Option (Replacement α)) (before : Option α)
    (text : List α) : Prop :=
  ∀ found, find before text = some found → found.text = text.take found.length

/-- Every match in a text replaces itself. -/
def Stable (find : Option α → List α → Option (Replacement α)) (text : List α) : Prop :=
  ∀ first second, text = first ++ second → Quiet find first.getLast? second

/-- A quiet match shows the mask already. -/
theorem Quiet.value_eq {before : Option α} {head value rest : List α}
    (quiet : Quiet find before (head ++ (value ++ rest)))
    (matched : MaskedAt find mask before head value rest) : value = mask := by
  have same := quiet _ matched.found
  rw [← List.append_assoc, List.take_left' rfl] at same
  exact (List.append_cancel_left same).symm

theorem substituteFrom_of_quiet (masks : Masks find mask) (before : Option α) (text : List α)
    (quiet : ∀ first second, text = first ++ second → Quiet find (lastOr before first) second) :
    substituteFrom find before 0 text = text := by
  induction length : text.length using Nat.strongRecOn generalizing before text with
  | ind size inductionHypothesis =>
      cases text with
      | nil => simp [substituteFrom]
      | cons c rest =>
          cases found : find before (c :: rest) with
          | none =>
              rw [substituteFrom, found]
              have tail := inductionHypothesis rest.length (by simp [← length]) (some c) rest
                (fun first second equal => by
                  have whole := quiet (c :: first) second (by rw [equal]; rfl)
                  rwa [lastOr_cons] at whole) rfl
              simp only [tail]
          | some replacement =>
              obtain ⟨head, value, after, textEq, matched, _⟩ := masks before _ replacement found
              have here := quiet [] (c :: rest) rfl
              rw [lastOr_nil, textEq] at here
              have nonempty := List.length_pos_iff.mpr matched.head
              have shorter : after.length < size := by
                rw [← length, textEq]
                simp only [List.length_append]
                omega
              have tail := inductionHypothesis after.length shorter (lastOr before (head ++ value))
                after (fun first second equal => by
                  have whole := quiet (head ++ value ++ first) second (by
                    rw [textEq, equal]
                    simp)
                  rwa [lastOr_append] at whole) rfl
              rw [textEq, matched.substituteFrom, tail, here.value_eq matched]
              simp

theorem substitute_of_stable (masks : Masks find mask) {text : List α} (stable : Stable find text) :
    substitute find text = text :=
  substituteFrom_of_quiet masks none text fun first second equal => by
    have quiet := stable first second equal
    rwa [lastOr, Option.or_none]

end OhanaAgent.Encoding
