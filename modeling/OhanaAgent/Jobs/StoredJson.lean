import OhanaAgent.Encoding.JsonStrings
import OhanaAgent.Privacy.SessionPaths

/-!
# Reading stored results through the session mask

`_stored_json` masks the encoded text of a stored result and decodes the
masked text.  Inside the text a run of session characters is not always the
run of the decoded string: a double quote and the ASCII control white space
end the decoded run, but their encoded form starts with a backslash, which is
a session character.

`Broken` names the strings where this happens.  Off them masking the text is
masking the strings; on them no reader can return the masked string, because a
masked text never holds an escape right after a session.
-/

namespace OhanaAgent.Jobs

open OhanaAgent.Encoding.Json
open OhanaAgent.Privacy

/-- `DistributedJobRepository._json`. -/
def json (value : Value) : Text :=
  dumps value

/-- `_stored_json`: decode a stored result, masking camera sessions. -/
def storedJson (text : Text) : Option Value :=
  loads (redactSessionPaths text)

/-- A character that ends a session and that the writer escapes. -/
def EscapedEnd (c : Char) : Prop :=
  endsSession c = true ∧ escapeChar c ≠ [c]

instance (c : Char) : Decidable (EscapedEnd c) :=
  inferInstanceAs (Decidable (_ ∧ _))

/-- A session marker followed by a possibly empty run that an escaped
character ends. -/
def Broken (content : Text) : Prop :=
  ∃ before marker run c after, content = before ++ (marker ++ (run ++ c :: after)) ∧
    isMarker marker = true ∧ (∀ d ∈ run, endsSession d = false) ∧ EscapedEnd c

theorem Broken.append {content : Text} (first : Text) (broken : Broken content) :
    Broken (first ++ content) := by
  obtain ⟨before, marker, run, c, after, rfl, rest⟩ := broken
  exact ⟨first ++ before, marker, run, c, after, by simp, rest⟩

/-! ## Escapes and session characters -/

/-- The writer keeps a character, or writes an escape that starts with a
backslash. -/
theorem escapeChar_cases (c : Char) :
    escapeChar c = [c] ∨ ∃ tail, escapeChar c = '\\' :: tail := by
  unfold escapeChar
  split_ifs
  all_goals first
    | exact Or.inr ⟨_, rfl⟩
    | exact Or.inl rfl

theorem hexDigit_session : ∀ n, n < 16 → endsSession (hexDigit n) = false ∧ hexDigit n ≠ '/' := by
  decide

/-- No escape but that of a double quote holds a character that ends a
session. -/
theorem endsSession_of_mem_escape {c d : Char} (quote : c ≠ '\x22') (escaped : escapeChar c ≠ [c])
    (member : d ∈ escapeChar c) : endsSession d = false := by
  unfold escapeChar at member escaped
  rw [if_neg quote] at member escaped
  split_ifs at member escaped with backslash newline carriage tab feed back control
  · simp only [List.mem_cons, List.not_mem_nil, or_false, or_self] at member
    exact member ▸ by decide
  · rcases List.mem_cons.mp member with rfl | rest
    · decide
    · exact List.mem_singleton.mp rest ▸ by decide
  · rcases List.mem_cons.mp member with rfl | rest
    · decide
    · exact List.mem_singleton.mp rest ▸ by decide
  · rcases List.mem_cons.mp member with rfl | rest
    · decide
    · exact List.mem_singleton.mp rest ▸ by decide
  · rcases List.mem_cons.mp member with rfl | rest
    · decide
    · exact List.mem_singleton.mp rest ▸ by decide
  · rcases List.mem_cons.mp member with rfl | rest
    · decide
    · exact List.mem_singleton.mp rest ▸ by decide
  · simp only [List.mem_cons, List.not_mem_nil, or_false] at member
    rcases member with rfl | rfl | rfl | rfl | rfl | rfl
    · decide
    · decide
    · decide
    · decide
    · exact (hexDigit_session _ (by omega)).1
    · exact (hexDigit_session _ (by omega)).1
  · exact absurd rfl escaped

/-- The escape of a session character is made of session characters. -/
theorem endsSession_escapeChar {c d : Char} (inside : endsSession c = false)
    (member : d ∈ escapeChar c) : endsSession d = false := by
  have quote : c ≠ '\x22' := by
    rintro rfl
    exact absurd inside (by decide)
  by_cases written : escapeChar c = [c]
  · rw [written] at member
    exact List.mem_singleton.mp member ▸ inside
  · exact endsSession_of_mem_escape quote written member

theorem slash_not_mem_escapeChar {c : Char} (other : c ≠ '/') : '/' ∉ escapeChar c := by
  intro member
  unfold escapeChar at member
  split_ifs at member with quote backslash newline carriage tab feed back control
  · exact absurd member (by decide)
  · exact absurd member (by decide)
  · exact absurd member (by decide)
  · exact absurd member (by decide)
  · exact absurd member (by decide)
  · exact absurd member (by decide)
  · exact absurd member (by decide)
  · have high := (hexDigit_session (c.toNat / 16) (by omega)).2
    have low := (hexDigit_session (c.toNat % 16) (by omega)).2
    simp [high.symm, low.symm] at member
  · exact other (List.mem_singleton.mp member).symm

theorem endsSession_escape {run : Text} (inside : ∀ c ∈ run, endsSession c = false) :
    ∀ d ∈ escape run, endsSession d = false := by
  intro d member
  obtain ⟨c, cMember, dMember⟩ := List.mem_flatMap.mp member
  exact endsSession_escapeChar (inside c cMember) dMember

theorem escape_ne_nil {run : Text} (nonempty : run ≠ []) : escape run ≠ [] := by
  cases run with
  | nil => exact absurd rfl nonempty
  | cons c run =>
      obtain ⟨head, tail, equal, _⟩ := escapeChar_eq_cons c
      simp [equal]

theorem escape_eq_self {content : Text} (plain : ∀ c ∈ content, escapeChar c = [c]) :
    escape content = content := by
  induction content with
  | nil => rfl
  | cons c content ih =>
      rw [escape_cons, plain c List.mem_cons_self,
        ih fun d member => plain d (List.mem_cons_of_mem c member)]
      rfl

/-- Markers are written as they are. -/
theorem escapeChar_of_mem_marker {marker : Text} (found : isMarker marker = true) :
    ∀ c ∈ marker, escapeChar c = [c] := by
  unfold isMarker at found
  split at found
  · simp only [Bool.and_eq_true, Bool.or_eq_true, beq_iff_eq] at found
    obtain ⟨⟨⟨⟨⟨rfl, b⟩, c⟩, d⟩, e⟩, rfl⟩ := found
    rcases b with (rfl | rfl) | rfl <;> rcases c with rfl | rfl <;> rcases d with rfl | rfl <;>
      rcases e with (rfl | rfl) | rfl <;> decide
  · contradiction

theorem escape_redacted : escape redacted = redacted := by
  decide

/-- Text that is written as it is, at the head of an encoded string, is the
head of the string. -/
theorem escape_eq_append {first content rest after : Text}
    (plain : ∀ c ∈ first, escapeChar c = [c])
    (equal : escape content ++ '\x22' :: rest = first ++ after) :
    ∃ more, content = first ++ more ∧ after = escape more ++ '\x22' :: rest := by
  induction first generalizing content with
  | nil => exact ⟨content, rfl, equal.symm⟩
  | cons c first ih =>
      have kept : escapeChar c = [c] := plain c List.mem_cons_self
      cases content with
      | nil =>
          have quote : '\x22' = c := (List.cons.inj equal).1
          subst quote
          exact absurd kept (by decide)
      | cons d content =>
          rcases escapeChar_cases d with written | ⟨tail, written⟩
          · rw [escape_cons, written] at equal
            simp only [List.cons_append, List.nil_append, List.cons.injEq] at equal
            obtain ⟨more, contentEq, afterEq⟩ :=
              ih (fun e member => plain e (List.mem_cons_of_mem c member)) equal.2
            exact ⟨more, by rw [contentEq, equal.1, List.cons_append], afterEq⟩
          · rw [escape_cons, written] at equal
            have backslash : '\\' = c := (List.cons.inj equal).1
            subst backslash
            exact absurd kept (by decide)

/-! ## Masking the text is masking the strings -/

/-- What follows a run in an encoded string ends it, unless the string is
broken there. -/
theorem ended_escape {content rest : Text} (ended : Ended content)
    (clean : ∀ c tail, content = c :: tail → ¬ EscapedEnd c) :
    Ended (escape content ++ '\x22' :: rest) := by
  cases content with
  | nil => exact ended_cons rfl
  | cons c tail =>
      have ends := ended c tail rfl
      have written : escapeChar c = [c] := by
        by_contra other
        exact clean c tail rfl ⟨ends, other⟩
      rw [escape_cons, written]
      exact ended_cons ends

theorem redact_quote (rest : Text) :
    redactSessionPaths ('\x22' :: rest) = '\x22' :: redactSessionPaths rest :=
  redact_cons_of_ne (by decide) rest

/-- Masking an encoded string that is not broken encodes the masked string. -/
theorem redact_escape (content rest : Text) (clean : ¬ Broken content) :
    redactSessionPaths (escape content ++ '\x22' :: rest) =
      escape (redactSessionPaths content) ++ '\x22' :: redactSessionPaths rest := by
  induction content using redact_induction with
  | nil => exact redact_quote rest
  | matched marker run after found nonempty inside ended ih =>
      have markerText : escape marker = marker := escape_eq_self (escapeChar_of_mem_marker found)
      have encodedEnded : Ended (escape after ++ '\x22' :: rest) :=
        ended_escape ended fun c tail equal escaped =>
          clean ⟨[], marker, run, c, tail, by simp [equal], found, inside, escaped⟩
      have cleanAfter : ¬ Broken after := by
        intro broken
        apply clean
        simpa using broken.append (marker ++ run)
      rw [escape_append, escape_append, markerText, List.append_assoc, List.append_assoc,
        redact_match found (escape_ne_nil nonempty) (endsSession_escape inside) encodedEnded,
        redact_match found nonempty inside ended, ih cleanAfter, escape_append, escape_append,
        markerText, escape_redacted]
      simp
  | copied c after absent ih =>
      have cleanAfter : ¬ Broken after := fun broken => clean (broken.append [c])
      rw [redact_cons_of_none absent, escape_cons, escape_cons, List.append_assoc]
      by_cases slash : c = '/'
      · subst slash
        have written : escapeChar '/' = ['/'] := by decide
        have encodedAbsent :
            sessionMatch ('/' :: (escape after ++ '\x22' :: rest)) = none := by
          cases matched : sessionMatch ('/' :: (escape after ++ '\x22' :: rest)) with
          | none => rfl
          | some parts =>
              -- A match of the text has its marker in the string; the run that
              -- follows it in the text is the one the string does not have.
              obtain ⟨tail, textEq, found, nonempty, inside, _⟩ := sessionMatch_eq_some matched
              have plain := escapeChar_of_mem_marker found
              obtain ⟨letters, markerEq, _⟩ := isMarker_eq_cons found
              rw [markerEq] at textEq plain found
              obtain ⟨more, afterEq, runEq⟩ := escape_eq_append
                (fun d member => plain d (List.mem_cons_of_mem _ member))
                (List.cons.inj textEq).2
              have ended : Ended more := by
                apply ended_of_sessionMatch_eq_none found
                rw [List.cons_append, ← afterEq]
                exact absent
              have encodedEnded : Ended (escape more ++ '\x22' :: rest) :=
                ended_escape ended fun d others equal escaped =>
                  clean ⟨[], '/' :: letters, [], d, others, by simp [afterEq, equal], found,
                    by simp, escaped⟩
              cases run : parts.2 with
              | nil => exact absurd run nonempty
              | cons d others =>
                  rw [← runEq, run] at encodedEnded
                  have ends := encodedEnded d (others ++ tail) rfl
                  rw [run] at inside
                  simp [inside d List.mem_cons_self] at ends
        rw [written, List.singleton_append, redact_cons_of_none encodedAbsent, ih cleanAfter]
        rfl
      · rw [redact_append_of_not_mem (slash_not_mem_escapeChar slash), ih cleanAfter,
          List.append_assoc]

theorem slash_not_mem_atom (literal : Atom) : '/' ∉ literal.text := by
  cases literal <;> decide

theorem slash_not_mem_number (number : Number) : '/' ∉ number.token := by
  intro member
  have inside := isNumberToken_all number.wellFormed '/' member
  exact absurd inside (by decide)

mutual

theorem redact_render : ∀ (value : Value) (rest : Text), (∀ s ∈ strings value, ¬ Broken s) →
    redactSessionPaths (render value ++ rest) =
      render (mapStrings redactSessionPaths value) ++ redactSessionPaths rest
  | .atom literal, rest, _ => by
      rw [mapStrings, render, redact_append_of_not_mem (slash_not_mem_atom literal)]
  | .number number, rest, _ => by
      rw [mapStrings, render, redact_append_of_not_mem (slash_not_mem_number number)]
  | .string content, rest, clean => by
      have cleanContent : ¬ Broken content := clean content (by simp [strings])
      simp [mapStrings, render, redact_quote, redact_escape _ _ cleanContent]
  | .array items, rest, clean => by
      have read := redact_renderItems items (']' :: rest) clean
      have bracket : redactSessionPaths (']' :: rest) = ']' :: redactSessionPaths rest :=
        redact_cons_of_ne (by decide) rest
      simp only [mapStrings, render, List.cons_append, List.append_assoc, List.nil_append]
      rw [redact_cons_of_ne (by decide), read, bracket]
  | .object fields, rest, clean => by
      have read := redact_renderFields fields ('\x7d' :: rest) clean
      have brace : redactSessionPaths ('\x7d' :: rest) = '\x7d' :: redactSessionPaths rest :=
        redact_cons_of_ne (by decide) rest
      simp only [mapStrings, render, List.cons_append, List.append_assoc, List.nil_append]
      rw [redact_cons_of_ne (by decide), read, brace]

theorem redact_renderItems : ∀ (items : Items) (rest : Text),
    (∀ s ∈ stringsItems items, ¬ Broken s) →
    redactSessionPaths (renderItems items ++ rest) =
      renderItems (mapItems redactSessionPaths items) ++ redactSessionPaths rest
  | .nil, rest, _ => rfl
  | .cons head .nil, rest, clean => by
      simp only [renderItems, mapItems]
      exact redact_render head rest fun s member => clean s (List.mem_append_left _ member)
  | .cons head (.cons next tail), rest, clean => by
      have readHead := redact_render head (',' :: (renderItems (.cons next tail) ++ rest))
        fun s member => clean s (List.mem_append_left _ member)
      have readTail := redact_renderItems (.cons next tail) rest
        fun s member => clean s (List.mem_append_right _ member)
      simp only [renderItems, mapItems, List.append_assoc, List.cons_append] at readTail ⊢
      rw [readHead, redact_cons_of_ne (by decide), readTail]

theorem redact_renderFields : ∀ (fields : Fields) (rest : Text),
    (∀ s ∈ stringsFields fields, ¬ Broken s) →
    redactSessionPaths (renderFields fields ++ rest) =
      renderFields (mapFields redactSessionPaths fields) ++ redactSessionPaths rest
  | .nil, rest, _ => rfl
  | .cons key value .nil, rest, clean => by
      have cleanKey : ¬ Broken key := clean key List.mem_cons_self
      have readValue := redact_render value rest fun s member =>
        clean s (List.mem_cons_of_mem _ (List.mem_append_left _ member))
      simp only [renderFields, mapFields, List.cons_append, List.append_assoc]
      rw [redact_quote, redact_escape _ _ cleanKey, redact_cons_of_ne (by decide), readValue]
  | .cons key value (.cons next content others), rest, clean => by
      have cleanKey : ¬ Broken key := clean key List.mem_cons_self
      have readValue := redact_render value
        (',' :: (renderFields (.cons next content others) ++ rest)) fun s member =>
          clean s (List.mem_cons_of_mem _ (List.mem_append_left _ member))
      have readRest := redact_renderFields (.cons next content others) rest fun s member =>
        clean s (List.mem_cons_of_mem _ (List.mem_append_right _ member))
      simp only [renderFields, mapFields, List.cons_append, List.append_assoc] at readRest ⊢
      rw [redact_quote, redact_escape _ _ cleanKey, redact_cons_of_ne (by decide), readValue,
        redact_cons_of_ne (by decide), readRest]

end

/-! ## Broken strings survive the mask -/

/-- The first occurrence of a character lies after a text without it. -/
theorem append_eq_append_cons {c : Char} {first rest before after : Text} (plain : c ∉ first)
    (equal : first ++ rest = before ++ c :: after) :
    ∃ more, before = first ++ more ∧ rest = more ++ c :: after := by
  rcases List.append_eq_append_iff.mp equal with ⟨more, beforeEq, restEq⟩ | ⟨more, firstEq, tailEq⟩
  · exact ⟨more, beforeEq, restEq⟩
  · cases more with
    | nil => exact ⟨[], by simpa using firstEq.symm, by simpa using tailEq.symm⟩
    | cons d more =>
        have same : c = d := (List.cons.inj tailEq).1
        exact absurd (by simp [firstEq, same]) plain

theorem EscapedEnd.ne_slash {c : Char} (escaped : EscapedEnd c) : c ≠ '/' := by
  rintro rfl
  exact escaped.2 (by decide)

theorem slash_not_mem_run {run : Text} (inside : ∀ c ∈ run, endsSession c = false) :
    '/' ∉ run := by
  intro member
  exact absurd (inside '/' member) (by decide)

/-- Two markers at the head of one text are the same. -/
theorem marker_append_inj {first second rest after : Text} (firstFound : isMarker first = true)
    (secondFound : isMarker second = true) (equal : first ++ rest = second ++ after) :
    first = second ∧ rest = after :=
  List.append_inj equal ((isMarker_length firstFound).trans (isMarker_length secondFound).symm)

/-- Masking a broken string leaves a broken string. -/
theorem Broken.redact {content : Text} (broken : Broken content) :
    Broken (redactSessionPaths content) := by
  induction content using redact_induction with
  | nil => exact broken
  | matched marker run rest found nonempty inside ended ih =>
      rw [redact_match found nonempty inside ended]
      obtain ⟨before, other, session, c, after, equal, otherFound, sessionInside, escaped⟩ := broken
      cases before with
      | nil =>
          obtain ⟨rfl, runEq⟩ := marker_append_inj found otherFound equal
          have sameRun : run = session := by
            rw [← sessionRun_append inside ended, runEq,
              sessionRun_append sessionInside (ended_cons escaped.1)]
          subst sameRun
          have restEq : rest = c :: after := List.append_cancel_left runEq
          rw [restEq, redact_cons_of_ne escaped.ne_slash, List.append_assoc]
          exact ⟨[], marker, redacted, c, _, rfl, found, by decide, escaped⟩
      | cons d before =>
          obtain ⟨letters, rfl, _, plain⟩ := isMarker_eq_cons found
          obtain ⟨others, rfl, _, _⟩ := isMarker_eq_cons otherFound
          have clear : '/' ∉ letters ++ run := by
            simp [plain, slash_not_mem_run inside]
          have tailEq : (letters ++ run) ++ rest =
              before ++ '/' :: (others ++ (session ++ c :: after)) := by
            simpa using (List.cons.inj equal).2
          obtain ⟨more, _, restEq⟩ := append_eq_append_cons clear tailEq
          exact (ih ⟨more, _, session, c, after, by simpa using restEq, otherFound, sessionInside,
            escaped⟩).append _
  | copied d rest absent ih =>
      rw [redact_cons_of_none absent]
      obtain ⟨before, marker, run, c, after, equal, found, inside, escaped⟩ := broken
      cases before with
      | nil =>
          rw [List.nil_append] at equal
          rw [equal] at absent
          have ended := ended_of_sessionMatch_eq_none found absent
          obtain ⟨letters, rfl, _, plain⟩ := isMarker_eq_cons found
          rw [List.cons_append] at equal
          obtain ⟨rfl, restEq⟩ := List.cons.inj equal
          cases run with
          | nil =>
              rw [restEq, redact_append_of_not_mem plain, List.nil_append,
                redact_cons_of_ne escaped.ne_slash]
              exact ⟨[], '/' :: letters, [], c, _, rfl, found, inside, escaped⟩
          | cons e run =>
              have ends := ended e _ rfl
              simp [inside e List.mem_cons_self] at ends
      | cons e before =>
          have restEq := (List.cons.inj equal).2
          exact (ih ⟨before, marker, run, c, after, restEq, found, inside, escaped⟩).append [d]

/-! ## What a masked text can hold -/

/-- No session of the text holds a backslash. -/
def Quiet (text : Text) : Prop :=
  ∀ before marker rest, text = before ++ (marker ++ rest) → isMarker marker = true →
    '\\' ∉ sessionRun rest

theorem Quiet.of_append {first text : Text} (quiet : Quiet (first ++ text)) : Quiet text := by
  intro before marker rest equal found
  exact quiet (first ++ before) marker rest (by simp [equal]) found

/-- Every session of a masked text is the mask. -/
theorem quiet_redact (text : Text) : Quiet (redactSessionPaths text) := by
  induction text using redact_induction with
  | nil =>
      intro before marker rest equal found
      obtain ⟨letters, rfl, _⟩ := isMarker_eq_cons found
      simp at equal
  | matched marker run rest found nonempty inside ended ih =>
      rw [redact_match found nonempty inside ended]
      intro before other after equal otherFound
      cases before with
      | nil =>
          rw [List.append_assoc] at equal
          obtain ⟨_, afterEq⟩ := marker_append_inj found otherFound equal
          rw [← afterEq, sessionRun_append (by decide) ended.redact]
          decide
      | cons d before =>
          obtain ⟨letters, rfl, _, plain⟩ := isMarker_eq_cons found
          obtain ⟨others, rfl, _, _⟩ := isMarker_eq_cons otherFound
          have maskPlain : '/' ∉ redacted := by decide
          have clear : '/' ∉ letters ++ redacted := by simp [plain, maskPlain]
          have tailEq : (letters ++ redacted) ++ redactSessionPaths rest =
              before ++ '/' :: (others ++ after) := by
            simpa using (List.cons.inj equal).2
          obtain ⟨more, _, restEq⟩ := append_eq_append_cons clear tailEq
          exact ih more _ after (by simpa using restEq) otherFound
  | copied c rest absent ih =>
      rw [redact_cons_of_none absent]
      intro before marker after equal found
      cases before with
      | nil =>
          obtain ⟨letters, rfl, _, plain⟩ := isMarker_eq_cons found
          obtain ⟨rfl, tailEq⟩ := List.cons.inj equal
          obtain ⟨source, rfl, rfl⟩ := redact_eq_append plain tailEq
          have ended := ended_of_sessionMatch_eq_none found absent
          simp [ended.redact.sessionRun_eq]
      | cons d before => exact ih before marker after (List.cons.inj equal).2 found

/-- Texts in which every backslash starts an escape of the writer. -/
inductive Aligned : Text → Prop
  | nil : Aligned []
  | raw {c : Char} {rest : Text} (plain : c ≠ '\\') (aligned : Aligned rest) : Aligned (c :: rest)
  | escaped {c : Char} {rest : Text} (written : escapeChar c ≠ [c]) (aligned : Aligned rest) :
      Aligned (escapeChar c ++ rest)

namespace Aligned

theorem plain_append {first rest : Text} (plain : '\\' ∉ first) (aligned : Aligned rest) :
    Aligned (first ++ rest) := by
  induction first with
  | nil => exact aligned
  | cons c first ih =>
      simp only [List.mem_cons, not_or] at plain
      exact .raw (Ne.symm plain.1) (ih plain.2)

theorem escape_append (content : Text) {rest : Text} (aligned : Aligned rest) :
    Aligned (escape content ++ rest) := by
  induction content with
  | nil => exact aligned
  | cons c content ih =>
      rw [escape_cons, List.append_assoc]
      by_cases written : escapeChar c = [c]
      · rw [written]
        refine .raw ?_ ih
        rintro rfl
        exact absurd written (by decide)
      · exact .escaped written ih

/-- A character that starts no escape can be read off. -/
theorem tail {c : Char} {rest : Text} (aligned : Aligned (c :: rest)) (plain : c ≠ '\\') :
    Aligned rest := by
  generalize equal : c :: rest = text at aligned
  cases aligned with
  | nil => contradiction
  | raw _ aligned => exact (List.cons.inj equal).2 ▸ aligned
  | @escaped d others written aligned =>
      rcases escapeChar_cases d with kept | ⟨letters, kept⟩
      · exact absurd kept written
      · rw [kept] at equal
        exact absurd (List.cons.inj equal).1 plain

/-- A text stays aligned from a character that ends a session on. -/
theorem of_ended {first rest : Text} {c : Char} (ends : endsSession c = true)
    (aligned : Aligned (first ++ c :: rest)) : Aligned (c :: rest) := by
  generalize equal : first ++ c :: rest = text at aligned
  induction aligned generalizing first with
  | nil => simp at equal
  | @raw d others plain aligned ih =>
      cases first with
      | nil =>
          rw [List.nil_append] at equal
          rw [equal]
          exact .raw plain aligned
      | cons e first => exact ih (List.cons.inj equal).2
  | @escaped d others written aligned ih =>
      rcases List.append_eq_append_iff.mp equal with ⟨more, dEq, restEq⟩ | ⟨more, _, othersEq⟩
      · cases more with
        | nil =>
            rw [List.nil_append] at restEq
            rw [restEq]
            exact aligned
        | cons e more =>
            obtain ⟨rfl, restEq⟩ := List.cons.inj restEq
            have member : c ∈ escapeChar d := by simp [dEq]
            by_cases quote : d = '\x22'
            · -- The only escape that holds such a character has it last.
              subst quote
              have shape : first ++ c :: more = ['\\', '\x22'] := dEq.symm
              have moreEq : more = [] := by
                cases first with
                | nil =>
                    rw [(List.cons.inj shape).1] at ends
                    exact absurd ends (by decide)
                | cons e first =>
                    have total := congrArg List.length shape
                    simp only [List.length_append, List.length_cons, List.length_nil] at total
                    exact List.length_eq_zero_iff.mp (by omega)
              rw [restEq, moreEq]
              refine .raw ?_ aligned
              rintro rfl
              exact absurd ends (by decide)
            · rw [endsSession_of_mem_escape quote written member] at ends
              contradiction
      · exact ih othersEq.symm

theorem redact {text : Text} (aligned : Aligned text) : Aligned (redactSessionPaths text) := by
  induction length : text.length using Nat.strong_induction_on generalizing text with
  | _ n ih =>
      subst length
      cases aligned with
      | nil => exact .nil
      | @raw c rest plain aligned =>
          cases found : sessionMatch (c :: rest) with
          | none =>
              rw [redact_cons_of_none found]
              exact .raw plain (ih rest.length (by simp) aligned rfl)
          | some parts =>
              obtain ⟨after, equal, marked, nonempty, inside, ended⟩ :=
                sessionMatch_eq_some found
              have alignedAfter : Aligned after := by
                cases after with
                | nil => exact .nil
                | cons d after =>
                    have whole : Aligned (c :: rest) := .raw plain aligned
                    rw [equal, ← List.append_assoc] at whole
                    exact whole.of_ended (ended d after rfl)
              have shorter : after.length < (c :: rest).length := by
                have markerLength := isMarker_length marked
                rw [equal]
                simp only [List.length_append]
                omega
              have kept := escapeChar_of_mem_marker marked
              have markerPlain : '\\' ∉ parts.1 := by
                intro member
                exact absurd (kept _ member) (by decide)
              rw [equal, redact_match marked nonempty inside ended, List.append_assoc]
              exact plain_append markerPlain
                (plain_append (by decide) (ih after.length shorter alignedAfter rfl))
      | @escaped c rest written aligned =>
          have slash : c ≠ '/' := by
            rintro rfl
            exact written (by decide)
          obtain ⟨head, tail, equal, _⟩ := escapeChar_eq_cons c
          have shorter : rest.length < (escapeChar c ++ rest).length := by
            rw [equal, List.length_append, List.length_cons]
            omega
          rw [redact_append_of_not_mem (slash_not_mem_escapeChar slash)]
          exact .escaped written (ih rest.length shorter aligned rfl)

/-- Reading a string of an aligned text gives back its encoding. -/
theorem scanString {text content rest : Text} (aligned : Aligned text)
    (found : Encoding.Json.scanString text = some (content, rest)) :
    text = escape content ++ '\x22' :: rest ∧ Aligned rest := by
  induction aligned generalizing content with
  | nil => simp [Encoding.Json.scanString, scanStringFrom] at found
  | @raw c others plain aligned ih =>
      by_cases quote : c = '\x22'
      · subst quote
        have parts : ([], others) = (content, rest) := by
          simpa [Encoding.Json.scanString, scanStringFrom] using found
        cases parts
        exact ⟨rfl, aligned⟩
      · by_cases written : escapeChar c = [c]
        · have joined := scanString_escapeChar_append c others
          rw [written, List.singleton_append, found] at joined
          obtain ⟨⟨more, after⟩, scanned, equal⟩ := Option.map_eq_some_iff.mp joined.symm
          cases equal
          obtain ⟨textEq, alignedRest⟩ := ih scanned
          exact ⟨by rw [escape_cons, written, textEq]; rfl, alignedRest⟩
        · -- A raw character the writer escapes is a control character, which
          -- the reader rejects.
          rw [scanString_control quote plain written] at found
          contradiction
  | @escaped c others written aligned ih =>
      rw [scanString_escapeChar_append] at found
      obtain ⟨⟨more, after⟩, scanned, equal⟩ := Option.map_eq_some_iff.mp found
      cases equal
      obtain ⟨textEq, alignedRest⟩ := ih scanned
      exact ⟨by rw [escape_cons, textEq, List.append_assoc], alignedRest⟩

end Aligned

mutual

theorem aligned_render : ∀ (value : Value) {rest : Text}, Aligned rest →
    Aligned (render value ++ rest)
  | .atom literal, rest, aligned => by
      rw [render]
      exact aligned.plain_append (by cases literal <;> decide)
  | .number number, rest, aligned => by
      rw [render]
      refine aligned.plain_append ?_
      intro member
      exact absurd (isNumberToken_all number.wellFormed _ member) (by decide)
  | .string content, rest, aligned => by
      rw [render, List.cons_append, List.append_assoc]
      exact .raw (by decide) (.escape_append content (.raw (by decide) aligned))
  | .array items, rest, aligned => by
      rw [render, List.cons_append, List.append_assoc]
      exact .raw (by decide) (aligned_renderItems items (.raw (by decide) aligned))
  | .object fields, rest, aligned => by
      rw [render, List.cons_append, List.append_assoc]
      exact .raw (by decide) (aligned_renderFields fields (.raw (by decide) aligned))

theorem aligned_renderItems : ∀ (items : Items) {rest : Text}, Aligned rest →
    Aligned (renderItems items ++ rest)
  | .nil, rest, aligned => aligned
  | .cons head .nil, rest, aligned => aligned_render head aligned
  | .cons head (.cons next tail), rest, aligned => by
      rw [renderItems, List.append_assoc, List.cons_append]
      exact aligned_render head
        (.raw (by decide) (aligned_renderItems (.cons next tail) aligned))

theorem aligned_renderFields : ∀ (fields : Fields) {rest : Text}, Aligned rest →
    Aligned (renderFields fields ++ rest)
  | .nil, rest, aligned => aligned
  | .cons key value .nil, rest, aligned => by
      rw [renderFields, List.cons_append, List.append_assoc, List.cons_append, List.cons_append]
      exact .raw (by decide) (.escape_append key (.raw (by decide)
        (.raw (by decide) (aligned_render value aligned))))
  | .cons key value (.cons next content others), rest, aligned => by
      have alignedRest := aligned_renderFields (.cons next content others) aligned
      rw [renderFields]
      simp only [List.cons_append, List.append_assoc]
      exact .raw (by decide) (.escape_append key (.raw (by decide)
        (.raw (by decide) (aligned_render value (.raw (by decide) alignedRest)))))

end

/-! ## Exactly when stored results are masked string by string -/

/-- A string read from a quiet text is not broken: the escape of the character
that ends its run would stand inside a session of the text. -/
theorem not_broken_of_quiet {content rest : Text}
    (quiet : Quiet (escape content ++ '\x22' :: rest)) : ¬ Broken content := by
  rintro ⟨before, marker, run, c, after, rfl, found, inside, escaped⟩
  obtain ⟨tail, written⟩ := (escapeChar_cases c).resolve_left escaped.2
  have markerText : escape marker = marker := escape_eq_self (escapeChar_of_mem_marker found)
  apply quiet (escape before) marker
    (escape run ++ '\\' :: (tail ++ (escape after ++ '\x22' :: rest))) _ found
  · rw [sessionRun, List.takeWhile_append_of_pos]
    · simp [endsSession, isWhitespace]
    · intro d member
      simp [endsSession_escape inside d member]
  · simp [escape_append, escape_cons, markerText, written]

/-- No string read from a masked text is broken. -/
theorem not_broken_of_storedJson {value read : Value} (found : storedJson (json value) = some read) :
    ∀ content ∈ strings read, ¬ Broken content := by
  have aligned : Aligned (render (sortKeys value)) := by
    simpa using aligned_render (sortKeys value) .nil
  refine @loads_strings (fun text => Aligned text ∧ Quiet text) (fun content => ¬ Broken content)
    ?_ ?_ _ _ found ⟨aligned.redact, quiet_redact _⟩
  · intro c rest plain ok
    exact ⟨ok.1.tail plain, @Quiet.of_append [c] rest ok.2⟩
  · intro text content rest ok scanned
    obtain ⟨rfl, alignedRest⟩ := ok.1.scanString scanned
    refine ⟨not_broken_of_quiet ok.2, alignedRest, ?_⟩
    have split : Quiet ((escape content ++ ['\x22']) ++ rest) := by simpa using ok.2
    exact split.of_append

/-- A stored result reads back as its masked strings exactly when no string is
broken and masking keeps the keys of every object apart. -/
theorem storedJson_json_eq_iff (value : Value) :
    storedJson (json value) = some (mapStrings redactSessionPaths (sortKeys value)) ↔
      (∀ content ∈ strings value, ¬ Broken content) ∧
        DistinctKeys (mapStrings redactSessionPaths value) := by
  constructor
  · intro found
    constructor
    · intro content member broken
      refine not_broken_of_storedJson found (redactSessionPaths content) ?_ broken.redact
      rw [strings_mapStrings]
      exact List.mem_map_of_mem ((mem_strings_sortKeys content value).mpr member)
    · exact (distinctKeys_mapStrings_sortKeys _ value).mp (loads_distinctKeys found)
  · rintro ⟨clean, distinct⟩
    have masked := redact_render (sortKeys value) [] fun content member =>
      clean content ((mem_strings_sortKeys content value).mp member)
    simp only [List.append_nil, redact_nil] at masked
    rw [storedJson, json, dumps, masked]
    exact loads_render ((distinctKeys_mapStrings_sortKeys _ value).mpr distinct)

/-- A `system.health` result with one issue. -/
def healthReport (message : String) : Value :=
  .object (.ofList [
    ("status".toList, .string "DEGRADED".toList),
    ("collected_at".toList, .string "2026-07-18T10:00:00Z".toList),
    ("platform".toList, .string "windows".toList),
    ("cpu_percent".toList, .number ⟨"1.0".toList, rfl⟩),
    ("memory_total_bytes".toList, .number ⟨"1".toList, rfl⟩),
    ("memory_available_bytes".toList, .number ⟨"0".toList, rfl⟩),
    ("disk_total_bytes".toList, .number ⟨"1".toList, rfl⟩),
    ("disk_free_bytes".toList, .number ⟨"0".toList, rfl⟩),
    ("temperature_c".toList, .atom .null),
    ("issues".toList, .array (.ofList [.object (.ofList [
      ("code".toList, .string "camera.session".toList),
      ("message".toList, .string message.toList)])]))])

/-- A session at the end of a line: the mask swallows the encoded line break
and the first word of the next line. -/
theorem storedJson_swallows_next_line :
    storedJson (json (healthReport "/stok=abc\nnext line")) =
        some (sortKeys (healthReport "/stok=[redacted] line")) ∧
      sortKeys (healthReport "/stok=[redacted] line") ≠
        mapStrings redactSessionPaths (sortKeys (healthReport "/stok=abc\nnext line")) := by
  decide +kernel

end OhanaAgent.Jobs
