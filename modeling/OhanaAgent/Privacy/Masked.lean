import OhanaAgent.Privacy.Heads

/-!
# What redaction leaves masked

Each of the four passes after the session paths, the session paths themselves
included, finds nothing more to mask in its own result.  No later pass uncovers a
session path or an authorization header, so that the whole redaction leaves none of
them unmasked.
-/

namespace OhanaAgent.Privacy

open OhanaAgent.Encoding
open OhanaAgent.Encoding.Json

/-- A pass leaves the pieces of its text. -/
theorem Shape.Describes.pieces {masking : Shape}
    {find : Option Char → Text → Option (Replacement Char)} (describes : masking.Describes find)
    (proper : masking.Proper) (text : Text) :
    ∃ pieces, Scan find masking.mask none pieces ∧ source pieces = text ∧
      shown masking.mask pieces = substitute find text :=
  ⟨_, scan_piecesFrom (describes.masks proper) none text⟩

theorem sessionShape_runs : ReadsRuns sessionShape isSessionChar :=
  ⟨fun _ _ => Iff.rfl, rfl, by
    intro c member
    revert c
    decide⟩

theorem redacted_isSecretChar : All isSecretChar redacted := by
  intro c member
  revert c
  decide

theorem authorizationShape_runs (unicode : Unicode) :
    ReadsRuns (authorizationShape unicode) isSecretChar :=
  ⟨fun _ _ => Iff.rfl, rfl, redacted_isSecretChar⟩

theorem redacted_guarded : Guarded redacted = true := by
  decide

theorem url_guarded : Guarded (redacted ++ ['@']) = true := by
  decide

theorem bearer_guarded : Guarded (' ' :: redacted) = true := by
  decide

section Passes

variable {masking earlier : Shape} {other find : Option Char → Text → Option (Replacement Char)}
  {pieces : List (Piece Char)} {unicode : Unicode}

/-- A pattern of runs is stable in a text that a later one masked. -/
theorem stable_run (describes : masking.Describes other) (proper : masking.Proper)
    (scan : Scan other masking.mask none pieces) {closes : Char → Char → Prop}
    (clear : Clear masking closes) (guarded : Guarded masking.mask = true)
    (finds : earlier.Describes find) (earlierProper : earlier.Proper) {allowed : Char → Bool}
    (runs : ReadsRuns earlier allowed)
    (opens : ∀ before head value rest, earlier.Reads before head value rest →
      Opens (head ++ (value ++ rest)))
    (gap : ∀ c tail value rest, earlier.IsHead (c :: tail) → masking.IsValue value (c :: rest) →
      earlier.bound value.getLast? = true)
    {bracket : Char} {tail : Text} (maskEq : masking.mask = bracket :: tail)
    (plain : ∀ head, earlier.IsHead head → bracket ∉ head)
    (unmasked : ∀ first head value second, earlier.IsHead head →
      pieces ≠ first ++ (head.map .kept ++ .masked value :: second))
    (stable : Stable find (source pieces)) : Stable find (shown masking.mask pieces) := by
  refine stable_shown describes proper scan finds earlierProper guarded opens gap ?_
  intro first second head value rest equal bound isHead shownEq isValue
  have filled := earlierProper.value value rest isValue
  rw [maskEq] at shownEq
  obtain ⟨left, rfl, shownLeft⟩ := kept_of_shown (plain head isHead) shownEq
  rw [← maskEq] at shownLeft
  cases left with
  | nil =>
      rw [shown_nil, List.nil_eq, List.append_eq_nil_iff] at shownLeft
      exact absurd shownLeft.1 filled
  | cons piece left =>
      cases piece with
      | masked hidden => exact absurd equal (unmasked first head hidden left isHead)
      | kept c =>
          exact run_masked describes scan clear finds earlierProper runs stable equal bound isHead
            shownLeft isValue

/-! ## Session paths -/

theorem session_not_masked (describes : masking.Describes other)
    (scan : Scan other masking.mask none pieces) {closes : Char → Char → Prop}
    (clear : Clear masking closes) (apart : ∀ a b, SessionEnds a b → ¬ closes a b)
    {first second : List (Piece Char)} {head value : Text} (isHead : sessionShape.IsHead head) :
    pieces ≠ first ++ (head.map .kept ++ .masked value :: second) :=
  not_masked_after describes scan clear.heads (session_ends isHead) apart

theorem session_bracket {head : Text} (isHead : sessionShape.IsHead head) : '[' ∉ head :=
  not_mem_of_all (session_tight isHead) rfl

theorem session_space {head : Text} (isHead : sessionShape.IsHead head) : ' ' ∉ head :=
  not_mem_of_all (session_tight isHead) rfl

theorem session_self {pieces : List (Piece Char)}
    (scan : Scan sessionPath redacted none pieces) : Stable sessionPath (shown redacted pieces) :=
  stable_self_run sessionShape_describes sessionShape_proper scan sessionShape_runs
    (fun _ _ _ _ => session_opens) (fun _ _ _ _ _ _ => rfl) (fun _ => session_bracket)
    fun _ _ _ _ whole isHead _ => session_alone whole isHead

/-- No head of another pattern ends as a session marker does. -/
theorem session_apart {a b : Char} (ends : SessionEnds a b) :
    ¬ UrlEnds a b ∧ ¬ BlankEnds a b ∧ ¬ BearerEnds a b ∧ ¬ SignEnds a b := by
  obtain ⟨kEq, rfl⟩ := ends
  refine ⟨fun slash => absurd slash.2 (by decide), fun blank => ?_,
    fun letters => absurd letters.2 (by decide), ?_⟩
  · have space : isWhitespace '=' = true := blank
    exact absurd space (by decide)
  rintro (blank | ⟨_, blank | letter⟩)
  · exact absurd blank (by decide)
  · rcases kEq with rfl | rfl | rfl <;> exact absurd blank (by decide)
  · rcases kEq with rfl | rfl | rfl <;> exact absurd letter (by decide)

theorem session_through (describes : masking.Describes other) (proper : masking.Proper)
    (scan : Scan other masking.mask none pieces) {closes : Char → Char → Prop}
    (clear : Clear masking closes) (apart : ∀ a b, SessionEnds a b → ¬ closes a b)
    (guarded : Guarded masking.mask = true) {tail : Text}
    (maskEq : masking.mask = '[' :: tail ∨ masking.mask = ' ' :: tail)
    (stable : Stable sessionPath (source pieces)) :
    Stable sessionPath (shown masking.mask pieces) := by
  have goes {bracket : Char} (maskEq : masking.mask = bracket :: tail)
      (plain : ∀ head, sessionShape.IsHead head → bracket ∉ head) :=
    stable_run describes proper scan clear guarded sessionShape_describes sessionShape_proper
      sessionShape_runs (fun _ _ _ _ => session_opens) (fun _ _ _ _ _ _ => rfl) maskEq plain
      (fun _ _ _ _ => session_not_masked describes scan clear apart) stable
  rcases maskEq with maskEq | maskEq
  · exact goes maskEq fun _ => session_bracket
  · exact goes maskEq fun _ => session_space

/-! ## URL authorities -/

theorem redacted_isUserChar : All isUserChar redacted := by
  intro c member
  revert c
  decide

theorem url_bracket {head : Text} (isHead : (urlShape unicode).IsHead head) : '[' ∉ head :=
  not_mem_of_all (url_tight isHead) rfl

/-- The user before an `@` that is still to come. -/
theorem user_of_prefix {user start more : Text} (all : All isUserChar user)
    (equal : user ++ ['@'] = start ++ more) (filled : more ≠ []) : All isUserChar start := by
  rcases List.append_eq_append_iff.mp equal with ⟨left, startEq, lastEq⟩ | ⟨left, userEq, _⟩
  · cases left with
    | nil =>
        rw [startEq, List.append_nil]
        exact all
    | cons c left =>
        have empty := (List.cons.inj lastEq).2
        exact absurd (List.append_eq_nil_iff.mp empty.symm).2 filled
  · rw [userEq] at all
    exact (all_append.mp all).1

theorem url_self {pieces : List (Piece Char)}
    (scan : Scan (urlUserinfo unicode) (urlShape unicode).mask none pieces) :
    Stable (urlUserinfo unicode) (shown (urlShape unicode).mask pieces) := by
  have describes := urlShape_describes unicode
  have proper := urlShape_proper unicode
  refine stable_shown describes proper scan describes proper url_guarded
    (fun _ _ _ _ => url_opens) (fun _ _ _ _ _ isValue => url_gap isValue) ?_
  intro first second head value rest equal bound isHead shownEq isValue
  obtain ⟨left, rfl, shownLeft⟩ := kept_of_shown (url_bracket isHead) shownEq
  obtain ⟨user, rfl, filled, all⟩ := isValue
  rcases kept_or_masked shownLeft with
    ⟨after, rfl, _⟩ | ⟨before, more, hidden, after, valueEq, moreFilled, rfl, shownMask⟩
  · -- a kept authority would have been masked
    obtain ⟨c, tail, rfl⟩ := List.exists_cons_of_ne_nil filled
    have reads : (urlShape unicode).Reads (lastOr none (source first)) head
        (c :: tail ++ ['@']) (source after) := ⟨bound, isHead, ⟨c :: tail, rfl, filled, all⟩⟩
    have around : pieces = first ++
        (head.map .kept ++ .kept c :: ((tail ++ ['@']).map .kept ++ after)) := by
      simpa using equal
    exact (not_kept_of_reads describes scan around reads (by simp) fun _ _ whole =>
      url_alone whole isHead).elim
  · cases before with
    | nil =>
        rw [List.nil_append] at valueEq
        have same : redacted ++ '@' :: shown (urlShape unicode).mask after =
            user ++ '@' :: rest := by
          rw [← valueEq, List.append_assoc] at shownMask
          exact (List.append_assoc redacted ['@'] _).symm.trans shownMask
        obtain ⟨rfl, _⟩ := runs_unique same redacted_isUserChar (stops_cons.mpr rfl) all
          (stops_cons.mpr rfl)
        rfl
    | cons c before =>
        -- the character before the mask is no slash
        have inside : ∀ d ∈ c :: before, isUserChar d = true :=
          user_of_prefix all valueEq moreFilled
        have last := lastTwo_run (proper.head head isHead) (List.cons_ne_nil c before) inside
        have slashes : ∀ a b, isUserChar b = true → ¬ UrlEnds a b := by
          rintro a b userChar ⟨_, rfl⟩
          exact absurd userChar (by decide)
        exact absurd (by simpa using equal)
          (not_masked_after describes scan url_clear.heads last slashes)

/-! ## Authorization headers -/

theorem authorization_bracket {head : Text} (isHead : (authorizationShape unicode).IsHead head) :
    '[' ∉ head :=
  not_mem_of_all (authorization_all isHead) rfl

theorem authorization_self {pieces : List (Piece Char)}
    (scan : Scan (authorization unicode) redacted none pieces) :
    Stable (authorization unicode) (shown redacted pieces) :=
  stable_self_run (authorizationShape_describes unicode) (authorizationShape_proper unicode) scan
    (authorizationShape_runs unicode) (fun _ _ _ _ => authorization_opens)
    (fun _ _ _ _ isHead isValue => absurd isValue.2.2 (secret_gap (authorization_first isHead)))
    (fun _ => authorization_bracket)
    fun _ _ _ _ whole isHead secret => authorization_alone whole isHead secret

/-- Before white space at the end, two readings of a text agree. -/
theorem before_blank {start other gap blank : Text} {a b : Char}
    (equal : start ++ a :: gap = other ++ b :: blank) (allGap : All isWhitespace gap)
    (allBlank : All isWhitespace blank) (mark : isWhitespace a = false)
    (otherMark : isWhitespace b = false) : a = b := by
  rcases List.append_eq_append_iff.mp equal with ⟨more, _, gapEq⟩ | ⟨more, _, blankEq⟩
  · cases more with
    | nil => exact (List.cons.inj gapEq).1
    | cons c more =>
        have inside : isWhitespace b = true := allGap b (by simp [(List.cons.inj gapEq).2])
        simp [inside] at otherMark
  · cases more with
    | nil => exact (List.cons.inj blankEq).1.symm
    | cons c more =>
        have inside : isWhitespace a = true := allBlank a (by simp [(List.cons.inj blankEq).2])
        simp [inside] at mark

/-- A header ends with a letter and white space. -/
theorem authorization_letter {head : Text} (isHead : (authorizationShape unicode).IsHead head) :
    ∃ start c blank, head = start ++ c :: blank ∧ isLetterOrDigit c = true ∧
      All isWhitespace blank := by
  obtain ⟨name, assigned, kind, blank, rfl, _, _, isKind, _, allBlank⟩ := isHead
  rcases List.eq_nil_or_concat' kind with rfl | ⟨start, c, rfl⟩
  · rcases isKind with spelled | spelled <;> cases spelled
  · exact ⟨name ++ (assigned ++ start), c, blank, by simp, all_kind isKind c (by simp), allBlank⟩

/-- No assignment ends as a header does. -/
theorem authorization_not_assignment {head other more : Text}
    (isHead : (authorizationShape unicode).IsHead head)
    (isOther : (assignmentShape unicode).IsHead other) :
    more ++ head ≠ other ∧ head ≠ more ++ other := by
  obtain ⟨start, c, blank, rfl, letter, allBlank⟩ := authorization_letter isHead
  obtain ⟨name, signed, rfl, _, space, d, gap, rfl, _, isMark, allGap⟩ := isOther
  have blanks := isWhitespace_of_isLetterOrDigit letter
  have marks : isWhitespace d = false := by rcases isMark with rfl | rfl <;> rfl
  have apart : c ≠ d := by
    rintro rfl
    rcases isMark with rfl | rfl
    · exact absurd letter (by decide)
    · exact absurd letter (by decide)
  constructor
  · intro equal
    have texts : (more ++ start) ++ c :: blank = (name ++ space) ++ d :: gap := by simpa using equal
    exact apart (before_blank texts allBlank allGap blanks marks)
  · intro equal
    have texts : start ++ c :: blank = (more ++ (name ++ space)) ++ d :: gap := by simpa using equal
    exact apart (before_blank texts allBlank allGap blanks marks)

theorem authorization_through_assignment {pieces : List (Piece Char)}
    (scan : Scan (sensitiveAssignment unicode) redacted none pieces)
    (stable : Stable (authorization unicode) (source pieces)) :
    Stable (authorization unicode) (shown redacted pieces) := by
  have describes := assignmentShape_describes unicode
  refine stable_run describes (assignmentShape_proper unicode) scan assignment_clear
    redacted_guarded (authorizationShape_describes unicode) (authorizationShape_proper unicode)
    (authorizationShape_runs unicode) (fun _ _ _ _ => authorization_opens)
    (fun _ _ _ _ isHead isValue => assignment_gap (authorization_first isHead) isValue) rfl
    (fun _ => authorization_bracket) ?_ stable
  intro first head value second isHead equal
  rw [← List.append_assoc] at equal
  obtain ⟨start, other, same, reads⟩ := reads_of_masked describes scan equal
  rcases kept_comparable same with ⟨more, otherEq⟩ | ⟨more, headEq⟩
  · exact (authorization_not_assignment isHead reads.head).1 otherEq.symm
  · exact (authorization_not_assignment isHead reads.head).2 headEq

theorem authorization_through_bearer {pieces : List (Piece Char)}
    (scan : Scan (bearer unicode) (' ' :: redacted) none pieces)
    (stable : Stable (authorization unicode) (source pieces)) :
    Stable (authorization unicode) (shown (' ' :: redacted) pieces) := by
  have describes := bearerShape_describes unicode
  have proper := bearerShape_proper unicode
  refine stable_shown describes proper scan (authorizationShape_describes unicode)
    (authorizationShape_proper unicode) bearer_guarded (fun _ _ _ _ => authorization_opens) ?_ ?_
  · rintro c tail value rest isHead ⟨_, _, _, _, _, _, stops⟩
    exact absurd stops (secret_gap (authorization_first isHead))
  intro first second head value rest equal bound isHead shownEq isValue
  obtain ⟨filled, all, stops⟩ := isValue
  obtain ⟨c, tail, rfl⟩ := List.exists_cons_of_ne_nil filled
  have secret := all c List.mem_cons_self
  rcases kept_or_masked shownEq with ⟨left, rfl, shownLeft⟩ |
    ⟨before, more, hidden, left, rfl, moreFilled, rfl, shownMask⟩
  · cases left with
    | nil => simp at shownLeft
    | cons piece left =>
        cases piece with
        | masked hidden =>
            -- a masked token begins with a space, a value does not
            obtain rfl : ' ' = c := (List.cons.inj shownLeft).1
            exact absurd secret (by decide)
        | kept d =>
            exact run_masked describes scan bearer_clear (authorizationShape_describes unicode)
              (authorizationShape_proper unicode) (authorizationShape_runs unicode) stable equal
              bound isHead shownLeft ⟨filled, all, stops⟩
  · -- the head ends in the space of a masked token
    obtain ⟨d, more, rfl⟩ := List.exists_cons_of_ne_nil moreFilled
    obtain ⟨rfl, shownTail⟩ : ' ' = d ∧
        redacted ++ shown (' ' :: redacted) left = more ++ (c :: tail ++ rest) :=
      List.cons.inj shownMask
    cases more with
    | cons e more =>
        obtain rfl : '[' = e := (List.cons.inj shownTail).1
        exact absurd (by simp) (authorization_bracket isHead)
    | nil =>
        have around : pieces = (first ++ before.map .kept) ++ .masked hidden :: left := by
          simp [equal]
        obtain ⟨_, _, _, reads⟩ := reads_of_masked describes scan around
        obtain ⟨_, _, _, _, _, _, stopsAfter⟩ := reads.value
        have stopsShown := stops_after_masked describes proper scan around stopsAfter
        have shownValue : redacted ++ shown (' ' :: redacted) left = c :: tail ++ rest := shownTail
        exact (runs_unique shownValue redacted_isSecretChar stopsShown all stops).1.symm

end Passes

/-! ## Tokens -/

section Tokens

variable {unicode : Unicode} {pieces : List (Piece Char)}

theorem stops_redacted {rest : Text} : Stops isWhitespace (redacted ++ rest) :=
  stops_cons.mpr rfl

/-- Characters of a token before white space that is still to come are white space. -/
theorem blank_of_prefix {blank hidden start more : Text} (allBlank : All isWhitespace blank)
    (all : All isSecretChar hidden) (equal : blank ++ hidden = start ++ ' ' :: more) :
    All isWhitespace start := by
  rcases List.append_eq_append_iff.mp equal with ⟨tail, _, hiddenEq⟩ | ⟨tail, blankEq, _⟩
  · rw [hiddenEq] at all
    exact absurd (all ' ' (by simp)) (by decide)
  · rw [blankEq] at allBlank
    exact (all_append.mp allBlank).1

theorem not_secret_of_blank {c : Char} (blank : isWhitespace c = true) :
    isSecretChar c = false := by
  simp [isSecretChar, blank]

theorem bearer_apart {a b : Char} (blank : isWhitespace b = true) : ¬ BearerEnds a b := by
  rintro ⟨_, letter⟩
  have same : sameLetter 'r' b = true := by simp [sameLetter, letter]
  have other := isWhitespace_of_isLetterOrDigit
    (isLetterOrDigit_of_isLetter (isLetter_of_sameLetter (by decide) same))
  simp [blank] at other

/-- A token ends in the text where it ends in the masked text. -/
theorem bearer_stops_source (scan : Scan (bearer unicode) (' ' :: redacted) none pieces)
    {first after : List (Piece Char)} (equal : pieces = first ++ after)
    (stops : Stops isSecretChar (shown (' ' :: redacted) after)) :
    Stops isSecretChar (source after) := by
  cases after with
  | nil => exact stops_nil
  | cons piece after =>
      cases piece with
      | kept c =>
          rw [shown_kept] at stops
          rw [source_kept]
          exact stops_cons.mpr (stops_cons.mp stops)
      | masked value =>
          obtain ⟨_, _, _, reads⟩ := reads_of_masked (bearerShape_describes unicode) scan equal
          obtain ⟨blank, hidden, rfl, ⟨filled, allBlank⟩, _⟩ := reads.value
          obtain ⟨c, blank, rfl⟩ := List.exists_cons_of_ne_nil filled
          have secret := not_secret_of_blank (allBlank c List.mem_cons_self)
          rw [source_masked]
          exact stops_cons.mpr secret

theorem bearer_self (scan : Scan (bearer unicode) (' ' :: redacted) none pieces) :
    Stable (bearer unicode) (shown (' ' :: redacted) pieces) := by
  have describes := bearerShape_describes unicode
  have proper := bearerShape_proper unicode
  refine stable_shown describes proper scan describes proper bearer_guarded
    (fun _ _ _ _ => bearer_opens) ?_ ?_
  · rintro c tail value rest isHead ⟨_, _, _, _, _, _, stops⟩
    exact absurd stops (secret_gap (bearer_first isHead))
  intro first second head value rest equal bound isHead shownEq isValue
  have space : ' ' ∉ head := not_mem_of_all (bearer_all isHead) rfl
  obtain ⟨left, rfl, shownLeft⟩ := kept_of_shown space shownEq
  obtain ⟨blank, hidden, rfl, ⟨filled, allBlank⟩, long, all, stops⟩ := isValue
  have hiddenFilled : hidden ≠ [] := List.length_pos_iff.mp (lt_of_lt_of_le (by decide) long)
  rw [List.append_assoc] at shownLeft
  cases left with
  | nil => simp [filled] at shownLeft
  | cons piece left =>
      cases piece with
      | masked value =>
          have around : pieces = (first ++ head.map .kept) ++ .masked value :: left := by
            simp [equal]
          obtain ⟨_, _, _, reads⟩ := reads_of_masked describes scan around
          obtain ⟨_, _, _, _, _, _, stopsAfter⟩ := reads.value
          have stopsShown := stops_after_masked describes proper scan around stopsAfter
          have blanks : [' '] ++ (redacted ++ shown (' ' :: redacted) left) =
              blank ++ (hidden ++ rest) := by simpa using shownLeft
          obtain ⟨rfl, marks⟩ := runs_unique blanks (all_cons.mpr ⟨rfl, all_nil⟩) stops_redacted
            allBlank (stops_isWhitespace hiddenFilled all)
          obtain ⟨rfl, _⟩ := runs_unique marks redacted_isSecretChar stopsShown all stops
          rfl
      | kept c =>
          -- a kept token would have been masked
          obtain ⟨d, blank, rfl⟩ := List.exists_cons_of_ne_nil filled
          obtain ⟨rfl, shownRest⟩ : c = d ∧
              shown (' ' :: redacted) left = (blank ++ hidden) ++ rest := by
            simpa using shownLeft
          rcases kept_or_masked shownRest with ⟨after, rfl, shownAfter⟩ |
            ⟨before, more, value, after, valueEq, moreFilled, rfl, shownMask⟩
          · have stopsSource : Stops isSecretChar (source after) := by
              have around : pieces = (first ++ (head ++ (c :: blank ++ hidden)).map .kept) ++
                  after := by simp [equal]
              exact bearer_stops_source scan around (shownAfter ▸ stops)
            have reads : (bearerShape unicode).Reads (lastOr none (source first)) head
                (c :: blank ++ hidden) (source after) :=
              ⟨bound, isHead, ⟨c :: blank, hidden, rfl, ⟨filled, allBlank⟩, long, all, stopsSource⟩⟩
            exact (not_kept_of_reads describes scan equal reads (by simp) fun _ _ whole =>
              bearer_alone whole isHead).elim
          · obtain ⟨e, more, rfl⟩ := List.exists_cons_of_ne_nil moreFilled
            obtain rfl : ' ' = e := (List.cons.inj shownMask).1
            have blanks := blank_of_prefix (all_cons.mp allBlank).2 all valueEq
            have last := lastTwo_run (proper.head head isHead) (List.cons_ne_nil c before)
              (all_cons.mpr ⟨(all_cons.mp allBlank).1, blanks⟩)
            exact absurd (by simpa using equal)
              (not_masked_after describes scan bearer_clear.heads last fun _ _ => bearer_apart)

end Tokens

/-! ## The passes and the whole redaction -/

section Redaction

variable {unicode : Unicode}

theorem Shape.Describes.idempotent {masking : Shape}
    {find : Option Char → Text → Option (Replacement Char)} (describes : masking.Describes find)
    (proper : masking.Proper)
    (self : ∀ pieces, Scan find masking.mask none pieces → Stable find (shown masking.mask pieces))
    (text : Text) : substitute find (substitute find text) = substitute find text := by
  obtain ⟨pieces, scan, _, shows⟩ := describes.pieces proper text
  have stable := self pieces scan
  rw [shows] at stable
  exact substitute_of_stable (describes.masks proper) stable

theorem substitute_sessionPath_idempotent (text : Text) :
    substitute sessionPath (substitute sessionPath text) = substitute sessionPath text :=
  sessionShape_describes.idempotent sessionShape_proper (fun _ => session_self) text

theorem substitute_urlUserinfo_idempotent (text : Text) :
    substitute (urlUserinfo unicode) (substitute (urlUserinfo unicode) text) =
      substitute (urlUserinfo unicode) text :=
  (urlShape_describes unicode).idempotent (urlShape_proper unicode) (fun _ => url_self) text

theorem substitute_authorization_idempotent (text : Text) :
    substitute (authorization unicode) (substitute (authorization unicode) text) =
      substitute (authorization unicode) text :=
  (authorizationShape_describes unicode).idempotent (authorizationShape_proper unicode)
    (fun _ => authorization_self) text

theorem substitute_bearer_idempotent (text : Text) :
    substitute (bearer unicode) (substitute (bearer unicode) text) =
      substitute (bearer unicode) text :=
  (bearerShape_describes unicode).idempotent (bearerShape_proper unicode) (fun _ => bearer_self)
    text

/-- What one pass keeps stable, another pass over its pieces does. -/
theorem Shape.Describes.stable_substitute {masking : Shape}
    {other find : Option Char → Text → Option (Replacement Char)}
    (describes : masking.Describes other) (proper : masking.Proper) {text : Text}
    (through : ∀ pieces, Scan other masking.mask none pieces → Stable find (source pieces) →
      Stable find (shown masking.mask pieces)) (stable : Stable find text) :
    Stable find (substitute other text) := by
  obtain ⟨pieces, scan, textEq, shows⟩ := describes.pieces proper text
  rw [← shows]
  exact through pieces scan (textEq.symm ▸ stable)

/-- No later pass uncovers a session path. -/
theorem stable_sessionPath_redactSensitiveText (text : Text) :
    Stable sessionPath (redactSensitiveText unicode text) := by
  rw [redactSensitiveText, redactSessionPaths_eq_substitute]
  obtain ⟨pieces, scan, _, shows⟩ :=
    sessionShape_describes.pieces sessionShape_proper (substitute privateKey text)
  have masked : Stable sessionPath (substitute sessionPath (substitute privateKey text)) :=
    shows ▸ session_self scan
  have inUrls := (urlShape_describes unicode).stable_substitute (urlShape_proper unicode)
    (fun _ scan => session_through (urlShape_describes unicode) (urlShape_proper unicode) scan
      url_clear (fun _ _ ends => (session_apart ends).1) url_guarded (Or.inl rfl)) masked
  have inHeaders := (authorizationShape_describes unicode).stable_substitute
    (authorizationShape_proper unicode)
    (fun _ scan => session_through (authorizationShape_describes unicode)
      (authorizationShape_proper unicode) scan authorization_clear
      (fun _ _ ends => (session_apart ends).2.1) redacted_guarded (Or.inl rfl)) inUrls
  have inTokens := (bearerShape_describes unicode).stable_substitute (bearerShape_proper unicode)
    (fun _ scan => session_through (bearerShape_describes unicode) (bearerShape_proper unicode)
      scan bearer_clear (fun _ _ ends => (session_apart ends).2.2.1) bearer_guarded
      (Or.inr rfl)) inHeaders
  exact (assignmentShape_describes unicode).stable_substitute (assignmentShape_proper unicode)
    (fun _ scan => session_through (assignmentShape_describes unicode)
      (assignmentShape_proper unicode) scan assignment_clear
      (fun _ _ ends => (session_apart ends).2.2.2) redacted_guarded (Or.inl rfl)) inTokens

/-- No later pass uncovers an authorization header. -/
theorem stable_authorization_redactSensitiveText (text : Text) :
    Stable (authorization unicode) (redactSensitiveText unicode text) := by
  rw [redactSensitiveText]
  obtain ⟨pieces, scan, _, shows⟩ := (authorizationShape_describes unicode).pieces
    (authorizationShape_proper unicode)
    (substitute (urlUserinfo unicode) (redactSessionPaths (substitute privateKey text)))
  have masked : Stable (authorization unicode)
      (shown (authorizationShape unicode).mask pieces) := authorization_self scan
  rw [shows] at masked
  have inTokens := (bearerShape_describes unicode).stable_substitute (bearerShape_proper unicode)
    (fun _ => authorization_through_bearer) masked
  exact (assignmentShape_describes unicode).stable_substitute (assignmentShape_proper unicode)
    (fun _ => authorization_through_assignment) inTokens

/-- A redacted text has no session path that is not masked. -/
theorem redactSessionPaths_redactSensitiveText (text : Text) :
    redactSessionPaths (redactSensitiveText unicode text) = redactSensitiveText unicode text := by
  rw [redactSessionPaths_eq_substitute]
  exact substitute_of_stable (sessionShape_describes.masks sessionShape_proper)
    (stable_sessionPath_redactSensitiveText text)

/-- A redacted text has no authorization header that is not masked. -/
theorem substitute_authorization_redactSensitiveText (text : Text) :
    substitute (authorization unicode) (redactSensitiveText unicode text) =
      redactSensitiveText unicode text :=
  substitute_of_stable
    ((authorizationShape_describes unicode).masks (authorizationShape_proper unicode))
    (stable_authorization_redactSensitiveText text)

end Redaction

end OhanaAgent.Privacy
