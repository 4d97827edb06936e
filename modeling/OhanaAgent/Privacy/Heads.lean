import OhanaAgent.Privacy.Stability

/-!
# The heads of the patterns

How the heads begin and end, and that no head stands inside another one before a
character of a value.
-/

namespace OhanaAgent.Privacy

open OhanaAgent.Encoding
open OhanaAgent.Encoding.Json

section Characters

variable {condition : Char → Bool} {text : Text} {c d : Char}

theorem ne_of_class (inside : condition c = true) (outside : condition d = false) : c ≠ d := by
  rintro rfl
  simp [inside] at outside

theorem not_mem_of_all (all : All condition text) (outside : condition c = false) : c ∉ text :=
  fun member => ne_of_class (all c member) outside rfl

theorem isNameChar_of_isSchemeChar (scheme : isSchemeChar c = true) : isNameChar c = true := by
  simp only [isSchemeChar, Bool.or_eq_true, beq_iff_eq] at scheme
  simp only [isNameChar, Bool.or_eq_true, beq_iff_eq]
  exact Or.inl scheme

theorem boundary_ascii (unicode : Unicode) (ascii : c.toNat < 128)
    (other : (c.isAlphanum || c == '_') = false) : boundary unicode (some c) = true := by
  rw [boundary, unicode.isWord_ascii c ascii, other]
  rfl

end Characters

/-! ## How they begin -/

theorem opens_of_blank {name blank rest : Text} (all : All isNameChar name)
    (blanked : IsBlank blank) : Opens (name ++ (blank ++ rest)) := by
  obtain ⟨c, tail, rfl⟩ := List.exists_cons_of_ne_nil blanked.1
  have blankFirst := blanked.2 c List.mem_cons_self
  refine ⟨name, c, tail ++ rest, by simp, all, isNameChar_of_isWhitespace blankFirst, ?_⟩
  rintro (rfl | rfl | rfl)
  · exact absurd blankFirst (by decide)
  · exact absurd blankFirst (by decide)
  · exact absurd blankFirst (by decide)

theorem opens_of_sign {name signed rest : Text} (all : All isNameChar name)
    (isSign : IsSign signed) : Opens (name ++ (signed ++ rest)) := by
  obtain ⟨space, c, gap, rfl, allSpace, isMark, _⟩ := isSign
  cases space with
  | nil =>
      refine ⟨name, c, gap ++ rest, by simp, all, ?_, ?_⟩
      · rcases isMark with rfl | rfl <;> rfl
      · rcases isMark with rfl | rfl <;> decide
  | cons d space =>
      have opened : Opens (name ++ (d :: space ++ (c :: gap ++ rest))) :=
        opens_of_blank all ⟨List.cons_ne_nil d space, allSpace⟩
      simpa using opened

section Begin

variable {unicode : Unicode} {before : Option Char} {c : Char} {head value rest tail : Text}

theorem session_opens (reads : sessionShape.Reads before head value rest) :
    Opens (head ++ (value ++ rest)) := by
  obtain ⟨letters, rfl, _⟩ := isMarker_eq_cons reads.head
  exact ⟨[], '/', letters ++ (value ++ rest), rfl, all_nil, rfl, by decide⟩

theorem url_opens (reads : (urlShape unicode).Reads before head value rest) :
    Opens (head ++ (value ++ rest)) := by
  obtain ⟨c, scheme, rfl, letter, all⟩ := reads.head
  refine ⟨c :: scheme, ':', "//".toList ++ (value ++ rest), by simp, ?_, rfl, by decide⟩
  exact all_cons.mpr ⟨isNameChar_of_isLetterOrDigit (isLetterOrDigit_of_isLetter letter),
    all.imp fun _ => isNameChar_of_isSchemeChar⟩

theorem authorization_opens (reads : (authorizationShape unicode).Reads before head value rest) :
    Opens (head ++ (value ++ rest)) := by
  obtain ⟨name, assigned, kind, blank, rfl, spelled, isSign, _⟩ := reads.head
  have opened : Opens (name ++ (assigned ++ (kind ++ blank ++ (value ++ rest)))) :=
    opens_of_sign (spelled.allName (by decide)) isSign
  simpa using opened

theorem bearer_opens (reads : (bearerShape unicode).Reads before head value rest) :
    Opens (head ++ (value ++ rest)) := by
  obtain ⟨blank, hidden, rfl, blanked, _⟩ := reads.value
  have opened : Opens (head ++ (blank ++ (hidden ++ rest))) :=
    opens_of_blank (Spells.allName (by decide) reads.head) blanked
  simpa using opened

theorem first_of_spells {letter : Char} {letters after : Text} (lower : letter.isLower = true)
    (spelled : Spells (letter :: letters) head) (equal : c :: tail = head ++ after) :
    isLetterOrDigit c = true := by
  obtain _ | ⟨same, _⟩ := spelled
  rw [(List.cons.inj equal).1]
  exact isLetterOrDigit_of_isLetter (isLetter_of_sameLetter lower same)

theorem authorization_first (isHead : (authorizationShape unicode).IsHead (c :: tail)) :
    isLetterOrDigit c = true := by
  obtain ⟨name, assigned, kind, blank, equal, spelled, _⟩ := isHead
  exact first_of_spells (by decide) spelled equal

theorem bearer_first (isHead : (bearerShape unicode).IsHead (c :: tail)) :
    isLetterOrDigit c = true :=
  first_of_spells (by decide) isHead (List.append_nil _).symm

theorem joined_first {letter : Char} {letters second after : Text} (lower : letter.isLower = true)
    (isJoined : Joined (letter :: letters) second head) (equal : c :: tail = head ++ after) :
    isLetterOrDigit c = true := by
  obtain ⟨first, last, spelled, _, rfl | ⟨d, _, rfl⟩⟩ := isJoined
  · rw [List.append_assoc] at equal
    exact first_of_spells lower spelled equal
  · rw [List.append_assoc] at equal
    exact first_of_spells lower spelled equal

theorem IsName.first (named : IsName head) (equal : c :: tail = head ++ rest) :
    isLetterOrDigit c = true := by
  rcases named with ⟨grouped, token, rfl, isGrouped, spelled⟩ | isJoined | spelled | spelled |
    isJoined | spelled
  · cases isGrouped with
    | nil => exact first_of_spells (by decide) spelled equal
    | @cons name more d nonempty all _ _ =>
        obtain ⟨e, body, rfl⟩ := List.exists_cons_of_ne_nil nonempty
        rw [(List.cons.inj equal).1]
        exact all e List.mem_cons_self
  · exact joined_first (by decide) isJoined equal
  · exact first_of_spells (by decide) spelled equal
  · exact first_of_spells (by decide) spelled equal
  · exact joined_first (by decide) isJoined equal
  · exact first_of_spells (by decide) spelled equal

end Begin

/-! ## Characters that they do not have -/

/-- The characters of a head that has no white space. -/
def isTightChar (c : Char) : Bool :=
  isNameChar c || c == ':' || c == '=' || c == '/'

/-- The characters of a head. -/
def isHeadChar (c : Char) : Bool :=
  isTightChar c || isWhitespace c

section Plain

variable {unicode : Unicode} {head : Text}

theorem isTightChar_of_isNameChar {c : Char} (name : isNameChar c = true) :
    isTightChar c = true := by
  simp [isTightChar, name]

theorem isHeadChar_of_isTightChar {c : Char} (tight : isTightChar c = true) :
    isHeadChar c = true := by
  simp [isHeadChar, tight]

theorem isHeadChar_of_isNameChar {c : Char} (name : isNameChar c = true) : isHeadChar c = true :=
  isHeadChar_of_isTightChar (isTightChar_of_isNameChar name)

theorem isHeadChar_of_isWhitespace {c : Char} (blank : isWhitespace c = true) :
    isHeadChar c = true := by
  simp [isHeadChar, blank]

/-- A session marker, with the variants of its letters. -/
theorem session_cases (isHead : sessionShape.IsHead head) : ∃ s t o k, head = ['/', s, t, o, k, '='] ∧
    (s = 's' ∨ s = 'S' ∨ s = Char.ofNat 0x17f) ∧ (t = 't' ∨ t = 'T') ∧ (o = 'o' ∨ o = 'O') ∧
      (k = 'k' ∨ k = 'K' ∨ k = Char.ofNat 0x212a) := by
  have marked : isMarker head = true := isHead
  unfold isMarker at marked
  split at marked
  · rename_i a s t o k f
    simp only [Bool.and_eq_true, Bool.or_eq_true, beq_iff_eq, or_assoc] at marked
    obtain ⟨⟨⟨⟨⟨rfl, sEq⟩, tEq⟩, oEq⟩, kEq⟩, rfl⟩ := marked
    exact ⟨s, t, o, k, rfl, sEq, tEq, oEq, kEq⟩
  · contradiction

theorem session_tight (isHead : sessionShape.IsHead head) : All isTightChar head := by
  obtain ⟨s, t, o, k, rfl, sEq, tEq, oEq, kEq⟩ := session_cases isHead
  have sTight : isTightChar s = true := by rcases sEq with rfl | rfl | rfl <;> decide
  have tTight : isTightChar t = true := by rcases tEq with rfl | rfl <;> decide
  have oTight : isTightChar o = true := by rcases oEq with rfl | rfl <;> decide
  have kTight : isTightChar k = true := by rcases kEq with rfl | rfl | rfl <;> decide
  simp only [all_cons, sTight, tTight, oTight, kTight, true_and]
  exact ⟨rfl, rfl, all_nil⟩

theorem url_tight (isHead : (urlShape unicode).IsHead head) : All isTightChar head := by
  obtain ⟨c, scheme, rfl, letter, all⟩ := isHead
  have colon : ∀ c ∈ "://".toList, isTightChar c = true := by decide
  exact all_cons.mpr ⟨isTightChar_of_isNameChar
    (isNameChar_of_isLetterOrDigit (isLetterOrDigit_of_isLetter letter)),
    all_append.mpr ⟨all.imp fun _ scheme =>
      isTightChar_of_isNameChar (isNameChar_of_isSchemeChar scheme), colon⟩⟩

theorem IsSign.all {signed : Text} (isSign : IsSign signed) : All isHeadChar signed := by
  obtain ⟨space, c, gap, rfl, allSpace, isMark, allGap⟩ := isSign
  have mark : isHeadChar c = true := by rcases isMark with rfl | rfl <;> rfl
  exact all_append.mpr ⟨allSpace.imp fun _ => isHeadChar_of_isWhitespace,
    all_cons.mpr ⟨mark, allGap.imp fun _ => isHeadChar_of_isWhitespace⟩⟩

theorem all_kind {kind : Text} (isKind : Spells "bearer".toList kind ∨ Spells "basic".toList kind) :
    All isLetterOrDigit kind := by
  rcases isKind with spelled | spelled
  · exact spelled.all (by decide)
  · exact spelled.all (by decide)

theorem authorization_all (isHead : (authorizationShape unicode).IsHead head) :
    All isHeadChar head := by
  obtain ⟨name, assigned, kind, blank, rfl, spelled, isSign, isKind, blanked⟩ := isHead
  exact all_append.mpr ⟨(spelled.allName (by decide)).imp fun _ => isHeadChar_of_isNameChar,
    all_append.mpr ⟨isSign.all, all_append.mpr ⟨(all_kind isKind).imp fun _ letter =>
      isHeadChar_of_isNameChar (isNameChar_of_isLetterOrDigit letter),
      blanked.2.imp fun _ => isHeadChar_of_isWhitespace⟩⟩⟩

theorem bearer_all (isHead : (bearerShape unicode).IsHead head) : All isNameChar head :=
  Spells.allName (by decide) isHead

end Plain

/-! ## How they end -/

def SessionEnds (a b : Char) : Prop :=
  (a = 'k' ∨ a = 'K' ∨ a = Char.ofNat 0x212a) ∧ b = '='

def UrlEnds (a b : Char) : Prop :=
  a = '/' ∧ b = '/'

def BlankEnds (_ b : Char) : Prop :=
  isWhitespace b = true

def BearerEnds (a b : Char) : Prop :=
  a.toLower = 'e' ∧ b.toLower = 'r'

def SignEnds (a b : Char) : Prop :=
  isWhitespace b = true ∨
    ((b = ':' ∨ b = '=') ∧ (isWhitespace a = true ∨ a.toLower ∈ "nydt".toList))

section End

variable {unicode : Unicode} {head : Text}

theorem session_ends (isHead : sessionShape.IsHead head) : LastTwo SessionEnds head := by
  obtain ⟨s, t, o, k, rfl, _, _, _, kEq⟩ := session_cases isHead
  exact ⟨['/', s, t, o], k, '=', rfl, kEq, rfl⟩

theorem url_ends (isHead : (urlShape unicode).IsHead head) : LastTwo UrlEnds head := by
  obtain ⟨c, scheme, rfl, _⟩ := isHead
  exact ⟨c :: (scheme ++ [':']), '/', '/', by simp, rfl, rfl⟩

theorem authorization_ends (isHead : (authorizationShape unicode).IsHead head) :
    LastTwo BlankEnds head := by
  obtain ⟨name, assigned, kind, blank, rfl, spelled, _, _, nonempty, all⟩ := isHead
  rcases List.eq_nil_or_concat' blank with rfl | ⟨start, b, rfl⟩
  · contradiction
  · have filled : name ++ (assigned ++ (kind ++ start)) ≠ [] := by
      intro empty
      have length := spelled.length
      simp [(List.append_eq_nil_iff.mp empty).1] at length
    have last : isWhitespace b = true := all b (by simp)
    have ends : LastTwo BlankEnds (name ++ (assigned ++ (kind ++ start)) ++ [b]) :=
      lastTwo_concat filled fun _ => last
    simpa using ends

theorem bearer_ends (isHead : (bearerShape unicode).IsHead head) : LastTwo BearerEnds head := by
  obtain _ | ⟨_, _ | ⟨_, _ | ⟨_, _ | ⟨_, _ | ⟨e, _ | ⟨r, rest⟩⟩⟩⟩⟩⟩ := isHead
  cases rest
  exact ⟨[_, _, _, _], _, _, rfl, toLower_of_sameLetter (by decide) (by decide) e,
    toLower_of_sameLetter (by decide) (by decide) r⟩

theorem Spells.last {letters text : Text} (spelled : Spells letters text) (filled : letters ≠ []) :
    ∃ start c letter, letters.getLast? = some letter ∧ text = start ++ [c] ∧
      sameLetter letter c = true := by
  induction spelled with
  | nil => contradiction
  | @cons letter c letters text same tail inductionHypothesis =>
      cases tail with
      | nil => exact ⟨[], c, letter, rfl, rfl, same⟩
      | cons next more =>
          obtain ⟨start, d, last, lastEq, textEq, lastSame⟩ :=
            inductionHypothesis (List.cons_ne_nil _ _)
          exact ⟨c :: start, d, last, by simpa using lastEq, by simp [textEq], lastSame⟩

/-- The last letter of a word that ends in one of four. -/
theorem Spells.ends {letters text : Text} (spelled : Spells letters text)
    (last : ∃ letter ∈ "nydt".toList, letters.getLast? = some letter) (first : Text) :
    ∃ start c, first ++ text = start ++ [c] ∧ c.toLower ∈ "nydt".toList := by
  obtain ⟨letter, member, lastEq⟩ := last
  have filled : letters ≠ [] := by
    rintro rfl
    contradiction
  obtain ⟨start, c, other, otherEq, rfl, same⟩ := spelled.last filled
  obtain rfl : other = letter := Option.some.inj (otherEq.symm.trans lastEq)
  refine ⟨first ++ start, c, by simp, ?_⟩
  have lower : ∀ letter ∈ "nydt".toList,
      letter.toLower = letter ∧ letter ≠ 'i' ∧ letter ≠ 's' ∧ letter ≠ 'k' := by decide
  rw [toLower_of_sameLetter (lower other member).1 (lower other member).2 same]
  exact member

theorem Joined.ends {first second text : Text} (isJoined : Joined first second text)
    (last : ∃ letter ∈ "nydt".toList, second.getLast? = some letter) :
    ∃ start c, text = start ++ [c] ∧ c.toLower ∈ "nydt".toList := by
  obtain ⟨head, tail, _, spelled, rfl | ⟨c, _, rfl⟩⟩ := isJoined
  · exact spelled.ends last head
  · obtain ⟨start, d, equal, member⟩ := spelled.ends last (head ++ [c])
    exact ⟨start, d, by simpa using equal, member⟩

theorem IsName.ends {name : Text} (named : IsName name) :
    ∃ start c, name = start ++ [c] ∧ c.toLower ∈ "nydt".toList := by
  rcases named with ⟨grouped, token, rfl, _, spelled⟩ | isJoined | spelled | spelled |
    isJoined | spelled
  · exact spelled.ends ⟨'n', by decide, rfl⟩ grouped
  · exact isJoined.ends ⟨'y', by decide, rfl⟩
  · exact spelled.ends ⟨'d', by decide, rfl⟩ []
  · exact spelled.ends ⟨'d', by decide, rfl⟩ []
  · exact isJoined.ends ⟨'t', by decide, rfl⟩
  · exact spelled.ends ⟨'t', by decide, rfl⟩ []

theorem assignment_ends (isHead : (assignmentShape unicode).IsHead head) :
    LastTwo SignEnds head := by
  obtain ⟨name, signed, rfl, named, space, c, gap, rfl, allSpace, isMark, allGap⟩ := isHead
  obtain ⟨start, a, rfl, last⟩ := named.ends
  rcases List.eq_nil_or_concat' gap with rfl | ⟨more, b, rfl⟩
  · rcases List.eq_nil_or_concat' space with rfl | ⟨more, b, rfl⟩
    · exact ⟨start, a, c, by simp, Or.inr ⟨isMark, Or.inr last⟩⟩
    · exact ⟨start ++ [a] ++ more, b, c, by simp, Or.inr ⟨isMark, Or.inl (allSpace b (by simp))⟩⟩
  · have filled : start ++ [a] ++ (space ++ c :: more) ≠ [] := by simp
    have blank : isWhitespace b = true := allGap b (by simp)
    have ends : LastTwo SignEnds (start ++ [a] ++ (space ++ c :: more) ++ [b]) :=
      lastTwo_concat filled fun _ => Or.inl blank
    simpa using ends

theorem marks_cases {a b : Char} (marks : Marks a b) :
    isWhitespace b = false ∧ b ≠ ':' ∧ b ≠ '=' ∧ b ≠ '/' ∧
      ¬ (a.toLower = 'e' ∧ b.toLower = 'r') := by
  rcases marks with rfl | member
  · exact ⟨by decide, by decide, by decide, by decide, fun both => absurd both.2 (by decide)⟩
  · simp only [redacted, List.tail_cons, List.zip_cons_cons, List.zip_nil_right, List.mem_cons,
      Prod.mk.injEq, List.not_mem_nil, or_false] at member
    rcases member with ⟨rfl, rfl⟩ | ⟨rfl, rfl⟩ | ⟨rfl, rfl⟩ | ⟨rfl, rfl⟩ | ⟨rfl, rfl⟩ |
      ⟨rfl, rfl⟩ | ⟨rfl, rfl⟩ | ⟨rfl, rfl⟩ | ⟨rfl, rfl⟩ <;> decide

theorem url_clear : Clear (urlShape unicode) UrlEnds :=
  ⟨fun _ => url_ends, fun _ _ marks ends => (marks_cases marks).2.2.2.1 ends.2⟩

theorem authorization_clear : Clear (authorizationShape unicode) BlankEnds :=
  ⟨fun _ => authorization_ends, fun _ _ marks ends => by
    have blank : isWhitespace _ = true := ends
    simp [(marks_cases marks).1] at blank⟩

theorem bearer_clear : Clear (bearerShape unicode) BearerEnds :=
  ⟨fun _ => bearer_ends, fun _ _ marks ends => (marks_cases marks).2.2.2.2 ends⟩

theorem assignment_clear : Clear (assignmentShape unicode) SignEnds := by
  refine ⟨fun _ => assignment_ends, ?_⟩
  rintro a b marks (blank | ⟨isMark, _⟩)
  · simp [(marks_cases marks).1] at blank
  · obtain ⟨_, colon, equals, _⟩ := marks_cases marks
    exact isMark.elim colon equals

end End

/-! ## No head inside another one -/

section Alone

variable {unicode : Unicode} {c : Char} {start right head : Text}

/-- After a character that occurs once, two readings of a text agree. -/
theorem after_mark {condition : Char → Bool} {first tail rest : Text} {d : Char}
    (equal : first ++ c :: tail = start ++ d :: rest) (startAll : All condition start)
    (restAll : All condition rest) (mark : condition c = false) : tail = rest := by
  rcases List.append_eq_append_iff.mp equal with ⟨more, startEq, tailEq⟩ | ⟨more, _, restEq⟩
  · cases more with
    | nil => exact (List.cons.inj tailEq).2
    | cons e more =>
        rw [startEq, (List.cons.inj tailEq).1.symm] at startAll
        simp [startAll c (by simp)] at mark
  · cases more with
    | nil => exact (List.cons.inj restEq).2.symm
    | cons e more =>
        rw [(List.cons.inj restEq).2] at restAll
        simp [restAll c (by simp)] at mark

def isUnsigned (c : Char) : Bool :=
  !(c == ':' || c == '=')

theorem isUnsigned_of_isNameChar (name : isNameChar c = true) : isUnsigned c = true := by
  have colon := ne_of_class (d := ':') name rfl
  have equals := ne_of_class (d := '=') name rfl
  simp [isUnsigned, colon, equals]

theorem isUnsigned_of_isWhitespace (blank : isWhitespace c = true) : isUnsigned c = true := by
  have colon := ne_of_class (d := ':') blank rfl
  have equals := ne_of_class (d := '=') blank rfl
  simp [isUnsigned, colon, equals]

/-- After the only sign, two readings of a text agree. -/
theorem after_sign {first signed tail other rest : Text}
    (equal : first ++ (signed ++ tail) = start ++ (other ++ rest)) (isSign : IsSign signed)
    (otherSign : IsSign other) (startAll : All isUnsigned start) (restAll : All isUnsigned rest)
    (tailStops : Stops isWhitespace tail) (restStops : Stops isWhitespace rest) : tail = rest := by
  obtain ⟨space, c, gap, rfl, _, isMark, allGap⟩ := isSign
  obtain ⟨otherSpace, d, otherGap, rfl, allSpace, _, allOther⟩ := otherSign
  have equal' : (first ++ space) ++ c :: (gap ++ tail) =
      (start ++ otherSpace) ++ d :: (otherGap ++ rest) := by simpa using equal
  have mark : isUnsigned c = false := by rcases isMark with rfl | rfl <;> rfl
  have after := after_mark equal'
    (all_append.mpr ⟨startAll, allSpace.imp fun _ => isUnsigned_of_isWhitespace⟩)
    (all_append.mpr ⟨allOther.imp fun _ => isUnsigned_of_isWhitespace, restAll⟩) mark
  exact (runs_unique after allGap tailStops allOther restStops).2

theorem length_of_prefix (start : Text) (longer : head ++ [c] <+: right) :
    head.length < (start ++ right).length := by
  have bound := longer.length_le
  simp only [List.length_append, List.length_singleton] at bound ⊢
  omega

theorem session_alone (whole : sessionShape.IsHead (start ++ right))
    (isHead : sessionShape.IsHead head) : ¬ head ++ [c] <+: right := by
  intro longer
  have shorter := length_of_prefix start longer
  rw [isMarker_length whole, isMarker_length isHead] at shorter
  exact lt_irrefl _ shorter

theorem bearer_alone (whole : (bearerShape unicode).IsHead (start ++ right))
    (isHead : (bearerShape unicode).IsHead head) : ¬ head ++ [c] <+: right := by
  intro longer
  have shorter := length_of_prefix start longer
  rw [Spells.length whole, Spells.length isHead] at shorter
  exact lt_irrefl _ shorter

theorem url_alone (whole : (urlShape unicode).IsHead (start ++ right))
    (isHead : (urlShape unicode).IsHead head) : ¬ head ++ [c] <+: right := by
  rintro ⟨more, rfl⟩
  obtain ⟨d, scheme, equal, letter, all⟩ := whole
  obtain ⟨e, other, rfl, _⟩ := isHead
  have equal' : (start ++ e :: other) ++ ':' :: ("//".toList ++ c :: more) =
      (d :: scheme) ++ ':' :: "//".toList := by simpa using equal
  have startAll : All (fun c => c != ':') (d :: scheme) := by
    intro x member
    have named : isNameChar x = true := by
      rcases List.mem_cons.mp member with rfl | inside
      · exact isNameChar_of_isLetterOrDigit (isLetterOrDigit_of_isLetter letter)
      · exact isNameChar_of_isSchemeChar (all x inside)
    have colon := ne_of_class (d := ':') named rfl
    simpa using colon
  have slashes : All (fun c => c != ':') "//".toList := by
    intro x member
    revert x
    decide
  have after := after_mark equal' startAll slashes rfl
  simp at after

theorem authorization_alone (whole : (authorizationShape unicode).IsHead (start ++ right))
    (isHead : (authorizationShape unicode).IsHead head) (secret : isSecretChar c = true) :
    ¬ head ++ [c] <+: right := by
  rintro ⟨more, rfl⟩
  obtain ⟨name, assigned, kind, blank, equal, spelled, isSign, isKind, blanked⟩ := whole
  obtain ⟨otherName, signed, otherKind, gap, rfl, _, otherSign, otherIs, otherBlank⟩ := isHead
  have equal' : (start ++ otherName) ++ (signed ++ (otherKind ++ (gap ++ c :: more))) =
      name ++ (assigned ++ (kind ++ blank)) := by simpa using equal
  have restAll : All isUnsigned (kind ++ blank) :=
    all_append.mpr ⟨(all_kind isKind).imp fun _ letter =>
      isUnsigned_of_isNameChar (isNameChar_of_isLetterOrDigit letter),
      blanked.2.imp fun _ => isUnsigned_of_isWhitespace⟩
  have after := after_sign equal' otherSign isSign
    ((spelled.allName (by decide)).imp fun _ => isUnsigned_of_isNameChar) restAll
    (stops_kind otherIs) (stops_kind isKind)
  have stops (text rest : Text) (isBlank : IsBlank text) :
      Stops isLetterOrDigit (text ++ rest) := by
    obtain ⟨d, tail, rfl⟩ := List.exists_cons_of_ne_nil isBlank.1
    exact stops_cons.mpr (isLetterOrDigit_of_isNameChar
      (isNameChar_of_isWhitespace (isBlank.2 d List.mem_cons_self))).1
  have blankStops := stops blank [] blanked
  rw [List.append_nil] at blankStops
  have blankEq := (runs_unique after (all_kind otherIs) (stops gap _ otherBlank) (all_kind isKind)
    blankStops).2
  have inside : isWhitespace c = true := blanked.2 c (by rw [← blankEq]; simp)
  simp [isWhitespace_of_isSecretChar secret] at inside

end Alone

/-! ## What stands before a head that follows a value -/

section Gap

variable {unicode : Unicode} {c : Char} {value rest : Text}

theorem url_gap (isValue : (urlShape unicode).IsValue value rest) :
    boundary unicode value.getLast? = true := by
  obtain ⟨user, rfl, _⟩ := isValue
  rw [List.getLast?_concat]
  exact boundary_ascii unicode (by decide) rfl

theorem isSecretChar_of_isLetterOrDigit (letter : isLetterOrDigit c = true) : isSecretChar c = true := by
  have comma := ne_of_class (d := ',') letter rfl
  have semicolon := ne_of_class (d := ';') letter rfl
  simp [isSecretChar, isWhitespace_of_isLetterOrDigit letter, comma, semicolon]

theorem secret_gap (letter : isLetterOrDigit c = true) : ¬ Stops isSecretChar (c :: rest) := by
  intro stops
  have ends := stops_cons.mp stops
  simp [isSecretChar_of_isLetterOrDigit letter] at ends

theorem isBareChar_of_isLetterOrDigit (letter : isLetterOrDigit c = true) :
    isBareChar c = true := by
  have ampersand := ne_of_class (d := '&') letter rfl
  have comma := ne_of_class (d := ',') letter rfl
  have semicolon := ne_of_class (d := ';') letter rfl
  simp [isBareChar, isWhitespace_of_isLetterOrDigit letter, ampersand, comma, semicolon]

theorem assignment_gap (letter : isLetterOrDigit c = true)
    (isValue : (assignmentShape unicode).IsValue value (c :: rest)) :
    boundary unicode value.getLast? = true := by
  rcases isValue.1 with ⟨quote, inside, isQuote, rfl⟩ | ⟨_, _, stops⟩
  · rw [← List.cons_append, List.getLast?_concat]
    simp only [Privacy.isQuote, Bool.or_eq_true, beq_iff_eq] at isQuote
    rcases isQuote with rfl | rfl
    · exact boundary_ascii unicode (by decide) rfl
    · exact boundary_ascii unicode (by decide) rfl
  · have ends := stops_cons.mp stops
    simp [isBareChar_of_isLetterOrDigit letter] at ends

end Gap

end OhanaAgent.Privacy
