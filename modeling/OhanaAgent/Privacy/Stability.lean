import OhanaAgent.Privacy.Patterns
import Mathlib.Data.List.Infix

/-!
# Patterns in masked texts

A later pattern makes no new match of an earlier one: a match in the masked text
reads its head from characters that were kept, so the head stands in the text as
well, and the value after it is kept or a mask.  What has to be excluded is a mask in
the middle of the head or of the value, and heads end in different characters.
-/

namespace OhanaAgent.Privacy

open OhanaAgent.Encoding
open OhanaAgent.Encoding.Json

/-! ## How heads end -/

/-- The last two characters of a text. -/
def LastTwo (ends : Char → Char → Prop) (text : Text) : Prop :=
  ∃ start a b, text = start ++ [a, b] ∧ ends a b

theorem LastTwo.append {ends : Char → Char → Prop} {text : Text} (last : LastTwo ends text)
    (start : Text) : LastTwo ends (start ++ text) := by
  obtain ⟨first, a, b, rfl, closes⟩ := last
  exact ⟨start ++ first, a, b, by simp, closes⟩

/-- Of two texts that end alike, the last characters are the same. -/
theorem LastTwo.both {first second : Char → Char → Prop} {text : Text}
    (left : LastTwo first text) (right : LastTwo second text) :
    ∃ a b, first a b ∧ second a b := by
  obtain ⟨start, a, b, rfl, closes⟩ := left
  obtain ⟨other, c, d, equal, ends⟩ := right
  obtain ⟨_, same⟩ := List.append_inj' equal rfl
  simp only [List.cons.injEq, and_true] at same
  obtain ⟨rfl, rfl⟩ := same
  exact ⟨a, b, closes, ends⟩

theorem lastTwo_concat {ends : Char → Char → Prop} {text : Text} {b : Char} (filled : text ≠ [])
    (closes : ∀ a, ends a b) : LastTwo ends (text ++ [b]) := by
  rcases List.eq_nil_or_concat' text with rfl | ⟨start, a, rfl⟩
  · contradiction
  · exact ⟨start, a, b, by simp, closes a⟩

theorem lastTwo_run {condition : Char → Bool} {text inside : Text} (filled : text ≠ [])
    (begun : inside ≠ []) (all : ∀ c ∈ inside, condition c = true) :
    LastTwo (fun _ b => condition b = true) (text ++ inside) := by
  rcases List.eq_nil_or_concat' inside with rfl | ⟨start, b, rfl⟩
  · contradiction
  · rw [← List.append_assoc]
    exact lastTwo_concat (by simp [filled]) fun _ => all b (by simp)

/-- Two runs of kept characters that end at one place end alike. -/
theorem kept_comparable {first second : List (Piece Char)} {left right : Text}
    (equal : first ++ left.map Piece.kept = second ++ right.map Piece.kept) :
    (∃ more, right = more ++ left) ∨ ∃ more, left = more ++ right := by
  rcases List.append_eq_append_iff.mp equal with ⟨more, _, same⟩ | ⟨more, _, same⟩
  · obtain ⟨_, other, rfl, _, equal⟩ := List.map_eq_append_iff.mp same
    have kept : Function.Injective (Piece.kept (α := Char)) := fun _ _ => Piece.kept.inj
    exact Or.inr ⟨_, by rw [List.map_injective_iff.mpr kept equal]⟩
  · obtain ⟨_, other, rfl, _, equal⟩ := List.map_eq_append_iff.mp same
    have kept : Function.Injective (Piece.kept (α := Char)) := fun _ _ => Piece.kept.inj
    exact Or.inl ⟨_, by rw [List.map_injective_iff.mpr kept equal]⟩

/-! ## Positions in a masked text -/

section Positions

variable {masking earlier : Shape} {other find : Option Char → Text → Option (Replacement Char)}
  {pieces : List (Piece Char)}

/-- A masked value was read after its head. -/
theorem reads_of_masked (describes : masking.Describes other)
    (scan : Scan other masking.mask none pieces) {first second : List (Piece Char)} {value : Text}
    (equal : pieces = first ++ .masked value :: second) :
    ∃ start head, first = start ++ head.map .kept ∧
      masking.Reads (lastOr none (source start)) head value (source second) := by
  subst equal
  obtain ⟨start, head, rfl, matched⟩ := scan.head_of_masked
  exact ⟨start, head, rfl, describes.reads matched⟩

/-- No value is masked after characters that end as no head does. -/
theorem not_masked_after (describes : masking.Describes other)
    (scan : Scan other masking.mask none pieces) {closes ends : Char → Char → Prop}
    (heads : ∀ head, masking.IsHead head → LastTwo closes head)
    {first second : List (Piece Char)} {text value : Text} (last : LastTwo ends text)
    (apart : ∀ a b, ends a b → ¬ closes a b) :
    pieces ≠ first ++ (text.map .kept ++ .masked value :: second) := by
  intro equal
  rw [← List.append_assoc] at equal
  obtain ⟨start, head, same, reads⟩ := reads_of_masked describes scan equal
  have headLast := heads head reads.head
  obtain ⟨a, b, ended, closed⟩ : ∃ a b, ends a b ∧ closes a b := by
    rcases kept_comparable same with ⟨more, rfl⟩ | ⟨more, rfl⟩
    · obtain ⟨a, b, closed, ended⟩ := headLast.both (last.append more)
      exact ⟨a, b, ended, closed⟩
    · exact last.both (headLast.append more)
  exact apart a b ended closed

/-- Masked values do not follow each other: a head is between them. -/
theorem not_masked_masked (describes : masking.Describes other) (proper : masking.Proper)
    (scan : Scan other masking.mask none pieces) {first second : List (Piece Char)}
    {value hidden : Text} : pieces ≠ first ++ .masked value :: .masked hidden :: second := by
  intro equal
  have equal' : pieces = (first ++ [.masked value]) ++ .masked hidden :: second := by
    simp [equal]
  obtain ⟨start, head, same, reads⟩ := reads_of_masked describes scan equal'
  rcases List.eq_nil_or_concat' head with rfl | ⟨body, c, rfl⟩
  · exact proper.head [] reads.head rfl
  · rw [List.map_append, ← List.append_assoc] at same
    have last := (List.append_inj' same rfl).2
    simp at last

/-- The pattern does not match inside a mask: the first character that no name has is
one that no head and no value has. -/
def Guarded (mask : Text) : Bool :=
  mask.tail.tails.all fun rest => rest.isEmpty ||
    match rest.dropWhile isNameChar with
    | c :: _ => c == '[' || c == ']' || c == '@'
    | [] => false

/-- A head and a value with a character that no name has and no mask shows first. -/
def Opens (text : Text) : Prop :=
  ∃ name c rest, text = name ++ c :: rest ∧ All isNameChar name ∧ isNameChar c = false ∧
    ¬ (c = '[' ∨ c = ']' ∨ c = '@')

theorem not_opens_of_guarded {mask start rest left : Text} (guarded : Guarded mask = true)
    (maskEq : mask = start ++ rest) (begun : start ≠ []) (filled : rest ≠ []) :
    ¬ Opens (rest ++ left) := by
  rintro ⟨name, c, tail, equal, all, stops, apart⟩
  obtain ⟨d, body, rfl⟩ := List.exists_cons_of_ne_nil begun
  have member : rest ∈ mask.tail.tails := by
    rw [maskEq, List.mem_tails]
    exact List.suffix_append body rest
  have shows := List.all_eq_true.mp guarded rest member
  rw [Bool.or_eq_true, List.isEmpty_iff] at shows
  rcases shows with empty | shows
  · exact filled empty
  · have restEq := run_append isNameChar rest
    have restAll := all_run isNameChar rest
    have restStops := stops_run isNameChar rest
    cases after : rest.dropWhile isNameChar with
    | nil => simp [after] at shows
    | cons e more =>
        simp only [after] at shows
        simp only [run, after] at restEq restStops
        rw [← restEq, List.append_assoc, List.cons_append] at equal
        have same := (runs_unique equal restAll (stops_cons.mpr (stops_cons.mp restStops)) all
          (stops_cons.mpr stops)).2
        obtain ⟨rfl, _⟩ := List.cons.inj same
        exact apart (by simpa [or_assoc] using shows)

/-- A pattern leaves a masked text as it is if every match at a piece is masked already. -/
theorem stable_shown (describes : masking.Describes other) (proper : masking.Proper)
    (scan : Scan other masking.mask none pieces) (finds : earlier.Describes find)
    (earlierProper : earlier.Proper) (guarded : Guarded masking.mask = true)
    (opens : ∀ before head value rest, earlier.Reads before head value rest →
      Opens (head ++ (value ++ rest)))
    (gap : ∀ c tail value rest, earlier.IsHead (c :: tail) → masking.IsValue value (c :: rest) →
      earlier.bound value.getLast? = true)
    (aligned : ∀ first second head value rest, pieces = first ++ second →
      earlier.bound (lastOr none (source first)) = true → earlier.IsHead head →
        shown masking.mask second = head ++ (value ++ rest) → earlier.IsValue value rest →
          value = earlier.mask) : Stable find (shown masking.mask pieces) := by
  intro before after equal
  refine finds.quiet fun head value rest afterEq reads => ?_
  rcases shown_eq_append equal with ⟨first, second, rfl, rfl, rfl⟩ |
    ⟨first, hidden, second, start, left, rfl, maskEq, begun, filled, _, rfl⟩
  · refine aligned first second head value rest rfl ?_ reads.head afterEq reads.value
    have bound := reads.bound
    rcases List.eq_nil_or_concat' first with rfl | ⟨body, piece, rfl⟩
    · exact bound
    · cases piece with
      | kept c => simpa [lastOr] using bound
      | masked hidden =>
          -- the head begins with a kept character, so with one that ends the value
          obtain ⟨c, tail, headEq⟩ := List.exists_cons_of_ne_nil (earlierProper.head head reads.head)
          rw [lastOr, Option.or_none, source_append, source_masked, source_nil, List.append_nil]
          have whole : body ++ [.masked hidden] ++ second = body ++ .masked hidden :: second := by
            simp
          obtain ⟨_, inner, _, hiddenReads⟩ := reads_of_masked describes scan whole
          have filled := proper.value hidden _ hiddenReads.value
          rw [List.getLast?_append_of_ne_nil _ filled]
          cases second with
          | nil => simp [headEq] at afterEq
          | cons piece second =>
              cases piece with
              | kept d =>
                  rw [headEq, shown_kept, List.cons_append, List.cons.injEq] at afterEq
                  have isValue := hiddenReads.value
                  rw [source_kept, afterEq.1] at isValue
                  exact gap c tail hidden _ (headEq ▸ reads.head) isValue
              | masked other =>
                  exact absurd whole (not_masked_masked describes proper scan)
  · have opened := opens _ head value rest reads
    rw [← afterEq] at opened
    exact absurd opened (not_opens_of_guarded guarded maskEq begun filled)

/-! ## A mask that a text shows already -/

/-- Two characters next to each other in the mark, or its first one. -/
def Marks (a b : Char) : Prop :=
  b = '[' ∨ (a, b) ∈ redacted.zip redacted.tail

theorem mem_zip_tail {a b : Char} (start rest : Text) :
    (a, b) ∈ (start ++ a :: b :: rest).zip (start ++ a :: b :: rest).tail := by
  induction start with
  | nil => simp
  | cons c start inductionHypothesis =>
      cases start with
      | nil => simp
      | cons d start => exact List.mem_cons_of_mem _ inductionHypothesis

theorem lastTwo_mark {text shownMark left : Text} (filled : text ≠ []) (begun : shownMark ≠ [])
    (equal : shownMark ++ left = redacted) : LastTwo Marks (text ++ shownMark) := by
  rcases List.eq_nil_or_concat' shownMark with rfl | ⟨start, b, rfl⟩
  · contradiction
  · rcases List.eq_nil_or_concat' start with rfl | ⟨start, a, rfl⟩
    · have first : b = '[' := (List.cons.inj equal).1
      exact lastTwo_concat filled fun _ => Or.inl first
    · refine ⟨text ++ start, a, b, by simp, Or.inr ?_⟩
      have inside : (a, b) ∈ (start ++ a :: b :: left).zip (start ++ a :: b :: left).tail :=
        mem_zip_tail start left
      rw [← equal]
      simpa using inside

/-- The heads of a pattern do not end inside or after a mark. -/
structure Clear (masking : Shape) (closes : Char → Char → Prop) : Prop where
  heads : ∀ head, masking.IsHead head → LastTwo closes head
  apart : ∀ a b, Marks a b → ¬ closes a b

/-- A mark that begins with a kept character is kept. -/
theorem mark_kept (describes : masking.Describes other)
    (scan : Scan other masking.mask none pieces) {closes : Char → Char → Prop}
    (clear : Clear masking closes) {first left : List (Piece Char)} {text seen more rest : Text}
    (filled : text ≠ []) (begun : seen ≠ []) (whole : seen ++ more = redacted)
    (equal : pieces = first ++ ((text ++ seen).map .kept ++ left))
    (sourceEq : source left = more ++ rest) :
    ∃ after, left = more.map .kept ++ after ∧ source after = rest ∧
      ∀ value second, after ≠ .masked value :: second := by
  induction more generalizing seen left with
  | nil =>
      refine ⟨left, rfl, sourceEq, ?_⟩
      rintro value second rfl
      exact not_masked_after describes scan clear.heads (lastTwo_mark filled begun whole)
        clear.apart equal
  | cons c more inductionHypothesis =>
      cases left with
      | nil => simp at sourceEq
      | cons piece left =>
          cases piece with
          | masked value =>
              exact absurd equal (not_masked_after describes scan clear.heads
                (lastTwo_mark filled begun whole) clear.apart)
          | kept d =>
              simp only [source_kept, List.cons_append, List.cons.injEq] at sourceEq
              obtain ⟨rfl, sourceEq⟩ := sourceEq
              have wider : (seen ++ [d]) ++ more = redacted := by simp [whole]
              obtain ⟨after, rfl, afterEq, kept⟩ :=
                inductionHypothesis (by simp) wider (by simp [equal]) sourceEq
              exact ⟨after, rfl, afterEq, kept⟩

/-! ## Values that are runs -/

/-- The values of a shape are the runs of a class of characters. -/
structure ReadsRuns (shape : Shape) (allowed : Char → Bool) : Prop where
  value : ∀ value rest, shape.IsValue value rest ↔
    value ≠ [] ∧ All allowed value ∧ Stops allowed rest
  mask : shape.mask = redacted
  marks : All allowed redacted

/-- The substitution after a kept mark ends a run where the text does. -/
theorem stops_shown {allowed : Char → Bool} {after : List (Piece Char)} {mask rest : Text}
    (sourceEq : source after = rest) (stops : Stops allowed rest)
    (kept : ∀ value second, after ≠ .masked value :: second) :
    Stops allowed (shown mask after) := by
  cases after with
  | nil => exact stops_nil
  | cons piece after =>
      cases piece with
      | masked value => exact absurd rfl (kept value after)
      | kept c =>
          rw [source_kept] at sourceEq
          rw [shown_kept]
          exact stops_cons.mpr (stops c _ sourceEq.symm)

/-- The substitution after a masked value ends a run where the text does. -/
theorem stops_after_masked (describes : masking.Describes other) (proper : masking.Proper)
    (scan : Scan other masking.mask none pieces) {allowed : Char → Bool}
    {first left : List (Piece Char)} {value : Text} (equal : pieces = first ++ .masked value :: left)
    (stops : Stops allowed (source left)) : Stops allowed (shown masking.mask left) := by
  refine stops_shown rfl stops ?_
  rintro hidden more rfl
  exact not_masked_masked describes proper scan equal

/-- After a kept head and a kept character of its value, a stable text shows the mask. -/
theorem run_masked (describes : masking.Describes other)
    (scan : Scan other masking.mask none pieces) {closes : Char → Char → Prop}
    (clear : Clear masking closes) (finds : earlier.Describes find) (proper : earlier.Proper)
    {allowed : Char → Bool} (runs : ReadsRuns earlier allowed)
    (stable : Stable find (source pieces)) {first left : List (Piece Char)} {c : Char}
    {head value rest : Text} (equal : pieces = first ++ (head.map .kept ++ .kept c :: left))
    (bound : earlier.bound (lastOr none (source first)) = true) (isHead : earlier.IsHead head)
    (shownEq : shown masking.mask (.kept c :: left) = value ++ rest)
    (isValue : earlier.IsValue value rest) : value = earlier.mask := by
  obtain ⟨filled, all, stops⟩ := (runs.value value rest).mp isValue
  obtain ⟨d, tail, rfl⟩ := List.exists_cons_of_ne_nil filled
  obtain ⟨rfl, _⟩ : c = d ∧ _ := by simpa using shownEq
  obtain ⟨hidden, after, sourceEq, allHidden, stopsAfter⟩ :=
    exists_run allowed (source (.kept c :: left))
  have hiddenFilled : hidden ≠ [] := by
    rintro rfl
    rw [source_kept, List.nil_append] at sourceEq
    have excluded := stopsAfter c _ sourceEq.symm
    simp [all c List.mem_cons_self] at excluded
  have reads : earlier.Reads (source first).getLast? head hidden after :=
    ⟨by simpa [lastOr] using bound, isHead,
      (runs.value _ _).mpr ⟨hiddenFilled, allHidden, stopsAfter⟩⟩
  have masked := finds.value_eq proper
    (by rw [← sourceEq]; simpa [equal] using stable) reads
  rw [masked, runs.mask, source_kept] at sourceEq
  obtain ⟨rfl, sourceLeft⟩ : c = '[' ∧ source left = redacted.tail ++ after :=
    List.cons.inj sourceEq
  have seen : pieces = first ++ ((head ++ ['[']).map .kept ++ left) := by simp [equal]
  obtain ⟨kept, leftEq, keptEq, unmasked⟩ := mark_kept describes scan clear
    (proper.head head isHead) (List.cons_ne_nil '[' []) rfl seen sourceLeft
  have shownMark : shown masking.mask (.kept '[' :: left) =
      redacted ++ shown masking.mask kept := by
    rw [leftEq, shown_kept, shown_append, shown_map_kept]
    rfl
  rw [shownMark] at shownEq
  rw [runs.mask]
  exact (runs_unique shownEq runs.marks (stops_shown keptEq stopsAfter unmasked) all
    stops).1.symm

/-! ## A pattern after itself -/

theorem prefix_of_kept {text right value : Text} {left rest : List (Piece Char)}
    (equal : text.map Piece.kept ++ left = right.map Piece.kept ++ .masked value :: rest) :
    text <+: right := by
  have kept : Function.Injective (Piece.kept (α := Char)) := fun _ _ => Piece.kept.inj
  rcases List.append_eq_append_iff.mp equal with ⟨more, same, _⟩ | ⟨more, same, restEq⟩
  · obtain ⟨first, _, rfl, firstEq, _⟩ := List.map_eq_append_iff.mp same
    rw [← List.map_injective_iff.mpr kept firstEq]
    exact List.prefix_append _ _
  · cases more with
    | nil =>
        rw [List.append_nil] at same
        rw [List.map_injective_iff.mpr kept same]
    | cons piece more =>
        have member : Piece.masked value ∈ text.map Piece.kept := by
          rw [same, (List.cons.inj restEq).1]
          simp
        simp at member

/-- Where the pattern would match in the text, no head is kept before a kept value. -/
theorem not_kept_of_reads (describes : masking.Describes other)
    (scan : Scan other masking.mask none pieces) {first left : List (Piece Char)} {c : Char}
    {head value rest : Text} (equal : pieces = first ++ (head.map .kept ++ .kept c :: left))
    (reads : masking.Reads (lastOr none (source first)) head value rest)
    (sourceEq : source (.kept c :: left) = value ++ rest)
    (alone : ∀ start right, masking.IsHead (start ++ right) → ¬ head ++ [c] <+: right) : False := by
  obtain ⟨d, seconds, secondEq⟩ :
      ∃ d seconds, head.map .kept ++ .kept c :: left = Piece.kept d :: seconds := by
    cases head with
    | nil => exact ⟨c, left, rfl⟩
    | cons d head => exact ⟨d, _, rfl⟩
  have text : d :: source seconds = head ++ (value ++ rest) := by
    rw [← source_kept, ← secondEq, source_append, source_map_kept, sourceEq]
  rw [secondEq] at equal
  subst equal
  rcases scan.silent_of_kept with
    silent | ⟨_, start, right, hidden, after, _, inside, matched⟩
  · rw [text, describes.found reads] at silent
    contradiction
  · rw [← secondEq] at inside
    have longer : (head ++ [c]).map Piece.kept ++ left =
        right.map Piece.kept ++ .masked hidden :: after := by
      rw [← inside]
      simp
    exact alone start right (describes.reads matched).head (prefix_of_kept longer)

/-- A pattern of runs is stable in the text that it masked. -/
theorem stable_self_run (describes : masking.Describes other) (proper : masking.Proper)
    (scan : Scan other masking.mask none pieces) {allowed : Char → Bool}
    (runs : ReadsRuns masking allowed)
    (opens : ∀ before head value rest, masking.Reads before head value rest →
      Opens (head ++ (value ++ rest)))
    (gap : ∀ c tail value rest, masking.IsHead (c :: tail) → masking.IsValue value (c :: rest) →
      masking.bound value.getLast? = true)
    (plain : ∀ head, masking.IsHead head → '[' ∉ head)
    (alone : ∀ start right head c, masking.IsHead (start ++ right) → masking.IsHead head →
      allowed c = true → ¬ head ++ [c] <+: right) :
    Stable other (shown masking.mask pieces) := by
  have guarded : Guarded masking.mask = true := by
    rw [runs.mask]
    decide
  refine stable_shown describes proper scan describes proper guarded opens gap ?_
  intro first second head value rest equal bound isHead shownEq isValue
  obtain ⟨filled, all, stops⟩ := (runs.value value rest).mp isValue
  rw [runs.mask] at shownEq
  obtain ⟨left, rfl, shownLeft⟩ := kept_of_shown (plain head isHead) shownEq
  cases left with
  | nil =>
      rw [shown_nil, List.nil_eq, List.append_eq_nil_iff] at shownLeft
      exact absurd shownLeft.1 filled
  | cons piece left =>
      cases piece with
      | masked hidden =>
          have around : pieces = (first ++ head.map .kept) ++ .masked hidden :: left := by
            simp [equal]
          obtain ⟨_, _, _, reads⟩ := reads_of_masked describes scan around
          have after := ((runs.value hidden _).mp reads.value).2.2
          have stopsShown := stops_after_masked describes proper scan around after
          rw [runs.mask] at stopsShown
          rw [shown_masked] at shownLeft
          rw [runs.mask]
          exact (runs_unique shownLeft runs.marks stopsShown all stops).1.symm
      | kept c =>
          obtain ⟨d, tail, rfl⟩ := List.exists_cons_of_ne_nil filled
          obtain ⟨rfl, _⟩ : c = d ∧ _ := by simpa using shownLeft
          have allowedFirst := all c List.mem_cons_self
          obtain ⟨hidden, after, sourceEq, allHidden, stopsAfter⟩ :=
            exists_run allowed (source (.kept c :: left))
          have hiddenFilled : hidden ≠ [] := by
            rintro rfl
            rw [source_kept, List.nil_append] at sourceEq
            have excluded := stopsAfter c _ sourceEq.symm
            simp [allowedFirst] at excluded
          have reads : masking.Reads (lastOr none (source first)) head hidden after :=
            ⟨bound, isHead, (runs.value _ _).mpr ⟨hiddenFilled, allHidden, stopsAfter⟩⟩
          exact (not_kept_of_reads describes scan equal reads sourceEq fun start right isWhole =>
            alone start right head c isWhole isHead allowedFirst).elim

end Positions

end OhanaAgent.Privacy
