import OhanaAgent.Time.Order

/-!
# Texts across a clock change

A zone ahead of UTC writes its texts with a local time and an offset.  They sort
as the local times do, and by their offsets within one local time, so that two
instants sort the wrong way exactly when the clock was put back between them by
at least the time that passed.
-/

namespace OhanaAgent.Time

open Encoding.Json (Text)

/-! ## Offsets -/

/-- An offset of whole seconds, at least that of UTC and less than a day. -/
def Eastern (offset : Int) : Prop :=
  0 ≤ offset ∧ offset < day ∧ offset % second = 0

instance (offset : Int) : Decidable (Eastern offset) :=
  inferInstanceAs (Decidable (_ ∧ _))

/-- The seconds of an offset text, when there are some. -/
def offsetSeconds (total : Int) : Text :=
  if total % 60 = 0 then [] else ':' :: padded 2 (total % 60)

theorem offsetText_of_eastern {offset : Int} (eastern : Eastern offset) :
    offsetText offset = '+' :: (padded 2 (offset / second / 3600) ++
      ':' :: (padded 2 (offset / second / 60 % 60) ++ offsetSeconds (offset / second))) := by
  have size : (offset.natAbs : Int) = offset := Int.natAbs_of_nonneg eastern.1
  simp only [offsetText, offsetSeconds, size, Int.not_lt.mpr eastern.1, if_false, second,
    List.append_assoc, List.cons_append]
  rfl

theorem offsetSeconds_lt {first last : Int} (less : first % 60 < last % 60) :
    offsetSeconds first < offsetSeconds last := by
  have some : ¬ last % 60 = 0 := by omega
  unfold offsetSeconds
  rw [if_neg some]
  split
  · exact List.nil_lt_cons _ _
  · have digits : padded 2 (first % 60) ++ [] < padded 2 (last % 60) ++ [] :=
      padded_append_lt (by omega) (by omega) (Or.inl less)
    rw [List.append_nil, List.append_nil] at digits
    exact cons_lt_cons digits

/-- Larger offsets have larger texts. -/
theorem offsetText_lt {first last : Int} (firstEastern : Eastern first)
    (lastEastern : Eastern last) (less : first < last) : offsetText first < offsetText last := by
  rw [offsetText_of_eastern firstEastern, offsetText_of_eastern lastEastern]
  rcases firstEastern with ⟨firstLow, _, firstWhole⟩
  rcases lastEastern with ⟨_, lastHigh, lastWhole⟩
  unfold day hour minute at lastHigh
  unfold second at *
  apply cons_lt_cons
  rcases (by omega : first / 1000000 / 3600 < last / 1000000 / 3600 ∨
    first / 1000000 / 3600 = last / 1000000 / 3600 ∧
      (first / 1000000 / 60 % 60 < last / 1000000 / 60 % 60 ∨
        first / 1000000 / 60 % 60 = last / 1000000 / 60 % 60 ∧
          first / 1000000 % 60 < last / 1000000 % 60)) with hours | ⟨hours, minutes | ⟨minutes, rest⟩⟩
  · exact padded_append_lt (by omega) (by omega) (Or.inl hours)
  · apply padded_append_lt (by omega) (by omega)
    exact Or.inr ⟨hours, cons_lt_cons (padded_append_lt (by omega) (by omega) (Or.inl minutes))⟩
  · rw [hours, minutes]
    exact List.append_left_lt (cons_lt_cons (List.append_left_lt (offsetSeconds_lt rest)))

/-- An offset of whole seconds, less than a day on either side of UTC. -/
def Shift (offset : Int) : Prop :=
  Eastern offset.natAbs

instance (offset : Int) : Decidable (Shift offset) :=
  inferInstanceAs (Decidable (Eastern _))

theorem offsetText_eq_cons (offset : Int) :
    offsetText offset = (if offset < 0 then '-' else '+') :: (offsetText offset.natAbs).tail :=
  rfl

/-- A text shows one offset. -/
theorem offsetText_inj {first last : Int} (firstShift : Shift first) (lastShift : Shift last)
    (same : offsetText first = offsetText last) : first = last := by
  rw [offsetText_eq_cons first, offsetText_eq_cons last, List.cons_eq_cons] at same
  have signs : first < 0 ↔ last < 0 := by
    have heads := same.1
    split at heads <;> split at heads <;> first | omega | exact absurd heads (by decide)
  have texts : offsetText first.natAbs = offsetText last.natAbs := by
    rw [offsetText_eq_cons first.natAbs, offsetText_eq_cons last.natAbs, List.cons_eq_cons]
    exact ⟨rfl, same.2⟩
  have sizes : (first.natAbs : Int) = last.natAbs := by
    rcases Int.lt_trichotomy first.natAbs last.natAbs with less | equal | more
    · exact absurd (offsetText_lt firstShift lastShift less) (texts ▸ List.lt_irrefl _)
    · exact equal
    · exact absurd (offsetText_lt lastShift firstShift more) (texts ▸ List.lt_irrefl _)
  omega

/-! ## Texts of two local times -/

/-- What follows the microseconds is not more of them. -/
def Closing (text : Text) : Prop :=
  ∃ c rest, text = c :: rest ∧ c ≠ '.'

theorem fraction_inj {first last : Int} {left right : Text} (leftCloses : Closing left)
    (rightCloses : Closing right) (same : fraction first ++ left = fraction last ++ right) :
    first % second = last % second := by
  have digits {first last : Int} {left right : Text} (less : first % second < last % second) :
      padded 6 (first % second) ++ left ≠ padded 6 (last % second) ++ right := by
    have range : 0 ≤ first % second ∧ last % second < 10 ^ 6 := by
      unfold second
      omega
    intro same
    apply List.lt_irrefl (padded 6 (first % second) ++ left)
    nth_rewrite 2 [same]
    exact padded_append_lt (by omega) (by omega) (Or.inl less)
  rcases leftCloses with ⟨c, leftRest, rfl, notDot⟩
  rcases rightCloses with ⟨d, rightRest, rfl, notDot'⟩
  unfold fraction at same
  split at same
  · rename_i firstWhole
    split at same
    · rename_i lastWhole
      rw [firstWhole, lastWhole]
    · rw [List.nil_append, List.cons_append, List.cons_eq_cons] at same
      exact absurd same.1 notDot
  · split at same
    · rw [List.nil_append, List.cons_append, List.cons_eq_cons] at same
      exact absurd same.1.symm notDot'
    · rw [List.cons_append, List.cons_append, List.cons_eq_cons] at same
      rcases Int.lt_trichotomy (first % second) (last % second) with less | equal | more
      · exact absurd same.2 (digits less)
      · exact equal
      · exact absurd same.2.symm (digits more)

theorem localText_append_ne {first last : Int} {left right : Text}
    (firstHeld : Representable first) (lastHeld : Representable last)
    (less : first / second < last / second) : localText first ++ left ≠ localText last ++ right := by
  intro same
  have texts := @localText_lt_of_second first last left right firstHeld lastHeld less
  rw [same] at texts
  exact List.lt_irrefl _ texts

/-- A text shows one local time. -/
theorem localText_append_inj {first last : Int} {left right : Text}
    (firstHeld : Representable first) (lastHeld : Representable last) (leftCloses : Closing left)
    (rightCloses : Closing right) (same : localText first ++ left = localText last ++ right) :
    first = last ∧ left = right := by
  have seconds : first / second = last / second := by
    rcases Int.lt_trichotomy (first / second) (last / second) with less | equal | more
    · exact absurd same (localText_append_ne firstHeld lastHeld less)
    · exact equal
    · exact absurd same.symm (localText_append_ne lastHeld firstHeld more)
  rw [localText_append_eq, localText_append_eq, secondText_congr seconds,
    List.append_cancel_left_eq] at same
  have micros := fraction_inj leftCloses rightCloses same
  have equal : first = last := by
    unfold second at seconds micros
    omega
  subst equal
  exact ⟨rfl, List.append_cancel_left same⟩

/-! ## Texts of a zone -/

namespace Zone

variable {zone : Zone} {first last stored bound : Int}

/-- From one instant to a later one the clock was put back by at least the time
that passed. -/
def PutBack (zone : Zone) (earlier later : Int) : Prop :=
  earlier < later ∧ later - earlier ≤ zone.utcOffset earlier - zone.utcOffset later

instance (zone : Zone) (earlier later : Int) : Decidable (zone.PutBack earlier later) :=
  inferInstanceAs (Decidable (_ ∧ _))

/-- Between two instants, in either order, the clock was not put back by that
much. -/
def Forward (zone : Zone) (first second : Int) : Prop :=
  ¬ zone.PutBack first second ∧ ¬ zone.PutBack second first

instance (zone : Zone) (first second : Int) : Decidable (zone.Forward first second) :=
  inferInstanceAs (Decidable (_ ∧ _))

theorem isoformat_lt_of_wall (firstHeld : Representable (zone.wall first))
    (lastHeld : Representable (zone.wall last)) (less : zone.wall first < zone.wall last) :
    zone.isoformat first < zone.isoformat last :=
  localText_lt firstHeld lastHeld (offsetText_tail _) less

/-- Texts sort as local times, and one local time by its offset. -/
theorem isoformat_lt_iff (eastern : ∀ instant, Eastern (zone.utcOffset instant))
    (firstHeld : Representable (zone.wall first)) (lastHeld : Representable (zone.wall last)) :
    zone.isoformat first < zone.isoformat last ↔ zone.wall first < zone.wall last ∨
      zone.wall first = zone.wall last ∧ zone.utcOffset first < zone.utcOffset last := by
  have sameWall {first last : Int} (walls : zone.wall first = zone.wall last)
      (less : zone.utcOffset first < zone.utcOffset last) :
      zone.isoformat first < zone.isoformat last := by
    unfold isoformat isoText
    rw [show first + zone.utcOffset first = last + zone.utcOffset last from walls]
    exact List.append_left_lt (offsetText_lt (eastern first) (eastern last) less)
  constructor
  · intro texts
    rcases Int.lt_trichotomy (zone.wall first) (zone.wall last) with walls | walls | walls
    · exact Or.inl walls
    · rcases Int.lt_trichotomy (zone.utcOffset first) (zone.utcOffset last) with less | same | more
      · exact Or.inr ⟨walls, less⟩
      · have equal : first = last := by
          unfold wall at walls
          omega
        exact absurd texts (equal ▸ List.lt_irrefl _)
      · exact absurd texts (List.lt_asymm (sameWall walls.symm more))
    · exact absurd texts (List.lt_asymm (isoformat_lt_of_wall lastHeld firstHeld walls))
  · rintro (walls | ⟨walls, less⟩)
    · exact isoformat_lt_of_wall firstHeld lastHeld walls
    · exact sameWall walls less

/-- The texts of two instants compare strictly as the instants unless the clock
was put back between them. -/
theorem isoformat_lt_agrees_iff (eastern : ∀ instant, Eastern (zone.utcOffset instant))
    (storedHeld : Representable (zone.wall stored)) (boundHeld : Representable (zone.wall bound)) :
    (zone.isoformat stored < zone.isoformat bound ↔ stored < bound) ↔
      zone.Forward stored bound := by
  have same : stored = bound → zone.utcOffset stored = zone.utcOffset bound :=
    congrArg zone.utcOffset
  rw [isoformat_lt_iff eastern storedHeld boundHeld]
  unfold Forward PutBack wall
  omega

/-- The texts of two instants compare as the instants unless the clock was put
back between them. -/
theorem isoformat_le_agrees_iff (eastern : ∀ instant, Eastern (zone.utcOffset instant))
    (storedHeld : Representable (zone.wall stored)) (boundHeld : Representable (zone.wall bound)) :
    (zone.isoformat stored ≤ zone.isoformat bound ↔ stored ≤ bound) ↔
      zone.Forward stored bound := by
  have same : stored = bound → zone.utcOffset stored = zone.utcOffset bound :=
    congrArg zone.utcOffset
  rw [← List.not_lt, isoformat_lt_iff eastern boundHeld storedHeld]
  unfold Forward PutBack wall
  omega

end Zone

end OhanaAgent.Time
