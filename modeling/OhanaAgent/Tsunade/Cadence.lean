import Mathlib.Data.List.Sort
import OhanaAgent.Tsunade.Service

/-!
# The cadence of observations

A repair is verified after three observation intervals of its incident.  The
interval is read from the two latest rows that name an observation, and one
observation may have written both; when the latest observation wrote one row,
the rows are the two most recent observations.
-/

namespace OhanaAgent.Tsunade

open OhanaAgent.Encoding.Json
open OhanaAgent.Store
open OhanaAgent.Time

namespace Store

variable {store : Store} {incidentId : Text} {latest previous : Int}

/-- The rows of an incident that name an observation, in the order of the
table. -/
def observationRows (incidentId : Text) (store : Store) : List Event :=
  store.events.filter fun event => event.incidentId = incidentId && event.observationId.isSome

/-- The two most recent distinct times of observations. -/
structure LatestTwo (rows : List Event) (latest previous : Int) : Prop where
  latest_recorded : ∃ row ∈ rows, row.occurredAt = latest
  previous_recorded : ∃ row ∈ rows, row.occurredAt = previous
  less : previous < latest
  none_between : ∀ row ∈ rows, row.occurredAt = latest ∨ row.occurredAt ≤ previous

/-- The database tells a time from the other times of the rows. -/
def ToldApart (rows : List Event) (time : Int) : Prop :=
  ∀ row ∈ rows, julianday row.occurredAt = julianday time → row.occurredAt = time

instance (rows : List Event) (time : Int) : Decidable (ToldApart rows time) :=
  inferInstanceAs (Decidable (∀ row ∈ rows, _))

/-- One observation row has a time. -/
def OneRowAt (rows : List Event) (time : Int) : Prop :=
  (rows.filter fun row => row.occurredAt = time).length = 1

instance (rows : List Event) (time : Int) : Decidable (OneRowAt rows time) :=
  inferInstanceAs (Decidable (_ = 1))

/-- Three intervals between two times, within the bounds. -/
def cadence (latest previous : Int) : Int :=
  min (max (3 * (latest - previous)) (seconds 300)) (seconds 1800)

/-! ## The two latest rows -/

theorem observedEvents_perm (incidentId : Text) (store : Store) :
    (store.observedEvents incidentId).Perm (store.observationRows incidentId) :=
  List.perm_insertionSort _ _

theorem mem_observedEvents {row : Event} :
    row ∈ store.observedEvents incidentId ↔ row ∈ store.observationRows incidentId :=
  (observedEvents_perm incidentId store).mem_iff

theorem observedEvents_ordered (incidentId : Text) (store : Store) :
    (store.observedEvents incidentId).Pairwise fun first second =>
      julianday second.occurredAt ≤ julianday first.occurredAt := by
  have total : Std.Total fun first second : Event =>
      julianday second.occurredAt ≤ julianday first.occurredAt :=
    ⟨fun first second => Int.le_total _ _⟩
  have transitive : IsTrans Event fun first second =>
      julianday second.occurredAt ≤ julianday first.occurredAt :=
    ⟨fun first second third ordered next => Int.le_trans next ordered⟩
  exact List.pairwise_insertionSort _ _

/-- A row that is no later than a time told apart, but as late for the database, has
that time. -/
theorem ToldApart.eq_of_le {rows : List Event} {time : Int} (apart : ToldApart rows time)
    {row : Event} (member : row ∈ rows) (ordered : row.occurredAt ≤ time)
    (asLate : julianday time ≤ julianday row.occurredAt) : row.occurredAt = time :=
  apart row member (Int.le_antisymm (julianday_mono ordered) asLate)

/-- The latest two rows are those of the two most recent times, when the latest
time has one row. -/
theorem observedEvents_eq_cons (latestApart : ToldApart (store.observationRows incidentId) latest)
    (previousApart : ToldApart (store.observationRows incidentId) previous)
    (two : LatestTwo (store.observationRows incidentId) latest previous)
    (one : OneRowAt (store.observationRows incidentId) latest) :
    ∃ first second rest, store.observedEvents incidentId = first :: second :: rest ∧
      first.occurredAt = latest ∧ second.occurredAt = previous := by
  obtain ⟨newest, newestMember, newestTime⟩ := two.latest_recorded
  obtain ⟨older, olderMember, olderTime⟩ := two.previous_recorded
  have ordered := observedEvents_ordered incidentId store
  have less := two.less
  have alone : ((store.observedEvents incidentId).filter fun row =>
      row.occurredAt = latest).length = 1 := by
    rw [← one]
    exact ((observedEvents_perm incidentId store).filter _).length_eq
  rw [← mem_observedEvents] at newestMember olderMember
  cases rows : store.observedEvents incidentId with
  | nil =>
      rw [rows] at newestMember
      cases newestMember
  | cons first tail =>
      have member {row : Event} (inside : row ∈ first :: tail) :
          row ∈ store.observationRows incidentId :=
        mem_observedEvents.mp (rows ▸ inside)
      rw [rows] at ordered newestMember olderMember alone
      rw [List.pairwise_cons] at ordered
      have firstTime : first.occurredAt = latest := by
        rcases List.mem_cons.mp newestMember with same | later
        · rw [← same, newestTime]
        · have bound : first.occurredAt ≤ latest := by
            rcases two.none_between first (member List.mem_cons_self) with same | before
            · omega
            · omega
          exact latestApart.eq_of_le (member List.mem_cons_self) bound
            (newestTime ▸ ordered.1 newest later)
      have inTail : older ∈ tail := by
        rcases List.mem_cons.mp olderMember with same | later
        · rw [← same] at firstTime
          omega
        · exact later
      cases tail with
      | nil => cases inTail
      | cons second rest =>
          refine ⟨first, second, rest, rfl, firstTime, ?_⟩
          have secondMember : second ∈ store.observationRows incidentId :=
            member (List.mem_cons_of_mem first List.mem_cons_self)
          have notLatest : second.occurredAt ≠ latest := by
            intro same
            simp only [List.filter_cons, firstTime, same, decide_true, if_true,
              List.length_cons] at alone
            omega
          have bound : second.occurredAt ≤ previous := by
            rcases two.none_between second secondMember with same | before
            · exact absurd same notLatest
            · exact before
          rcases List.mem_cons.mp inTail with same | later
          · rw [← same, olderTime]
          · exact previousApart.eq_of_le secondMember bound
              (olderTime ▸ (List.pairwise_cons.mp ordered.2).1 older later)

/-! ## The delay -/

/-- Rows of one time give the default delay. -/
theorem verificationSeconds_of_same (same : ∀ first ∈ store.observationRows incidentId,
    ∀ second ∈ store.observationRows incidentId, first.occurredAt = second.occurredAt) :
    store.verificationSeconds incidentId = repairVerificationSeconds := by
  unfold verificationSeconds
  cases rows : store.observedEvents incidentId with
  | nil => rfl
  | cons first tail =>
      cases tail with
      | nil => rfl
      | cons second rest =>
          have times := same first (mem_observedEvents.mp (rows ▸ List.mem_cons_self)) second
            (mem_observedEvents.mp (rows ▸ List.mem_cons_of_mem first List.mem_cons_self))
          simp only [times, Int.sub_self, Int.le_refl, if_true]

/-- Two rows of different times give three intervals. -/
theorem verificationSeconds_of_two {first second : Event} {rest : List Event}
    (rows : store.observedEvents incidentId = first :: second :: rest)
    (less : second.occurredAt < first.occurredAt) :
    (store.verificationSeconds incidentId : Int) =
      cadence first.occurredAt second.occurredAt / Time.second := by
  have positive : ¬ first.occurredAt - second.occurredAt ≤ 0 := by omega
  unfold verificationSeconds
  simp only [rows, if_neg positive]
  apply Int.toNat_of_nonneg
  unfold seconds Time.second
  omega

/-- Fewer than two distinct observation times give the default delay; when the
latest of two distinct times has one row, and the database tells both from the
other times, the delay is three times their gap within the bounds, in whole
seconds. -/
theorem delay_follows_cadence (store : Store) (incidentId : Text) :
    ((∀ first ∈ store.observationRows incidentId, ∀ second ∈ store.observationRows incidentId,
        first.occurredAt = second.occurredAt) →
      store.verificationSeconds incidentId = 900) ∧
    ∀ latest previous, LatestTwo (store.observationRows incidentId) latest previous →
      ToldApart (store.observationRows incidentId) latest →
        ToldApart (store.observationRows incidentId) previous →
          OneRowAt (store.observationRows incidentId) latest →
            (store.verificationSeconds incidentId : Int) = cadence latest previous / second := by
  constructor
  · exact verificationSeconds_of_same
  · intro latest previous two latestApart previousApart one
    obtain ⟨first, second, rest, rows, rfl, rfl⟩ :=
      observedEvents_eq_cons latestApart previousApart two one
    exact verificationSeconds_of_two rows two.less

/-! ## Three histories -/

/-- The delay is three times the gap of the two most recent observations within
the bounds, and 900 seconds exactly when there are no two distinct times. -/
def FollowsCadence (rows : List Event) (delay : Nat) : Prop :=
  (∀ latest previous, LatestTwo rows latest previous → seconds delay = cadence latest previous) ∧
    (delay = 900 ↔ ¬ ∃ latest previous, LatestTwo rows latest previous)

/-- A row of an unhealthy observation. -/
def observedRow (kind : EventKind) (occurredAt : Int) : Event where
  incidentId := "incident".toList
  kind := kind
  occurredAt := occurredAt
  observationId := some (localText occurredAt)
  status := some .unhealthy
  summary := ""
  payload := object []

def history (rows : List Event) : Store :=
  { Store.empty with events := rows }

/-- Observations five minutes apart. -/
def fiveMinutes : Store :=
  history [observedRow .opened 0, observedRow .observed (seconds 300)]

/-- Observations 100 seconds apart, the second of which also gave the verdict on a
repair. -/
def verdict : Store :=
  history [observedRow .opened 0, observedRow .result (seconds 100),
    observedRow .observed (seconds 100)]

/-- Observations 200 seconds apart. -/
def spaced : Store :=
  history [observedRow .opened 0, observedRow .observed (seconds 200)]

/-- Three intervals of five minutes are 900 seconds, and a verdict hides the
interval of its observation. -/
theorem cadence_not_followed :
    ¬ FollowsCadence (fiveMinutes.observationRows "incident".toList)
        (fiveMinutes.verificationSeconds "incident".toList) ∧
      ¬ FollowsCadence (verdict.observationRows "incident".toList)
        (verdict.verificationSeconds "incident".toList) := by
  constructor
  · rintro ⟨_, default⟩
    apply default.mp rfl
    exact ⟨seconds 300, 0, ⟨_, List.mem_cons_of_mem _ List.mem_cons_self, rfl⟩,
      ⟨_, List.mem_cons_self, rfl⟩, by decide, by decide⟩
  · rintro ⟨interval, _⟩
    have wrong := interval (seconds 100) 0
      ⟨⟨_, List.mem_cons_of_mem _ List.mem_cons_self, rfl⟩, ⟨_, List.mem_cons_self, rfl⟩,
        by decide, by decide⟩
    exact absurd wrong (by decide)

theorem spaced_delay : spaced.verificationSeconds "incident".toList = 600 := by
  have delay := (delay_follows_cadence spaced "incident".toList).2 (seconds 200) 0
    ⟨⟨_, List.mem_cons_of_mem _ List.mem_cons_self, rfl⟩, ⟨_, List.mem_cons_self, rfl⟩,
      by decide, by decide⟩ (by decide) (by decide) (by decide)
  have computed : cadence (seconds 200) 0 / second = 600 := by decide
  omega

end Store

end OhanaAgent.Tsunade
