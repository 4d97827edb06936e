import OhanaAgent.Tsunade.Capabilities
import OhanaAgent.Tsunade.Supervision

/-!
# Delivering an observation again

`process` drops an observation whose identifier it remembers or whose timestamp
is before the stored state.  The identifiers are purged after a day, and the
comparison is strict: the latest observation of a capability is applied a second
time when it comes back after the purge.
-/

namespace OhanaAgent.Tsunade

open OhanaAgent.Encoding.Json
open OhanaAgent.Store
open OhanaAgent.Time
open OhanaAgent.Transition

variable {env : Environment} {now : Int} {store : Store}

/-- The identifier is known and the purge that is due keeps it. -/
def Store.Remembers (env : Environment) (now : Int) (store : Store) (id : Text) : Prop :=
  ∃ processedAt, store.processed id = some processedAt ∧
    (store.purgedOn = some (env.paris.wall now / day) ∨
      julianday (now - processedRetention) ≤ julianday processedAt)

theorem remembers_iff {id : Text} : store.Remembers env now id ↔
    ((store.purgeProcessedIfDue env now).processed id).isSome = true := by
  unfold Store.Remembers Store.purgeProcessedIfDue
  dsimp only
  split
  · rename_i purged
    simp [purged, Option.isSome_iff_exists]
  · rename_i due
    simp only [due, false_or, Store.purgeProcessedObservations, Option.isSome_iff_exists,
      Option.filter_eq_some_iff, decide_eq_true_eq]

/-- The transition applies the observation: it is neither remembered nor late. -/
def Accepts (env : Environment) (observation : Observation) (service : Service) (label : Label) :
    Prop :=
  label.action = .process observation ∧ ¬ service.store.Remembers env label.now observation.id ∧
    ¬ service.store.Late observation

/-- The incidents, the repairs, the manual actions, the counters of the
experiences and the events are the same. -/
structure Store.SameRecords (before after : Store) : Prop where
  incidents : after.incidents = before.incidents
  repairs : after.repairs = before.repairs
  manualActions : after.manualActions = before.manualActions
  experiences : after.experiences = before.experiences
  events : after.events = before.events

/-- The purge leaves the states and the active incidents. -/
theorem late_purge {observation : Observation} :
    (store.purgeProcessedIfDue env now).Late observation ↔ store.Late observation := by
  obtain ⟨_, _, equal⟩ := purge_eq env now store
  rw [equal]
  rfl

theorem spares_purge {observation : Observation} :
    (store.purgeProcessedIfDue env now).Spares observation ↔ store.Spares observation := by
  obtain ⟨_, _, equal⟩ := purge_eq env now store
  rw [equal]
  rfl

/-- An applied observation leaves a state that is not before it. -/
theorem Accepts.state {service : Service} {label : Label} {observation : Observation}
    (reliable : service.Reliable env) (accepts : Accepts env observation service label) :
    ∃ state, (service.act env label.now label.action).store.states observation.key = some state ∧
      state.observedAt = observation.timestamp := by
  obtain ⟨observes, forgotten, timely⟩ := accepts
  have moved : (service.act env label.now label.action).store =
      (service.store.process env label.now observation).2 := by
    rw [observes]
    rfl
  rw [moved]
  have processed := @processed_process env label.now service.store reliable.catalogued observation
  rw [remembers_iff] at forgotten
  rw [← @late_purge env label.now] at timely
  generalize (service.store.process env label.now observation).2 = after at processed
  cases processed with
  | known remembered => exact absurd remembered forgotten
  | late _ late => exact absurd late timely
  | accepted _ _ _ => exact ⟨_, Function.update_self .., rfl⟩

/-- The state of its capability is never before an observation that was
applied. -/
theorem Happened.state {start : Service} (reliable : start.Reliable env) {labels : List Label}
    {observation : Observation} (applied : Happened env start (Accepts env observation) labels) :
    ∃ state, (execute env labels start).store.states observation.key = some state ∧
      observation.timestamp ≤ state.observedAt := by
  obtain ⟨earlier, label, later, rfl, accepts⟩ := applied
  have before := (reliable.execute earlier).1
  obtain ⟨state, found, same⟩ := accepts.state before
  obtain ⟨next, nextFound, newer⟩ := ((before.act label).1.execute later).2 _ state found
  exact ⟨next, by rw [execute_append]; exact nextFound, same ▸ newer⟩

/-- What an effect on the incidents needs: a fault, or a recovery of an active
incident. -/
theorem Applied.spares_or_grows {observation : Observation} {after : Store}
    (applied : Applied env observation store after) :
    (store.Spares observation ∧ after = store) ∨
      (¬ store.Spares observation ∧ store.events.length < after.events.length) := by
  cases applied with
  | opened severity fault idle rows uuids grows =>
      exact Or.inr ⟨fun spares => absurd spares.1 (by simp [fault]), grows⟩
  | updated severity incident fault active incidents uuids grows =>
      exact Or.inr ⟨fun spares => absurd spares.1 (by simp [fault]), grows⟩
  | resolved incident healthy active incidents uuids grows =>
      refine Or.inr ⟨fun spares => ?_, grows⟩
      rw [spares.2 healthy] at active
      contradiction
  | spared spares same => exact Or.inl ⟨spares, same⟩

/-- An observation that was applied, delivered again after any run, changes no
incident, repair, manual action, counter or event if and only if its identifier
is remembered, or the state of its capability has another timestamp, or it shows
neither a fault nor the recovery of an active incident. -/
theorem redelivery_ignored_iff (env : Environment)
    (experiences : Table ExperienceRow ExperienceRow.experienceId) (labels : List Label)
    (observation : Observation) (now : Int)
    (applied : Happened env (Service.start experiences) (Accepts env observation) labels) :
    (execute env labels (Service.start experiences)).store.SameRecords
        ((execute env labels (Service.start experiences)).store.process env now observation).2 ↔
      (execute env labels (Service.start experiences)).store.Remembers env now observation.id ∨
        (∃ state, (execute env labels (Service.start experiences)).store.states observation.key =
          some state ∧ state.observedAt ≠ observation.timestamp) ∨
        (execute env labels (Service.start experiences)).store.Spares observation := by
  have reliable := @Service.reliable_start env experiences
  obtain ⟨state, found, notBefore⟩ := applied.state reliable
  have catalogued := (reliable.execute labels).1.catalogued
  generalize (execute env labels (Service.start experiences)).store = store at *
  have processed := @processed_process env now store catalogued observation
  obtain ⟨identifiers, purgedOn, equal⟩ := purge_eq env now store
  rw [remembers_iff, ← @spares_purge env now]
  rw [equal] at processed ⊢
  generalize (store.process env now observation).2 = after at processed
  cases processed with
  | known remembered => exact iff_of_true ⟨rfl, rfl, rfl, rfl, rfl⟩ (Or.inl remembered)
  | late _ late =>
      obtain ⟨stored, storedFound, later⟩ := late
      exact iff_of_true ⟨rfl, rfl, rfl, rfl, rfl⟩
        (Or.inr (Or.inl ⟨stored, storedFound, later.ne'⟩))
  | accepted forgotten timely observed =>
      rcases observed.applied.spares_or_grows with ⟨spares, rfl⟩ | ⟨effective, grows⟩
      · exact iff_of_true ⟨rfl, rfl, rfl, rfl, rfl⟩ (Or.inr (Or.inr spares))
      · have same : state.observedAt = observation.timestamp := by
          refine le_antisymm ?_ notBefore
          by_contra later
          exact timely ⟨state, found, not_le.mp later⟩
        refine iff_of_false (fun records => ?_) ?_
        · exact grows.ne' (congrArg List.length records.events)
        · rintro (remembered | ⟨other, otherFound, different⟩ | spares)
          · exact Option.not_isSome_iff_eq_none.mpr forgotten remembered
          · rw [found] at otherFound
            exact different (Option.some.inj otherFound ▸ same)
          · exact effective spares

/-- A fault is applied in the morning and nothing follows. -/
def quietFault : List Label :=
  [minutesIn 0 (.process (dhcpObservation ['a'] .unhealthy summerMorning))]

theorem quietFault_applied : Happened summerEnvironment (Service.start ∅)
    (Accepts summerEnvironment (dhcpObservation ['a'] .unhealthy summerMorning)) quietFault := by
  refine ⟨[], _, [], rfl, rfl, ?_, ?_⟩
  · rintro ⟨_, found, _⟩
    contradiction
  · rintro ⟨_, found, _⟩
    contradiction

theorem quietFault_ignored_an_hour_later :
    (execute summerEnvironment quietFault (Service.start ∅)).store.SameRecords
      ((execute summerEnvironment quietFault (Service.start ∅)).store.process summerEnvironment
        (summerMorning + hour) (dhcpObservation ['a'] .unhealthy summerMorning)).2 :=
  (redelivery_ignored_iff summerEnvironment ∅ quietFault _ _ quietFault_applied).mpr
    (Or.inl ⟨summerMorning, by decide +kernel, Or.inl (by decide +kernel)⟩)

/-- Two days later the same fault is counted a second time. -/
theorem quietFault_counted_again :
    ¬ ∀ (env : Environment) (experiences : Table ExperienceRow ExperienceRow.experienceId)
      (labels : List Label) (observation : Observation) (now : Int),
      Happened env (Service.start experiences) (Accepts env observation) labels →
      (execute env labels (Service.start experiences)).store.SameRecords
        ((execute env labels (Service.start experiences)).store.process env now observation).2 := by
  intro ignored
  have same := (ignored summerEnvironment ∅ quietFault _ (summerMorning + 2 * day)
    quietFault_applied).incidents
  have counts := congrArg (fun table => table.rows.map IncidentRow.occurrenceCount) same
  exact absurd counts (by decide +kernel)

end OhanaAgent.Tsunade
