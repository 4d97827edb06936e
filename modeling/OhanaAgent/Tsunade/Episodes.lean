import OhanaAgent.Tsunade.Redelivery

/-!
# Incidents as episodes of observations

The abstract reading of a capability: the accepted observations in the order of
their acceptance.  A fault after no fault opens an episode, a recovery ends it,
and an incident is one episode with the number of its faults.
-/

namespace OhanaAgent.Tsunade

open OhanaAgent.Encoding.Json
open OhanaAgent.Store
open OhanaAgent.Time
open OhanaAgent.Transition

variable {env : Environment}

/-! ## Sequences of accepted observations -/

/-- The observation shows a fault. -/
def Observation.isFault (observation : Observation) : Bool :=
  observation.status.fault?.isSome

/-- The observation shows a fault or a healthy capability. -/
def Observation.isDecisive (observation : Observation) : Bool :=
  observation.isFault || observation.status = .healthy

/-- The last decisive observation is a fault. -/
def EndsInFault (accepted : List Observation) : Prop :=
  ∃ last, (accepted.filter Observation.isDecisive).getLast? = some last ∧ last.isFault = true

/-- The number of faults that open an episode, when one may be open at the
start. -/
def openings (ongoing : Bool) : List Observation → Nat
  | [] => 0
  | observation :: rest =>
      if observation.isFault then (if ongoing then 0 else 1) + openings true rest
      else openings (ongoing && !observation.isDecisive) rest

theorem Observation.not_isFault_of_healthy {observation : Observation}
    (healthy : observation.status = .healthy) : observation.isFault = false := by
  simp [Observation.isFault, healthy, ObservationStatus.fault?]

theorem endsInFault_concat_fault {accepted : List Observation} {observation : Observation}
    (fault : observation.isFault = true) : EndsInFault (accepted ++ [observation]) :=
  ⟨observation, by simp [Observation.isDecisive, fault], fault⟩

theorem not_endsInFault_concat_healthy {accepted : List Observation} {observation : Observation}
    (healthy : observation.status = .healthy) : ¬ EndsInFault (accepted ++ [observation]) := by
  rintro ⟨last, found, fault⟩
  simp only [List.filter_append, List.filter_cons, Observation.isDecisive, healthy,
    decide_true, Bool.or_true, if_true, List.filter_nil, List.getLast?_concat,
    Option.some.injEq] at found
  rw [← found, Observation.not_isFault_of_healthy healthy] at fault
  contradiction

theorem endsInFault_concat_other {accepted : List Observation} {observation : Observation}
    (other : observation.isDecisive = false) :
    EndsInFault (accepted ++ [observation]) ↔ EndsInFault accepted := by
  simp [EndsInFault, other]

/-- An episode is open after a sequence. -/
def ongoingAfter (ongoing : Bool) : List Observation → Bool
  | [] => ongoing
  | observation :: rest =>
      ongoingAfter (observation.isFault || (ongoing && !observation.isDecisive)) rest

theorem ongoingAfter_concat (ongoing : Bool) (accepted : List Observation)
    (observation : Observation) :
    ongoingAfter ongoing (accepted ++ [observation]) =
      (observation.isFault || (ongoingAfter ongoing accepted && !observation.isDecisive)) := by
  induction accepted generalizing ongoing with
  | nil => rfl
  | cons head rest ih => exact ih _

theorem ongoingAfter_iff (accepted : List Observation) :
    ongoingAfter false accepted = true ↔ EndsInFault accepted := by
  induction accepted using List.reverseRecOn with
  | nil => simp [ongoingAfter, EndsInFault]
  | append_singleton accepted observation ih =>
      rw [ongoingAfter_concat]
      by_cases fault : observation.isFault = true
      · simp [fault, endsInFault_concat_fault fault]
      · by_cases healthy : observation.status = .healthy
        · simp [Observation.isDecisive, fault, healthy, not_endsInFault_concat_healthy healthy]
        · have other : observation.isDecisive = false := by
            simp [Observation.isDecisive, fault, healthy]
          rw [endsInFault_concat_other other, ← ih]
          simp [fault, other]

/-- A fault opens an episode when no episode is open. -/
theorem openings_concat (ongoing : Bool) (accepted : List Observation) (observation : Observation) :
    openings ongoing (accepted ++ [observation]) = openings ongoing accepted +
      (if observation.isFault && !ongoingAfter ongoing accepted then 1 else 0) := by
  induction accepted generalizing ongoing with
  | nil =>
      cases ongoing <;> cases fault : observation.isFault <;>
        simp [openings, ongoingAfter, fault]
  | cons head rest ih =>
      rw [List.cons_append, openings, openings, ongoingAfter]
      cases fault : head.isFault with
      | true => simp [ih, Nat.add_assoc]
      | false => simp [ih]

/-! ## Episodes -/

/-- The incident is the episode of the accepted observations of its capability
that comes after as many others as it counts: from the fault that opened it to
the recovery that ended it, or to the end. -/
def IncidentRow.EpisodeOf (accepted : List Observation) (row : IncidentRow) : Prop :=
  ∃ before opening during rest, accepted = before ++ opening :: (during ++ rest) ∧
    opening.isFault = true ∧ ¬ EndsInFault before ∧ openings false before = row.recurrenceCount ∧
    opening.timestamp = row.startedAt ∧ (∀ observation ∈ during, observation.status ≠ .healthy) ∧
    row.occurrenceCount = (opening :: during).countP Observation.isFault ∧
    match row.endedAt with
    | none => rest = []
    | some endedAt => ∃ recovery later, rest = recovery :: later ∧ recovery.status = .healthy ∧
        recovery.timestamp = endedAt

/-- What an episode reads of its incident. -/
def IncidentRow.Alike (row next : IncidentRow) : Prop :=
  next.key = row.key ∧ next.startedAt = row.startedAt ∧ next.recurrenceCount = row.recurrenceCount

/-- An ended episode does not change. -/
theorem IncidentRow.EpisodeOf.append_of_ended {accepted : List Observation} {row : IncidentRow}
    (episode : row.EpisodeOf accepted) (ended : row.endedAt ≠ none) (observation : Observation) :
    row.EpisodeOf (accepted ++ [observation]) := by
  obtain ⟨before, opening, during, rest, rfl, fault, first, count, started, faulty, number, tail⟩ :=
    episode
  refine ⟨before, opening, during, rest ++ [observation], by simp, fault, first, count, started,
    faulty, number, ?_⟩
  cases endedAt : row.endedAt with
  | none => exact absurd endedAt ended
  | some at_ =>
      simp only [endedAt] at tail ⊢
      obtain ⟨recovery, later, rfl, rest⟩ := tail
      exact ⟨recovery, later ++ [observation], by simp, rest⟩

/-- An open episode goes on with an observation that shows no recovery. -/
theorem IncidentRow.EpisodeOf.append_of_open {accepted : List Observation} {row next : IncidentRow}
    (episode : row.EpisodeOf accepted) (ongoing : row.endedAt = none) {observation : Observation}
    (alike : row.Alike next) (still : next.endedAt = none) (sick : observation.status ≠ .healthy)
    (counted : next.occurrenceCount = row.occurrenceCount +
      if observation.isFault then 1 else 0) :
    next.EpisodeOf (accepted ++ [observation]) := by
  obtain ⟨before, opening, during, rest, rfl, fault, first, count, started, faulty, number, tail⟩ :=
    episode
  simp only [ongoing] at tail
  subst tail
  obtain ⟨_, sameStart, sameCount⟩ := alike
  refine ⟨before, opening, during ++ [observation], [], by simp, fault, first,
    count.trans sameCount.symm, started.trans sameStart.symm, ?_, ?_, by rw [still]⟩
  · intro member inside
    rcases List.mem_append.mp inside with old | new
    · exact faulty member old
    · exact List.mem_singleton.mp new ▸ sick
  · rw [counted, number, ← List.cons_append, List.countP_append, List.countP_singleton]

/-- A recovery ends an open episode. -/
theorem IncidentRow.EpisodeOf.append_of_healthy {accepted : List Observation}
    {row next : IncidentRow} (episode : row.EpisodeOf accepted) (ongoing : row.endedAt = none)
    {observation : Observation} (alike : row.Alike next)
    (ended : next.endedAt = some observation.timestamp) (healthy : observation.status = .healthy)
    (counted : next.occurrenceCount = row.occurrenceCount) :
    next.EpisodeOf (accepted ++ [observation]) := by
  obtain ⟨before, opening, during, rest, rfl, fault, first, count, started, faulty, number, tail⟩ :=
    episode
  simp only [ongoing] at tail
  subst tail
  obtain ⟨_, sameStart, sameCount⟩ := alike
  refine ⟨before, opening, during, [observation], by simp, fault, first,
    count.trans sameCount.symm, started.trans sameStart.symm, faulty, counted.trans number, ?_⟩
  rw [ended]
  exact ⟨observation, [], rfl, healthy, rfl⟩

/-- A fault after no fault is a new episode. -/
theorem IncidentRow.episodeOf_opened {accepted : List Observation} {observation : Observation}
    {row : IncidentRow} (fault : observation.isFault = true) (idle : ¬ EndsInFault accepted)
    (started : row.startedAt = observation.timestamp) (ongoing : row.endedAt = none)
    (counted : row.occurrenceCount = 1) (recurrence : row.recurrenceCount = openings false accepted) :
    row.EpisodeOf (accepted ++ [observation]) :=
  ⟨accepted, observation, [], [], rfl, fault, idle, recurrence.symm, started.symm, by simp,
    by simp [counted, fault], by rw [ongoing]⟩

end OhanaAgent.Tsunade
