import OhanaAgent.Tsunade.Episodes

/-!
# The lifecycle of incidents

A run of the service next to the ledger of the observations it should accept.
As long as no forgotten observation is applied again, the incidents of a
capability are the episodes of its accepted observations, in order.
-/

namespace OhanaAgent.Tsunade

open OhanaAgent.Encoding.Json
open OhanaAgent.Store
open OhanaAgent.Time
open OhanaAgent.Transition

variable {env : Environment} {store after : Store} {accepted : List Observation}
  {observation : Observation}

/-! ## The lifecycle -/

/-- The observations of a capability. -/
def ofKey (key : Key) (accepted : List Observation) : List Observation :=
  accepted.filter fun observation => observation.key = key

theorem ofKey_concat_self : ofKey observation.key (accepted ++ [observation]) =
    ofKey observation.key accepted ++ [observation] := by
  simp [ofKey]

theorem ofKey_concat_of_ne {key : Key} (other : key ≠ observation.key) :
    ofKey key (accepted ++ [observation]) = ofKey key accepted := by
  simp [ofKey, Ne.symm other]

/-- The incidents are the episodes of the accepted observations: a capability
has at most one active incident, it has one when its last decisive observation
is a fault, every incident is one episode, every episode has its incident, and an
incident counts the earlier ones of its capability. -/
structure Lifecycle (store : Store) (accepted : List Observation) : Prop where
  unique : ∀ first ∈ store.incidents, ∀ second ∈ store.incidents, first.key = second.key →
    first.endedAt = none → second.endedAt = none → first = second
  active : ∀ key, (∃ row ∈ store.incidents, row.key = key ∧ row.endedAt = none) ↔
    EndsInFault (ofKey key accepted)
  episodes : ∀ row ∈ store.incidents, row.EpisodeOf (ofKey row.key accepted)
  counted : ∀ key, store.incidents.rows.countP (fun row => row.key = key) =
    openings false (ofKey key accepted)
  recurrences : ∀ earlier row later, store.incidents.rows = earlier ++ row :: later →
    row.recurrenceCount = earlier.countP fun other => other.key = row.key

theorem lifecycle_start (experiences : Table ExperienceRow ExperienceRow.experienceId) :
    Lifecycle (Service.start experiences).store [] where
  unique := fun first member => absurd member (Table.not_mem_empty first)
  active := by simp [Service.start, Store.empty, ofKey, EndsInFault]
  episodes := fun row member => absurd member (Table.not_mem_empty row)
  counted := fun _ => rfl
  recurrences := by simp [Service.start, Store.empty]

/-- Rows that keep their capability and their rank. -/
theorem Lifecycle.recurrences_rewrites (life : Lifecycle store accepted)
    (rewrites : Table.Rewrites IncidentRow.Alike store.incidents after.incidents) :
    ∀ earlier row later, after.incidents.rows = earlier ++ row :: later →
      row.recurrenceCount = earlier.countP fun other => other.key = row.key := by
  intro earlier row later cut
  obtain ⟨first, source, rest, rows, related, key, _, rank⟩ := rewrites.split cut
  rw [rank, life.recurrences first source rest rows, key]
  exact (Table.countP_of_forall₂ related fun alike => by rw [alike.1]).symm

theorem Lifecycle.counted_rewrites (life : Lifecycle store accepted)
    (rewrites : Table.Rewrites IncidentRow.Alike store.incidents after.incidents) (key : Key) :
    after.incidents.rows.countP (fun row => row.key = key) = openings false (ofKey key accepted) :=
  (Table.countP_of_forall₂ rewrites fun alike => by rw [alike.1]).trans (life.counted key)

theorem IncidentRow.Same.alike {row next : IncidentRow} (same : row.Same next) : row.Alike next := by
  rw [same]
  exact ⟨rfl, rfl, rfl⟩

/-- A change that leaves the incidents aside keeps the lifecycle. -/
theorem Lifecycle.aside (life : Lifecycle store accepted) (aside : Aside store after) :
    Lifecycle after accepted where
  unique := by
    intro first firstMem second secondMem same firstOpen secondOpen
    obtain ⟨left, leftMem, leftSame⟩ := aside.incidents.source firstMem
    obtain ⟨right, rightMem, rightSame⟩ := aside.incidents.source secondMem
    rw [leftSame, rightSame] at same
    rw [leftSame] at firstOpen
    rw [rightSame] at secondOpen
    have equal := life.unique left leftMem right rightMem same firstOpen secondOpen
    exact Table.key_injective firstMem secondMem (by rw [leftSame.incidentId, rightSame.incidentId,
      equal])
  active := by
    intro key
    rw [← life.active key]
    constructor
    · rintro ⟨next, member, same, ongoing⟩
      obtain ⟨row, rowMem, kept⟩ := aside.incidents.source member
      rw [kept] at same ongoing
      exact ⟨row, rowMem, same, ongoing⟩
    · rintro ⟨row, member, same, ongoing⟩
      obtain ⟨next, nextMem, kept⟩ := aside.incidents.target member
      exact ⟨next, nextMem, by rw [kept]; exact same, by rw [kept]; exact ongoing⟩
  episodes := by
    intro next member
    obtain ⟨row, rowMem, kept⟩ := aside.incidents.source member
    have episode := life.episodes row rowMem
    rw [kept]
    exact episode
  counted := life.counted_rewrites (aside.incidents.mono fun _ _ => IncidentRow.Same.alike)
  recurrences := life.recurrences_rewrites (aside.incidents.mono fun _ _ => IncidentRow.Same.alike)

/-! ## One accepted observation -/

theorem openings_concat_other (sound : observation.isFault = false) :
    openings false (accepted ++ [observation]) = openings false accepted := by
  simp [openings_concat, sound]

theorem openings_concat_ongoing (ongoing : EndsInFault accepted) :
    openings false (accepted ++ [observation]) = openings false accepted := by
  simp [openings_concat, (ongoingAfter_iff accepted).mpr ongoing]

/-- The active incident of the capability is written, and no other. -/
theorem Lifecycle.write {incident : IncidentRow} {write : IncidentRow → IncidentRow}
    {keeps : ∀ row, (write row).incidentId = row.incidentId} (life : Lifecycle store accepted)
    (active : store.active observation.key = some incident)
    (incidents : after.incidents = store.incidents.modify incident.incidentId write keeps)
    (alike : ∀ row : IncidentRow, row.Alike (write row))
    (ongoing : (write incident).endedAt = none ↔
      EndsInFault (ofKey observation.key accepted ++ [observation]))
    (episode : (write incident).EpisodeOf (ofKey observation.key accepted ++ [observation]))
    (number : openings false (ofKey observation.key accepted ++ [observation]) =
      openings false (ofKey observation.key accepted)) :
    Lifecycle after (accepted ++ [observation]) := by
  obtain ⟨member, key, open_⟩ := active_eq_some active
  have rows : ∀ row, row ∈ after.incidents ↔ row = write incident ∨
      (row ∈ store.incidents ∧ row.incidentId ≠ incident.incidentId) := by
    intro row
    rw [incidents, Table.mem_modify]
    refine or_congr ⟨?_, ?_⟩ Iff.rfl
    · rintro ⟨source, sourceMem, same, rfl⟩
      rw [Table.key_injective sourceMem member same]
    · rintro rfl
      exact ⟨incident, member, rfl, rfl⟩
  have alone : ∀ row ∈ store.incidents, row.incidentId ≠ incident.incidentId →
      row.key = observation.key → row.endedAt ≠ none := fun row rowMem different same ended =>
    different (congrArg IncidentRow.incidentId
      (life.unique row rowMem incident member (same.trans key.symm) ended open_))
  have writtenKey : (write incident).key = observation.key := (alike incident).1.trans key
  have rewrites : Table.Rewrites IncidentRow.Alike store.incidents after.incidents := by
    rw [incidents]
    exact Table.Rewrites.modify keeps (fun _ _ _ => ⟨rfl, rfl, rfl⟩) fun row _ _ => alike row
  refine ⟨?_, ?_, ?_, ?_, life.recurrences_rewrites rewrites⟩
  · intro first firstMem second secondMem same firstOpen secondOpen
    rcases (rows first).mp firstMem with rfl | ⟨firstOld, firstOther⟩
    · rcases (rows second).mp secondMem with rfl | ⟨secondOld, secondOther⟩
      · rfl
      · exact absurd secondOpen (alone second secondOld secondOther (same.symm.trans writtenKey))
    · rcases (rows second).mp secondMem with rfl | ⟨secondOld, secondOther⟩
      · exact absurd firstOpen (alone first firstOld firstOther (same.trans writtenKey))
      · exact life.unique first firstOld second secondOld same firstOpen secondOpen
  · intro wanted
    by_cases same : wanted = observation.key
    · subst same
      rw [ofKey_concat_self, ← ongoing]
      constructor
      · rintro ⟨row, rowMem, rowKey, rowOpen⟩
        rcases (rows row).mp rowMem with rfl | ⟨old, other⟩
        · exact rowOpen
        · exact absurd rowOpen (alone row old other rowKey)
      · exact fun still => ⟨write incident, (rows _).mpr (Or.inl rfl), writtenKey, still⟩
    · rw [ofKey_concat_of_ne same, ← life.active wanted]
      constructor
      · rintro ⟨row, rowMem, rowKey, rowOpen⟩
        rcases (rows row).mp rowMem with rfl | ⟨old, _⟩
        · exact absurd (rowKey.symm.trans writtenKey) same
        · exact ⟨row, old, rowKey, rowOpen⟩
      · rintro ⟨row, rowMem, rowKey, rowOpen⟩
        refine ⟨row, (rows row).mpr (Or.inr ⟨rowMem, fun equal => ?_⟩), rowKey, rowOpen⟩
        rw [Table.key_injective rowMem member equal] at rowKey
        exact same (rowKey.symm.trans key)
  · intro row rowMem
    rcases (rows row).mp rowMem with rfl | ⟨old, other⟩
    · rw [writtenKey, ofKey_concat_self]
      exact episode
    · by_cases same : row.key = observation.key
      · have past := life.episodes row old
        rw [same] at past ⊢
        rw [ofKey_concat_self]
        exact past.append_of_ended (alone row old other same) observation
      · rw [ofKey_concat_of_ne same]
        exact life.episodes row old
  · intro wanted
    rw [life.counted_rewrites rewrites wanted]
    by_cases same : wanted = observation.key
    · rw [same, ofKey_concat_self, number]
    · rw [ofKey_concat_of_ne same]

/-- A fault on an idle capability opens an incident. -/
theorem Lifecycle.opened {row : IncidentRow} (life : Lifecycle store accepted)
    (fault : observation.isFault = true) (idle : store.active observation.key = none)
    (rows : after.incidents.rows = store.incidents.rows ++ [row]) (key : row.key = observation.key)
    (started : row.startedAt = observation.timestamp) (ongoing : row.endedAt = none)
    (occurrence : row.occurrenceCount = 1)
    (recurrence : row.recurrenceCount =
      store.incidents.rows.countP fun other => other.key = observation.key) :
    Lifecycle after (accepted ++ [observation]) := by
  have members : ∀ other, other ∈ after.incidents ↔ other ∈ store.incidents ∨ other = row := by
    simp [Table.mem_def, rows]
  have calm : ¬ EndsInFault (ofKey observation.key accepted) := fun faulty =>
    active_eq_none idle ((life.active observation.key).mpr faulty)
  have ended : ∀ other ∈ store.incidents, other.key = observation.key → other.endedAt ≠ none :=
    fun other member same open_ => active_eq_none idle ⟨other, member, same, open_⟩
  refine ⟨?_, ?_, ?_, ?_, ?_⟩
  · intro first firstMem second secondMem same firstOpen secondOpen
    rcases (members first).mp firstMem with firstOld | rfl
    · rcases (members second).mp secondMem with secondOld | rfl
      · exact life.unique first firstOld second secondOld same firstOpen secondOpen
      · exact absurd firstOpen (ended first firstOld (same.trans key))
    · rcases (members second).mp secondMem with secondOld | rfl
      · exact absurd secondOpen (ended second secondOld (same.symm.trans key))
      · rfl
  · intro wanted
    by_cases same : wanted = observation.key
    · subst same
      rw [ofKey_concat_self]
      exact iff_of_true ⟨row, (members row).mpr (Or.inr rfl), key, ongoing⟩
        (endsInFault_concat_fault fault)
    · rw [ofKey_concat_of_ne same, ← life.active wanted]
      constructor
      · rintro ⟨other, member, otherKey, open_⟩
        rcases (members other).mp member with old | rfl
        · exact ⟨other, old, otherKey, open_⟩
        · exact absurd (otherKey.symm.trans key) same
      · rintro ⟨other, member, rest⟩
        exact ⟨other, (members other).mpr (Or.inl member), rest⟩
  · intro other member
    rcases (members other).mp member with old | rfl
    · by_cases same : other.key = observation.key
      · have past := life.episodes other old
        rw [same] at past ⊢
        rw [ofKey_concat_self]
        exact past.append_of_ended (ended other old same) observation
      · rw [ofKey_concat_of_ne same]
        exact life.episodes other old
    · rw [key, ofKey_concat_self]
      exact IncidentRow.episodeOf_opened fault calm started ongoing occurrence
        (recurrence.trans (life.counted observation.key))
  · intro wanted
    rw [rows, List.countP_append, life.counted wanted]
    by_cases same : wanted = observation.key
    · subst same
      have idleAfter : ongoingAfter false (ofKey observation.key accepted) = false :=
        Bool.eq_false_iff.mpr fun on => calm ((ongoingAfter_iff _).mp on)
      rw [ofKey_concat_self, openings_concat, fault, idleAfter]
      simp [key]
    · rw [ofKey_concat_of_ne same]
      simp [key, Ne.symm same]
  · intro earlier other later cut
    rw [rows] at cut
    rcases List.eq_nil_or_concat' later with rfl | ⟨front, last, rfl⟩
    · obtain ⟨rfl, same⟩ := List.append_inj' cut rfl
      rw [← List.singleton_inj.mp same, key]
      exact recurrence
    · rw [← List.cons_append, ← List.append_assoc] at cut
      exact life.recurrences earlier other front (List.append_inj' cut rfl).1

/-- An observation that shows no fault and no recovery of an active incident. -/
theorem Lifecycle.spared (life : Lifecycle store accepted) (spares : store.Spares observation) :
    Lifecycle store (accepted ++ [observation]) := by
  have sound : observation.isFault = false := by simp [Observation.isFault, spares.1]
  refine ⟨life.unique, ?_, ?_, ?_, life.recurrences⟩
  · intro key
    by_cases same : key = observation.key
    · subst same
      rw [ofKey_concat_self]
      by_cases healthy : observation.status = .healthy
      · exact iff_of_false (active_eq_none (spares.2 healthy))
          (not_endsInFault_concat_healthy healthy)
      · have other : observation.isDecisive = false := by
          simp [Observation.isDecisive, sound, healthy]
        rw [endsInFault_concat_other other]
        exact life.active observation.key
    · rw [ofKey_concat_of_ne same]
      exact life.active key
  · intro row member
    have episode := life.episodes row member
    by_cases same : row.key = observation.key
    · rw [same] at episode ⊢
      rw [ofKey_concat_self]
      by_cases open_ : row.endedAt = none
      · refine episode.append_of_open open_ ⟨rfl, rfl, rfl⟩ open_ (fun healthy => ?_)
          (by simp [sound])
        exact active_eq_none (spares.2 healthy) ⟨row, member, same, open_⟩
      · exact episode.append_of_ended open_ observation
    · rw [ofKey_concat_of_ne same]
      exact episode
  · intro key
    rw [life.counted key]
    by_cases same : key = observation.key
    · rw [same, ofKey_concat_self, openings_concat_other sound]
    · rw [ofKey_concat_of_ne same]

/-- An accepted observation keeps the lifecycle. -/
theorem Lifecycle.applied (life : Lifecycle store accepted)
    (applied : Applied env observation store after) :
    Lifecycle after (accepted ++ [observation]) := by
  cases applied with
  | opened severity fault idle rows uuids grows =>
      exact life.opened (by simp [Observation.isFault, fault]) idle rows rfl rfl rfl rfl rfl
  | updated severity incident fault active incidents uuids grows =>
      have isFault : observation.isFault = true := by simp [Observation.isFault, fault]
      obtain ⟨member, key, open_⟩ := active_eq_some active
      have faulty := (life.active observation.key).mp ⟨incident, member, key, open_⟩
      have episode := life.episodes incident member
      rw [key] at episode
      refine life.write active incidents (fun _ => ⟨rfl, rfl, rfl⟩)
        (iff_of_true open_ (endsInFault_concat_fault isFault)) ?_ (openings_concat_ongoing faulty)
      refine episode.append_of_open open_ ⟨rfl, rfl, rfl⟩ open_ (fun healthy => ?_)
        (by simp [isFault, IncidentRow.updated])
      rw [Observation.not_isFault_of_healthy healthy] at isFault
      contradiction
  | resolved incident healthy active incidents uuids grows =>
      obtain ⟨member, key, open_⟩ := active_eq_some active
      have episode := life.episodes incident member
      rw [key] at episode
      exact life.write active incidents (fun _ => ⟨rfl, rfl, rfl⟩)
        (iff_of_false (by simp [IncidentRow.resolved]) (not_endsInFault_concat_healthy healthy))
        (episode.append_of_healthy open_ ⟨rfl, rfl, rfl⟩ rfl healthy rfl)
        (openings_concat_other (Observation.not_isFault_of_healthy healthy))
  | spared spares same => exact same ▸ life.spared spares

/-! ## The ledger -/

/-- The identifiers given to `process` and the observations it accepts: those
whose identifier is new and whose timestamp is not before the stored state. -/
structure Ledger where
  seen : List Text
  accepted : List Observation

def Ledger.note (store : Store) (action : Action) (ledger : Ledger) : Ledger :=
  match action with
  | .process observation =>
      { seen := ledger.seen ++ [observation.id]
        accepted :=
          if observation.id ∈ ledger.seen ∨ store.Late observation then ledger.accepted
          else ledger.accepted ++ [observation] }
  | _ => ledger

/-- A transition of the service that closes nothing by itself, and its entry in
the ledger. -/
def Watched (env : Environment) (before : Service × Ledger) (label : Label)
    (after : Service × Ledger) : Prop :=
  Step env before.1 label after.1 ∧ after.2 = before.2.note before.1.store label.action ∧
    label.action.closes = false

/-- A watched transition that applies no forgotten observation again: an
observation that comes back is remembered, late, or without effect. -/
def Orderly (env : Environment) (before : Service × Ledger) (label : Label)
    (after : Service × Ledger) : Prop :=
  Watched env before label after ∧ ∀ observation, label.action = .process observation →
    observation.id ∈ before.2.seen →
      before.1.store.Remembers env label.now observation.id ∨ before.1.store.Late observation ∨
        before.1.store.Spares observation

/-- One transition and its entry. -/
def watchStep (env : Environment) (state : Service × Ledger) (label : Label) : Service × Ledger :=
  (state.1.act env label.now label.action, state.2.note state.1.store label.action)

/-- The service and the ledger after a list of transitions. -/
def watch (env : Environment) (labels : List Label) (state : Service × Ledger) :
    Service × Ledger :=
  labels.foldl (watchStep env) state

theorem watched_watchStep {label : Label} (keeps : label.action.closes = false)
    (state : Service × Ledger) : Watched env state label (watchStep env state label) :=
  ⟨rfl, rfl, keeps⟩

theorem run_watch {labels : List Label} (keeps : ∀ label ∈ labels, label.action.closes = false)
    (state : Service × Ledger) : Run (Watched env) state labels (watch env labels state) := by
  induction labels generalizing state with
  | nil => exact .nil state
  | cons label labels ih =>
      exact .cons (watched_watchStep (keeps label List.mem_cons_self) state)
        (ih (fun other member => keeps other (List.mem_cons_of_mem _ member)) _)

/-- The invariant of a watched run. -/
structure Followed (env : Environment) (state : Service × Ledger) : Prop where
  reliable : state.1.Reliable env
  seen : ∀ id at_, state.1.store.processed id = some at_ → id ∈ state.2.seen
  lifecycle : Lifecycle state.1.store state.2.accepted

theorem followed_start (experiences : Table ExperienceRow ExperienceRow.experienceId) :
    Followed env (Service.start experiences, ⟨[], []⟩) :=
  ⟨Service.reliable_start experiences, by simp [Service.start, Store.empty],
    lifecycle_start experiences⟩

/-! ## Watched runs -/

theorem Lifecycle.of_incidents (life : Lifecycle store accepted)
    (equal : after.incidents = store.incidents) : Lifecycle after accepted := by
  obtain ⟨unique, active, episodes, counted, recurrences⟩ := life
  rw [← equal] at unique active episodes counted recurrences
  exact ⟨unique, active, episodes, counted, recurrences⟩

/-- `process` remembers its observation and no other one. -/
theorem Processed.mem_seen {now : Int} {seen : List Text}
    (processed : Processed env now observation store after)
    (known : ∀ id at_, store.processed id = some at_ → id ∈ seen) :
    ∀ id at_, after.processed id = some at_ → id ∈ seen ++ [observation.id] := by
  intro id at_ found
  rw [List.mem_append, List.mem_singleton]
  by_cases same : id = observation.id
  · exact Or.inr same
  · refine Or.inl ?_
    cases processed with
    | known _ => exact known id at_ found
    | late _ _ =>
        simp only [Store.markProcessed, Function.update_of_ne same] at found
        exact known id at_ found
    | accepted _ _ observed =>
        simp only [Store.markProcessed, Function.update_of_ne same, Store.writeState] at found
        exact known id at_ (observed.processed id at_ found)

theorem Followed.observe {before : Service × Ledger} {label : Label}
    (followed : Followed env before) (observes : label.action = .process observation)
    (orderly : observation.id ∈ before.2.seen →
      before.1.store.Remembers env label.now observation.id ∨ before.1.store.Late observation ∨
        before.1.store.Spares observation) :
    Lifecycle (before.1.store.process env label.now observation).2
      (before.2.note before.1.store label.action).accepted := by
  have processed := @processed_process env label.now before.1.store followed.reliable.catalogued
    observation
  obtain ⟨identifiers, purgedOn, equal⟩ := purge_eq env label.now before.1.store
  have purged : Lifecycle (before.1.store.purgeProcessedIfDue env label.now) before.2.accepted :=
    followed.lifecycle.of_incidents (by rw [equal])
  rw [remembers_iff, ← @late_purge env label.now, ← @spares_purge env label.now] at orderly
  simp only [observes, Ledger.note, ← @late_purge env label.now before.1.store]
  have forgets : observation.id ∉ before.2.seen →
      (before.1.store.purgeProcessedIfDue env label.now).processed observation.id = none := by
    intro unseen
    by_contra known
    obtain ⟨at_, found⟩ := Option.ne_none_iff_exists'.mp known
    exact unseen (followed.seen _ at_ ((quiet_purge before.1.store).aside.processed _ at_ found))
  generalize before.1.store.purgeProcessedIfDue env label.now = cleaned at *
  generalize (before.1.store.process env label.now observation).2 = after at *
  by_cases seen : observation.id ∈ before.2.seen
  · rw [if_pos (Or.inl seen)]
    cases processed with
    | known _ => exact purged
    | late _ _ => exact purged.of_incidents rfl
    | accepted forgotten timely observed =>
        rcases orderly seen with remembered | late | spares
        · exact absurd remembered (by simp [forgotten])
        · exact absurd late timely
        · rcases observed.applied.spares_or_grows with ⟨_, rfl⟩ | ⟨effective, _⟩
          · exact purged.of_incidents rfl
          · exact absurd spares effective
  · cases processed with
    | known remembered => exact absurd remembered (by simp [forgets seen])
    | late _ late =>
        rw [if_pos (Or.inr late)]
        exact purged.of_incidents rfl
    | accepted _ timely observed =>
        rw [if_neg (not_or.mpr ⟨seen, timely⟩)]
        exact (purged.applied observed.applied).of_incidents rfl

/-- An orderly transition keeps the invariant. -/
theorem Followed.step {before after : Service × Ledger} {label : Label}
    (followed : Followed env before) (taken : Orderly env before label after) :
    Followed env after := by
  obtain ⟨service, ledger⟩ := after
  obtain ⟨⟨moved, noted, keeps⟩, orderly⟩ := taken
  obtain rfl : service = before.1.act env label.now label.action := moved.symm
  obtain rfl : ledger = before.2.note before.1.store label.action := noted
  have reliable := (followed.reliable.act label).1
  by_cases other : ∀ observation, label.action ≠ .process observation
  · have aside := (transition_act followed.reliable.sound label).aside other keeps
    have same : before.2.note before.1.store label.action = before.2 := by
      unfold Ledger.note
      split
      · rename_i observation equal
        exact absurd equal (other observation)
      · rfl
    refine ⟨reliable, ?_, ?_⟩
    · rw [same]
      exact fun id at_ found => followed.seen id at_ (aside.processed id at_ found)
    · rw [same]
      exact followed.lifecycle.aside aside
  · simp only [not_forall, not_not] at other
    obtain ⟨observation, observes⟩ := other
    have store : (before.1.act env label.now label.action).store =
        (before.1.store.process env label.now observation).2 := by
      rw [observes]
      rfl
    refine ⟨reliable, ?_, ?_⟩
    · rw [store, observes]
      exact (processed_process followed.reliable.catalogued observation).mem_seen
        fun id at_ found => followed.seen id at_
          ((quiet_purge before.1.store).aside.processed id at_ found)
    · rw [store]
      exact followed.observe observes (orderly observation observes)

/-- In every run that closes no incident by itself and applies no forgotten
observation again, the incidents of every capability are the episodes of its
accepted observations, and the stored time of an observation never goes back. -/
theorem incident_lifecycle (env : Environment)
    (experiences : Table ExperienceRow ExperienceRow.experienceId) (labels : List Label)
    (reached : Service × Ledger)
    (run : Run (Orderly env) (Service.start experiences, ⟨[], []⟩) labels reached) :
    Lifecycle reached.1.store reached.2.accepted ∧
      ∀ label next, Orderly env reached label next → reached.1.store.Newer next.1.store := by
  have followed := run.invariant (P := Followed env) (fun before taken => before.step taken)
    (followed_start experiences)
  refine ⟨followed.lifecycle, ?_⟩
  rintro label ⟨service, ledger⟩ ⟨⟨moved, _⟩, _⟩
  obtain rfl : service = reached.1.act env label.now label.action := moved.symm
  exact (followed.reliable.act label).2

/-- A fault, a recovery, and the fault again within the hour. -/
def shortOutage : List Label :=
  [minutesIn 0 (.process (dhcpObservation ['a'] .unhealthy summerMorning)),
    minutesIn 5 (.process (dhcpObservation ['b'] .healthy (summerMorning + 5 * minute))),
    minutesIn 20 (.process (dhcpObservation ['a'] .unhealthy summerMorning))]

theorem shortOutage_lifecycle :
    ∃ reached, Run (Orderly summerEnvironment) (Service.start ∅, ⟨[], []⟩) shortOutage reached ∧
      Lifecycle reached.1.store reached.2.accepted := by
  have run : Run (Orderly summerEnvironment) (Service.start ∅, ⟨[], []⟩) shortOutage
      (watch summerEnvironment shortOutage (Service.start ∅, ⟨[], []⟩)) := by
    refine .cons ⟨watched_watchStep rfl _, ?_⟩ (.cons ⟨watched_watchStep rfl _, ?_⟩
      (.cons ⟨watched_watchStep rfl _, ?_⟩ (.nil _)))
    · rintro _ ⟨⟩ seen
      contradiction
    · rintro _ ⟨⟩ seen
      exact absurd seen (by decide +kernel)
    · rintro _ ⟨⟩ _
      exact Or.inl ⟨summerMorning, by decide +kernel, Or.inl (by decide +kernel)⟩
  exact ⟨_, run, (incident_lifecycle summerEnvironment ∅ shortOutage _ run).1⟩

/-- The fault of the morning comes back two days later. -/
def forgottenFault : List Label :=
  quietFault ++ [⟨summerMorning + 2 * day,
    .process (dhcpObservation ['a'] .unhealthy summerMorning)⟩]

/-- The incident counts two faults where one was accepted. -/
theorem forgottenFault_counted_twice :
    ¬ ∀ (env : Environment) (experiences : Table ExperienceRow ExperienceRow.experienceId)
      (labels : List Label) (reached : Service × Ledger),
      Run (Watched env) (Service.start experiences, ⟨[], []⟩) labels reached →
      Lifecycle reached.1.store reached.2.accepted := by
  intro holds
  have life := holds summerEnvironment ∅ forgottenFault _
    (run_watch (by decide +kernel) (Service.start ∅, ⟨[], []⟩))
  have counts : (watch summerEnvironment forgottenFault
      (Service.start ∅, ⟨[], []⟩)).1.store.incidents.rows.map IncidentRow.occurrenceCount =
      [2] := by decide +kernel
  obtain ⟨row, member, twice⟩ : ∃ row ∈ (watch summerEnvironment forgottenFault
      (Service.start ∅, ⟨[], []⟩)).1.store.incidents.rows, row.occurrenceCount = 2 :=
    List.mem_map.mp (counts ▸ List.mem_singleton_self 2)
  obtain ⟨before, opening, during, rest, equal, _, _, _, _, _, number, _⟩ :=
    life.episodes row member
  have accepted : (watch summerEnvironment forgottenFault
      (Service.start ∅, ⟨[], []⟩)).2.accepted.length = 1 := by decide +kernel
  have short := congrArg List.length equal
  have most := List.length_filter_le (fun observation => decide (observation.key = row.key))
    (watch summerEnvironment forgottenFault (Service.start ∅, ⟨[], []⟩)).2.accepted
  have faults := List.countP_le_length (p := Observation.isFault) (l := opening :: during)
  simp only [ofKey, List.length_append, List.length_cons] at short faults
  omega

end OhanaAgent.Tsunade
