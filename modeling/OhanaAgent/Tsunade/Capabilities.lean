import OhanaAgent.Tsunade.Authority

/-!
# What an observation does to its capability

Only `process` writes the states of the capabilities, and of the other
transitions only the explicit closings end an incident.  An observation that is
neither remembered nor late opens, updates or resolves the incident of its
capability, or leaves the incidents alone.
-/

namespace OhanaAgent.Tsunade

open OhanaAgent.Encoding.Json
open OhanaAgent.Store
open OhanaAgent.Time
open OhanaAgent.Transition

variable {env : Environment} {now : Int} {store : Store}

/-! ## Transitions without an observation -/

section Frames

variable {service after : Service} {label : Label}

/-- The other transitions leave the incidents aside, unless they close some. -/
theorem Transition.aside (taken : Transition env service label after)
    (other : ∀ observation, label.action ≠ .process observation)
    (keeps : label.action.closes = false) : Aside service.store after.store := by
  cases taken with
  | observe observes => exact absurd observes (other _)
  | close closes _ _ => simp [closes] at keeps
  | read reads => exact reads.quiet.aside
  | finish quiet => exact quiet.aside
  | propose _ _ proposes => exact proposes.aside
  | follow follows => exact follows.aside
  | authorize _ _ authorized =>
      exact (quiet_expireRepairs _).aside.trans (authorizeRepair_eq_ok authorized).2.aside
  | refuse _ _ refused =>
      exact (quiet_expireRepairs _).aside.trans (refuseRepair_eq_ok refused).2.aside
  | call quiet _ => exact quiet.aside
  | conclude _ _ steers => exact steers.aside
  | crash quiet => exact quiet.aside

theorem Transition.closing (taken : Transition env service label after)
    (other : ∀ observation, label.action ≠ .process observation) :
    Closing service.store after.store := by
  cases closes : label.action.closes with
  | false => exact (taken.aside other closes).closing
  | true =>
      cases taken with
      | observe observes => exact absurd observes (other _)
      | close _ _ closing => exact closing
      | read reads => exact reads.quiet.aside.closing
      | finish quiet => exact quiet.aside.closing
      | propose _ _ proposes => exact proposes.aside.closing
      | follow follows => exact follows.aside.closing
      | authorize resumes _ _ => simp [resumes, Action.closes] at closes
      | refuse resumes _ _ => simp [resumes, Action.closes] at closes
      | call quiet _ => exact quiet.aside.closing
      | conclude _ _ steers => exact steers.aside.closing
      | crash quiet => exact quiet.aside.closing

end Frames

/-! ## An accepted observation -/

/-- The observation leaves the incidents alone: it shows no fault, and no
recovery of an active incident. -/
def Store.Spares (store : Store) (observation : Observation) : Prop :=
  observation.status.fault? = none ∧
    (observation.status = .healthy → store.active observation.key = none)

/-- What an accepted observation does to the incidents and to the events. -/
inductive Applied (env : Environment) (observation : Observation) (before after : Store) : Prop
  | opened (severity : Severity) (fault : observation.status.fault? = some severity)
      (idle : before.active observation.key = none)
      (rows : after.incidents.rows = before.incidents.rows ++
        [observation.incident env severity (env.uuid before.uuids)
          (before.incidents.rows.countP fun row => row.key = observation.key)])
      (uuids : before.uuids < after.uuids) (grows : before.events.length < after.events.length)
  | updated (severity : Severity) (incident : IncidentRow)
      (fault : observation.status.fault? = some severity)
      (active : before.active observation.key = some incident)
      (incidents : after.incidents = before.incidents.modify incident.incidentId
        (IncidentRow.updated env observation severity) fun _ => rfl)
      (uuids : before.uuids ≤ after.uuids) (grows : before.events.length < after.events.length)
  | resolved (incident : IncidentRow) (healthy : observation.status = .healthy)
      (active : before.active observation.key = some incident)
      (incidents : after.incidents = before.incidents.modify incident.incidentId
        (IncidentRow.resolved env observation) fun _ => rfl)
      (uuids : before.uuids ≤ after.uuids) (grows : before.events.length < after.events.length)
  | spared (spares : before.Spares observation) (same : after = before)

/-- An accepted observation, before its capability state is written. -/
structure Observed (env : Environment) (observation : Observation) (before after : Store) :
    Prop where
  applied : Applied env observation before after
  states : after.states = before.states
  processed : ∀ id at_, after.processed id = some at_ → before.processed id = some at_

theorem Aside.length_le {before after : Store} (aside : Aside before after) :
    before.events.length ≤ after.events.length := by
  obtain ⟨added, events⟩ := aside.events
  simp [events]

theorem incidents_expireRepairs (store : Store) :
    (store.expireRepairs env now).incidents = store.incidents :=
  (swept_expireRepairs store).base.incidents

/-- The incidents are written, and at least one event; the rest of what an
observation reads stays. -/
structure Writes (incidents : Table IncidentRow IncidentRow.incidentId) (before after : Store) :
    Prop where
  incidents : after.incidents = incidents
  states : after.states = before.states
  processed : after.processed = before.processed
  uuids : after.uuids = before.uuids
  grows : before.events.length < after.events.length

/-- The end of every change of an incident: an event and a sweep. -/
theorem writes_event (incidentId : Text) (kind : EventKind) (at_ : Int) (summary : String)
    (payload : Value) (observation : Option Observation) (store : Store) :
    Writes store.incidents store
      ((store.event env incidentId kind at_ summary payload observation).expireRepairs env now) := by
  have swept := @swept_expireRepairs env now
    (store.event env incidentId kind at_ summary payload observation)
  obtain ⟨added, events, _⟩ := swept.events
  refine ⟨swept.base.incidents, swept.base.states, swept.base.processed, swept.base.uuids, ?_⟩
  rw [events]
  simp [Store.event]

theorem writes_updateIncident (incident : IncidentRow) (observation : Observation)
    (severity : Severity) (store : Store) :
    Writes (store.incidents.modify incident.incidentId
        (IncidentRow.updated env observation severity) fun _ => rfl) store
      (store.updateIncident env now incident observation severity).2 := by
  have noted := @writes_event env now incident.incidentId
    (if incident.severity = .degraded ∧ severity = .critical then EventKind.escalated
      else .observed) observation.timestamp (env.redactText observation.message)
    (object [("from", string incident.severity.text), ("to", string severity.text)])
    (some observation) { store with
      incidents := store.incidents.modify incident.incidentId
        (IncidentRow.updated env observation severity) fun _ => rfl }
  exact ⟨noted.incidents, noted.states, noted.processed, noted.uuids, noted.grows⟩

theorem writes_resolveIncident (incident : IncidentRow) (observation : Observation)
    (store : Store) :
    Writes (store.incidents.modify incident.incidentId (IncidentRow.resolved env observation)
        fun _ => rfl) store (store.resolveIncident env now incident observation).2 := by
  have swept := @swept_expireRepairs env observation.timestamp { store with
    incidents := store.incidents.modify incident.incidentId
      (IncidentRow.resolved env observation) fun _ => rfl
    requests := store.requests.mapRows (RequestRow.resolvedWith incident.incidentId)
      (RequestRow.requestId_resolvedWith incident.incidentId) }
  have noted := @writes_event env now incident.incidentId .resolved observation.timestamp
    (env.redactText observation.message)
    (object [("from", string incident.severity.text), ("to", string "healthy"),
      ("result", string resolvedResult)]) (some observation)
    (Store.expireRepairs env observation.timestamp { store with
      incidents := store.incidents.modify incident.incidentId
        (IncidentRow.resolved env observation) fun _ => rfl
      requests := store.requests.mapRows (RequestRow.resolvedWith incident.incidentId)
        (RequestRow.requestId_resolvedWith incident.incidentId) })
  obtain ⟨added, events, _⟩ := swept.events
  refine ⟨noted.incidents.trans swept.base.incidents, noted.states.trans swept.base.states,
    noted.processed.trans swept.base.processed, noted.uuids.trans swept.base.uuids,
    Nat.lt_of_le_of_lt ?_ noted.grows⟩
  rw [events]
  simp

theorem incidents_verifyPendingRepair (incident : IncidentRow) (observation : Observation)
    (succeeded : Bool) (store : Store) :
    (store.verifyPendingRepair env incident observation succeeded).incidents =
      store.incidents := by
  unfold Store.verifyPendingRepair
  split
  · rfl
  · split
    · exact (repairs_countExperienceOutcome _ _ _ store).2.2.1
    · rfl

theorem incidents_verifyManualAction (incident : IncidentRow) (observation : Observation)
    (succeeded : Bool) (store : Store) :
    (store.verifyManualAction env incident observation succeeded).incidents =
      store.incidents := by
  unfold Store.verifyManualAction
  split
  · rfl
  · split
    · rfl
    · rfl

theorem insertIncident_ok {row : IncidentRow} (idle : store.active row.key = none)
    (fresh : ∀ other ∈ store.incidents, other.incidentId ≠ row.incidentId) :
    ∃ incidents, incidents.rows = store.incidents.rows ++ [row] ∧
      store.insertIncident row = .ok { store with incidents } := by
  obtain ⟨incidents, inserted⟩ := store.incidents.exists_insert? row fresh
  refine ⟨incidents, (Table.insert?_eq_some_iff.mp inserted).2, ?_⟩
  simp only [Store.insertIncident, idle, Option.isSome_none, inserted]
  rw [if_neg (by simp)]

/-- Opening an incident with a new identifier succeeds. -/
theorem observed_openIncident {observation : Observation} {severity : Severity}
    (fresh : ∀ row ∈ store.incidents, row.incidentId ≠ env.uuid store.uuids)
    (fault : observation.status.fault? = some severity)
    (idle : store.active observation.key = none) (previous : String) :
    ∃ answer after, store.openIncident env now observation severity previous = .ok (answer, after) ∧
      Observed env observation store after := by
  obtain ⟨incidents, rows, insertion⟩ := @insertIncident_ok { store with uuids := store.uuids + 1 }
    (observation.incident env severity (env.uuid store.uuids)
      (store.incidents.rows.countP fun row => row.key = observation.key)) idle fresh
  simp only [Store.openIncident, bind_eq_ok, pure_eq_ok, Prod.mk.injEq]
  refine ⟨_, _, ⟨_, insertion, rfl, rfl⟩, ?_⟩
  have noted := @writes_event env now (env.uuid store.uuids) .opened observation.timestamp
    (env.redactText observation.message)
    (object [("from", string previous), ("to", string severity.text)]) (some observation)
    { store with uuids := store.uuids + 1, incidents }
  exact ⟨.opened severity fault idle ((congrArg Table.rows noted.incidents).trans rows)
    (Nat.lt_of_succ_le noted.uuids.ge) noted.grows, noted.states,
    fun id at_ found => noted.processed ▸ found⟩

/-- The verifications before an incident is written. -/
def Store.verify (env : Environment) (incident : IncidentRow) (observation : Observation)
    (succeeded : Bool) (store : Store) : Store :=
  (store.verifyPendingRepair env incident observation succeeded).verifyManualAction env incident
    observation succeeded

theorem quiet_verify (incident : IncidentRow) (observation : Observation) (succeeded : Bool)
    (store : Store) : Quiet store (store.verify env incident observation succeeded) :=
  (quiet_verifyPendingRepair incident observation succeeded store).trans
    (quiet_verifyManualAction incident observation succeeded _)

theorem incidents_verify (incident : IncidentRow) (observation : Observation) (succeeded : Bool)
    (store : Store) :
    (store.verify env incident observation succeeded).incidents = store.incidents :=
  (incidents_verifyManualAction _ _ _ _).trans (incidents_verifyPendingRepair _ _ _ _)

theorem observed_updateIncident {observation : Observation} {severity : Severity}
    {incident : IncidentRow} (fault : observation.status.fault? = some severity)
    (active : store.active observation.key = some incident) :
    Observed env observation store ((store.verify env incident observation false).updateIncident env
      now incident observation severity).2 := by
  have verified := (@quiet_verify env incident observation false store).aside
  have written := @writes_updateIncident env now incident observation severity
    (store.verify env incident observation false)
  refine ⟨.updated severity incident fault active ?_ (verified.uuids.trans written.uuids.ge)
    (verified.length_le.trans_lt written.grows), written.states.trans verified.states, ?_⟩
  · rw [written.incidents, incidents_verify]
  · exact fun id at_ found => verified.processed id at_ (written.processed ▸ found)

theorem observed_resolveIncident {observation : Observation} {incident : IncidentRow}
    (healthy : observation.status = .healthy)
    (active : store.active observation.key = some incident) :
    Observed env observation store ((store.verify env incident observation true).resolveIncident env
      now incident observation).2 := by
  have verified := (@quiet_verify env incident observation true store).aside
  have written := @writes_resolveIncident env now incident observation
    (store.verify env incident observation true)
  refine ⟨.resolved incident healthy active ?_ (verified.uuids.trans written.uuids.ge)
    (verified.length_le.trans_lt written.grows), written.states.trans verified.states, ?_⟩
  · rw [written.incidents, incidents_verify]
  · exact fun id at_ found => verified.processed id at_ (written.processed ▸ found)

/-- Applying an observation succeeds when the next identifier is new. -/
theorem applyObservation_ok (fresh : ∀ row ∈ store.incidents, row.incidentId ≠ env.uuid store.uuids)
    (observation : Observation) :
    ∃ answer after, store.applyObservation env now observation = .ok (answer, after) ∧
      Observed env observation store after := by
  have answered : ∀ pair : Option IncidentRow × Store, Observed env observation store pair.2 →
      ∃ answer after, (Except.ok pair : Except Failure _) = .ok (answer, after) ∧
        Observed env observation store after :=
    fun pair observed => ⟨pair.1, pair.2, rfl, observed⟩
  unfold Store.applyObservation
  split
  · rename_i fault idle
    exact observed_openIncident fresh fault idle _
  · rename_i fault active
    exact answered _ (observed_updateIncident fault active)
  · rename_i sound active
    split
    · rename_i healthy
      exact answered _ (observed_resolveIncident healthy active)
    · rename_i other
      exact ⟨_, _, rfl, .spared ⟨sound, fun healthy => absurd healthy other⟩ rfl, rfl,
        fun _ _ => id⟩
  · rename_i sound idle
    exact ⟨_, _, rfl, .spared ⟨sound, fun _ => idle⟩ rfl, rfl, fun _ _ => id⟩

/-! ## Processing -/

/-- The purge forgets identifiers and writes nothing else. -/
theorem purge_eq (env : Environment) (now : Int) (store : Store) :
    ∃ processed purgedOn, store.purgeProcessedIfDue env now = { store with processed, purgedOn } := by
  unfold Store.purgeProcessedIfDue
  dsimp only
  split
  · exact ⟨store.processed, store.purgedOn, rfl⟩
  · exact ⟨_, _, rfl⟩

/-- Every incident has an identifier that was drawn. -/
def Catalogued (env : Environment) (store : Store) : Prop :=
  ∀ row ∈ store.incidents, store.Drawn env row.incidentId

/-- What `process` does, by what it finds after the purge that is due. -/
inductive Processed (env : Environment) (now : Int) (observation : Observation) (purged : Store) :
    Store → Prop
  | known (remembered : (purged.processed observation.id).isSome = true) :
      Processed env now observation purged purged
  | late (forgotten : purged.processed observation.id = none) (late : purged.Late observation) :
      Processed env now observation purged (purged.markProcessed now observation.id)
  | accepted {applied : Store} (forgotten : purged.processed observation.id = none)
      (timely : ¬ purged.Late observation) (observed : Observed env observation purged applied) :
      Processed env now observation purged
        ((applied.writeState observation).markProcessed now observation.id)

/-- Processing an observation never fails on a catalogued store. -/
theorem processed_process (catalogued : Catalogued env store) (observation : Observation) :
    Processed env now observation (store.purgeProcessedIfDue env now)
      (store.process env now observation).2 := by
  obtain ⟨processed, purgedOn, equal⟩ := purge_eq env now store
  have fresh : ∀ row ∈ (store.purgeProcessedIfDue env now).incidents,
      row.incidentId ≠ env.uuid (store.purgeProcessedIfDue env now).uuids := by
    rw [equal]
    exact fun row member => (catalogued row member).ne_next
  unfold Store.process
  generalize store.purgeProcessedIfDue env now = purged at fresh ⊢
  obtain ⟨answer, applied, done, observed⟩ := @applyObservation_ok env now purged fresh observation
  by_cases remembered : (purged.processed observation.id).isSome = true
  · have found : purged.processLocked env now observation = .ok (none, purged) := by
      simp only [Store.processLocked, remembered, if_true]
    rw [commit_of_ok found]
    exact .known remembered
  · have forgotten : purged.processed observation.id = none := by simpa using remembered
    by_cases late : purged.Late observation
    · have found : purged.processLocked env now observation =
          .ok (none, purged.markProcessed now observation.id) := by
        simp only [Store.processLocked, remembered, late, if_true]
        simp
      rw [commit_of_ok found]
      exact .late forgotten late
    · have found : purged.processLocked env now observation =
          .ok (answer, (applied.writeState observation).markProcessed now observation.id) := by
        simp only [Store.processLocked, remembered, late, if_false]
        rw [if_neg (by simp)]
        exact bind_eq_ok.mpr ⟨(answer, applied), done, rfl⟩
      rw [commit_of_ok found]
      exact .accepted forgotten late observed

/-! ## Whole runs -/

theorem Catalogued.closing {after : Store} (catalogued : Catalogued env store)
    (closing : Closing store after) : Catalogued env after := by
  intro row member
  obtain ⟨old, oldMem, same⟩ := closing.incidents.source member
  exact same ▸ (catalogued old oldMem).mono closing.uuids

theorem Catalogued.modify {after : Store} (catalogued : Catalogued env store) {incidentId : Text}
    {write : IncidentRow → IncidentRow} {keeps : ∀ row, (write row).incidentId = row.incidentId}
    (incidents : after.incidents = store.incidents.modify incidentId write keeps)
    (uuids : store.uuids ≤ after.uuids) : Catalogued env after := by
  intro row member
  rw [incidents] at member
  rcases Table.mem_modify.mp member with ⟨old, oldMem, _, rfl⟩ | ⟨old, _⟩
  · exact keeps old ▸ (catalogued old oldMem).mono uuids
  · exact (catalogued row old).mono uuids

theorem Applied.catalogued {after : Store} {observation : Observation}
    (applied : Applied env observation store after) (catalogued : Catalogued env store) :
    Catalogued env after := by
  cases applied with
  | opened severity fault idle rows uuids grows =>
      intro row member
      rw [Table.mem_def, rows, List.mem_append, List.mem_singleton] at member
      rcases member with old | rfl
      · exact (catalogued row old).mono uuids.le
      · exact ⟨store.uuids, uuids, rfl⟩
  | updated severity incident fault active incidents uuids grows =>
      exact catalogued.modify incidents uuids
  | resolved incident healthy active incidents uuids grows =>
      exact catalogued.modify incidents uuids
  | spared spares same => exact same ▸ catalogued

theorem Processed.catalogued {after : Store} {observation : Observation}
    (processed : Processed env now observation store after) (catalogued : Catalogued env store) :
    Catalogued env after := by
  cases processed with
  | known _ => exact catalogued
  | late _ _ => exact catalogued
  | accepted _ _ observed => exact observed.applied.catalogued catalogued

theorem catalogued_purge (catalogued : Catalogued env store) :
    Catalogued env (store.purgeProcessedIfDue env now) := by
  obtain ⟨processed, purgedOn, equal⟩ := purge_eq env now store
  rw [equal]
  exact catalogued

/-- The state of a capability only moves on in time. -/
def Store.Newer (before after : Store) : Prop :=
  ∀ key state, before.states key = some state →
    ∃ next, after.states key = some next ∧ state.observedAt ≤ next.observedAt

theorem Store.Newer.of_eq {before after : Store} (equal : after.states = before.states) :
    before.Newer after :=
  fun _ state found => ⟨state, equal ▸ found, le_rfl⟩

theorem Store.Newer.trans {first second third : Store} (left : first.Newer second)
    (right : second.Newer third) : first.Newer third := by
  intro key state found
  obtain ⟨middle, middleFound, one⟩ := left key state found
  obtain ⟨next, nextFound, two⟩ := right key middle middleFound
  exact ⟨next, nextFound, one.trans two⟩

/-- The state that an accepted observation writes is not before the old one. -/
theorem Store.newer_writeState {observation : Observation} {applied : Store}
    (timely : ¬ store.Late observation) (states : applied.states = store.states) :
    store.Newer (applied.writeState observation) := by
  intro key state found
  by_cases same : key = observation.key
  · subst same
    refine ⟨_, Function.update_self .., ?_⟩
    by_contra earlier
    exact timely ⟨state, found, not_le.mp earlier⟩
  · refine ⟨state, ?_, le_rfl⟩
    rw [Store.writeState]
    exact (Function.update_of_ne same _ _).trans (states ▸ found)

theorem Processed.newer {after : Store} {observation : Observation}
    (processed : Processed env now observation store after) : store.Newer after := by
  cases processed with
  | known _ => exact .of_eq rfl
  | late _ _ => exact .of_eq rfl
  | accepted _ timely observed => exact Store.newer_writeState timely observed.states

/-- A service whose incidents have drawn identifiers. -/
structure Service.Reliable (env : Environment) (service : Service) : Prop where
  sound : service.Sound env
  catalogued : Catalogued env service.store

theorem Service.reliable_start (experiences : Table ExperienceRow ExperienceRow.experienceId) :
    (Service.start experiences).Reliable env :=
  ⟨Service.sound_start experiences, fun row member => absurd member (Table.not_mem_empty row)⟩

/-- One step keeps the service reliable and moves the states on. -/
theorem Service.Reliable.act {service : Service} (reliable : service.Reliable env) (label : Label) :
    (service.act env label.now label.action).Reliable env ∧
      service.store.Newer (service.act env label.now label.action).store := by
  by_cases other : ∀ observation, label.action ≠ .process observation
  · have closing := (transition_act reliable.sound label).closing other
    exact ⟨⟨sound_act reliable.sound label, reliable.catalogued.closing closing⟩,
      .of_eq closing.states⟩
  · simp only [not_forall, not_not] at other
    obtain ⟨observation, observes⟩ := other
    have store : (service.act env label.now label.action).store =
        (service.store.process env label.now observation).2 := by
      rw [observes]
      rfl
    have processed := @processed_process env label.now service.store reliable.catalogued observation
    refine ⟨⟨sound_act reliable.sound label, ?_⟩, ?_⟩
    · rw [store]
      exact processed.catalogued (catalogued_purge reliable.catalogued)
    · rw [store]
      obtain ⟨_, _, equal⟩ := purge_eq env label.now service.store
      exact (Store.Newer.of_eq (congrArg Store.states equal)).trans processed.newer

/-- A reliable service stays reliable, and the states of its capabilities only
move on in time. -/
theorem Service.Reliable.execute {service : Service} (reliable : service.Reliable env)
    (labels : List Label) : (Tsunade.execute env labels service).Reliable env ∧
      service.store.Newer (Tsunade.execute env labels service).store :=
  (run_execute env labels service).related (P := fun state => state.Reliable env)
    (R := fun before after => before.store.Newer after.store) (fun _ => .of_eq rfl) .trans
    (fun {_ label _} before taken => by
      obtain rfl := taken
      exact before.act label) reliable

end OhanaAgent.Tsunade
