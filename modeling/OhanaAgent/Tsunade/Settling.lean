import OhanaAgent.Tsunade.Deadlines
import OhanaAgent.Tsunade.Requests

/-!
# Transitions that only settle

Observations, reads and every part of a call that decides nothing about a repair
can settle repairs and requests and cannot do more: a proposal expires, a
verification ends, a request leaves its pending state.  A repair that leaves
`proposed` leaves no pending request behind.
-/

namespace OhanaAgent.Tsunade

open OhanaAgent.Encoding.Json
open OhanaAgent.Store
open OhanaAgent.Time

variable {env : Environment} {now : Int} {store : Store}

/-! ## Settled rows -/

/-- A status is kept, or settled by a deadline or an observation. -/
inductive Settles : RepairStatus → RepairStatus → Prop
  | same (status : RepairStatus) : Settles status status
  | expire : Settles .proposed .expired
  | succeed : Settles .verifying .succeeded
  | fail : Settles .verifying .failed
  | lapse : Settles .verifying .unverified

theorem Settles.trans {first second third : RepairStatus} (left : Settles first second)
    (right : Settles second third) : Settles first third := by
  cases left with
  | same => exact right
  | expire => cases right; exact .expire
  | succeed => cases right; exact .succeed
  | fail => cases right; exact .fail
  | lapse => cases right; exact .lapse

/-- The repair keeps its identity and its authorization, and may settle. -/
structure RepairSettles (row next : RepairRow) : Prop where
  repairId : next.repairId = row.repairId
  incidentId : next.incidentId = row.incidentId
  authorizedAt : next.authorizedAt = row.authorizedAt
  status : Settles row.status next.status

theorem RepairSettles.refl (row : RepairRow) : RepairSettles row row :=
  ⟨rfl, rfl, rfl, .same _⟩

theorem RepairSettles.trans {first second third : RepairRow} (left : RepairSettles first second)
    (right : RepairSettles second third) : RepairSettles first third :=
  ⟨right.repairId.trans left.repairId, right.incidentId.trans left.incidentId,
    right.authorizedAt.trans left.authorizedAt, left.status.trans right.status⟩

/-- The request keeps its identity, never becomes pending again, and is only
answered here when it is not the authorization of a repair. -/
structure RequestSettles (row next : RequestRow) : Prop where
  requestId : next.requestId = row.requestId
  kind : next.kind = row.kind
  actionReference : next.actionReference = row.actionReference
  pending : next.state = .pending → row.state = .pending
  answered : next.state = .answered → row.kind = .repairAuthorization → row.state = .answered

theorem RequestSettles.refl (row : RequestRow) : RequestSettles row row :=
  ⟨rfl, rfl, rfl, id, fun answered _ => answered⟩

theorem RequestSettles.trans {first second third : RequestRow} (left : RequestSettles first second)
    (right : RequestSettles second third) : RequestSettles first third where
  requestId := right.requestId.trans left.requestId
  kind := right.kind.trans left.kind
  actionReference := right.actionReference.trans left.actionReference
  pending := left.pending ∘ right.pending
  answered := fun answered kind =>
    left.answered (right.answered answered (left.kind.trans kind)) kind

/-! ## Settling stores -/

/-- No pending request refers to a repair. -/
def Store.Unrequested (store : Store) (repairId : Text) : Prop :=
  ∀ request ∈ store.requests, request.actionReference = some repairId → request.state ≠ .pending

/-- The second store comes from the first by settling. -/
structure Settling (before after : Store) : Prop where
  incidents : ∀ row ∈ before.incidents, ∃ next ∈ after.incidents, next.incidentId = row.incidentId
  repairs : Table.Rewrites RepairSettles before.repairs after.repairs
  requests : Table.Rewrites RequestSettles before.requests after.requests
  closed : ∀ row ∈ before.repairs, row.status = .proposed → ∀ next ∈ after.repairs,
    next.repairId = row.repairId → next.status ≠ .proposed → after.Unrequested row.repairId
  uuids : before.uuids ≤ after.uuids

theorem Settling.unrequested {before after : Store} (settling : Settling before after)
    {repairId : Text} (unrequested : before.Unrequested repairId) : after.Unrequested repairId := by
  intro next member refers pending
  obtain ⟨request, requestMem, settles⟩ := settling.requests.source member
  exact unrequested request requestMem (settles.actionReference.symm.trans refers)
    (settles.pending pending)

theorem Settling.trans {first second third : Store} (left : Settling first second)
    (right : Settling second third) : Settling first third where
  incidents := by
    intro row member
    obtain ⟨middle, middleMem, same⟩ := left.incidents row member
    obtain ⟨next, nextMem, also⟩ := right.incidents middle middleMem
    exact ⟨next, nextMem, also.trans same⟩
  repairs := left.repairs.comp right.repairs RepairSettles.trans
  requests := left.requests.comp right.requests RequestSettles.trans
  closed := by
    intro row member proposed next nextMem same changed
    obtain ⟨middle, middleMem, settles⟩ := left.repairs.target member
    by_cases still : middle.status = .proposed
    · have unrequested := right.closed middle middleMem still next nextMem
        (same.trans settles.repairId.symm) changed
      rwa [settles.repairId] at unrequested
    · exact right.unrequested (left.closed row member proposed middle middleMem settles.repairId
        still)
  uuids := left.uuids.trans right.uuids

/-- A change that keeps the repairs and the requests settles nothing. -/
theorem Settling.of_same {before after : Store}
    (incidents : ∀ row ∈ before.incidents, ∃ next ∈ after.incidents,
      next.incidentId = row.incidentId)
    (repairs : after.repairs = before.repairs) (requests : after.requests = before.requests)
    (uuids : before.uuids ≤ after.uuids) : Settling before after where
  incidents := incidents
  repairs := Table.Rewrites.of_eq RepairSettles.refl repairs
  requests := Table.Rewrites.of_eq RequestSettles.refl requests
  closed := by
    intro row member proposed next nextMem same changed
    rw [repairs] at nextMem
    obtain rfl := before.repairs.key_injective nextMem member same
    exact absurd proposed changed
  uuids := uuids

theorem incidents_kept {before after : Store} (equal : after.incidents = before.incidents) :
    ∀ row ∈ before.incidents, ∃ next ∈ after.incidents, next.incidentId = row.incidentId :=
  fun row member => ⟨row, equal ▸ member, rfl⟩

theorem Settling.refl (store : Store) : Settling store store :=
  .of_same (incidents_kept rfl) rfl rfl le_rfl

/-- A change of the requests alone that settles them. -/
theorem Settling.of_requests {before after : Store} (incidents : after.incidents = before.incidents)
    (repairs : after.repairs = before.repairs)
    (requests : Table.Rewrites RequestSettles before.requests after.requests)
    (uuids : before.uuids ≤ after.uuids) : Settling before after where
  incidents := incidents_kept incidents
  repairs := Table.Rewrites.of_eq RepairSettles.refl repairs
  requests := requests
  closed := by
    intro row member proposed next nextMem same changed
    rw [repairs] at nextMem
    obtain rfl := before.repairs.key_injective nextMem member same
    exact absurd proposed changed
  uuids := uuids

/-- A change of the repairs alone that settles no proposal. -/
theorem Settling.of_repairs {before after : Store} (incidents : after.incidents = before.incidents)
    (requests : after.requests = before.requests)
    (repairs : Table.Rewrites (fun row next => RepairSettles row next ∧
      (row.status = .proposed → next.status = .proposed)) before.repairs after.repairs)
    (uuids : before.uuids ≤ after.uuids) : Settling before after where
  incidents := incidents_kept incidents
  repairs := repairs.mono fun _ _ both => both.1
  requests := Table.Rewrites.of_eq RequestSettles.refl requests
  closed := by
    intro row member proposed next nextMem same changed
    obtain ⟨source, sourceMem, settles, keeps⟩ := repairs.source nextMem
    obtain rfl := before.repairs.key_injective sourceMem member
      (settles.repairId.symm.trans same)
    exact absurd (keeps proposed) changed
  uuids := uuids

/-! ## What is left aside -/

/-- The incident keeps all but its final result. -/
def IncidentRow.Same (row next : IncidentRow) : Prop :=
  next = { row with finalResult := next.finalResult }

/-- The incidents and the states of the capabilities are left aside; identifiers
of observations may be forgotten and events added. -/
structure Aside (before after : Store) : Prop where
  incidents : Table.Rewrites IncidentRow.Same before.incidents after.incidents
  states : after.states = before.states
  processed : ∀ id at_, after.processed id = some at_ → before.processed id = some at_
  uuids : before.uuids ≤ after.uuids
  events : ∃ added, after.events = before.events ++ added

theorem Aside.of_eq {before after : Store} (incidents : after.incidents = before.incidents)
    (states : after.states = before.states) (processed : after.processed = before.processed)
    (uuids : before.uuids ≤ after.uuids) (events : ∃ added, after.events = before.events ++ added) :
    Aside before after :=
  ⟨Table.Rewrites.of_eq (fun _ => rfl) incidents, states, fun _ _ found => processed ▸ found, uuids,
    events⟩

theorem noEvents {before after : Store} (equal : after.events = before.events) :
    ∃ added, after.events = before.events ++ added :=
  ⟨[], by rw [equal, List.append_nil]⟩

theorem Aside.refl (store : Store) : Aside store store :=
  .of_eq rfl rfl rfl le_rfl (noEvents rfl)

theorem Aside.trans {first second third : Store} (left : Aside first second)
    (right : Aside second third) : Aside first third where
  incidents := left.incidents.comp right.incidents fun {row middle next} one two => by
    rw [IncidentRow.Same] at one two ⊢
    rw [two, one]
  states := right.states.trans left.states
  processed := fun id at_ found => left.processed id at_ (right.processed id at_ found)
  uuids := left.uuids.trans right.uuids
  events := by
    obtain ⟨one, oneEvents⟩ := left.events
    obtain ⟨two, twoEvents⟩ := right.events
    exact ⟨one ++ two, by rw [twoEvents, oneEvents, List.append_assoc]⟩

/-- A change that settles and leaves the incidents aside. -/
structure Quiet (before after : Store) : Prop where
  settling : Settling before after
  aside : Aside before after

theorem Quiet.refl (store : Store) : Quiet store store :=
  ⟨.refl store, .refl store⟩

theorem Quiet.trans {first second third : Store} (left : Quiet first second)
    (right : Quiet second third) : Quiet first third :=
  ⟨left.settling.trans right.settling, left.aside.trans right.aside⟩

theorem Settling.quiet {first second third : Store} (left : Settling first second)
    (right : Quiet second third) : Settling first third :=
  left.trans right.settling

/-- A change of other tables. -/
theorem Quiet.of_same {before after : Store} (repairs : after.repairs = before.repairs)
    (requests : after.requests = before.requests) (incidents : after.incidents = before.incidents)
    (aside : Aside before after) : Quiet before after :=
  ⟨.of_same (incidents_kept incidents) repairs requests aside.uuids, aside⟩

/-- A change of the requests that settles them. -/
theorem Quiet.of_requests {before after : Store} (repairs : after.repairs = before.repairs)
    (requests : Table.Rewrites RequestSettles before.requests after.requests)
    (incidents : after.incidents = before.incidents) (aside : Aside before after) :
    Quiet before after :=
  ⟨.of_requests incidents repairs requests aside.uuids, aside⟩

/-! ## The primitives -/

theorem quiet_event (incidentId : Text) (kind : EventKind) (at_ : Int) (summary : String)
    (payload : Value) (observation : Option Observation) (store : Store) :
    Quiet store (store.event env incidentId kind at_ summary payload observation) :=
  .of_same rfl rfl rfl (.of_eq rfl rfl rfl le_rfl ⟨_, rfl⟩)

/-- Rewriting an incident. -/
theorem settling_modify (store : Store) (incidentId : Text) (write : IncidentRow → IncidentRow)
    (keeps : ∀ row, (write row).incidentId = row.incidentId) :
    Settling store { store with incidents := store.incidents.modify incidentId write keeps } := by
  refine .of_same ?_ rfl rfl le_rfl
  intro row member
  have rewrites : Table.Rewrites (fun row next => next.incidentId = row.incidentId)
      store.incidents (store.incidents.modify incidentId write keeps) :=
    Table.Rewrites.modify keeps (fun _ _ _ => rfl) fun row _ _ => keeps row
  exact rewrites.target member

theorem SweptRepair.settles {row next : RepairRow} (swept : SweptRepair now store row next) :
    RepairSettles row next := by
  rcases swept with ⟨expires, result, rfl⟩ | ⟨lapses, result, rfl⟩ | ⟨_, _, rfl⟩
  · exact ⟨rfl, rfl, rfl, expires.1 ▸ .expire⟩
  · exact ⟨rfl, rfl, rfl, lapses.1 ▸ .lapse⟩
  · exact .refl next

theorem ExpiredIf.settles {selected : Prop} {row next : RequestRow}
    (expired : ExpiredIf selected row next) : RequestSettles row next := by
  rcases expired with ⟨_, pending, rfl⟩ | ⟨_, rfl⟩
  · exact ⟨rfl, rfl, rfl, by simp, by simp⟩
  · exact .refl next

theorem settling_expireRepairs (store : Store) :
    Settling store (store.expireRepairs env now) := by
  have swept := @swept_expireRepairs env now store
  refine ⟨incidents_kept swept.base.incidents,
    swept.repairs.mono fun _ _ => SweptRepair.settles,
    swept.requests.mono fun _ _ => ExpiredIf.settles, ?_, swept.base.uuids.ge⟩
  intro row member proposed next nextMem same changed request requestMem refers pending
  obtain ⟨source, sourceMem, outcome⟩ := swept.repairs.source nextMem
  obtain rfl := store.repairs.key_injective sourceMem member
    (outcome.settles.repairId.symm.trans same)
  have expires : store.Expires now source := by
    rcases outcome with ⟨expires, _⟩ | ⟨lapses, _⟩ | ⟨_, _, rfl⟩
    · exact expires
    · rw [lapses.1] at proposed
      contradiction
    · exact absurd proposed changed
  obtain ⟨old, _, expired⟩ := swept.requests.source requestMem
  rcases expired with ⟨_, _, rfl⟩ | ⟨spared, rfl⟩
  · simp at pending
  · exact spared ⟨⟨source, member, refers, Or.inl expires⟩, pending⟩

theorem quiet_expireRepairs (store : Store) : Quiet store (store.expireRepairs env now) := by
  have swept := @swept_expireRepairs env now store
  obtain ⟨added, events, _⟩ := swept.events
  exact ⟨settling_expireRepairs store, .of_eq swept.base.incidents swept.base.states
    swept.base.processed swept.base.uuids.ge ⟨added, events⟩⟩

theorem quiet_expireUserRequests (store : Store) :
    Quiet store (store.expireUserRequests now) := by
  refine ⟨.of_requests rfl rfl ?_ le_rfl, .of_eq rfl rfl rfl le_rfl (noEvents rfl)⟩
  refine Table.Rewrites.mapRows (RequestRow.requestId_expiredAt now) fun row _ => ?_
  unfold RequestRow.expiredAt
  split
  · exact ⟨rfl, rfl, rfl, by simp, by simp⟩
  · exact .refl row

theorem RequestRow.resolvedWith_settles (incidentId : Text) (row : RequestRow) :
    RequestSettles row (row.resolvedWith incidentId) := by
  unfold RequestRow.resolvedWith
  split
  · exact ⟨rfl, rfl, rfl, by simp, by simp⟩
  · exact .refl row

/-! ## Observations -/

theorem verifyingRepair_eq_some {incidentId : Text} {row : RepairRow}
    (found : store.verifyingRepair incidentId = some row) :
    row ∈ store.repairs ∧ row.incidentId = incidentId ∧ row.status = .verifying := by
  have member := mem_of_newest found
  rw [List.mem_filter] at member
  simpa [Table.mem_def] using member

theorem repairs_countExperienceOutcome (repair : RepairRow) (at_ : Int) (succeeded : Bool)
    (store : Store) :
    (store.countExperienceOutcome repair at_ succeeded).repairs = store.repairs ∧
      (store.countExperienceOutcome repair at_ succeeded).requests = store.requests ∧
      (store.countExperienceOutcome repair at_ succeeded).incidents = store.incidents ∧
      (store.countExperienceOutcome repair at_ succeeded).uuids = store.uuids := by
  unfold Store.countExperienceOutcome
  split <;> exact ⟨rfl, rfl, rfl, rfl⟩

theorem quiet_countExperienceOutcome (repair : RepairRow) (at_ : Int) (succeeded : Bool)
    (store : Store) : Quiet store (store.countExperienceOutcome repair at_ succeeded) := by
  unfold Store.countExperienceOutcome
  split
  · exact .refl store
  · exact .of_same rfl rfl rfl (.of_eq rfl rfl rfl le_rfl (noEvents rfl))

/-- Concluding the verification of a repair. -/
theorem quiet_conclude {row : RepairRow} (member : row ∈ store.repairs)
    (verifying : row.status = .verifying) (succeeded : Bool) (at_ : Int) (result : String) :
    Quiet store { store with
      repairs := store.repairs.modify row.repairId
        (RepairRow.closed (if succeeded then .succeeded else .failed) at_ result) fun _ => rfl } := by
  refine ⟨.of_repairs rfl rfl ?_ le_rfl, .of_eq rfl rfl rfl le_rfl (noEvents rfl)⟩
  dsimp only
  refine Table.Rewrites.modify _ (fun other _ _ => ⟨.refl other, id⟩) fun other otherMem same => ?_
  obtain rfl := store.repairs.key_injective otherMem member same
  have settled : Settles .verifying (if succeeded then .succeeded else .failed) := by
    cases succeeded
    · exact .fail
    · exact .succeed
  exact ⟨⟨rfl, rfl, rfl, verifying ▸ settled⟩, by simp [verifying]⟩

theorem quiet_verifyPendingRepair (incident : IncidentRow) (observation : Observation)
    (succeeded : Bool) (store : Store) :
    Quiet store (store.verifyPendingRepair env incident observation succeeded) := by
  unfold Store.verifyPendingRepair
  split
  · exact .refl store
  · rename_i row found
    split
    · obtain ⟨member, _, verifying⟩ := verifyingRepair_eq_some found
      have counted := quiet_countExperienceOutcome row observation.timestamp succeeded store
      have same := repairs_countExperienceOutcome row observation.timestamp succeeded store
      refine counted.trans ((quiet_conclude (same.1 ▸ member) verifying succeeded
        observation.timestamp _).trans (quiet_event _ _ _ _ _ _ _))
    · exact .refl store

theorem quiet_closeManualAction (actionId incidentId : Text) (status : ManualStatus)
    (at_ : Int) (result : String) (observation : Option Observation) (store : Store) :
    Quiet store (store.closeManualAction env actionId incidentId status at_ result observation) :=
  .of_same rfl rfl rfl (.of_eq rfl rfl rfl le_rfl ⟨_, rfl⟩)

theorem quiet_verifyManualAction (incident : IncidentRow) (observation : Observation)
    (succeeded : Bool) (store : Store) :
    Quiet store (store.verifyManualAction env incident observation succeeded) := by
  unfold Store.verifyManualAction
  split
  · exact .refl store
  · split
    · exact quiet_closeManualAction _ _ _ _ _ _ _
    · exact .refl store

theorem settling_insertIncident {row : IncidentRow} {after : Store}
    (inserted : store.insertIncident row = .ok after) : Settling store after := by
  unfold Store.insertIncident at inserted
  split at inserted
  · simp at inserted
  · split at inserted
    · simp at inserted
    · rename_i incidents found
      obtain rfl := Except.ok.inj inserted
      refine .of_same ?_ rfl rfl le_rfl
      intro old member
      refine ⟨old, ?_, rfl⟩
      rw [Table.mem_def, (Table.insert?_eq_some_iff.mp found).2]
      exact List.mem_append_left _ member

theorem quiet_uuids (store : Store) (drawn : Nat) :
    Quiet store { store with uuids := store.uuids + drawn } :=
  .of_same rfl rfl rfl (.of_eq rfl rfl rfl (Nat.le_add_right _ _) (noEvents rfl))

theorem settling_openIncident {observation : Observation} {severity : Severity}
    {previous : String} {answer : Option IncidentRow} {after : Store}
    (opened : store.openIncident env now observation severity previous = .ok (answer, after)) :
    Settling store after := by
  simp only [Store.openIncident, bind_eq_ok, pure_eq_ok, Prod.mk.injEq] at opened
  obtain ⟨inserted, insertion, _, rfl⟩ := opened
  exact (quiet_uuids store 1).settling.trans ((settling_insertIncident insertion).quiet
    ((quiet_event _ _ _ _ _ _ _).trans (quiet_expireRepairs _)))

theorem settling_updateIncident (incident : IncidentRow) (observation : Observation)
    (severity : Severity) (store : Store) :
    Settling store (store.updateIncident env now incident observation severity).2 :=
  (settling_modify store incident.incidentId (IncidentRow.updated env observation severity)
    fun _ => rfl).quiet
    ((quiet_event _ _ _ _ _ _ _).trans (quiet_expireRepairs _))

/-- Resolving the pending requests of an incident. -/
theorem quiet_resolveRequests (store : Store) (incidentId : Text) :
    Quiet store { store with
      requests := store.requests.mapRows (RequestRow.resolvedWith incidentId)
        (RequestRow.requestId_resolvedWith incidentId) } :=
  .of_requests rfl (Table.Rewrites.mapRows (RequestRow.requestId_resolvedWith incidentId)
    fun row _ => RequestRow.resolvedWith_settles incidentId row) rfl
    (.of_eq rfl rfl rfl le_rfl (noEvents rfl))

theorem settling_resolveIncident (incident : IncidentRow) (observation : Observation)
    (store : Store) :
    Settling store (store.resolveIncident env now incident observation).2 :=
  (settling_modify store incident.incidentId (IncidentRow.resolved env observation)
    fun _ => rfl).quiet
    ((quiet_resolveRequests _ incident.incidentId).trans
      ((quiet_expireRepairs _).trans
        ((quiet_event _ _ _ _ _ _ _).trans (quiet_expireRepairs _))))

theorem settling_applyObservation {observation : Observation} {answer : Option IncidentRow}
    {after : Store} (applied : store.applyObservation env now observation = .ok (answer, after)) :
    Settling store after := by
  unfold Store.applyObservation at applied
  split at applied
  · exact settling_openIncident applied
  · rename_i severity incident _ _
    have moved : _ = after := congrArg Prod.snd (Except.ok.inj applied)
    exact moved ▸ ((quiet_verifyPendingRepair incident observation false store).trans
      (quiet_verifyManualAction _ _ _ _)).settling.trans (settling_updateIncident _ _ _ _)
  · rename_i incident _ _
    split at applied
    · have moved : _ = after := congrArg Prod.snd (Except.ok.inj applied)
      exact moved ▸ ((quiet_verifyPendingRepair incident observation true store).trans
        (quiet_verifyManualAction _ _ _ _)).settling.trans (settling_resolveIncident _ _ _)
    · obtain ⟨_, rfl⟩ := Prod.mk.inj (Except.ok.inj applied)
      exact .refl _
  · obtain ⟨_, rfl⟩ := Prod.mk.inj (Except.ok.inj applied)
    exact .refl _

theorem settling_processLocked {observation : Observation} {answer : Option IncidentRow}
    {after : Store} (processed : store.processLocked env now observation = .ok (answer, after)) :
    Settling store after := by
  unfold Store.processLocked at processed
  split at processed
  · obtain ⟨_, rfl⟩ := Prod.mk.inj (Except.ok.inj processed)
    exact .refl _
  · split at processed
    · obtain ⟨_, rfl⟩ := Prod.mk.inj (Except.ok.inj processed)
      exact .of_same (incidents_kept rfl) rfl rfl le_rfl
    · simp only [bind_eq_ok, pure_eq_ok, Prod.mk.injEq] at processed
      obtain ⟨⟨incident, applied⟩, found, _, rfl⟩ := processed
      exact (settling_applyObservation found).trans (.of_same (incidents_kept rfl) rfl rfl le_rfl)

theorem quiet_purgeProcessedObservations (store : Store) :
    Quiet store (store.purgeProcessedObservations now) := by
  refine .of_same rfl rfl rfl ⟨Table.Rewrites.of_eq (fun _ => rfl) rfl, rfl, ?_, le_rfl,
    noEvents rfl⟩
  intro id at_ found
  exact (Option.filter_eq_some_iff.mp found).1

theorem quiet_purge (store : Store) : Quiet store (store.purgeProcessedIfDue env now) := by
  unfold Store.purgeProcessedIfDue
  dsimp only
  split
  · exact .refl store
  · refine (@quiet_purgeProcessedObservations now store).trans ?_
    exact .of_same rfl rfl rfl (.of_eq rfl rfl rfl le_rfl (noEvents rfl))

/-- Processing an observation only settles. -/
theorem settling_process (observation : Observation) (store : Store) :
    Settling store (store.process env now observation).2 :=
  commit_induction (motive := fun after => Settling store after) (quiet_purge store).settling
    fun _ _ processed => (quiet_purge store).settling.trans (settling_processLocked processed)

/-! ## Reads -/

theorem snd_get (incidentId : Text) (store : Store) :
    (store.get env now incidentId).2 = store.expireRepairs env now := by
  unfold Store.get
  dsimp only
  split <;> rfl

theorem get_eq_ok {incidentId : Text} {incident : IncidentRow}
    (found : (store.get env now incidentId).1 = .ok incident) :
    incident ∈ store.incidents ∧ incident.incidentId = incidentId := by
  unfold Store.get at found
  dsimp only at found
  split at found
  · simp at found
  · rename_i row known
    obtain rfl := Except.ok.inj found
    rw [(@swept_expireRepairs env now store).base.incidents] at known
    exact Table.find?_eq_some_iff.mp known

theorem quiet_getUserRequest {requestId : Text} {row : RequestRow} {after : Store}
    (read : store.getUserRequest now requestId = .ok (row, after)) : Quiet store after := by
  simp only [Store.getUserRequest, bind_eq_ok, pure_eq_ok, Prod.mk.injEq] at read
  obtain ⟨_, _, _, rfl⟩ := read
  exact quiet_expireUserRequests store

/-! ## Requests and follow-ups -/

/-- Rewriting one request. -/
theorem quiet_modifyRequest (store : Store) (requestId : Text) (write : RequestRow → RequestRow)
    (keeps : ∀ row, (write row).requestId = row.requestId)
    (settles : ∀ row ∈ store.requests, row.requestId = requestId → RequestSettles row (write row)) :
    Quiet store { store with requests := store.requests.modify requestId write keeps } :=
  .of_requests rfl (Table.Rewrites.modify keeps (fun row _ _ => .refl row) settles) rfl
    (.of_eq rfl rfl rfl le_rfl (noEvents rfl))

theorem requiredPendingUserRequest_eq_ok {requestId : Text} {row : RequestRow}
    (required : store.requiredPendingUserRequest requestId = .ok row) :
    row ∈ store.requests ∧ row.requestId = requestId ∧ row.state = .pending := by
  simp only [Store.requiredPendingUserRequest, Store.requiredUserRequest, bind_eq_ok] at required
  obtain ⟨found, known, checked⟩ := required
  split at known
  · simp at known
  · rename_i request lookup
    obtain rfl := Except.ok.inj known
    obtain ⟨member, same⟩ := Table.find?_eq_some_iff.mp lookup
    split at checked
    · simp at checked
    · rename_i pending
      split at checked
      · simp at checked
      · split at checked
        · simp at checked
        · obtain rfl := pure_eq_ok.mp checked
          exact ⟨member, same, not_not.mp pending⟩

theorem quiet_deferUserRequest {requestId : Text} {response : Response} {row : RequestRow}
    {after : Store}
    (deferred : store.deferUserRequest env now requestId response = .ok (row, after)) :
    Quiet store after := by
  unfold Store.deferUserRequest at deferred
  split at deferred
  · simp at deferred
  · simp only [bind_eq_ok] at deferred
    obtain ⟨request, _, rest⟩ := deferred
    split at rest
    · simp at rest
    · simp only [pure_eq_ok, Prod.mk.injEq] at rest
      obtain ⟨_, rfl⟩ := rest
      exact (quiet_expireUserRequests store).trans
        ((quiet_modifyRequest _ requestId (RequestRow.deferred _) (fun _ => rfl) fun _ _ _ =>
          ⟨rfl, rfl, rfl, id, fun answered _ => answered⟩).trans (quiet_event _ _ _ _ _ _ _))

theorem kind_expireUserRequests {requestId : Text} {row : RequestRow}
    (member : row ∈ (store.expireUserRequests now).requests) (same : row.requestId = requestId) :
    ∃ old ∈ store.requests, old.requestId = requestId ∧ old.kind = row.kind := by
  obtain ⟨old, oldMem, settles⟩ :=
    (@quiet_expireUserRequests now store).settling.requests.source member
  exact ⟨old, oldMem, settles.requestId.symm.trans same, settles.kind.symm⟩

/-- An answer settles a request that is not the authorization of a repair. -/
theorem quiet_answerUserRequest {requestId : Text} {response : Response} {row : RequestRow}
    {after : Store}
    (other : ∀ request ∈ store.requests, request.requestId = requestId →
      request.kind ≠ .repairAuthorization)
    (answered : store.answerUserRequest env now requestId response = .ok (row, after)) :
    Quiet store after := by
  unfold Store.answerUserRequest at answered
  split at answered
  · exact quiet_deferUserRequest answered
  · simp only [bind_eq_ok] at answered
    obtain ⟨request, _, rest⟩ := answered
    split at rest
    · simp at rest
    · simp only [pure_eq_ok, Prod.mk.injEq] at rest
      obtain ⟨_, rfl⟩ := rest
      refine (quiet_expireUserRequests store).trans
        ((quiet_modifyRequest _ requestId (RequestRow.answered _ _ _ _) (fun _ => rfl)
          fun old member same => ?_).trans (quiet_event _ _ _ _ _ _ _))
      obtain ⟨source, sourceMem, sourceId, kind⟩ := kind_expireUserRequests member same
      exact ⟨rfl, rfl, rfl, by simp [RequestRow.answered], fun _ repair =>
        absurd (kind.trans repair) (other source sourceMem sourceId)⟩

theorem quiet_answerFollowup {requestId deviceId : Text} {choice : Choice} {planned : Bool}
    {source summary : String} {after : Store}
    (answered : store.answerFollowup env now requestId choice deviceId planned source summary =
      .ok ((), after)) : Quiet store after := by
  unfold Store.answerFollowup at answered
  split at answered
  · simp at answered
  · simp only [bind_eq_ok] at answered
    obtain ⟨request, required, rest⟩ := answered
    split at rest
    · simp at rest
    · rename_i kind
      split at rest
      · simp at rest
      · simp only [pure_eq_ok, Prod.mk.injEq, true_and] at rest
        subst rest
        obtain ⟨member, same, _⟩ := requiredPendingUserRequest_eq_ok required
        have requests : Table.Rewrites RequestSettles (store.expireUserRequests now).requests
            ((store.expireUserRequests now).requests.modify requestId
              (RequestRow.answered now choice source deviceId) fun _ => rfl) := by
          refine Table.Rewrites.modify _ (fun old _ _ => .refl old) fun old oldMem oldId => ?_
          obtain rfl := Table.key_injective oldMem member (oldId.trans same.symm)
          exact ⟨rfl, rfl, rfl, by simp [RequestRow.answered], fun _ repair => by
            simp [not_not.mp kind] at repair⟩
        refine (@quiet_expireUserRequests now store).trans
          (Quiet.trans ?_ (quiet_event _ _ _ _ _ _ _))
        exact .of_requests rfl requests rfl (.of_eq rfl rfl rfl le_rfl (noEvents rfl))

theorem quiet_updateFollowup {requestId : Text} {status : FollowupStatus}
    {detail : String} {after : Store}
    (updated : store.updateFollowup env now requestId status detail = .ok ((), after)) :
    Quiet store after := by
  unfold Store.updateFollowup at updated
  split at updated
  · simp at updated
  · simp only at updated
    split at updated
    · obtain rfl := (Prod.mk.inj (Except.ok.inj updated)).2
      exact .refl store
    · obtain rfl := (Prod.mk.inj (Except.ok.inj updated)).2
      exact .of_same rfl rfl rfl (.of_eq rfl rfl rfl le_rfl ⟨_, rfl⟩)

/-! ## Manual resolutions, records and other closings -/

theorem quiet_insertManualAction {row : ManualRow} {after : Store}
    (inserted : store.insertManualAction row = .ok after) : Quiet store after := by
  unfold Store.insertManualAction at inserted
  split at inserted
  · simp at inserted
  · obtain rfl := Except.ok.inj inserted
    exact .of_same rfl rfl rfl (.of_eq rfl rfl rfl le_rfl (noEvents rfl))

theorem quiet_declareAfterResolution {incident : IncidentRow} {endedAt : Int}
    {request : Store.ManualRequest} {result : String} {row : ManualRow} {after : Store}
    (declared : store.declareAfterResolution env now incident endedAt request result =
      .ok (row, after)) : Quiet store after := by
  unfold Store.declareAfterResolution at declared
  split at declared
  · simp at declared
  · split at declared
    · simp at declared
    · split at declared
      · simp at declared
      · simp only [bind_eq_ok, pure_eq_ok, Prod.mk.injEq] at declared
        obtain ⟨inserted, insertion, _, rfl⟩ := declared
        exact (quiet_uuids store 1).trans
          ((quiet_insertManualAction insertion).trans (quiet_event _ _ _ _ _ _ _))

theorem quiet_declareManualResolution {incidentId : Text} {request : Store.ManualRequest}
    {lateResult : String} {row : ManualRow} {after : Store}
    (declared : store.declareManualResolution env now incidentId request lateResult =
      .ok (row, after)) : Quiet store after := by
  unfold Store.declareManualResolution at declared
  split at declared
  · simp at declared
  · split at declared
    · exact quiet_declareAfterResolution declared
    · split at declared
      · simp at declared
      · simp only [bind_eq_ok, pure_eq_ok, Prod.mk.injEq] at declared
        obtain ⟨inserted, insertion, _, rfl⟩ := declared
        exact (quiet_uuids store 1).trans
          ((quiet_insertManualAction insertion).trans (quiet_event _ _ _ _ _ _ _))

theorem quiet_appendRecord (incidentId : Text) (kind : EventKind) (summary : String)
    (payload : Value) (store : Store) :
    Quiet store (store.appendRecord env now incidentId kind summary payload) := by
  unfold Store.appendRecord
  dsimp only
  split
  · refine (quiet_event _ _ _ _ _ _ _).trans ⟨settling_modify _ _ (IncidentRow.recorded _)
      fun _ => rfl, ⟨?_, rfl, fun _ _ => id, le_rfl, noEvents rfl⟩⟩
    exact Table.Rewrites.modify (fun row => show (row.recorded _).incidentId = row.incidentId from rfl)
      (fun _ _ _ => rfl) fun _ _ _ => rfl
  · exact quiet_event _ _ _ _ _ _ _

theorem settling_resolveRemovedNetworkDevices (deviceIds : List Text) (occurredAt : Int)
    (store : Store) :
    Settling store (store.resolveRemovedNetworkDevices env now deviceIds occurredAt) := by
  unfold Store.resolveRemovedNetworkDevices
  generalize store.removedIncidents deviceIds = rows
  induction rows generalizing store with
  | nil => exact .refl store
  | cons incident rows ih =>
      exact ((settling_modify store incident.incidentId (IncidentRow.removed occurredAt)
        fun _ => rfl).quiet
        ((quiet_event _ _ _ _ _ _ _).trans (quiet_expireRepairs _))).trans (ih _)

theorem settling_resolveLogIncident (occurredAt : Int) (key : Key) (jobId : Text) (result : String)
    (source : Value) (store : Store) :
    Settling store (store.resolveLogIncident env occurredAt key jobId result source) := by
  unfold Store.resolveLogIncident
  split
  · exact .refl store
  · rename_i incident _
    exact (settling_modify store incident.incidentId (IncidentRow.logResolved occurredAt jobId
      result) fun _ => rfl).quiet
      ((quiet_resolveRequests _ incident.incidentId).trans (quiet_event _ _ _ _ _ _ _))

/-- Incidents may end without an observation; the states stay. -/
structure Closing (before after : Store) : Prop where
  incidents : Table.Rewrites (fun row next => next.incidentId = row.incidentId) before.incidents
    after.incidents
  states : after.states = before.states
  uuids : before.uuids ≤ after.uuids

theorem Closing.trans {first second third : Store} (left : Closing first second)
    (right : Closing second third) : Closing first third :=
  ⟨left.incidents.comp right.incidents fun one two => two.trans one,
    right.states.trans left.states, left.uuids.trans right.uuids⟩

theorem IncidentRow.Same.incidentId {row next : IncidentRow} (same : row.Same next) :
    next.incidentId = row.incidentId :=
  (congrArg IncidentRow.incidentId same : _)

theorem Aside.closing {before after : Store} (aside : Aside before after) : Closing before after :=
  ⟨aside.incidents.mono fun _ _ => IncidentRow.Same.incidentId, aside.states, aside.uuids⟩

theorem closing_modify (store : Store) (incidentId : Text) (write : IncidentRow → IncidentRow)
    (keeps : ∀ row, (write row).incidentId = row.incidentId) :
    Closing store { store with incidents := store.incidents.modify incidentId write keeps } :=
  ⟨Table.Rewrites.modify keeps (fun _ _ _ => rfl) fun row _ _ => keeps row, rfl, le_rfl⟩

theorem closing_resolveRemovedNetworkDevices (deviceIds : List Text) (occurredAt : Int)
    (store : Store) :
    Closing store (store.resolveRemovedNetworkDevices env now deviceIds occurredAt) := by
  unfold Store.resolveRemovedNetworkDevices
  generalize store.removedIncidents deviceIds = rows
  induction rows generalizing store with
  | nil => exact (Aside.refl store).closing
  | cons incident rows ih =>
      exact ((closing_modify store incident.incidentId (IncidentRow.removed occurredAt)
        fun _ => rfl).trans ((quiet_event _ _ _ _ _ _ _).trans
          (quiet_expireRepairs _)).aside.closing).trans (ih _)

theorem closing_resolveLogIncident (occurredAt : Int) (key : Key) (jobId : Text) (result : String)
    (source : Value) (store : Store) :
    Closing store (store.resolveLogIncident env occurredAt key jobId result source) := by
  unfold Store.resolveLogIncident
  split
  · exact (Aside.refl store).closing
  · rename_i incident _
    exact (closing_modify store incident.incidentId (IncidentRow.logResolved occurredAt jobId
      result) fun _ => rfl).trans ((quiet_resolveRequests _ incident.incidentId).trans
        (quiet_event _ _ _ _ _ _ _)).aside.closing

end OhanaAgent.Tsunade
