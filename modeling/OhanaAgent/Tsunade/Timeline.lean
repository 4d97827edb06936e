import OhanaAgent.Tsunade.Capabilities
import OhanaAgent.Tsunade.Reports
import OhanaAgent.Tsunade.Views

/-!
# The timeline of an incident tells its life

The events of an incident are appended and never rewritten.  Read in order, those
of its life rebuild its row: the first one opens it, each later one says whether
the fault went on, worsened or ended, and nothing of it comes after the end.
-/

namespace OhanaAgent.Tsunade

open OhanaAgent.Encoding.Json
open OhanaAgent.Store
open OhanaAgent.Time
open OhanaAgent.Transition

/-! ## What a timeline tells -/

/-- The events of the life of an incident; the other ones tell what was done
about it. -/
def EventKind.isLifecycle : EventKind → Bool
  | .opened | .observed | .escalated | .resolved | .monitoringRemoved => true
  | _ => false

/-- `IncidentRecordKind`. -/
def EventKind.isRecord : EventKind → Bool
  | .investigation | .diagnostic | .action | .result => true
  | _ => false

theorem EventKind.isLifecycle_of_isRecord {kind : EventKind} (record : kind.isRecord = true) :
    kind.isLifecycle = false := by
  cases kind <;> first | rfl | contradiction

theorem EventKind.isLifecycle_of_isReport {kind : EventKind} (report : kind.isReport = true) :
    kind.isLifecycle = false := by
  cases kind <;> first | rfl | contradiction

/-- What the life of an incident comes to. -/
structure Account where
  severity : Severity
  startedAt : Int
  lastObservedAt : Int
  endedAt : Option Int
  occurrenceCount : Nat
  message : String
  deriving DecidableEq

namespace Account

/-- The first event of a life. -/
def opened (severity : Severity) (event : Event) : Account where
  severity := severity
  startedAt := event.occurredAt
  lastObservedAt := event.occurredAt
  endedAt := none
  occurrenceCount := 1
  message := event.summary

/-- The fault goes on. -/
def observed (severity : Severity) (event : Event) (account : Account) : Account :=
  { account with
    severity
    lastObservedAt := event.occurredAt
    occurrenceCount := account.occurrenceCount + 1
    message := event.summary }

/-- The fault is over. -/
def resolved (event : Event) (account : Account) : Account :=
  { account with
    lastObservedAt := event.occurredAt
    endedAt := some event.occurredAt
    message := event.summary }

/-- Nobody watches for the fault any more. -/
def removed (event : Event) (account : Account) : Account :=
  { account with
    endedAt := some event.occurredAt
    message := event.summary }

/-- A fault that goes on worsens from degraded to critical. -/
def worsens (account : Account) (severity : Severity) : Bool :=
  account.severity = .degraded && severity = .critical

theorem worsens_eq_true_iff (account : Account) (severity : Severity) :
    account.worsens severity = true ↔ account.severity = .degraded ∧ severity = .critical := by
  simp [worsens]

/-- The fault that an event shows. -/
def fault? (event : Event) : Option Severity :=
  event.status.bind ObservationStatus.fault?

/-- One event of an incident, which has to fit what was told before. -/
def tell (told : Option Account) (event : Event) : Option (Option Account) :=
  match event.kind, told with
  | .opened, none => (fault? event).map fun severity => some (opened severity event)
  | .observed, some account =>
      (fault? event).bind fun severity =>
        if account.endedAt = none ∧ account.worsens severity = false then
          some (some (account.observed severity event))
        else none
  | .escalated, some account =>
      (fault? event).bind fun severity =>
        if account.endedAt = none ∧ account.worsens severity = true then
          some (some (account.observed severity event))
        else none
  | .resolved, some account =>
      if account.endedAt = none then some (some (account.resolved event)) else none
  | .monitoringRemoved, some account =>
      if account.endedAt = none then some (some (account.removed event)) else none
  | kind, told => if kind.isLifecycle then none else some told

/-- What a list of events tells. -/
def told (events : List Event) : Option (Option Account) :=
  events.foldlM tell none

theorem tell_of_not_isLifecycle {event : Event} (other : event.kind.isLifecycle = false)
    (told : Option Account) : tell told event = some told := by
  unfold tell
  split <;> simp_all [EventKind.isLifecycle]

theorem foldlM_tell_of_records {events : List Event}
    (records : ∀ event ∈ events, event.kind.isLifecycle = false) (told : Option Account) :
    events.foldlM tell told = some told := by
  induction events with
  | nil => rfl
  | cons event events ih =>
      rw [List.foldlM_cons, tell_of_not_isLifecycle (records event List.mem_cons_self)]
      exact ih fun other member => records other (List.mem_cons_of_mem _ member)

/-- What was told before and what is told now: the start stays, the faults only
add up, and the account of an ended incident stays. -/
structure Continues (account next : Account) : Prop where
  startedAt : next.startedAt = account.startedAt
  occurrenceCount : account.occurrenceCount ≤ next.occurrenceCount
  ended : account.endedAt ≠ none → next = account

theorem Continues.refl (account : Account) : account.Continues account :=
  ⟨rfl, le_rfl, fun _ => rfl⟩

theorem Continues.trans {first second third : Account} (left : first.Continues second)
    (right : second.Continues third) : first.Continues third where
  startedAt := right.startedAt.trans left.startedAt
  occurrenceCount := left.occurrenceCount.trans right.occurrenceCount
  ended := by
    intro ended
    obtain rfl := left.ended ended
    exact right.ended ended

/-- One event continues the account. -/
theorem continues_tell {account : Account} {event : Event} {after : Option Account}
    (tells : tell (some account) event = some after) :
    ∃ next, after = some next ∧ account.Continues next := by
  unfold tell at tells
  split at tells
  · contradiction
  · rename_i same
    obtain rfl := Option.some.inj same
    simp only [Option.bind_eq_some_iff, Option.ite_none_right_eq_some, Option.some.injEq] at tells
    obtain ⟨severity, _, ⟨ongoing, _⟩, rfl⟩ := tells
    exact ⟨_, rfl, rfl, Nat.le_succ _, fun ended => absurd ongoing ended⟩
  · rename_i same
    obtain rfl := Option.some.inj same
    simp only [Option.bind_eq_some_iff, Option.ite_none_right_eq_some, Option.some.injEq] at tells
    obtain ⟨severity, _, ⟨ongoing, _⟩, rfl⟩ := tells
    exact ⟨_, rfl, rfl, Nat.le_succ _, fun ended => absurd ongoing ended⟩
  · rename_i same
    obtain rfl := Option.some.inj same
    simp only [Option.ite_none_right_eq_some, Option.some.injEq] at tells
    obtain ⟨ongoing, rfl⟩ := tells
    exact ⟨_, rfl, rfl, le_rfl, fun ended => absurd ongoing ended⟩
  · rename_i same
    obtain rfl := Option.some.inj same
    simp only [Option.ite_none_right_eq_some, Option.some.injEq] at tells
    obtain ⟨ongoing, rfl⟩ := tells
    exact ⟨_, rfl, rfl, le_rfl, fun ended => absurd ongoing ended⟩
  · split at tells
    · contradiction
    · obtain rfl := Option.some.inj tells
      exact ⟨account, rfl, .refl account⟩

/-- A list of events continues the account. -/
theorem continues_foldlM {events : List Event} {account : Account} {after : Option Account}
    (tells : events.foldlM tell (some account) = some after) :
    ∃ next, after = some next ∧ account.Continues next := by
  induction events generalizing account with
  | nil =>
      obtain rfl := Option.some.inj tells
      exact ⟨account, rfl, .refl account⟩
  | cons event events ih =>
      rw [List.foldlM_cons] at tells
      obtain ⟨middle, first, rest⟩ := Option.bind_eq_some_iff.mp tells
      obtain ⟨between, rfl, left⟩ := continues_tell first
      obtain ⟨next, equal, right⟩ := ih rest
      exact ⟨next, equal, left.trans right⟩

end Account

variable {env : Environment} {now : Int} {store : Store}

/-! ## Told stores -/

/-- The account of an incident. -/
def IncidentRow.account (env : Environment) (row : IncidentRow) : Account where
  severity := row.severity
  startedAt := row.startedAt
  lastObservedAt := row.lastObservedAt
  endedAt := row.endedAt
  occurrenceCount := row.occurrenceCount
  message := env.redactText row.message

/-- What is never rewritten of an incident. -/
structure IncidentRow.Identical (row next : IncidentRow) : Prop where
  incidentId : next.incidentId = row.incidentId
  key : next.key = row.key
  equipmentId : next.equipmentId = row.equipmentId
  recurrenceCount : next.recurrenceCount = row.recurrenceCount

theorem IncidentRow.Identical.refl (row : IncidentRow) : row.Identical row :=
  ⟨rfl, rfl, rfl, rfl⟩

theorem IncidentRow.Identical.trans {first second third : IncidentRow}
    (left : first.Identical second) (right : second.Identical third) : first.Identical third :=
  ⟨right.incidentId.trans left.incidentId, right.key.trans left.key,
    right.equipmentId.trans left.equipmentId, right.recurrenceCount.trans left.recurrenceCount⟩

theorem IncidentRow.Same.identical {row next : IncidentRow} (same : row.Same next) :
    row.Identical next := by
  rw [same]
  exact ⟨rfl, rfl, rfl, rfl⟩

theorem IncidentRow.Same.account {row next : IncidentRow} (same : row.Same next) :
    next.account env = row.account env := by
  rw [same]
  rfl

namespace Store

def account (env : Environment) (incidentId : Text) (store : Store) : Option Account :=
  (store.incidents.find? incidentId).map (IncidentRow.account env)

/-- Every timeline tells the account of its incident, and tells nothing when
there is no such incident. -/
def Told (env : Environment) (store : Store) : Prop :=
  ∀ incidentId, Account.told (store.eventsOf incidentId) = some (store.account env incidentId)

theorem eventsOf_append {before after : Store} {added : List Event} (incidentId : Text)
    (events : after.events = before.events ++ added) :
    after.eventsOf incidentId = before.eventsOf incidentId ++
      added.filter fun event => event.incidentId = incidentId := by
  rw [eventsOf, eventsOf, events, List.filter_append]

end Store

theorem account_of_mem {row : IncidentRow} (member : row ∈ store.incidents) :
    store.account env row.incidentId = some (row.account env) := by
  rw [Store.account, Table.find?_eq_some_iff.mpr ⟨member, rfl⟩, Option.map_some]

/-- The timelines grow by what becomes of their incidents. -/
structure Tells (env : Environment) (before after : Store) : Prop where
  told : before.Told env → after.Told env
  events : before.events <+: after.events
  incidents : ∀ row ∈ before.incidents, ∃ next ∈ after.incidents, row.Identical next

namespace Tells

variable {first second third before after : Store}

theorem refl (store : Store) : Tells env store store :=
  ⟨id, List.prefix_rfl, fun row member => ⟨row, member, .refl row⟩⟩

theorem trans (left : Tells env first second) (right : Tells env second third) :
    Tells env first third where
  told := right.told ∘ left.told
  events := left.events.trans right.events
  incidents := by
    intro row member
    obtain ⟨middle, middleMem, one⟩ := left.incidents row member
    obtain ⟨next, nextMem, two⟩ := right.incidents middle middleMem
    exact ⟨next, nextMem, one.trans two⟩

/-- One event of the life of an incident, after some reports. -/
theorem of_life {event : Event} {added : List Event}
    (events : after.events = before.events ++ (added ++ [event]))
    (reports : ∀ report ∈ added, report.kind.isLifecycle = false)
    (others : ∀ incidentId, incidentId ≠ event.incidentId →
      after.account env incidentId = before.account env incidentId)
    (tells : Account.tell (before.account env event.incidentId) event =
      some (after.account env event.incidentId))
    (incidents : ∀ row ∈ before.incidents, ∃ next ∈ after.incidents, row.Identical next) :
    Tells env before after := by
  refine ⟨fun told incidentId => ?_, ⟨_, events.symm⟩, incidents⟩
  have kept : ∀ account : Option Account,
      (added.filter fun report => report.incidentId = incidentId).foldlM Account.tell account =
        some account :=
    Account.foldlM_tell_of_records fun report member => reports report (List.mem_of_mem_filter member)
  have start := told incidentId
  rw [Account.told] at start ⊢
  rw [Store.eventsOf_append incidentId events, List.filter_append, List.foldlM_append, start]
  simp only [Option.bind_eq_bind, Option.bind_some, List.foldlM_append, kept]
  by_cases same : event.incidentId = incidentId
  · subst same
    simpa using tells
  · simpa [same] using (others incidentId (Ne.symm same)).symm

end Tells

theorem account_of_rewrites {before after : Store}
    (incidents : Table.Rewrites IncidentRow.Same before.incidents after.incidents)
    (incidentId : Text) : after.account env incidentId = before.account env incidentId := by
  unfold Store.account
  cases found : before.incidents.find? incidentId with
  | none =>
      have missing : after.incidents.find? incidentId = none := by
        rw [Table.find?_eq_none_iff] at found ⊢
        intro next member same
        obtain ⟨row, rowMem, kept⟩ := incidents.source member
        exact found row rowMem (kept.incidentId.symm.trans same)
      rw [missing]
  | some row =>
      obtain ⟨next, known, kept⟩ := incidents.find? (fun same => same.incidentId) found
      rw [known, Option.map_some, Option.map_some, kept.account]

/-- The incidents keep all but their final result, and nothing of their lives is
added. -/
theorem Tells.of_rewrites {before after : Store} {added : List Event}
    (incidents : Table.Rewrites IncidentRow.Same before.incidents after.incidents)
    (events : after.events = before.events ++ added)
    (others : ∀ event ∈ added, event.kind.isLifecycle = false) : Tells env before after := by
  refine ⟨fun told incidentId => ?_, ⟨added, events.symm⟩, fun row member => ?_⟩
  · have start := told incidentId
    rw [Account.told] at start ⊢
    rw [Store.eventsOf_append incidentId events, List.foldlM_append, start,
      account_of_rewrites incidents]
    exact Account.foldlM_tell_of_records (fun event member =>
      others event (List.mem_of_mem_filter member)) _
  · obtain ⟨next, nextMem, same⟩ := incidents.target member
    exact ⟨next, nextMem, same.identical⟩

theorem Reported.tells {before after : Store} (reported : Reported before after) :
    Tells env before after := by
  obtain ⟨added, events, reports⟩ := reported.events
  exact .of_rewrites reported.incidents events fun event member =>
    EventKind.isLifecycle_of_isReport (reports event member)

theorem Tells.of_same {before after : Store} (incidents : after.incidents = before.incidents)
    (events : after.events = before.events) : Tells env before after :=
  (Reported.of_same incidents events).tells

/-! ## The life of an incident -/

section Modify

variable {before after : Store} {incident : IncidentRow} (write : IncidentRow → IncidentRow)
  (keeps : ∀ row, (write row).incidentId = row.incidentId)

theorem account_modify_self (member : incident ∈ before.incidents)
    (incidents : after.incidents = before.incidents.modify incident.incidentId write keeps) :
    after.account env incident.incidentId = some ((write incident).account env) := by
  rw [Store.account, incidents, Table.find?_modify_self, Table.find?_eq_some_iff.mpr ⟨member, rfl⟩,
    Option.map_some, Option.map_some]

theorem account_modify_of_ne {incidentId : Text} (other : incidentId ≠ incident.incidentId)
    (incidents : after.incidents = before.incidents.modify incident.incidentId write keeps) :
    after.account env incidentId = before.account env incidentId := by
  rw [Store.account, Store.account, incidents, Table.find?_modify_of_ne other]

theorem identical_modify (same : ∀ row : IncidentRow, row.Identical (write row))
    (incidents : after.incidents = before.incidents.modify incident.incidentId write keeps) :
    ∀ row ∈ before.incidents, ∃ next ∈ after.incidents, row.Identical next := by
  intro row member
  rw [incidents]
  exact (Table.Rewrites.modify keeps (fun row _ _ => .refl row) fun row _ _ =>
    same row : Table.Rewrites IncidentRow.Identical _ _).target member

/-- A change of one incident, with its event. -/
theorem Tells.of_modify {event : Event} {added : List Event} (member : incident ∈ before.incidents)
    (about : event.incidentId = incident.incidentId)
    (events : after.events = before.events ++ (added ++ [event]))
    (reports : ∀ report ∈ added, report.kind.isLifecycle = false)
    (incidents : after.incidents = before.incidents.modify incident.incidentId write keeps)
    (same : ∀ row : IncidentRow, row.Identical (write row))
    (tells : Account.tell (some (incident.account env)) event =
      some (some ((write incident).account env))) : Tells env before after := by
  refine .of_life events reports (fun incidentId other => ?_) ?_
    (identical_modify write keeps same incidents)
  · exact account_modify_of_ne write keeps (about ▸ other) incidents
  · rw [about, account_of_mem member, account_modify_self write keeps member incidents, tells]

end Modify

/-- A new incident, with its event. -/
theorem Tells.of_insert {before after : Store} {row : IncidentRow} {event : Event}
    (about : event.incidentId = row.incidentId)
    (fresh : ∀ other ∈ before.incidents, other.incidentId ≠ row.incidentId)
    (rows : after.incidents.rows = before.incidents.rows ++ [row])
    (events : after.events = before.events ++ [event])
    (tells : Account.tell none event = some (some (row.account env))) :
    Tells env before after := by
  have lookup : ∀ incidentId, after.incidents.find? incidentId =
      (before.incidents.find? incidentId).or
        (if row.incidentId = incidentId then some row else none) := by
    intro incidentId
    simp [Table.find?, rows, List.find?_append]
  have missing : before.incidents.find? row.incidentId = none := Table.find?_eq_none_iff.mpr fresh
  refine .of_life (events.trans (congrArg _ (List.nil_append [event]).symm)) (by simp) ?_ ?_ ?_
  · intro incidentId other
    rw [Store.account, Store.account, lookup, if_neg (about ▸ Ne.symm other), Option.or_none]
  · rw [about, Store.account, Store.account, lookup, missing, Option.map_none, tells, Option.none_or,
      if_pos rfl, Option.map_some]
  · intro other member
    exact ⟨other, Table.mem_def.mpr (rows ▸ List.mem_append_left _ member), .refl other⟩

/-- A fault on an idle capability. -/
theorem tells_openIncident {observation : Observation} {severity : Severity} {previous : String}
    {answer : Option IncidentRow} {after : Store} (fault : observation.status.fault? = some severity)
    (opened : store.openIncident env now observation severity previous = .ok (answer, after)) :
    Tells env store after := by
  simp only [Store.openIncident, bind_eq_ok, pure_eq_ok, Prod.mk.injEq] at opened
  obtain ⟨inserted, insertion, _, rfl⟩ := opened
  refine Tells.trans ?_ (reported_expireRepairs _).tells
  unfold Store.insertIncident at insertion
  split at insertion
  · simp at insertion
  · split at insertion
    · simp at insertion
    · rename_i incidents found
      obtain rfl := Except.ok.inj insertion
      obtain ⟨fresh, rows⟩ := Table.insert?_eq_some_iff.mp found
      refine .of_insert rfl fresh rows rfl ?_
      show (observation.status.fault?).map _ = _
      rw [fault]
      rfl

/-- A fault on the capability of an active incident. -/
theorem tells_updateIncident {incident : IncidentRow} {observation : Observation}
    {severity : Severity} (member : incident ∈ store.incidents) (ongoing : incident.endedAt = none)
    (fault : observation.status.fault? = some severity) :
    Tells env store (store.updateIncident env now incident observation severity).2 := by
  refine Tells.trans ?_ (reported_expireRepairs _).tells
  refine .of_modify (IncidentRow.updated env observation severity) (fun _ => rfl) member rfl
    (show _ = store.events ++ ([] ++ [_]) from rfl) (by simp) rfl (fun row => ⟨rfl, rfl, rfl, rfl⟩) ?_
  by_cases worse : incident.severity = .degraded ∧ severity = .critical
  · rw [if_pos worse]
    have worsens := (Account.worsens_eq_true_iff (incident.account env) severity).mpr worse
    show (observation.status.fault?).bind _ = _
    rw [fault, Option.bind_some, if_pos ⟨ongoing, worsens⟩]
    rfl
  · rw [if_neg worse]
    have steady := Bool.eq_false_iff.mpr
      (worse ∘ (Account.worsens_eq_true_iff (incident.account env) severity).mp)
    show (observation.status.fault?).bind _ = _
    rw [fault, Option.bind_some, if_pos ⟨ongoing, steady⟩]
    rfl

/-- A recovery of the capability of an active incident. -/
theorem tells_resolveIncident {incident : IncidentRow} {observation : Observation}
    (member : incident ∈ store.incidents) (ongoing : incident.endedAt = none) :
    Tells env store (store.resolveIncident env now incident observation).2 := by
  refine Tells.trans ?_ (reported_expireRepairs _).tells
  have swept := @swept_expireRepairs env observation.timestamp { store with
    incidents := store.incidents.modify incident.incidentId
      (IncidentRow.resolved env observation) fun _ => rfl
    requests := store.requests.mapRows (RequestRow.resolvedWith incident.incidentId)
      (RequestRow.requestId_resolvedWith incident.incidentId) }
  obtain ⟨added, events, reports⟩ := (@reported_expireRepairs env observation.timestamp { store with
    incidents := store.incidents.modify incident.incidentId
      (IncidentRow.resolved env observation) fun _ => rfl
    requests := store.requests.mapRows (RequestRow.resolvedWith incident.incidentId)
      (RequestRow.requestId_resolvedWith incident.incidentId) }).events
  refine .of_modify (IncidentRow.resolved env observation) (fun _ => rfl) member rfl
    ((congrArg (· ++ [_]) events).trans (List.append_assoc store.events added [_]))
    (fun report inside => EventKind.isLifecycle_of_isReport (reports report inside))
    swept.base.incidents (fun row => ⟨rfl, rfl, rfl, rfl⟩) ?_
  exact if_pos ongoing

theorem tells_applyObservation {observation : Observation} {answer : Option IncidentRow}
    {after : Store} (applied : store.applyObservation env now observation = .ok (answer, after)) :
    Tells env store after := by
  have verified : ∀ incident succeeded,
      Tells env store (store.verify env incident observation succeeded) := fun incident succeeded =>
    ((reported_verifyPendingRepair incident observation succeeded store).trans
      (reported_verifyManualAction incident observation succeeded _)).tells
  unfold Store.applyObservation at applied
  split at applied
  · rename_i fault _
    exact tells_openIncident fault applied
  · rename_i severity incident fault active
    have moved : _ = after := congrArg Prod.snd (Except.ok.inj applied)
    obtain ⟨member, _, ongoing⟩ := active_eq_some active
    rw [← incidents_verify incident observation false store] at member
    exact moved ▸ (verified incident false).trans (tells_updateIncident member ongoing fault)
  · rename_i incident _ active
    split at applied
    · have moved : _ = after := congrArg Prod.snd (Except.ok.inj applied)
      obtain ⟨member, _, ongoing⟩ := active_eq_some active
      rw [← incidents_verify incident observation true store] at member
      exact moved ▸ (verified incident true).trans (tells_resolveIncident member ongoing)
    · obtain ⟨_, rfl⟩ := Prod.mk.inj (Except.ok.inj applied)
      exact .refl _
  · obtain ⟨_, rfl⟩ := Prod.mk.inj (Except.ok.inj applied)
    exact .refl _

theorem tells_process (observation : Observation) (store : Store) :
    Tells env store (store.process env now observation).2 := by
  have purged : Tells env store (store.purgeProcessedIfDue env now) := by
    obtain ⟨identifiers, purgedOn, equal⟩ := purge_eq env now store
    rw [equal]
    exact .of_same rfl rfl
  refine commit_induction (motive := fun after => Tells env store after) purged ?_
  intro answer after processed
  refine purged.trans ?_
  unfold Store.processLocked at processed
  split at processed
  · exact (Prod.mk.inj (Except.ok.inj processed)).2 ▸ .refl _
  · split at processed
    · obtain ⟨_, rfl⟩ := Prod.mk.inj (Except.ok.inj processed)
      exact .of_same rfl rfl
    · simp only [bind_eq_ok, pure_eq_ok, Prod.mk.injEq] at processed
      obtain ⟨⟨incident, applied⟩, found, _, rfl⟩ := processed
      exact (tells_applyObservation found).trans (.of_same rfl rfl)

/-! ## Records and other ends -/

theorem IncidentRow.incidentId_recorded (result : String) (row : IncidentRow) :
    (row.recorded result).incidentId = row.incidentId := rfl

theorem tells_appendRecord (incidentId : Text) {kind : EventKind} (record : kind.isRecord = true)
    (summary : String) (payload : Value) (store : Store) :
    Tells env store (store.appendRecord env now incidentId kind summary payload) := by
  have life := EventKind.isLifecycle_of_isRecord record
  unfold Store.appendRecord
  dsimp only
  split
  · refine .of_rewrites ?_ rfl (by simpa using life)
    exact Table.Rewrites.modify (fun row => IncidentRow.incidentId_recorded _ row)
      (fun _ _ _ => rfl) fun _ _ _ => rfl
  · exact .of_rewrites (Table.Rewrites.of_eq (fun _ => rfl) rfl) rfl (by simpa using life)

/-- The monitoring of an active incident ends. -/
theorem tells_removed {incident : IncidentRow} (occurredAt : Int)
    (member : incident ∈ store.incidents) (ongoing : incident.endedAt = none) :
    Tells env store ({ store with
      incidents := store.incidents.modify incident.incidentId
        (IncidentRow.removed occurredAt) fun _ => rfl }.event env incident.incidentId
      .monitoringRemoved occurredAt removedResult
      (object [("reason", string "architecture_removed")]) none) :=
  .of_modify (IncidentRow.removed occurredAt) (fun _ => rfl) member rfl
    (show _ = store.events ++ ([] ++ [_]) from rfl) (by simp) rfl (fun row => ⟨rfl, rfl, rfl, rfl⟩)
    (if_pos ongoing)

theorem tells_resolveRemovedNetworkDevices (deviceIds : List Text) (occurredAt : Int)
    (store : Store) :
    Tells env store (store.resolveRemovedNetworkDevices env now deviceIds occurredAt) := by
  have ongoing : ∀ row ∈ store.removedIncidents deviceIds, row ∈ store.incidents ∧ row.endedAt = none := by
    intro row member
    have chosen := List.mem_filter.mp member
    simp only [Bool.and_eq_true, Option.isNone_iff_eq_none] at chosen
    exact ⟨chosen.1, chosen.2.1.2⟩
  have distinct : ((store.removedIncidents deviceIds).map IncidentRow.incidentId).Nodup :=
    store.incidents.distinct.sublist (List.filter_sublist.map _)
  unfold Store.resolveRemovedNetworkDevices
  generalize store.removedIncidents deviceIds = rows at ongoing distinct
  induction rows generalizing store with
  | nil => exact .refl store
  | cons incident rows ih =>
      obtain ⟨member, open_⟩ := ongoing incident List.mem_cons_self
      rw [List.map_cons, List.nodup_cons] at distinct
      refine ((tells_removed occurredAt member open_).trans (reported_expireRepairs _).tells).trans
        (ih _ (fun row later => ?_) distinct.2)
      obtain ⟨rowMem, rowOpen⟩ := ongoing row (List.mem_cons_of_mem _ later)
      refine ⟨?_, rowOpen⟩
      rw [incidents_expireRepairs]
      show row ∈ store.incidents.modify incident.incidentId (IncidentRow.removed occurredAt)
        fun _ => rfl
      refine Table.mem_modify.mpr (Or.inr ⟨rowMem, fun same => distinct.1 ?_⟩)
      exact same ▸ List.mem_map_of_mem later

theorem tells_resolveLogIncident (occurredAt : Int) (key : Key) (jobId : Text) (result : String)
    (source : Value) (store : Store) :
    Tells env store (store.resolveLogIncident env occurredAt key jobId result source) := by
  unfold Store.resolveLogIncident
  split
  · exact .refl store
  · rename_i incident active
    obtain ⟨member, _, ongoing⟩ := active_eq_some active
    exact .of_modify (IncidentRow.logResolved occurredAt jobId result)
      (IncidentRow.incidentId_logResolved occurredAt jobId result) member rfl
      (show _ = store.events ++ ([] ++ [_]) from rfl) (by simp) rfl
      (fun row => ⟨rfl, rfl, rfl, rfl⟩) (if_pos ongoing)

/-! ## Runs -/

/-- A record of an incident has one of the kinds a record can have. -/
def Action.Recordable : Action → Prop
  | .appendRecord _ kind _ _ => kind.isRecord = true
  | _ => True

section Act

variable {service : Service}

theorem tells_record (incidentId : Text) {kind : EventKind} (record : kind.isRecord = true)
    (summary : String) (payload : Value) :
    Tells env service.store (service.appendRecord env now incidentId kind summary payload).store := by
  have read : Tells env service.store _ := (@reported_get env now incidentId service.store).tells
  unfold Service.appendRecord
  split
  · rename_i store found
    rw [found] at read
    exact read
  · rename_i incident store found
    rw [found] at read
    exact (read.trans (tells_appendRecord incident.incidentId record summary payload store)).trans
      (reported_expireRepairs _).tells

/-- One transition of the service. -/
theorem tells_act {action : Action} (recordable : action.Recordable) :
    Tells env service.store (service.act env now action).store := by
  by_cases reports : action.reports = true
  · exact (reported_act reports).tells
  · cases action with
    | process observation => exact tells_process observation service.store
    | appendRecord incidentId kind summary payload =>
        exact tells_record incidentId recordable summary payload
    | resolveRemovedNetworkDevices deviceIds occurredAt =>
        exact tells_resolveRemovedNetworkDevices deviceIds occurredAt _
    | resolveLogIncident key jobId result source =>
        exact tells_resolveLogIncident _ key jobId result source _
    | _ => exact absurd rfl reports

theorem tells_execute {labels : List Label} (recordable : ∀ label ∈ labels, label.action.Recordable)
    (service : Service) : Tells env service.store (execute env labels service).store := by
  induction labels generalizing service with
  | nil => exact .refl _
  | cons label labels ih =>
      exact (tells_act (recordable label List.mem_cons_self)).trans
        (ih (fun other member => recordable other (List.mem_cons_of_mem _ member)) _)

theorem told_start (experiences : Table ExperienceRow ExperienceRow.experienceId) :
    (Service.start experiences).store.Told env :=
  fun _ => rfl

end Act

/-- In every run the events of an incident, read in order, rebuild what its row
says of its life: they open it once, by a fault; each later fault is noted as
worse exactly when it is; and nothing of its life comes after the end. -/
theorem timeline_tells_incident (env : Environment)
    (experiences : Table ExperienceRow ExperienceRow.experienceId) (labels : List Label)
    (recordable : ∀ label ∈ labels, label.action.Recordable) (incidentId : Text) :
    Account.told ((execute env labels (Service.start experiences)).store.eventsOf incidentId) =
      some ((execute env labels (Service.start experiences)).store.account env incidentId) :=
  (tells_execute recordable _).told (told_start experiences) incidentId

/-- A degraded service that fails, is looked into and recovers. -/
def investigatedOutage : List Label :=
  [minutesIn 0 (.process (dhcpObservation ['a'] .degraded summerMorning)),
    minutesIn 2 (.process (dhcpObservation ['b'] .unhealthy (summerMorning + 2 * minute))),
    minutesIn 3 (.appendRecord (summerEnvironment.uuid 0) .investigation "bail épuisé"
      (.atom .null)),
    minutesIn 9 (.process (dhcpObservation ['c'] .healthy (summerMorning + 9 * minute)))]

theorem recordable_investigatedOutage : ∀ label ∈ investigatedOutage, label.action.Recordable := by
  simp [investigatedOutage, minutesIn, Action.Recordable, EventKind.isRecord]

theorem investigatedOutage_told :
    Account.told ((execute summerEnvironment investigatedOutage (Service.start ∅)).store.eventsOf
      (summerEnvironment.uuid 0)) =
      some (some ⟨.critical, summerMorning, summerMorning + 9 * minute,
        some (summerMorning + 9 * minute), 2, "dnsmasq"⟩) :=
  (timeline_tells_incident summerEnvironment ∅ investigatedOutage recordable_investigatedOutage
    (summerEnvironment.uuid 0)).trans (congrArg some (by decide +kernel))

/-- The history only grows: later events come after all earlier ones, an incident
keeps its identity, its start and its faults, and an ended incident stays as it
ended. -/
theorem incident_history_grows (env : Environment)
    (experiences : Table ExperienceRow ExperienceRow.experienceId) (earlier later : List Label)
    (recordable : ∀ label ∈ earlier ++ later, label.action.Recordable) :
    (execute env earlier (Service.start experiences)).store.events <+:
        (execute env (earlier ++ later) (Service.start experiences)).store.events ∧
      ∀ row ∈ (execute env earlier (Service.start experiences)).store.incidents,
        ∃ next ∈ (execute env (earlier ++ later) (Service.start experiences)).store.incidents,
          row.Identical next ∧ (row.account env).Continues (next.account env) := by
  simp only [List.mem_append, or_imp, forall_and] at recordable
  have whole : execute env (earlier ++ later) (Service.start experiences) =
      execute env later (execute env earlier (Service.start experiences)) := List.foldl_append
  rw [whole]
  have told := (tells_execute recordable.1 _).told (@told_start env experiences)
  have tells := @tells_execute env later recordable.2 (execute env earlier (Service.start experiences))
  have toldLater := tells.told told
  refine ⟨tells.events, fun row member => ?_⟩
  obtain ⟨next, nextMem, same⟩ := tells.incidents row member
  refine ⟨next, nextMem, same, ?_⟩
  obtain ⟨added, events⟩ := tells.events
  have start := told row.incidentId
  have finish := toldLater row.incidentId
  rw [Account.told, account_of_mem member] at start
  rw [Account.told, Store.eventsOf_append row.incidentId events.symm, List.foldlM_append, start,
    ← same.incidentId, account_of_mem nextMem] at finish
  obtain ⟨account, equal, continues⟩ := Account.continues_foldlM finish
  exact Option.some.inj equal ▸ continues

theorem investigatedOutage_grows :
    (execute summerEnvironment (investigatedOutage.take 2) (Service.start ∅)).store.events <+:
        (execute summerEnvironment (investigatedOutage.take 2 ++ investigatedOutage.drop 2)
          (Service.start ∅)).store.events ∧
      ∀ row ∈ (execute summerEnvironment (investigatedOutage.take 2)
          (Service.start ∅)).store.incidents,
        ∃ next ∈ (execute summerEnvironment (investigatedOutage.take 2 ++ investigatedOutage.drop 2)
            (Service.start ∅)).store.incidents,
          row.Identical next ∧
            (row.account summerEnvironment).Continues (next.account summerEnvironment) :=
  incident_history_grows summerEnvironment ∅ (investigatedOutage.take 2)
    (investigatedOutage.drop 2)
    (List.take_append_drop 2 investigatedOutage ▸ recordable_investigatedOutage)

end OhanaAgent.Tsunade
