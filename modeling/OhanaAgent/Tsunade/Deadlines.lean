import OhanaAgent.Store.Rewrites
import OhanaAgent.Tsunade.Sweep

/-!
# What the sweep does

The loops of the sweep rewrite the rows that are due and no others.  This file
states the sweep row by row: which repairs, manual actions and requests it
closes, that it leaves the other tables alone, and that its events carry no
observation.
-/

namespace OhanaAgent.Tsunade

open OhanaAgent.Encoding.Json
open OhanaAgent.Store
open OhanaAgent.Time

variable {env : Environment} {now : Int}

/-! ## Frames -/

/-- The tables that a sweep does not write. -/
structure SameBase (before after : Store) : Prop where
  incidents : after.incidents = before.incidents
  states : after.states = before.states
  processed : after.processed = before.processed
  purgedOn : after.purgedOn = before.purgedOn
  experiences : after.experiences = before.experiences
  followups : after.followups = before.followups
  uuids : after.uuids = before.uuids

theorem SameBase.refl (store : Store) : SameBase store store :=
  ⟨rfl, rfl, rfl, rfl, rfl, rfl, rfl⟩

theorem SameBase.trans {first second third : Store} (left : SameBase first second)
    (right : SameBase second third) : SameBase first third where
  incidents := right.incidents.trans left.incidents
  states := right.states.trans left.states
  processed := right.processed.trans left.processed
  purgedOn := right.purgedOn.trans left.purgedOn
  experiences := right.experiences.trans left.experiences
  followups := right.followups.trans left.followups
  uuids := right.uuids.trans left.uuids

/-- The events grow by events that carry no observation. -/
def UnobservedGrowth (before after : Store) : Prop :=
  ∃ added, after.events = before.events ++ added ∧ ∀ event ∈ added, event.observationId = none

theorem UnobservedGrowth.refl (store : Store) : UnobservedGrowth store store :=
  ⟨[], by simp, by simp⟩

theorem UnobservedGrowth.trans {first second third : Store} (left : UnobservedGrowth first second)
    (right : UnobservedGrowth second third) : UnobservedGrowth first third := by
  obtain ⟨one, oneEvents, oneFree⟩ := left
  obtain ⟨two, twoEvents, twoFree⟩ := right
  refine ⟨one ++ two, by rw [twoEvents, oneEvents, List.append_assoc], ?_⟩
  intro event member
  rcases List.mem_append.mp member with member | member
  · exact oneFree event member
  · exact twoFree event member

/-! ## Closed rows -/

/-- The repair was closed by a sweep if it was selected, and is the same if it
was not. -/
def ClosedIf (status : RepairStatus) (now : Int) (selected : Prop) (row next : RepairRow) : Prop :=
  (selected ∧ ∃ result, next = row.closed status now result) ∨ (¬ selected ∧ next = row)

/-- The request expired if it was selected and pending. -/
def ExpiredIf (selected : Prop) (row next : RequestRow) : Prop :=
  (selected ∧ row.state = .pending ∧ next = { row with state := .expired }) ∨
    (¬ (selected ∧ row.state = .pending) ∧ next = row)

/-- What a list of closings did. -/
structure Closes (status : RepairStatus) (now : Int) (repairIds : List Text)
    (before after : Store) : Prop where
  base : SameBase before after
  manualActions : after.manualActions = before.manualActions
  repairs : Table.Rewrites (fun row next => ClosedIf status now (row.repairId ∈ repairIds) row next)
    before.repairs after.repairs
  requests : Table.Rewrites
    (fun row next => ExpiredIf (∃ repairId ∈ repairIds, row.actionReference = some repairId) row next)
    before.requests after.requests
  events : UnobservedGrowth before after

theorem closes_nil (status : RepairStatus) (now : Int) (store : Store) :
    Closes status now [] store store where
  base := .refl store
  manualActions := rfl
  repairs := Table.Rewrites.refl (fun row => show ClosedIf _ _ _ row row from
    Or.inr ⟨List.not_mem_nil, rfl⟩) _
  requests := Table.Rewrites.refl (fun row => show ExpiredIf _ row row from
    Or.inr ⟨by simp, rfl⟩) _
  events := .refl store

theorem repairs_closeRepair (repairId incidentId : Text) (status : RepairStatus) (result : String)
    (kind : EventKind) (store : Store) :
    (store.closeRepair env repairId incidentId status now result kind).repairs =
      store.repairs.modify repairId (RepairRow.closed status now result) (fun _ => rfl) := rfl

theorem requests_closeRepair (repairId incidentId : Text) (status : RepairStatus) (result : String)
    (kind : EventKind) (store : Store) :
    (store.closeRepair env repairId incidentId status now result kind).requests =
      store.requests.mapRows (RequestRow.expiredWith repairId)
        (RequestRow.requestId_expiredWith repairId) := rfl

theorem closes_closeRepair (repairId incidentId : Text) (status : RepairStatus) (result : String)
    (kind : EventKind) (store : Store) :
    Closes status now [repairId] store
      (store.closeRepair env repairId incidentId status now result kind) where
  base := ⟨rfl, rfl, rfl, rfl, rfl, rfl, rfl⟩
  manualActions := rfl
  repairs := by
    rw [repairs_closeRepair]
    refine Table.Rewrites.modify _ (fun row _ different => ?_) fun row _ same => ?_
    · exact Or.inr ⟨by simpa using different, rfl⟩
    · exact Or.inl ⟨by simpa using same, result, rfl⟩
  requests := by
    rw [requests_closeRepair]
    refine Table.Rewrites.mapRows _ fun row _ => ?_
    by_cases chosen : row.actionReference = some repairId ∧ row.state = .pending
    · exact Or.inl ⟨by simpa using chosen.1, chosen.2, by simp [RequestRow.expiredWith, chosen]⟩
    · exact Or.inr ⟨by simpa using chosen, by simp only [RequestRow.expiredWith, if_neg chosen]⟩
  events := ⟨_, rfl, by simp⟩

theorem ClosedIf.trans {status : RepairStatus} {first second : Prop} {row middle next : RepairRow}
    (left : ClosedIf status now first row middle) (right : ClosedIf status now second middle next) :
    ClosedIf status now (first ∨ second) row next := by
  rcases left with ⟨chosen, one, rfl⟩ | ⟨spared, rfl⟩
  · rcases right with ⟨_, two, rfl⟩ | ⟨_, rfl⟩
    · exact Or.inl ⟨Or.inl chosen, two, rfl⟩
    · exact Or.inl ⟨Or.inl chosen, one, rfl⟩
  · rcases right with ⟨chosen, two, rfl⟩ | ⟨also, rfl⟩
    · exact Or.inl ⟨Or.inr chosen, two, rfl⟩
    · exact Or.inr ⟨by tauto, rfl⟩

theorem ExpiredIf.trans {first second : Prop} {row middle next : RequestRow}
    (left : ExpiredIf first row middle) (right : ExpiredIf second middle next) :
    ExpiredIf (first ∨ second) row next := by
  rcases left with ⟨chosen, pending, rfl⟩ | ⟨spared, rfl⟩
  · rcases right with ⟨_, still, _⟩ | ⟨_, rfl⟩
    · simp at still
    · exact Or.inl ⟨Or.inl chosen, pending, rfl⟩
  · rcases right with ⟨chosen, pending, rfl⟩ | ⟨also, rfl⟩
    · exact Or.inl ⟨Or.inr chosen, pending, rfl⟩
    · exact Or.inr ⟨by tauto, rfl⟩

theorem ClosedIf.repairId {status : RepairStatus} {selected : Prop} {row next : RepairRow}
    (closed : ClosedIf status now selected row next) : next.repairId = row.repairId := by
  rcases closed with ⟨_, _, rfl⟩ | ⟨_, rfl⟩ <;> rfl

theorem ExpiredIf.actionReference {selected : Prop} {row next : RequestRow}
    (expired : ExpiredIf selected row next) : next.actionReference = row.actionReference := by
  rcases expired with ⟨_, _, rfl⟩ | ⟨_, rfl⟩ <;> rfl

theorem Closes.trans {status : RepairStatus} {first second : List Text}
    {before middle after : Store} (left : Closes status now first before middle)
    (right : Closes status now second middle after) :
    Closes status now (first ++ second) before after where
  base := left.base.trans right.base
  manualActions := right.manualActions.trans left.manualActions
  repairs := by
    refine left.repairs.comp right.repairs fun {row middle next} one two => ?_
    rw [one.repairId] at two
    simpa only [List.mem_append] using one.trans two
  requests := by
    refine left.requests.comp right.requests fun {row middle next} one two => ?_
    rw [one.actionReference] at two
    simpa only [List.mem_append, or_and_right, exists_or] using one.trans two
  events := left.events.trans right.events

/-- A loop of closings closes the repairs of its rows. -/
theorem closes_foldl {ρ : Type} (repairId incidentId : ρ → Text) (result : ρ → String)
    (status : RepairStatus) (kind : EventKind) (rows : List ρ) (store : Store) :
    Closes status now (rows.map repairId) store
      (rows.foldl (fun store row => store.closeRepair env (repairId row) (incidentId row) status now
        (result row) kind) store) := by
  induction rows generalizing store with
  | nil => exact closes_nil status now store
  | cons row rows ih =>
      exact (closes_closeRepair (repairId row) (incidentId row) status (result row) kind store).trans
        (ih _)

/-! ## Closed manual actions -/

/-- The manual action was closed by a sweep if it was selected. -/
def ManualClosedIf (now : Int) (selected : Prop) (row next : ManualRow) : Prop :=
  (selected ∧ ∃ result, next = row.closed .unconfirmed now result none) ∨ (¬ selected ∧ next = row)

/-- What a list of closings of manual actions did. -/
structure ClosesManual (now : Int) (actionIds : List Text) (before after : Store) : Prop where
  base : SameBase before after
  repairs : after.repairs = before.repairs
  requests : after.requests = before.requests
  manualActions : Table.Rewrites
    (fun row next => ManualClosedIf now (row.actionId ∈ actionIds) row next)
    before.manualActions after.manualActions
  events : UnobservedGrowth before after

theorem manualActions_closeManualAction (actionId incidentId : Text) (status : ManualStatus)
    (result : String) (observation : Option Observation) (store : Store) :
    (store.closeManualAction env actionId incidentId status now result observation).manualActions =
      store.manualActions.modify actionId (ManualRow.closed status now result observation)
        (fun _ => rfl) := rfl

theorem closesManual_closeManualAction (actionId incidentId : Text) (result : String)
    (store : Store) :
    ClosesManual now [actionId] store
      (store.closeManualAction env actionId incidentId .unconfirmed now result none) where
  base := ⟨rfl, rfl, rfl, rfl, rfl, rfl, rfl⟩
  repairs := rfl
  requests := rfl
  manualActions := by
    rw [manualActions_closeManualAction]
    refine Table.Rewrites.modify _ (fun row _ different => ?_) fun row _ same => ?_
    · exact Or.inr ⟨by simpa using different, rfl⟩
    · exact Or.inl ⟨by simpa using same, result, rfl⟩
  events := ⟨_, rfl, by simp⟩

theorem ClosesManual.trans {first second : List Text} {before middle after : Store}
    (left : ClosesManual now first before middle) (right : ClosesManual now second middle after) :
    ClosesManual now (first ++ second) before after where
  base := left.base.trans right.base
  repairs := right.repairs.trans left.repairs
  requests := right.requests.trans left.requests
  manualActions := by
    refine left.manualActions.comp right.manualActions fun {row middle next} one two => ?_
    rw [ManualClosedIf, List.mem_append]
    rcases one with ⟨chosen, text, rfl⟩ | ⟨spared, rfl⟩
    · rcases two with ⟨_, other, rfl⟩ | ⟨_, rfl⟩
      · exact Or.inl ⟨Or.inl chosen, other, rfl⟩
      · exact Or.inl ⟨Or.inl chosen, text, rfl⟩
    · rcases two with ⟨chosen, other, rfl⟩ | ⟨also, rfl⟩
      · exact Or.inl ⟨Or.inr chosen, other, rfl⟩
      · exact Or.inr ⟨by tauto, rfl⟩
  events := left.events.trans right.events

theorem closesManual_foldl (result : String) (rows : List ManualRow) (store : Store) :
    ClosesManual now (rows.map ManualRow.actionId) store
      (rows.foldl (fun store row => store.closeManualAction env row.actionId row.incidentId
        .unconfirmed now result none) store) := by
  induction rows generalizing store with
  | nil =>
      exact ⟨.refl store, rfl, rfl, Table.Rewrites.refl (fun row =>
        show ManualClosedIf _ _ row row from Or.inr ⟨List.not_mem_nil, rfl⟩) _, .refl store⟩
  | cons row rows ih =>
      exact (closesManual_closeManualAction row.actionId row.incidentId result store).trans (ih _)

/-! ## The sweep, row by row -/

/-- A proposal whose incident ended or whose request is over. -/
def Store.Stale (now : Int) (store : Store) (row : RepairRow) : Prop :=
  ∃ incident, store.incidents.find? row.incidentId = some incident ∧
    (incident.endedAt.isSome = true ∨
      ∃ request ∈ store.requests, request.actionReference = some row.repairId ∧
        request.over now = true)

/-- The sweep expires the proposal. -/
def Store.Expires (now : Int) (store : Store) (row : RepairRow) : Prop :=
  row.status = .proposed ∧ store.Stale now row

/-- The sweep ends the verification of the repair. -/
def RepairRow.Lapses (now : Int) (row : RepairRow) : Prop :=
  row.status = .verifying ∧ row.overdue now = true

/-- The sweep ends the verification of the manual action. -/
def ManualRow.Lapses (now : Int) (row : ManualRow) : Prop :=
  row.status = .verifying ∧ row.overdue now = true

theorem mem_joinedRequests {store : Store} {repairId : Text} {row : RequestRow} :
    some row ∈ store.joinedRequests repairId ↔
      row ∈ store.requests ∧ row.actionReference = some repairId := by
  unfold Store.joinedRequests
  split
  · rename_i none_
    have absent := List.filter_eq_nil_iff.mp none_
    simp only [List.mem_singleton, reduceCtorEq, false_iff]
    rintro ⟨member, refers⟩
    simpa [refers] using absent row member
  · rw [List.mem_map]
    simp [Table.mem_def]

theorem exists_mem_joinedRequests (store : Store) (repairId : Text) :
    ∃ request, request ∈ store.joinedRequests repairId := by
  unfold Store.joinedRequests
  split
  · exact ⟨none, List.mem_singleton_self none⟩
  · rename_i found
    obtain ⟨row, member⟩ := List.exists_mem_of_ne_nil _ found
    exact ⟨some row, List.mem_map_of_mem member⟩

theorem mem_staleProposals {store : Store} {repair : RepairRow} {incident : IncidentRow} :
    (repair, incident) ∈ store.staleProposals now ↔
      repair ∈ store.repairs ∧ store.incidents.find? repair.incidentId = some incident ∧
        repair.status = .proposed ∧ (incident.endedAt.isSome = true ∨
          ∃ request ∈ store.requests, request.actionReference = some repair.repairId ∧
            request.over now = true) := by
  unfold Store.staleProposals
  rw [List.mem_flatMap]
  constructor
  · rintro ⟨source, member, inside⟩
    cases found : store.incidents.find? source.incidentId with
    | none => simp [found] at inside
    | some owner =>
        simp only [found, List.mem_flatMap] at inside
        obtain ⟨request, joined, chosen⟩ := inside
        split at chosen
        · rename_i stale
          obtain ⟨rfl, rfl⟩ := Prod.mk.inj (List.mem_singleton.mp chosen)
          refine ⟨member, found, stale.1, stale.2.imp id fun passed => ?_⟩
          obtain ⟨row, rfl, late⟩ := Option.any_eq_true _ _ |>.mp passed
          obtain ⟨rowMem, refers⟩ := mem_joinedRequests.mp joined
          exact ⟨row, rowMem, refers, late⟩
        · simp at chosen
  · rintro ⟨member, found, proposed, stale⟩
    refine ⟨repair, member, ?_⟩
    simp only [found, List.mem_flatMap]
    rcases stale with ended | ⟨row, rowMem, refers, late⟩
    · obtain ⟨request, joined⟩ := exists_mem_joinedRequests store repair.repairId
      exact ⟨request, joined, by simp [proposed, ended]⟩
    · exact ⟨some row, mem_joinedRequests.mpr ⟨rowMem, refers⟩, by simp [proposed, late]⟩

/-- The identifiers of the stale proposals are those of the proposals the sweep
expires. -/
theorem mem_staleIds {store : Store} {row : RepairRow} (member : row ∈ store.repairs) :
    row.repairId ∈ (store.staleProposals now).map (fun entry => entry.1.repairId) ↔
      store.Expires now row := by
  rw [List.mem_map]
  constructor
  · rintro ⟨⟨repair, incident⟩, found, same⟩
    obtain ⟨repairMem, known, proposed, stale⟩ := mem_staleProposals.mp found
    obtain rfl := store.repairs.key_injective repairMem member same
    exact ⟨proposed, incident, known, stale⟩
  · rintro ⟨proposed, incident, known, stale⟩
    exact ⟨(row, incident), mem_staleProposals.mpr ⟨member, known, proposed, stale⟩, rfl⟩

/-- What the sweep makes of a repair. -/
def SweptRepair (now : Int) (store : Store) (row next : RepairRow) : Prop :=
  (store.Expires now row ∧ ∃ result, next = row.closed .expired now result) ∨
    (row.Lapses now ∧ ∃ result, next = row.closed .unverified now result) ∨
      (¬ store.Expires now row ∧ ¬ row.Lapses now ∧ next = row)

/-- What the sweep makes of a manual action. -/
def SweptManual (now : Int) (row next : ManualRow) : Prop :=
  ManualClosedIf now (row.Lapses now) row next

/-- The sweep closes a repair that the request refers to. -/
def Store.ClosesReference (now : Int) (store : Store) (row : RequestRow) : Prop :=
  ∃ repair ∈ store.repairs, row.actionReference = some repair.repairId ∧
    (store.Expires now repair ∨ repair.Lapses now)

/-- What the sweep does to a store. -/
structure Swept (now : Int) (before after : Store) : Prop where
  base : SameBase before after
  repairs : Table.Rewrites (SweptRepair now before) before.repairs after.repairs
  manualActions : Table.Rewrites (SweptManual now) before.manualActions after.manualActions
  requests : Table.Rewrites (fun row next => ExpiredIf (before.ClosesReference now row) row next)
    before.requests after.requests
  events : UnobservedGrowth before after

theorem closes_expireProposals (store : Store) :
    Closes .expired now ((store.staleProposals now).map fun entry => entry.1.repairId) store
      (store.expireProposals env now) :=
  closes_foldl _ _ _ _ _ _ _

theorem closesManual_expireManualActions (store : Store) :
    ClosesManual now ((store.overdueManualActions now).map ManualRow.actionId) store
      (store.expireManualActions env now) :=
  closesManual_foldl _ _ _

theorem mem_overdueRepairs {store : Store} {row : RepairRow} :
    row ∈ store.overdueRepairs now ↔ row ∈ store.repairs ∧ row.Lapses now := by
  simp [Store.overdueRepairs, RepairRow.Lapses, Table.mem_def]

theorem mem_overdueManualActions {store : Store} {row : ManualRow} :
    row ∈ store.overdueManualActions now ↔ row ∈ store.manualActions ∧ row.Lapses now := by
  simp [Store.overdueManualActions, ManualRow.Lapses, Table.mem_def]

theorem Store.Expires.not_lapses {store : Store} {row : RepairRow} (expires : store.Expires now row) :
    ¬ row.Lapses now := by
  rintro ⟨verifying, _⟩
  rw [expires.1] at verifying
  contradiction

/-- Closing proposals keeps the repairs that lapse. -/
theorem lapses_expireProposals {store : Store} {row next : RepairRow}
    (closed : ClosedIf .expired now (store.Expires now row) row next) :
    next.Lapses now ↔ row.Lapses now := by
  rcases closed with ⟨expires, result, rfl⟩ | ⟨_, rfl⟩
  · constructor
    · rintro ⟨verifying, _⟩
      contradiction
    · exact fun lapses => absurd lapses expires.not_lapses
  · exact Iff.rfl

theorem repairs_expireProposals (store : Store) :
    Table.Rewrites (fun row next => ClosedIf .expired now (store.Expires now row) row next)
      store.repairs (store.expireProposals env now).repairs := by
  refine (closes_expireProposals store).repairs.mono fun {row next} member _ closed => ?_
  rw [mem_staleIds member] at closed
  exact closed

/-- The identifiers of the overdue repairs after the proposals are closed. -/
theorem mem_overdueIds {store : Store} {row : RepairRow} (member : row ∈ store.repairs) :
    row.repairId ∈ ((store.expireProposals env now).overdueRepairs now).map RepairRow.repairId ↔
      row.Lapses now := by
  rw [List.mem_map]
  constructor
  · rintro ⟨next, overdue, same⟩
    obtain ⟨nextMem, lapses⟩ := mem_overdueRepairs.mp overdue
    obtain ⟨source, sourceMem, closed⟩ := (repairs_expireProposals store).source nextMem
    obtain rfl := store.repairs.key_injective sourceMem member (closed.repairId.symm.trans same)
    exact (lapses_expireProposals closed).mp lapses
  · intro lapses
    obtain ⟨next, nextMem, closed⟩ := (@repairs_expireProposals env now store).target member
    exact ⟨next, mem_overdueRepairs.mpr ⟨nextMem, (lapses_expireProposals closed).mpr lapses⟩,
      closed.repairId⟩

/-- The sweep closes what is due, and nothing else. -/
theorem swept_expireRepairs (store : Store) : Swept now store (store.expireRepairs env now) := by
  have proposals := @closes_expireProposals env now store
  have manual := @closesManual_expireManualActions env now (store.expireProposals env now)
  have verifications : Closes .unverified now
      (((store.expireProposals env now).overdueRepairs now).map RepairRow.repairId)
      ((store.expireProposals env now).expireManualActions env now)
      (store.expireRepairs env now) := closes_foldl _ _ _ _ _ _ _
  refine ⟨proposals.base.trans (manual.base.trans verifications.base), ?_, ?_, ?_,
    proposals.events.trans (manual.events.trans verifications.events)⟩
  · have first := @repairs_expireProposals env now store
    have second := verifications.repairs
    rw [manual.repairs] at second
    have both := first.comp second (T := fun row next => ∃ middle,
      ClosedIf .expired now (store.Expires now row) row middle ∧
        ClosedIf .unverified now (middle.repairId ∈
          ((store.expireProposals env now).overdueRepairs now).map RepairRow.repairId) middle next)
      fun one two => ⟨_, one, two⟩
    refine both.mono fun {row next} member _ ⟨middle, one, two⟩ => ?_
    rw [one.repairId, mem_overdueIds member] at two
    rcases one with ⟨expires, result, rfl⟩ | ⟨spared, rfl⟩
    · rcases two with ⟨lapses, _⟩ | ⟨_, rfl⟩
      · exact absurd lapses expires.not_lapses
      · exact Or.inl ⟨expires, result, rfl⟩
    · rcases two with ⟨lapses, result, rfl⟩ | ⟨also, rfl⟩
      · exact Or.inr (Or.inl ⟨lapses, result, rfl⟩)
      · exact Or.inr (Or.inr ⟨spared, also, rfl⟩)
  · have closed := manual.manualActions
    rw [proposals.manualActions] at closed
    rw [verifications.manualActions]
    refine closed.mono fun {row next} member _ one => ?_
    have selected : row.actionId ∈ ((store.expireProposals env now).overdueManualActions now).map
        ManualRow.actionId ↔ row.Lapses now := by
      rw [List.mem_map]
      constructor
      · rintro ⟨other, overdue, same⟩
        obtain ⟨otherMem, lapses⟩ := mem_overdueManualActions.mp overdue
        rw [proposals.manualActions] at otherMem
        obtain rfl := store.manualActions.key_injective otherMem member same
        exact lapses
      · intro lapses
        exact ⟨row, mem_overdueManualActions.mpr ⟨by rwa [proposals.manualActions], lapses⟩, rfl⟩
    rwa [selected] at one
  · have first := proposals.requests
    have second := verifications.requests
    rw [manual.requests] at second
    refine first.comp second fun {row middle next} one two => ?_
    rw [one.actionReference] at two
    have selected : ((∃ repairId ∈ (store.staleProposals now).map fun entry => entry.1.repairId,
        row.actionReference = some repairId) ∨
        ∃ repairId ∈ ((store.expireProposals env now).overdueRepairs now).map RepairRow.repairId,
          row.actionReference = some repairId) ↔ store.ClosesReference now row := by
      constructor
      · rintro (⟨repairId, chosen, refers⟩ | ⟨repairId, chosen, refers⟩)
        · obtain ⟨⟨repair, incident⟩, found, rfl⟩ := List.mem_map.mp chosen
          have member := (mem_staleProposals.mp found).1
          exact ⟨repair, member, refers, Or.inl ((mem_staleIds member).mp chosen)⟩
        · obtain ⟨next, overdue, rfl⟩ := List.mem_map.mp chosen
          obtain ⟨source, member, closed⟩ :=
            (repairs_expireProposals store).source (mem_overdueRepairs.mp overdue).1
          rw [closed.repairId] at chosen refers
          exact ⟨source, member, refers, Or.inr ((mem_overdueIds member).mp chosen)⟩
      · rintro ⟨repair, member, refers, expires | lapses⟩
        · exact Or.inl ⟨repair.repairId, (mem_staleIds member).mpr expires, refers⟩
        · exact Or.inr ⟨repair.repairId, (mem_overdueIds member).mpr lapses, refers⟩
    rw [← selected]
    exact one.trans two

end OhanaAgent.Tsunade
