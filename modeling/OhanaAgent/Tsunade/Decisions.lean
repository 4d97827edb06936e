import OhanaAgent.Tsunade.Settling

/-!
# Transitions that decide

A proposal inserts a repair with its authorization request.  A decision, an
execution and a failed execution each move one repair.  This file states what
these transactions write and that they keep the account between the repairs and
their requests.
-/

namespace OhanaAgent.Tsunade

open OhanaAgent.Encoding.Json
open OhanaAgent.Store
open OhanaAgent.Time

variable {env : Environment} {now : Int} {store : Store}

/-! ## One repair moves -/

/-- One repair moves from a status to another; the others stay. -/
structure SteeredRepair (moving : Text) (source target : RepairStatus) (row next : RepairRow) :
    Prop where
  repairId : next.repairId = row.repairId
  incidentId : next.incidentId = row.incidentId
  moved : row.repairId = moving →
    row.status = source ∧ next.status = target ∧ next.authorizedAt.isSome = true
  kept : row.repairId ≠ moving → next = row

/-- The requests of one repair may be answered; the others stay. -/
structure SteeredRequest (repairId : Text) (row next : RequestRow) : Prop where
  requestId : next.requestId = row.requestId
  kind : next.kind = row.kind
  actionReference : next.actionReference = row.actionReference
  pending : next.state = .pending → row.state = .pending
  kept : row.actionReference ≠ some repairId → next = row

theorem SteeredRequest.refl (repairId : Text) (row : RequestRow) :
    SteeredRequest repairId row row :=
  ⟨rfl, rfl, rfl, id, fun _ => rfl⟩

/-- A transaction moves one repair.  A decided proposal leaves no pending
request behind. -/
structure Steers (repairId : Text) (source target : RepairStatus) (before after : Store) :
    Prop where
  incidents : after.incidents = before.incidents
  uuids : after.uuids = before.uuids
  known : ∃ row ∈ before.repairs, row.repairId = repairId
  repairs : Table.Rewrites (SteeredRepair repairId source target) before.repairs after.repairs
  requests : Table.Rewrites (SteeredRequest repairId) before.requests after.requests
  released : source = .proposed → after.Unrequested repairId
  aside : Aside before after

/-! ## Decisions -/

theorem pendingProposal_eq_ok {repairId incidentId : Text} {row : RepairRow} {swept : Store}
    (found : store.pendingProposal env now repairId incidentId = .ok (row, swept)) :
    swept = store.expireRepairs env now ∧ row ∈ swept.repairs ∧ row.repairId = repairId ∧
      row.incidentId = incidentId ∧ row.status = .proposed := by
  unfold Store.pendingProposal at found
  dsimp only at found
  split at found
  · simp at found
  · rename_i repair lookup
    obtain ⟨member, same⟩ := Table.find?_eq_some_iff.mp lookup
    split at found
    · simp at found
    · rename_i ofIncident
      split at found
      · simp at found
      · split at found
        · simp at found
        · rename_i proposed
          obtain ⟨rfl, rfl⟩ := Prod.mk.inj (Except.ok.inj found)
          exact ⟨rfl, member, same, not_not.mp ofIncident, not_not.mp proposed⟩

theorem RequestRow.decided_steered (decision : Decision) (choice : Choice) (row : RequestRow) :
    SteeredRequest decision.repairId row (row.decided now decision choice) := by
  unfold RequestRow.decided
  split
  · rename_i chosen
    exact ⟨rfl, rfl, rfl, by simp, fun other => absurd chosen.1 other⟩
  · exact .refl _ row

theorem RequestRow.decided_not_pending {decision : Decision} {choice : Choice} {row : RequestRow}
    (refers : row.actionReference = some decision.repairId) :
    (row.decided now decision choice).state ≠ .pending := by
  unfold RequestRow.decided
  split
  · simp
  · rename_i spared
    exact fun pending => spared ⟨refers, pending⟩

/-- A decision finds its repair proposed after the sweep and moves it. -/
theorem decideRepair_eq_ok {incidentId : Text} {decision : Decision} {choice : Choice}
    {write : RepairRow → RepairRow} {keeps : ∀ row, (write row).repairId = row.repairId}
    {kind : EventKind} {summary : String} {payload : Value} {target : RepairStatus}
    {repair : RepairRow} {after : Store}
    (decided : store.decideRepair env now incidentId decision choice write keeps kind summary
      payload = .ok (repair, after))
    (writes : ∀ row, (write row).incidentId = row.incidentId ∧ (write row).status = target ∧
      (write row).authorizedAt.isSome = true) :
    (∃ row ∈ (store.expireRepairs env now).repairs, row.repairId = decision.repairId ∧
      row.status = .proposed ∧ repair = write row) ∧
    Steers decision.repairId .proposed target (store.expireRepairs env now) after := by
  simp only [Store.decideRepair, bind_eq_ok] at decided
  obtain ⟨⟨row, swept⟩, found, rest⟩ := decided
  obtain ⟨rfl, member, same, _, proposed⟩ := pendingProposal_eq_ok found
  simp only [pure_eq_ok, Prod.mk.injEq] at rest
  obtain ⟨written, rfl⟩ := rest
  refine ⟨⟨row, member, same, proposed, written.symm⟩, rfl, rfl, ⟨row, member, same⟩, ?_, ?_, ?_,
    .of_eq rfl rfl rfl le_rfl ⟨_, rfl⟩⟩
  · refine Table.Rewrites.modify keeps (fun other _ different =>
      ⟨rfl, rfl, fun equal => absurd equal different, fun _ => rfl⟩) fun other otherMem equal => ?_
    obtain rfl := Table.key_injective otherMem member (equal.trans same.symm)
    exact ⟨keeps other, (writes other).1, fun _ => ⟨proposed, (writes other).2⟩,
      fun different => absurd equal different⟩
  · exact Table.Rewrites.mapRows (RequestRow.requestId_decided now decision choice)
      fun request _ => request.decided_steered decision choice
  · intro _ request requestMem refers
    obtain ⟨old, _, rfl⟩ := List.mem_map.mp (Table.mem_def.mp requestMem)
    exact RequestRow.decided_not_pending
      ((old.decided_steered decision choice).actionReference.symm.trans refers)

/-- `authorize_repair` authorizes the proposal of its decision. -/
theorem authorizeRepair_eq_ok {incidentId : Text} {decision : Decision} {repair : RepairRow}
    {after : Store}
    (authorized : store.authorizeRepair env now incidentId decision = .ok (repair, after)) :
    (∃ row ∈ (store.expireRepairs env now).repairs, row.repairId = decision.repairId ∧
      row.status = .proposed ∧ repair = row.authorized now decision) ∧
    Steers decision.repairId .proposed .authorized (store.expireRepairs env now) after :=
  decideRepair_eq_ok authorized fun _ => ⟨rfl, rfl, rfl⟩

/-- `refuse_repair` refuses the proposal of its decision. -/
theorem refuseRepair_eq_ok {incidentId : Text} {decision : Decision} {repair : RepairRow}
    {after : Store}
    (refused : store.refuseRepair env now incidentId decision = .ok (repair, after)) :
    (∃ row ∈ (store.expireRepairs env now).repairs, row.repairId = decision.repairId ∧
      row.status = .proposed ∧ repair = row.refused now decision) ∧
    Steers decision.repairId .proposed .refused (store.expireRepairs env now) after :=
  decideRepair_eq_ok refused fun _ => ⟨rfl, rfl, rfl⟩

/-! ## Executions -/

theorem requiredRepair_eq_ok {repairId : Text} {row : RepairRow}
    (required : store.requiredRepair repairId = .ok row) :
    row ∈ store.repairs ∧ row.repairId = repairId := by
  unfold Store.requiredRepair at required
  split at required
  · simp at required
  · rename_i repair lookup
    obtain rfl := Except.ok.inj required
    exact Table.find?_eq_some_iff.mp lookup

/-- Counting an attempt notes the experience on its repair and no more. -/
structure Counted (repairId : Text) (before after : Store) : Prop where
  incidents : after.incidents = before.incidents
  requests : after.requests = before.requests
  uuids : after.uuids = before.uuids
  repairs : Table.Rewrites (fun row next => next.repairId = row.repairId ∧
    next.incidentId = row.incidentId ∧ next.status = row.status ∧
    next.authorizedAt = row.authorizedAt ∧ (row.repairId ≠ repairId → next = row))
    before.repairs after.repairs
  aside : Aside before after

theorem Counted.refl (repairId : Text) (store : Store) : Counted repairId store store :=
  ⟨rfl, rfl, rfl, Table.Rewrites.refl (fun _ => ⟨rfl, rfl, rfl, rfl, fun _ => rfl⟩) _, .refl store⟩

theorem counted_countExperienceAttempt (repair : RepairRow) (store : Store) :
    Counted repair.repairId store (store.countExperienceAttempt repair now) := by
  unfold Store.countExperienceAttempt
  split
  · exact .refl _ store
  · refine ⟨rfl, rfl, rfl, ?_, .of_eq rfl rfl rfl le_rfl (noEvents rfl)⟩
    dsimp only
    refine Table.Rewrites.modify _ (fun _ _ _ => ⟨rfl, rfl, rfl, rfl, fun _ => rfl⟩)
      fun row _ same => ?_
    exact ⟨rfl, rfl, rfl, rfl, fun different => absurd same different⟩

theorem counted_countExperienceOutcome (repairId : Text) (repair : RepairRow) (at_ : Int)
    (succeeded : Bool) (store : Store) :
    Counted repairId store (store.countExperienceOutcome repair at_ succeeded) := by
  obtain ⟨repairs, requests, incidents, uuids⟩ :=
    repairs_countExperienceOutcome repair at_ succeeded store
  exact ⟨incidents, requests, uuids,
    Table.Rewrites.of_eq (fun _ => ⟨rfl, rfl, rfl, rfl, fun _ => rfl⟩) repairs,
    (quiet_countExperienceOutcome repair at_ succeeded store).aside⟩

theorem Counted.trans {repairId : Text} {first second third : Store}
    (left : Counted repairId first second) (right : Counted repairId second third) :
    Counted repairId first third where
  incidents := right.incidents.trans left.incidents
  requests := right.requests.trans left.requests
  uuids := right.uuids.trans left.uuids
  repairs := left.repairs.comp right.repairs fun ⟨a, b, c, d, e⟩ ⟨f, g, h, i, j⟩ =>
    ⟨f.trans a, g.trans b, h.trans c, i.trans d, fun different =>
      (j fun same => different (a.symm.trans same)).trans (e different)⟩
  aside := left.aside.trans right.aside

/-- Writing the outcome of an execution on an authorized repair moves it. -/
theorem Counted.steers {repairId : Text} {counted : Store} {row : RepairRow}
    (counts : Counted repairId store counted) (member : row ∈ store.repairs)
    (same : row.repairId = repairId) (authorized : row.status = .authorized)
    (decided : row.authorizedAt.isSome = true) (target : RepairStatus)
    (write : RepairRow → RepairRow) (keeps : ∀ row, (write row).repairId = row.repairId)
    (writes : ∀ row, (write row).incidentId = row.incidentId ∧ (write row).status = target ∧
      (write row).authorizedAt = row.authorizedAt) :
    Steers repairId .authorized target store
      { counted with repairs := counted.repairs.modify repairId write keeps } where
  incidents := counts.incidents
  uuids := counts.uuids
  known := ⟨row, member, same⟩
  repairs := by
    have written : Table.Rewrites (fun middle next => next.repairId = middle.repairId ∧
        next.incidentId = middle.incidentId ∧
        (middle.repairId = repairId → next.status = target ∧
          next.authorizedAt = middle.authorizedAt) ∧
        (middle.repairId ≠ repairId → next = middle)) counted.repairs
        (counted.repairs.modify repairId write keeps) :=
      Table.Rewrites.modify keeps
        (fun _ _ different => ⟨rfl, rfl, fun equal => absurd equal different, fun _ => rfl⟩)
        fun middle _ equal => ⟨keeps middle, (writes middle).1, fun _ => (writes middle).2,
          fun different => absurd equal different⟩
    have both := counts.repairs.comp written (T := fun first last => ∃ middle : RepairRow,
      (middle.repairId = first.repairId ∧ middle.incidentId = first.incidentId ∧
        middle.authorizedAt = first.authorizedAt ∧
        (first.repairId ≠ repairId → middle = first)) ∧
      (last.repairId = middle.repairId ∧ last.incidentId = middle.incidentId ∧
        (middle.repairId = repairId → last.status = target ∧
          last.authorizedAt = middle.authorizedAt) ∧
        (middle.repairId ≠ repairId → last = middle)))
      fun ⟨a, b, _, d, e⟩ two => ⟨_, ⟨a, b, d, e⟩, two⟩
    refine both.mono fun {first last} firstMem _ ⟨middle, ⟨a, b, d, e⟩, f, g, h, i⟩ => ?_
    refine ⟨f.trans a, g.trans b, fun equal => ?_, fun different => ?_⟩
    · obtain rfl := store.repairs.key_injective firstMem member (equal.trans same.symm)
      obtain ⟨status, at_⟩ := h (a.trans equal)
      exact ⟨authorized, status, by rw [at_, d, decided]⟩
    · exact (i fun equal => different (a.symm.trans equal)).trans (e different)
  requests := Table.Rewrites.of_eq (SteeredRequest.refl repairId) counts.requests
  released := by simp
  aside := counts.aside.trans (.of_eq rfl rfl rfl le_rfl (noEvents rfl))

/-- `mark_repair_executed` finds its repair authorized. -/
theorem markRepairExecuted_eq_ok {repairId : Text} {after : Store}
    (executed : store.markRepairExecuted env now repairId = .ok ((), after)) :
    Steers repairId .authorized .verifying store after := by
  simp only [Store.markRepairExecuted, bind_eq_ok] at executed
  obtain ⟨row, required, rest⟩ := executed
  obtain ⟨member, same⟩ := requiredRepair_eq_ok required
  split at rest
  · simp at rest
  · rename_i authorized
    obtain ⟨decided, status⟩ := not_or.mp authorized
    simp only [pure_eq_ok, Prod.mk.injEq, true_and] at rest
    subst rest
    have counts := @counted_countExperienceAttempt now row store
    rw [same] at counts
    have steers := counts.steers member same (not_not.mp status)
      (Option.isSome_iff_ne_none.mpr decided) .verifying
      (RepairRow.executed now (store.verificationSeconds row.incidentId)) (fun _ => rfl)
      fun _ => ⟨rfl, rfl, rfl⟩
    exact ⟨steers.incidents, steers.uuids, steers.known, steers.repairs, steers.requests,
      steers.released, steers.aside.trans (.of_eq rfl rfl rfl le_rfl ⟨_, rfl⟩)⟩

/-- `mark_repair_execution_failed` on a repair that is authorized. -/
theorem markRepairExecutionFailed_eq_ok {repairId : Text} {error : String} {after : Store}
    (held : ∀ row ∈ store.repairs, row.repairId = repairId →
      row.status = .authorized ∧ row.authorizedAt.isSome = true)
    (failed : store.markRepairExecutionFailed env now repairId error = .ok ((), after)) :
    Steers repairId .authorized .failed store after := by
  simp only [Store.markRepairExecutionFailed, bind_eq_ok] at failed
  obtain ⟨row, required, counted, ⟨again, _, conclude⟩, rest⟩ := failed
  obtain ⟨member, same⟩ := requiredRepair_eq_ok required
  obtain rfl := Except.ok.inj conclude
  simp only [pure_eq_ok, Prod.mk.injEq, true_and] at rest
  subst rest
  have attempt : Counted repairId store
      (if row.experienceId = none then store.countExperienceAttempt row now else store) := by
    split
    · have counts := @counted_countExperienceAttempt now row store
      rwa [same] at counts
    · exact .refl repairId store
  obtain ⟨status, decided⟩ := held row member same
  have steers := (attempt.trans (counted_countExperienceOutcome repairId again now false _)).steers
    member same status decided .failed (RepairRow.executionFailed now
      (String.ofList ((env.redactText error).toList.take 1000))) (fun _ => rfl)
    fun _ => ⟨rfl, rfl, rfl⟩
  exact ⟨steers.incidents, steers.uuids, steers.known, steers.repairs, steers.requests,
    steers.released, steers.aside.trans (.of_eq rfl rfl rfl le_rfl ⟨_, rfl⟩)⟩

/-! ## Proposals -/

/-- A proposal on an incident without a proposal or a verification inserts a
repair and its authorization request. -/
structure Proposes (env : Environment) (now : Int) (incident : IncidentRow) (spec : RepairSpec)
    (before after : Store) : Prop where
  free : before.existingRepair incident.incidentId = none
  incidents : after.incidents = before.incidents
  uuids : after.uuids = before.uuids + 2
  inserted : ∃ known,
    after.repairs.rows = before.repairs.rows ++
      [spec.repair (env.uuid before.uuids) incident.incidentId now known] ∧
    after.requests.rows = before.requests.rows ++
      [spec.request (env.uuid (before.uuids + 1)) (env.uuid before.uuids) incident now known]
  aside : Aside before after

theorem insertRepair_eq_ok {row : RepairRow} {after : Store}
    (inserted : store.insertRepair row = .ok after) :
    ∃ repairs, repairs.rows = store.repairs.rows ++ [row] ∧ after = { store with repairs } := by
  unfold Store.insertRepair at inserted
  split at inserted
  · simp at inserted
  · rename_i repairs found
    exact ⟨repairs, (Table.insert?_eq_some_iff.mp found).2, (Except.ok.inj inserted).symm⟩

theorem insertRequest_eq_ok {row : RequestRow} {after : Store}
    (inserted : store.insertRequest row = .ok after) :
    ∃ requests, requests.rows = store.requests.rows ++ [row] ∧ after = { store with requests } := by
  unfold Store.insertRequest at inserted
  split at inserted
  · simp at inserted
  · rename_i requests found
    exact ⟨requests, (Table.insert?_eq_some_iff.mp found).2, (Except.ok.inj inserted).symm⟩

/-- `propose_repair` returns the repair it finds or inserts one. -/
theorem proposeRepair_eq_ok {incident : IncidentRow} {spec : RepairSpec} {repair : RepairRow}
    {after : Store} (proposed : store.proposeRepair env now incident spec = .ok (repair, after)) :
    after = store ∨ Proposes env now incident spec store after := by
  unfold Store.proposeRepair at proposed
  split at proposed
  · exact Or.inl (Prod.mk.inj (Except.ok.inj proposed)).2.symm
  · rename_i free
    simp only [bind_eq_ok, pure_eq_ok, Prod.mk.injEq] at proposed
    obtain ⟨withRepair, repairInserted, withRequest, requestInserted, _, rfl⟩ := proposed
    obtain ⟨repairs, repairRows, rfl⟩ := insertRepair_eq_ok repairInserted
    obtain ⟨requests, requestRows, rfl⟩ := insertRequest_eq_ok requestInserted
    exact Or.inr ⟨free, rfl, rfl, ⟨_, repairRows, requestRows⟩,
      .of_eq rfl rfl rfl (Nat.le_add_right _ _) ⟨_, rfl⟩⟩

/-- A follow-up inserts a request that refers to itself. -/
structure Follows (env : Environment) (before after : Store) : Prop where
  incidents : after.incidents = before.incidents
  repairs : after.repairs = before.repairs
  uuids : after.uuids = before.uuids + 1
  inserted : ∃ request : RequestRow, request.kind = .investigationAuthorization ∧
    request.requestId = env.uuid before.uuids ∧
    request.actionReference = some (env.uuid before.uuids) ∧
    after.requests.rows = before.requests.rows ++ [request]
  aside : Aside before after

/-- `propose_followup` does nothing or inserts a request. -/
theorem proposeFollowup_eq_ok {incidentId originJobId basis : Text} {reason question : String}
    {followup : Option FollowupRow} {after : Store}
    (proposed : store.proposeFollowup env now incidentId originJobId basis reason question =
      .ok (followup, after)) : after = store ∨ Follows env store after := by
  unfold Store.proposeFollowup at proposed
  dsimp only at proposed
  cases lookup : store.incidents.find? incidentId with
  | none =>
      simp only [lookup, true_or, if_true, pure_eq_ok, Prod.mk.injEq] at proposed
      exact Or.inl proposed.2.symm
  | some incident =>
      simp only [lookup] at proposed
      split at proposed
      · exact Or.inl (Prod.mk.inj (Except.ok.inj proposed)).2.symm
      · split at proposed
        · simp at proposed
        · split at proposed
          · simp at proposed
          · simp only [bind_eq_ok, pure_eq_ok, Prod.mk.injEq] at proposed
            obtain ⟨withRequest, inserted, _, rfl⟩ := proposed
            obtain ⟨requests, rows, rfl⟩ := insertRequest_eq_ok inserted
            exact Or.inr ⟨rfl, rfl, rfl, ⟨_, rfl, rfl, rfl, rows⟩,
              .of_eq rfl rfl rfl (Nat.le_add_right _ _) ⟨_, rfl⟩⟩

/-! ## The account of repairs and requests -/

/-- An identifier that was drawn before. -/
def Store.Drawn (env : Environment) (store : Store) (id : Text) : Prop :=
  ∃ n < store.uuids, id = env.uuid n

theorem Store.Drawn.mono {before after : Store} {id : Text} (drawn : before.Drawn env id)
    (later : before.uuids ≤ after.uuids) : after.Drawn env id := by
  obtain ⟨n, bound, equal⟩ := drawn
  exact ⟨n, bound.trans_le later, equal⟩

/-- The next identifier is a new one. -/
theorem Store.Drawn.ne_next {id : Text} (drawn : store.Drawn env id) :
    id ≠ env.uuid store.uuids := by
  obtain ⟨n, bound, rfl⟩ := drawn
  exact fun equal => bound.ne (env.uuid_injective equal)

/-- The account between the incidents, the repairs and the requests: a proposal
has its authorization request, and a pending request on a repair has its
proposal. -/
structure Accounted (env : Environment) (store : Store) : Prop where
  known : ∀ repair ∈ store.repairs, ∃ incident ∈ store.incidents,
    incident.incidentId = repair.incidentId
  requested : ∀ repair ∈ store.repairs, repair.status = .proposed → ∃ request ∈ store.requests,
    request.actionReference = some repair.repairId ∧ request.kind = .repairAuthorization ∧
      request.state ≠ .answered
  pending : ∀ request ∈ store.requests, request.state = .pending → ∀ repair ∈ store.repairs,
    request.actionReference = some repair.repairId → repair.status = .proposed
  drawn : ∀ repair ∈ store.repairs, store.Drawn env repair.repairId
  drawnRequests : ∀ request ∈ store.requests, store.Drawn env request.requestId
  references : ∀ request ∈ store.requests, ∀ reference, request.actionReference = some reference →
    store.Drawn env reference

/-- A repair that is no longer proposed has no pending request. -/
theorem Accounted.unrequested (accounted : Accounted env store) {repair : RepairRow}
    (member : repair ∈ store.repairs) (decided : repair.status ≠ .proposed) :
    store.Unrequested repair.repairId :=
  fun request requestMem refers pending =>
    decided (accounted.pending request requestMem pending repair member refers)

theorem Settles.proposed {status : RepairStatus} (settles : Settles status .proposed) :
    status = .proposed := by
  cases settles
  rfl

theorem Accounted.settling {after : Store} (accounted : Accounted env store)
    (settling : Settling store after) : Accounted env after where
  known := by
    intro next member
    obtain ⟨row, rowMem, settles⟩ := settling.repairs.source member
    obtain ⟨incident, incidentMem, owner⟩ := accounted.known row rowMem
    obtain ⟨kept, keptMem, same⟩ := settling.incidents incident incidentMem
    exact ⟨kept, keptMem, same.trans (owner.trans settles.incidentId.symm)⟩
  requested := by
    intro next member proposed
    obtain ⟨row, rowMem, settles⟩ := settling.repairs.source member
    have before : row.status = .proposed := (proposed ▸ settles.status).proposed
    obtain ⟨request, requestMem, refers, kind, open_⟩ := accounted.requested row rowMem before
    obtain ⟨kept, keptMem, stays⟩ := settling.requests.target requestMem
    exact ⟨kept, keptMem, by rw [stays.actionReference, refers, settles.repairId],
      stays.kind.trans kind, fun answered => open_ (stays.answered answered kind)⟩
  pending := by
    intro request requestMem pending next member refers
    obtain ⟨old, oldMem, stays⟩ := settling.requests.source requestMem
    obtain ⟨row, rowMem, settles⟩ := settling.repairs.source member
    have proposed := accounted.pending old oldMem (stays.pending pending) row rowMem
      (by rw [← stays.actionReference, refers, settles.repairId])
    by_contra changed
    exact settling.closed row rowMem proposed next member settles.repairId changed request requestMem
      (refers.trans (congrArg some settles.repairId)) pending
  drawn := by
    intro next member
    obtain ⟨row, rowMem, settles⟩ := settling.repairs.source member
    exact settles.repairId ▸ (accounted.drawn row rowMem).mono settling.uuids
  drawnRequests := by
    intro request requestMem
    obtain ⟨old, oldMem, stays⟩ := settling.requests.source requestMem
    exact stays.requestId ▸ (accounted.drawnRequests old oldMem).mono settling.uuids
  references := by
    intro request requestMem reference refers
    obtain ⟨old, oldMem, stays⟩ := settling.requests.source requestMem
    exact (accounted.references old oldMem reference
      (stays.actionReference.symm.trans refers)).mono settling.uuids

theorem Accounted.steers {after : Store} {repairId : Text} {source target : RepairStatus}
    (accounted : Accounted env store) (steers : Steers repairId source target store after)
    (decided : target ≠ .proposed) : Accounted env after where
  known := by
    intro next member
    obtain ⟨row, rowMem, steered⟩ := steers.repairs.source member
    obtain ⟨incident, incidentMem, owner⟩ := accounted.known row rowMem
    exact ⟨incident, steers.incidents ▸ incidentMem, owner.trans steered.incidentId.symm⟩
  requested := by
    intro next member proposed
    obtain ⟨row, rowMem, steered⟩ := steers.repairs.source member
    have other : row.repairId ≠ repairId := fun same =>
      decided ((steered.moved same).2.1.symm.trans proposed)
    obtain rfl := steered.kept other
    obtain ⟨request, requestMem, refers, kind, open_⟩ := accounted.requested next rowMem proposed
    obtain ⟨kept, keptMem, stays⟩ := steers.requests.target requestMem
    obtain rfl := stays.kept (by simpa [refers] using other)
    exact ⟨kept, keptMem, refers, kind, open_⟩
  pending := by
    intro request requestMem pending next member refers
    obtain ⟨old, oldMem, stays⟩ := steers.requests.source requestMem
    obtain ⟨row, rowMem, steered⟩ := steers.repairs.source member
    have proposed := accounted.pending old oldMem (stays.pending pending) row rowMem
      (by rw [← stays.actionReference, refers, steered.repairId])
    by_cases same : row.repairId = repairId
    · have source := (steered.moved same).1.symm.trans proposed
      exact absurd pending (steers.released source request requestMem
        (by rw [refers, steered.repairId, same]))
    · rw [steered.kept same, proposed]
  drawn := by
    intro next member
    obtain ⟨row, rowMem, steered⟩ := steers.repairs.source member
    exact steered.repairId ▸ (accounted.drawn row rowMem).mono steers.uuids.ge
  drawnRequests := by
    intro request requestMem
    obtain ⟨old, oldMem, stays⟩ := steers.requests.source requestMem
    exact stays.requestId ▸ (accounted.drawnRequests old oldMem).mono steers.uuids.ge
  references := by
    intro request requestMem reference refers
    obtain ⟨old, oldMem, stays⟩ := steers.requests.source requestMem
    exact (accounted.references old oldMem reference
      (stays.actionReference.symm.trans refers)).mono steers.uuids.ge

theorem Accounted.proposes {after : Store} {incident : IncidentRow} {spec : RepairSpec}
    (accounted : Accounted env store) (proposes : Proposes env now incident spec store after)
    (exists_ : ∃ row ∈ store.incidents, row.incidentId = incident.incidentId) :
    Accounted env after := by
  obtain ⟨known, repairRows, requestRows⟩ := proposes.inserted
  have later : store.uuids ≤ after.uuids := by rw [proposes.uuids]; omega
  have fresh : after.Drawn env (env.uuid store.uuids) :=
    ⟨store.uuids, by rw [proposes.uuids]; omega, rfl⟩
  have repairs : ∀ repair, repair ∈ after.repairs ↔ repair ∈ store.repairs ∨
      repair = spec.repair (env.uuid store.uuids) incident.incidentId now known := by
    simp [Table.mem_def, repairRows]
  have requests : ∀ request, request ∈ after.requests ↔ request ∈ store.requests ∨ request =
      spec.request (env.uuid (store.uuids + 1)) (env.uuid store.uuids) incident now known := by
    simp [Table.mem_def, requestRows]
  refine ⟨?_, ?_, ?_, ?_, ?_, ?_⟩
  · intro repair member
    rw [proposes.incidents]
    rcases (repairs repair).mp member with old | rfl
    · exact accounted.known repair old
    · exact exists_
  · intro repair member proposed
    rcases (repairs repair).mp member with old | rfl
    · obtain ⟨request, requestMem, rest⟩ := accounted.requested repair old proposed
      exact ⟨request, (requests request).mpr (Or.inl requestMem), rest⟩
    · exact ⟨_, (requests _).mpr (Or.inr rfl), rfl, rfl, by simp [RepairSpec.request]⟩
  · intro request requestMem pending repair member refers
    rcases (repairs repair).mp member with old | rfl
    · rcases (requests request).mp requestMem with oldRequest | rfl
      · exact accounted.pending request oldRequest pending repair old refers
      · exact absurd (Option.some.inj refers).symm (accounted.drawn repair old).ne_next
    · rfl
  · intro repair member
    rcases (repairs repair).mp member with old | rfl
    · exact (accounted.drawn repair old).mono later
    · exact fresh
  · intro request requestMem
    rcases (requests request).mp requestMem with old | rfl
    · exact (accounted.drawnRequests request old).mono later
    · exact ⟨store.uuids + 1, by rw [proposes.uuids]; omega, rfl⟩
  · intro request requestMem reference refers
    rcases (requests request).mp requestMem with old | rfl
    · exact (accounted.references request old reference refers).mono later
    · exact Option.some.inj refers ▸ fresh

theorem Accounted.follows {after : Store} (accounted : Accounted env store)
    (follows : Follows env store after) : Accounted env after := by
  obtain ⟨added, kind, id, reference, rows⟩ := follows.inserted
  have later : store.uuids ≤ after.uuids := by rw [follows.uuids]; omega
  have requests : ∀ request, request ∈ after.requests ↔
      request ∈ store.requests ∨ request = added := by
    simp [Table.mem_def, rows]
  have fresh : after.Drawn env (env.uuid store.uuids) :=
    ⟨store.uuids, by rw [follows.uuids]; omega, rfl⟩
  refine ⟨?_, ?_, ?_, ?_, ?_, ?_⟩
  · rw [follows.repairs, follows.incidents]
    exact accounted.known
  · intro repair member proposed
    obtain ⟨request, requestMem, rest⟩ :=
      accounted.requested repair (follows.repairs ▸ member) proposed
    exact ⟨request, (requests request).mpr (Or.inl requestMem), rest⟩
  · intro request requestMem pending repair member refers
    rw [follows.repairs] at member
    rcases (requests request).mp requestMem with old | rfl
    · exact accounted.pending request old pending repair member refers
    · exact absurd (Option.some.inj (reference.symm.trans refers)).symm
        (accounted.drawn repair member).ne_next
  · intro repair member
    exact (accounted.drawn repair (follows.repairs ▸ member)).mono later
  · intro request requestMem
    rcases (requests request).mp requestMem with old | rfl
    · exact (accounted.drawnRequests request old).mono later
    · exact id ▸ fresh
  · intro request requestMem wanted refers
    rcases (requests request).mp requestMem with old | rfl
    · exact (accounted.references request old wanted refers).mono later
    · exact Option.some.inj (reference.symm.trans refers) ▸ fresh

/-- A proposal on an incident without a proposal or a verification succeeds: the
identifiers it draws are new. -/
theorem Accounted.proposeRepair_ok (accounted : Accounted env store) {incident : IncidentRow}
    (free : store.existingRepair incident.incidentId = none) (now : Int) (spec : RepairSpec) :
    ∃ repair after, store.proposeRepair env now incident spec = .ok (repair, after) ∧
      Proposes env now incident spec store after := by
  obtain ⟨repairs, repairInserted⟩ := store.repairs.exists_insert?
    (spec.repair (env.uuid store.uuids) incident.incidentId now
      (env.knownRepair store.events store.experiences.rows incident spec))
    fun other member => (accounted.drawn other member).ne_next
  obtain ⟨requests, requestInserted⟩ := store.requests.exists_insert?
    (spec.request (env.uuid (store.uuids + 1)) (env.uuid store.uuids) incident now
      (env.knownRepair store.events store.experiences.rows incident spec))
    fun other member equal => by
      obtain ⟨n, bound, drawn⟩ := accounted.drawnRequests other member
      have same := env.uuid_injective (drawn.symm.trans equal)
      omega
  have withRepair : { store with uuids := store.uuids + 2 }.insertRepair
      (spec.repair (env.uuid store.uuids) incident.incidentId now
        (env.knownRepair store.events store.experiences.rows incident spec)) =
      .ok { store with uuids := store.uuids + 2, repairs } := by
    simp only [Store.insertRepair, repairInserted]
  have withRequest : { store with uuids := store.uuids + 2, repairs }.insertRequest
      (spec.request (env.uuid (store.uuids + 1)) (env.uuid store.uuids) incident now
        (env.knownRepair store.events store.experiences.rows incident spec)) =
      .ok { store with uuids := store.uuids + 2, repairs, requests } := by
    simp only [Store.insertRequest, requestInserted]
  have done : ∃ repair after, store.proposeRepair env now incident spec = .ok (repair, after) ∧
      after.uuids = store.uuids + 2 := by
    simp only [Store.proposeRepair, free, bind_eq_ok, pure_eq_ok, Prod.mk.injEq]
    exact ⟨_, _, ⟨_, withRepair, _, withRequest, rfl, rfl⟩, rfl⟩
  obtain ⟨repair, after, found, drawn⟩ := done
  refine ⟨repair, after, found, ?_⟩
  rcases proposeRepair_eq_ok found with rfl | proposes
  · omega
  · exact proposes

end OhanaAgent.Tsunade
