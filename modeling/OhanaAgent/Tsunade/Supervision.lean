import OhanaAgent.Tsunade.Authority
import Mathlib.Data.List.Induction

/-!
# Repairs run on a live authorization

The executor of a repair is called from a task that an authorization put in
flight, and the authorization found its repair proposed.  This file follows the
repair through a whole run: what the transitions so far say about the calls of
its executor, and what its status can still become.
-/

namespace OhanaAgent.Tsunade

open OhanaAgent.Encoding.Json
open OhanaAgent.Store
open OhanaAgent.Time
open OhanaAgent.Transition

variable {env : Environment} {repairId : Text}

/-! ## What a transition does about a repair -/

/-- The transition calls the executor of the repair. -/
def Invokes (env : Environment) (repairId : Text) (service : Service) (label : Label) : Prop :=
  ∃ index execution incidentId incident, label.action = .execute index execution ∧
    execution ≠ .missing ∧ service.tasks index = some (.executing repairId incidentId) ∧
    (service.store.get env label.now incidentId).1 = .ok incident

/-- The transition is the part of `authorize_repair` that authorizes the repair. -/
def Authorizes (env : Environment) (repairId : Text) (service : Service) (label : Label) : Prop :=
  ∃ index incidentId decision repair store, label.action = .resume index ∧
    service.tasks index = some (.authorizing incidentId decision) ∧
    decision.repairId = repairId ∧
    service.store.authorizeRepair env label.now incidentId decision = .ok (repair, store)

/-- The transition is the part of `refuse_repair` that refuses the repair. -/
def Refuses (env : Environment) (repairId : Text) (service : Service) (label : Label) : Prop :=
  ∃ index incidentId decision repair store, label.action = .resume index ∧
    service.tasks index = some (.refusing incidentId decision) ∧
    decision.repairId = repairId ∧
    service.store.refuseRepair env label.now incidentId decision = .ok (repair, store)

/-- The repair is proposed on an open incident, and its authorization request is
pending and not expired. -/
def Store.Authorizable (now : Int) (repairId : Text) (store : Store) : Prop :=
  ∃ repair ∈ store.repairs, repair.repairId = repairId ∧ repair.status = .proposed ∧
    (∃ incident ∈ store.incidents, incident.incidentId = repair.incidentId ∧
      incident.endedAt = none) ∧
    ∃ request ∈ store.requests, request.actionReference = some repairId ∧
      request.kind = .repairAuthorization ∧ request.state = .pending ∧ now < request.expiresAt

/-- A request that is neither answered nor over waits, and its expiry is to
come. -/
theorem RequestRow.pending_of_not_over {now : Int} {row : RequestRow}
    (open_ : row.state ≠ .answered) (live : row.over now = false) :
    row.state = .pending ∧ now < row.expiresAt := by
  unfold RequestRow.over at live
  cases state : row.state with
  | pending =>
      simp only [state, decide_eq_false_iff_not] at live
      refine ⟨rfl, ?_⟩
      by_contra late
      exact live (julianday_mono (not_lt.mp late))
  | answered => exact absurd state open_
  | expired => simp [state] at live
  | cancelled => simp [state] at live
  | resolved => simp [state] at live

/-- A proposal that a sweep leaves is not stale. -/
theorem not_expires_of_swept {now : Int} {store : Store} {next : RepairRow}
    (member : next ∈ (store.expireRepairs env now).repairs) (proposed : next.status = .proposed) :
    next ∈ store.repairs ∧ ¬ store.Expires now next := by
  obtain ⟨row, rowMem, swept⟩ := (@swept_expireRepairs env now store).repairs.source member
  rcases swept with ⟨_, _, rfl⟩ | ⟨_, _, rfl⟩ | ⟨spared, _, rfl⟩
  · contradiction
  · contradiction
  · exact ⟨rowMem, spared⟩

/-- An authorization finds its repair authorizable. -/
theorem Accounted.authorizable {now : Int} {store after : Store} {incidentId : Text}
    {decision : Decision} {repair : RepairRow} (accounted : Accounted env store)
    (authorized : store.authorizeRepair env now incidentId decision = .ok (repair, after)) :
    store.Authorizable now decision.repairId := by
  obtain ⟨⟨row, member, same, proposed, _⟩, _⟩ := authorizeRepair_eq_ok authorized
  obtain ⟨rowMem, live⟩ := not_expires_of_swept member proposed
  obtain ⟨incident, incidentMem, owner⟩ := accounted.known row rowMem
  obtain ⟨request, requestMem, refers, kind, open_⟩ := accounted.requested row rowMem proposed
  have found := Table.find?_eq_some_iff.mpr ⟨incidentMem, owner⟩
  have fresh : ∀ stale : incident.endedAt.isSome = true ∨ ∃ request ∈ store.requests,
      request.actionReference = some row.repairId ∧ request.over now = true, False :=
    fun stale => live ⟨proposed, incident, found, stale⟩
  have ongoing : incident.endedAt = none := by
    by_contra ended
    exact fresh (Or.inl (Option.isSome_iff_ne_none.mpr ended))
  have timely : request.over now = false := by
    by_contra unexpired
    exact fresh (Or.inr ⟨request, requestMem, refers, by simpa using unexpired⟩)
  obtain ⟨pending, unexpired⟩ := RequestRow.pending_of_not_over open_ timely
  exact ⟨row, rowMem, same, proposed, ⟨incident, incidentMem, owner, ongoing⟩,
    request, requestMem, refers.trans (congrArg some same), kind, pending, unexpired⟩

/-! ## Tasks that execute -/

section Step

variable {service after : Service} {label : Label}

/-- A task that executes a repair did so before, or the transition authorized
the repair. -/
theorem Transition.executing_source (taken : Transition env service label after) {index : Nat}
    {incidentId : Text} (runs : after.tasks index = some (.executing repairId incidentId)) :
    service.tasks index = some (.executing repairId incidentId) ∨
      Authorizes env repairId service label := by
  -- only the task that a transition puts in the place of another one can be new
  have advanced : ∀ {place : Nat} {own : Option Task},
      Function.update service.tasks place own index = some (.executing repairId incidentId) →
      own ≠ some (.executing repairId incidentId) →
      service.tasks index = some (.executing repairId incidentId) := by
    intro place own updated different
    rw [Function.update_apply] at updated
    split at updated
    · exact absurd updated different
    · exact updated
  cases taken with
  | observe _ => exact Or.inl runs
  | close _ _ _ => exact Or.inl runs
  | read reads =>
      cases reads with
      | settle _ => exact Or.inl runs
      | spawn _ idle _ =>
          refine Or.inl (advanced runs ?_)
          rintro ⟨⟩
          simp [Task.holds] at idle
  | finish _ => exact Or.inl (advanced runs (by simp))
  | propose _ _ _ => exact Or.inl (advanced runs (by simp))
  | follow _ => exact Or.inl runs
  | @authorize store place owner decision repair resumes task authorized =>
      by_cases same : decision.repairId = repairId
      · exact Or.inr ⟨place, owner, decision, repair, store, resumes, task, same, authorized⟩
      · exact Or.inl (advanced runs (by simp [same]))
  | refuse _ _ _ => exact Or.inl (advanced runs (by simp))
  | call _ _ => exact Or.inl (advanced runs (by simp))
  | conclude _ _ _ => exact Or.inl (advanced runs (by simp))
  | crash _ => simp at runs

/-- After the call of its executor, no task executes the repair. -/
theorem Invokes.released (sound : service.Sound env) (invokes : Invokes env repairId service label)
    (index : Nat) (incidentId : Text) :
    (service.act env label.now label.action).tasks index ≠ some (.executing repairId incidentId) := by
  obtain ⟨place, execution, owner, incident, calls, found, task, read⟩ := invokes
  have moved : ∃ error, (service.act env label.now label.action).tasks =
      Function.update service.tasks place (some (.concluding repairId error)) := by
    simp only [calls, Service.act, Service.execute, task]
    cases execution with
    | missing => exact absurd rfl found
    | returned =>
        dsimp only
        split
        · exact ⟨_, rfl⟩
        · exact ⟨_, rfl⟩
    | raised error =>
        dsimp only
        split
        · exact ⟨_, rfl⟩
        · exact ⟨_, rfl⟩
  obtain ⟨error, tasks⟩ := moved
  rw [tasks, Function.update_apply]
  split
  · simp
  · rename_i different
    intro runs
    exact different (sound.exclusive index place repairId _ _ runs task rfl rfl)

end Step

/-! ## Statuses over a run -/

theorem Progresses.closed {source target : RepairStatus} (progresses : Progresses source target)
    (closed : source.isOpen = false) : target = source := by
  rcases progresses with settles | advances
  · cases settles <;> first | rfl | contradiction
  · cases advances <;> contradiction

theorem Progresses.decided {source target : RepairStatus} (progresses : Progresses source target)
    (decided : source ≠ .proposed) : target ≠ .proposed := by
  rcases progresses with settles | advances
  · rintro rfl
    exact decided settles.proposed
  · exact advances.target_ne_proposed

/-- Every repair is still there; a closed one kept its status and a decided one
is not proposed again. -/
def Service.KeepsRepairs (before after : Service) : Prop :=
  ∀ row ∈ before.store.repairs, ∃ next ∈ after.store.repairs, next.repairId = row.repairId ∧
    (row.status.isOpen = false → next.status = row.status) ∧
    (row.status ≠ .proposed → next.status ≠ .proposed)

theorem Service.KeepsRepairs.refl (service : Service) : service.KeepsRepairs service :=
  fun row member => ⟨row, member, rfl, fun _ => rfl, id⟩

theorem Service.KeepsRepairs.trans {first second third : Service} (left : first.KeepsRepairs second)
    (right : second.KeepsRepairs third) : first.KeepsRepairs third := by
  intro row member
  obtain ⟨middle, middleMem, same, closed, decided⟩ := left row member
  obtain ⟨next, nextMem, also, stays, remains⟩ := right middle middleMem
  exact ⟨next, nextMem, also.trans same,
    fun before => (stays (closed before ▸ before)).trans (closed before),
    fun before => remains (decided before)⟩

theorem keepsRepairs_act {service : Service} (sound : service.Sound env) (label : Label) :
    service.KeepsRepairs (service.act env label.now label.action) := by
  intro row member
  obtain ⟨next, nextMem, progress⟩ := ((transition_act sound label).effect sound).target member
  exact ⟨next, nextMem, progress.repairId, progress.status.closed, progress.status.decided⟩

theorem keepsRepairs_execute {service : Service} (sound : service.Sound env)
    (labels : List Label) : service.KeepsRepairs (execute env labels service) :=
  ((run_execute env labels service).related (P := fun state => state.Sound env)
    (R := Service.KeepsRepairs) .refl .trans (fun {_ label _} before taken => by
      obtain rfl := taken
      exact ⟨sound_act before label, keepsRepairs_act before label⟩) sound).2

/-! ## Histories -/

theorem execute_append (earlier later : List Label) (service : Service) :
    execute env (earlier ++ later) service = execute env later (execute env earlier service) :=
  List.foldl_append

/-- A transition with a property was taken in a run. -/
def Happened (env : Environment) (start : Service) (P : Service → Label → Prop)
    (labels : List Label) : Prop :=
  ∃ earlier label later, labels = earlier ++ label :: later ∧ P (execute env earlier start) label

theorem Happened.concat {start : Service} {P : Service → Label → Prop} {labels : List Label}
    (happened : Happened env start P labels) (label : Label) :
    Happened env start P (labels ++ [label]) := by
  obtain ⟨earlier, taken, later, rfl, holds⟩ := happened
  exact ⟨earlier, taken, later ++ [label], by simp, holds⟩

theorem happened_concat_iff {start : Service} {P : Service → Label → Prop} {labels : List Label}
    {label : Label} : Happened env start P (labels ++ [label]) ↔
      Happened env start P labels ∨ P (execute env labels start) label := by
  constructor
  · rintro ⟨earlier, taken, later, equal, holds⟩
    rcases List.eq_nil_or_concat' later with rfl | ⟨rest, last, rfl⟩
    · obtain ⟨rfl, same⟩ := List.append_inj' equal rfl
      exact Or.inr (List.singleton_inj.mp same ▸ holds)
    · rw [← List.cons_append, ← List.append_assoc] at equal
      obtain ⟨rfl, _⟩ := List.append_inj' equal rfl
      exact Or.inl ⟨earlier, taken, rest, rfl, holds⟩
  · rintro (happened | holds)
    · exact happened.concat label
    · exact ⟨labels, label, [], rfl, holds⟩

/-- An authorization of a repair that was authorizable. -/
def LiveAuthorization (env : Environment) (repairId : Text) (service : Service) (label : Label) :
    Prop :=
  Authorizes env repairId service label ∧ service.store.Authorizable label.now repairId

/-- What the transitions so far say about the executor of a repair: a task that
executes it was authorized, and after a call no task executes it and it is not
proposed. -/
structure History (env : Environment) (start : Service) (repairId : Text) (labels : List Label) :
    Prop where
  authorized : ∀ index incidentId,
    (execute env labels start).tasks index = some (.executing repairId incidentId) →
      Happened env start (LiveAuthorization env repairId) labels
  called : Happened env start (Invokes env repairId) labels →
    (∀ index incidentId,
      (execute env labels start).tasks index ≠ some (.executing repairId incidentId)) ∧
    ∃ repair ∈ (execute env labels start).store.repairs, repair.repairId = repairId ∧
      repair.status ≠ .proposed

theorem Authorizes.live {service : Service} {label : Label} (sound : service.Sound env)
    (authorizes : Authorizes env repairId service label) :
    LiveAuthorization env repairId service label := by
  refine ⟨authorizes, ?_⟩
  obtain ⟨_, _, decision, _, _, _, _, rfl, authorized⟩ := authorizes
  exact sound.accounted.authorizable authorized

/-- A repair that a task executes is authorized. -/
theorem Invokes.authorized {service : Service} {label : Label} (sound : service.Sound env)
    (invokes : Invokes env repairId service label) : service.store.Authorized repairId := by
  obtain ⟨index, _, incidentId, _, _, _, task, _⟩ := invokes
  exact sound.tasks index _ task

/-- The history grows by one transition. -/
theorem History.concat {start : Service} {labels : List Label} (sound : start.Sound env)
    (history : History env start repairId labels) (label : Label) :
    History env start repairId (labels ++ [label]) := by
  have before := sound_execute labels sound
  have taken := transition_act before label
  have kept := keepsRepairs_act before label
  have step : execute env (labels ++ [label]) start =
      (execute env labels start).act env label.now label.action := execute_append labels [label] start
  refine ⟨fun index incidentId runs => ?_, fun happened => ?_⟩
  · rw [step] at runs
    rw [happened_concat_iff]
    rcases taken.executing_source runs with ran | authorizes
    · exact Or.inl (history.authorized index incidentId ran)
    · exact Or.inr (authorizes.live before)
  · rw [step]
    rcases happened_concat_iff.mp happened with earlier | now_
    · obtain ⟨idle, repair, member, same, decided⟩ := history.called earlier
      obtain ⟨next, nextMem, also, _, remains⟩ := kept repair member
      refine ⟨fun index incidentId runs => ?_, next, nextMem, also.trans same, remains decided⟩
      rcases taken.executing_source runs with ran | authorizes
      · exact idle index incidentId ran
      · obtain ⟨proposal, proposalMem, equal, proposed, _⟩ := (authorizes.live before).2
        obtain rfl := Table.key_injective proposalMem member (equal.trans same.symm)
        exact decided proposed
    · obtain ⟨repair, member, same, status, _⟩ := now_.authorized before
      obtain ⟨next, nextMem, also, _, remains⟩ := kept repair member
      exact ⟨now_.released before, next, nextMem, also.trans same, remains (by simp [status])⟩

theorem history_execute {start : Service} (sound : start.Sound env)
    (idle : ∀ index, start.tasks index = none) (repairId : Text) (labels : List Label) :
    History env start repairId labels := by
  induction labels using List.reverseRecOn with
  | nil =>
      refine ⟨fun index _ runs => ?_, ?_⟩
      · rw [show execute env [] start = start from rfl, idle index] at runs
        contradiction
      · rintro ⟨earlier, label, later, equal, _⟩
        simp at equal
  | append_singleton labels label ih => exact ih.concat sound label

/-- A decided repair has no pending request, now and later. -/
theorem unrequested_later {service : Service} (sound : service.Sound env) {repair : RepairRow}
    (member : repair ∈ service.store.repairs) (decided : repair.status ≠ .proposed)
    (later : List Label) : (execute env later service).store.Unrequested repair.repairId := by
  obtain ⟨next, nextMem, same, _, remains⟩ := keepsRepairs_execute sound later repair member
  exact same ▸ (sound_execute later sound).accounted.unrequested nextMem (remains decided)

/-- A closed repair has no executor to call. -/
theorem not_invokes_of_closed {service : Service} (sound : service.Sound env) {repair : RepairRow}
    (member : repair ∈ service.store.repairs) (closed : repair.status.isOpen = false)
    (label : Label) : ¬ Invokes env repair.repairId service label := by
  intro invokes
  obtain ⟨held, heldMem, same, status, _⟩ := invokes.authorized sound
  obtain rfl := Table.key_injective heldMem member same
  simp [status, RepairStatus.isOpen] at closed

theorem Steers.decided {before after : Store} {moving : Text} {source target : RepairStatus}
    (steers : Steers moving source target before after) :
    ∃ next ∈ after.repairs, next.repairId = moving ∧ next.status = target := by
  obtain ⟨row, member, same⟩ := steers.known
  obtain ⟨next, nextMem, steered⟩ := steers.repairs.target member
  exact ⟨next, nextMem, steered.repairId.trans same, (steered.moved same).2.1⟩

/-- A decision leaves its repair decided. -/
theorem decided_act {service : Service} {label : Label}
    (decides : Authorizes env repairId service label ∨ Refuses env repairId service label) :
    ∃ repair ∈ (service.act env label.now label.action).store.repairs,
      repair.repairId = repairId ∧ repair.status ≠ .proposed := by
  rcases decides with ⟨index, incidentId, decision, repair, store, resumes, task, rfl, done⟩ |
    ⟨index, incidentId, decision, repair, store, resumes, task, rfl, done⟩
  · obtain ⟨next, nextMem, same, status⟩ := (authorizeRepair_eq_ok done).2.decided
    refine ⟨next, ?_, same, by simp [status]⟩
    simpa only [resumes, Service.act, Service.resume, task, done, Service.advance] using nextMem
  · obtain ⟨next, nextMem, same, status⟩ := (refuseRepair_eq_ok done).2.decided
    refine ⟨next, ?_, same, by simp [status]⟩
    simpa only [resumes, Service.act, Service.resume, task, Service.transact, commit_of_ok done,
      Service.advance] using nextMem

/-- Supervised repairs only run on a live human authorization.  In every run the
executor of a repair is called at most once, after an authorization that found
the repair proposed, its incident open and its request pending and not expired;
a closed repair keeps its status and its executor is not called again; and after
a decision no pending request refers to the repair. -/
theorem repair_supervised (env : Environment)
    (experiences : Table ExperienceRow ExperienceRow.experienceId) (repairId : Text) :
    (∀ labels label,
      Invokes env repairId (execute env labels (Service.start experiences)) label →
        Happened env (Service.start experiences) (LiveAuthorization env repairId) labels ∧
          ¬ Happened env (Service.start experiences) (Invokes env repairId) labels) ∧
    (∀ labels later, ∀ repair ∈ (execute env labels (Service.start experiences)).store.repairs,
      repair.repairId = repairId → repair.status.isOpen = false →
        (∃ kept ∈ (execute env (labels ++ later) (Service.start experiences)).store.repairs,
          kept.repairId = repairId ∧ kept.status = repair.status) ∧
        ∀ label, ¬ Invokes env repairId
          (execute env (labels ++ later) (Service.start experiences)) label) ∧
    ∀ labels label later,
      Authorizes env repairId (execute env labels (Service.start experiences)) label ∨
        Refuses env repairId (execute env labels (Service.start experiences)) label →
      (execute env (labels ++ label :: later)
        (Service.start experiences)).store.Unrequested repairId := by
  have sound := @Service.sound_start env experiences
  refine ⟨fun labels label invokes => ?_, fun labels later repair member same closed => ?_,
    fun labels label later decides => ?_⟩
  · have history := history_execute sound (fun _ => rfl) repairId labels
    obtain ⟨index, _, incidentId, _, _, _, task, _⟩ := invokes
    exact ⟨history.authorized index incidentId task,
      fun called => (history.called called).1 index incidentId task⟩
  · have middle := sound_execute labels sound
    obtain ⟨kept, keptMem, also, stays, _⟩ := keepsRepairs_execute middle later repair member
    rw [execute_append]
    refine ⟨⟨kept, keptMem, also.trans same, stays closed⟩, fun label => ?_⟩
    rw [← same, ← also]
    exact not_invokes_of_closed (sound_execute later middle) keptMem (stays closed ▸ closed) label
  · have middle := sound_execute labels sound
    obtain ⟨repair, member, rfl, decided⟩ := decided_act decides
    have next := sound_act middle label
    have split : labels ++ label :: later = (labels ++ [label]) ++ later := by simp
    rw [split, execute_append, execute_append]
    exact unrequested_later next member decided later

theorem restart_supervised :
    Invokes summerEnvironment (summerEnvironment.uuid 1)
      (execute summerEnvironment authorizedRestart (Service.start ∅))
      (minutesIn 3 (.execute 1 .returned)) ∧
    Happened summerEnvironment (Service.start ∅)
      (LiveAuthorization summerEnvironment (summerEnvironment.uuid 1)) authorizedRestart := by
  have called : Invokes summerEnvironment (summerEnvironment.uuid 1)
      (execute summerEnvironment authorizedRestart (Service.start ∅))
      (minutesIn 3 (.execute 1 .returned)) :=
    ⟨1, .returned, summerEnvironment.uuid 0, _, rfl, by simp, rfl, rfl⟩
  exact ⟨called, ((repair_supervised summerEnvironment ∅ _).1 _ _ called).1⟩

end OhanaAgent.Tsunade
