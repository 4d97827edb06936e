import OhanaAgent.Tsunade.Decisions
import OhanaAgent.Tsunade.Service

/-!
# Who holds a repair

A transition of the service settles rows, moves one repair, or inserts a
proposal or a follow-up.  The invariant of the service says that a task which
holds a repair finds it authorized, that no other task holds the same repair,
and that the repairs and the requests stay in account.
-/

namespace OhanaAgent.Tsunade

open OhanaAgent.Encoding.Json
open OhanaAgent.Store
open OhanaAgent.Time
open OhanaAgent.Transition

variable {env : Environment} {now : Int}

/-! ## Effects on the store -/

/-- The moves that a decision or an execution makes. -/
inductive Advances : RepairStatus → RepairStatus → Prop
  | authorize : Advances .proposed .authorized
  | refuse : Advances .proposed .refused
  | execute : Advances .authorized .verifying
  | fail : Advances .authorized .failed

/-- The moves of one transition. -/
inductive Progresses : RepairStatus → RepairStatus → Prop
  | settle {source target : RepairStatus} (settles : Settles source target) :
      Progresses source target
  | advance {source target : RepairStatus} (advances : Advances source target) :
      Progresses source target

/-- What a transition does to the store. -/
inductive Effect (env : Environment) (now : Int) (before : Store) : Store → Prop
  | settle {after : Store} (settling : Settling before after) : Effect env now before after
  | steer {middle after : Store} {repairId : Text} {source target : RepairStatus}
      (settling : Settling before middle) (advances : Advances source target)
      (steers : Steers repairId source target middle after) : Effect env now before after
  | propose {incident : IncidentRow} {spec : RepairSpec} {after : Store}
      (known : ∃ row ∈ before.incidents, row.incidentId = incident.incidentId)
      (proposes : Proposes env now incident spec before after) : Effect env now before after
  | follow {after : Store} (follows : Follows env before after) : Effect env now before after

theorem Advances.target_ne_proposed {source target : RepairStatus}
    (advances : Advances source target) : target ≠ .proposed := by
  cases advances <;> simp

theorem Advances.source_of_settles {status source target : RepairStatus}
    (advances : Advances source target) (settles : Settles status source) : status = source := by
  cases advances <;> cases settles <;> rfl

/-- A repair after a transition, seen from the one before. -/
structure RepairProgress (row next : RepairRow) : Prop where
  repairId : next.repairId = row.repairId
  incidentId : next.incidentId = row.incidentId
  status : Progresses row.status next.status

theorem RepairProgress.refl (row : RepairRow) : RepairProgress row row :=
  ⟨rfl, rfl, .settle (.same _)⟩

namespace Effect

variable {before after : Store}

theorem accounted (effect : Effect env now before after) (start : Accounted env before) :
    Accounted env after := by
  cases effect with
  | settle settling => exact start.settling settling
  | steer settling advances steers =>
      exact (start.settling settling).steers steers advances.target_ne_proposed
  | propose known proposes => exact start.proposes proposes known
  | follow follows => exact start.follows follows

theorem repairs_steer {middle : Store} {repairId : Text} {source target : RepairStatus}
    (settling : Settling before middle) (advances : Advances source target)
    (steers : Steers repairId source target middle after) :
    Table.Rewrites RepairProgress before.repairs after.repairs := by
  refine settling.repairs.comp steers.repairs fun {row middle next} settles steered => ?_
  by_cases same : middle.repairId = repairId
  · obtain ⟨left, reached, _⟩ := steered.moved same
    refine ⟨steered.repairId.trans settles.repairId, steered.incidentId.trans settles.incidentId, ?_⟩
    have source := advances.source_of_settles (left ▸ settles.status)
    exact .advance (by rw [source, reached]; exact advances)
  · obtain rfl := steered.kept same
    exact ⟨settles.repairId, settles.incidentId, .settle settles.status⟩

/-- Every repair is still there after a transition. -/
theorem target (effect : Effect env now before after) {row : RepairRow}
    (member : row ∈ before.repairs) : ∃ next ∈ after.repairs, RepairProgress row next := by
  cases effect with
  | settle settling =>
      obtain ⟨next, nextMem, settles⟩ := settling.repairs.target member
      exact ⟨next, nextMem, settles.repairId, settles.incidentId, .settle settles.status⟩
  | steer settling advances steers => exact (repairs_steer settling advances steers).target member
  | propose known proposes =>
      obtain ⟨_, rows, _⟩ := proposes.inserted
      exact ⟨row, Table.mem_def.mpr (rows ▸ List.mem_append_left _ member), .refl row⟩
  | follow follows => exact ⟨row, follows.repairs ▸ member, .refl row⟩

theorem incidents (effect : Effect env now before after) :
    ∀ row ∈ before.incidents, ∃ next ∈ after.incidents, next.incidentId = row.incidentId := by
  cases effect with
  | settle settling => exact settling.incidents
  | steer settling _ steers =>
      intro row member
      obtain ⟨next, nextMem, same⟩ := settling.incidents row member
      exact ⟨next, steers.incidents ▸ nextMem, same⟩
  | propose known proposes => exact incidents_kept proposes.incidents
  | follow follows => exact incidents_kept follows.incidents

theorem requests (effect : Effect env now before after) : ∀ row ∈ before.requests,
    ∃ next ∈ after.requests, next.requestId = row.requestId ∧ next.kind = row.kind := by
  intro row member
  cases effect with
  | settle settling =>
      obtain ⟨next, nextMem, settles⟩ := settling.requests.target member
      exact ⟨next, nextMem, settles.requestId, settles.kind⟩
  | steer settling _ steers =>
      obtain ⟨middle, middleMem, settles⟩ := settling.requests.target member
      obtain ⟨next, nextMem, steered⟩ := steers.requests.target middleMem
      exact ⟨next, nextMem, steered.requestId.trans settles.requestId,
        steered.kind.trans settles.kind⟩
  | propose known proposes =>
      obtain ⟨_, _, rows⟩ := proposes.inserted
      exact ⟨row, Table.mem_def.mpr (rows ▸ List.mem_append_left _ member), rfl, rfl⟩
  | follow follows =>
      obtain ⟨_, _, _, _, rows⟩ := follows.inserted
      exact ⟨row, Table.mem_def.mpr (rows ▸ List.mem_append_left _ member), rfl, rfl⟩

end Effect

/-! ## Tasks -/

/-- The repair is authorized, with the time of its authorization. -/
def Store.Authorized (store : Store) (repairId : Text) : Prop :=
  ∃ repair ∈ store.repairs, repair.repairId = repairId ∧ repair.status = .authorized ∧
    repair.authorizedAt.isSome = true

/-- The repair that a task holds, from its authorization on. -/
def Task.holds : Task → Option Text
  | .executing repairId _ | .concluding repairId _ => some repairId
  | _ => none

/-- What a task relies on. -/
def Task.Sound (store : Store) : Task → Prop
  | .proposing incident _ => ∃ row ∈ store.incidents, row.incidentId = incident.incidentId
  | .answering requestId _ => ∃ request ∈ store.requests, request.requestId = requestId ∧
      request.kind ≠ .repairAuthorization
  | .executing repairId _ | .concluding repairId _ => store.Authorized repairId
  | _ => True

theorem Task.Sound.authorized {store : Store} {task : Task} {repairId : Text}
    (sound : task.Sound store) (holds : task.holds = some repairId) : store.Authorized repairId := by
  cases task with
  | executing held _ =>
      obtain rfl := Option.some.inj holds
      exact sound
  | concluding held _ =>
      obtain rfl := Option.some.inj holds
      exact sound
  | proposing | authorizing | refusing | deferring | answering => simp [Task.holds] at holds

/-- A task keeps what it relies on while its repair stays authorized. -/
theorem Task.Sound.effect {before after : Store} {task : Task} (sound : task.Sound before)
    (effect : Effect env now before after)
    (authorized : ∀ repairId, task.holds = some repairId → after.Authorized repairId) :
    task.Sound after := by
  cases task with
  | proposing incident spec =>
      obtain ⟨row, member, same⟩ := sound
      obtain ⟨next, nextMem, also⟩ := effect.incidents row member
      exact ⟨next, nextMem, also.trans same⟩
  | answering requestId response =>
      obtain ⟨row, member, same, kind⟩ := sound
      obtain ⟨next, nextMem, also, kept⟩ := effect.requests row member
      exact ⟨next, nextMem, also.trans same, kept ▸ kind⟩
  | executing repairId _ => exact authorized repairId rfl
  | concluding repairId _ => exact authorized repairId rfl
  | authorizing | refusing | deferring => trivial

theorem Settles.authorized {status : RepairStatus} (settles : Settles .authorized status) :
    status = .authorized := by
  cases settles
  rfl

theorem Settling.authorized {before after : Store} (settling : Settling before after)
    {repairId : Text} (authorized : before.Authorized repairId) : after.Authorized repairId := by
  obtain ⟨row, member, same, status, decided⟩ := authorized
  obtain ⟨next, nextMem, settles⟩ := settling.repairs.target member
  exact ⟨next, nextMem, settles.repairId.trans same, (status ▸ settles.status).authorized,
    settles.authorizedAt ▸ decided⟩

theorem Steers.authorized_of_ne {before after : Store} {moving repairId : Text}
    {source target : RepairStatus} (steers : Steers moving source target before after)
    (other : repairId ≠ moving) (authorized : before.Authorized repairId) :
    after.Authorized repairId := by
  obtain ⟨row, member, same, status, decided⟩ := authorized
  obtain ⟨next, nextMem, steered⟩ := steers.repairs.target member
  obtain rfl := steered.kept (same ▸ other)
  exact ⟨next, nextMem, same, status, decided⟩

/-- A decision moves a repair that is not authorized. -/
theorem Steers.ne_of_authorized {before after : Store} {moving repairId : Text}
    {target : RepairStatus} (steers : Steers moving .proposed target before after)
    (authorized : before.Authorized repairId) : repairId ≠ moving := by
  rintro rfl
  obtain ⟨row, member, same, status, _⟩ := authorized
  obtain ⟨next, _, steered⟩ := steers.repairs.target member
  have proposed := (steered.moved same).1
  rw [status] at proposed
  contradiction

theorem Proposes.authorized {before after : Store} {incident : IncidentRow} {spec : RepairSpec}
    (proposes : Proposes env now incident spec before after) {repairId : Text}
    (authorized : before.Authorized repairId) : after.Authorized repairId := by
  obtain ⟨row, member, rest⟩ := authorized
  obtain ⟨_, rows, _⟩ := proposes.inserted
  exact ⟨row, Table.mem_def.mpr (rows ▸ List.mem_append_left _ member), rest⟩

/-! ## The invariant of the service -/

/-- The account is kept, every task finds what it relies on, and a repair has
at most one holder. -/
structure Service.Sound (env : Environment) (service : Service) : Prop where
  accounted : Accounted env service.store
  tasks : ∀ index task, service.tasks index = some task → task.Sound service.store
  exclusive : ∀ first second repairId one two, service.tasks first = some one →
    service.tasks second = some two → one.holds = some repairId → two.holds = some repairId →
    first = second

theorem Service.sound_start (experiences : Table ExperienceRow ExperienceRow.experienceId) :
    (Service.start experiences).Sound env where
  accounted := ⟨by simp [Service.start, Store.empty], by simp [Service.start, Store.empty],
    by simp [Service.start, Store.empty], by simp [Service.start, Store.empty],
    by simp [Service.start, Store.empty], by simp [Service.start, Store.empty]⟩
  tasks := by simp [Service.start]
  exclusive := by simp [Service.start]

/-- A part of a call that settles and may put a task in flight. -/
inductive Reads (service : Service) : Service → Prop
  | settle {store : Store} (quiet : Quiet service.store store) :
      Reads service { service with store }
  | spawn {store : Store} {task : Task} (quiet : Quiet service.store store)
      (idle : task.holds = none) (sound : task.Sound store) :
      Reads service ({ service with store }.spawn task)

/-- A transition of the service, by what it does. -/
inductive Transition (env : Environment) (service : Service) (label : Label) : Service → Prop
  | observe {observation : Observation} (observes : label.action = .process observation) :
      Transition env service label
        { service with store := (service.store.process env label.now observation).2 }
  | close {store : Store} (closes : label.action.closes = true)
      (settling : Settling service.store store) (closing : Closing service.store store) :
      Transition env service label { service with store }
  | read {after : Service} (reads : Reads service after) : Transition env service label after
  | finish {store : Store} {index : Nat} (quiet : Quiet service.store store) :
      Transition env service label ({ service with store }.advance index none)
  | propose {store : Store} {index : Nat} {incident : IncidentRow} {spec : RepairSpec}
      (resumes : label.action = .resume index)
      (task : service.tasks index = some (.proposing incident spec))
      (proposes : Proposes env label.now incident spec service.store store) :
      Transition env service label ({ service with store }.advance index none)
  | follow {store : Store} (follows : Follows env service.store store) :
      Transition env service label { service with store }
  | authorize {store : Store} {index : Nat} {incidentId : Text} {decision : Decision}
      {repair : RepairRow} (resumes : label.action = .resume index)
      (task : service.tasks index = some (.authorizing incidentId decision))
      (authorized : service.store.authorizeRepair env label.now incidentId decision =
        .ok (repair, store)) :
      Transition env service label
        ({ service with store }.advance index (some (.executing decision.repairId incidentId)))
  | refuse {store : Store} {index : Nat} {incidentId : Text} {decision : Decision}
      {repair : RepairRow} (resumes : label.action = .resume index)
      (task : service.tasks index = some (.refusing incidentId decision))
      (refused : service.store.refuseRepair env label.now incidentId decision =
        .ok (repair, store)) :
      Transition env service label ({ service with store }.advance index none)
  | call {store : Store} {index : Nat} {repairId incidentId : Text} {error : Option String}
      (quiet : Quiet service.store store)
      (task : service.tasks index = some (.executing repairId incidentId)) :
      Transition env service label
        ({ service with store }.advance index (some (.concluding repairId error)))
  | conclude {store : Store} {index : Nat} {repairId : Text} {error : Option String}
      {target : RepairStatus} (task : service.tasks index = some (.concluding repairId error))
      (advances : Advances .authorized target)
      (steers : Steers repairId .authorized target service.store store) :
      Transition env service label ({ service with store }.advance index none)
  | crash {store : Store} (quiet : Quiet service.store store) :
      Transition env service label { service with store, tasks := fun _ => none }

/-! ## Reads -/

section Act

variable {service : Service} {label : Label}

theorem Reads.refl (service : Service) : Reads service service :=
  @Reads.settle service service.store (.refl service.store)

theorem Reads.after {store : Store} {after : Service} (quiet : Quiet service.store store)
    (reads : Reads { service with store } after) : Reads service after := by
  cases reads with
  | settle next => exact .settle (quiet.trans next)
  | spawn next idle sound => exact .spawn (quiet.trans next) idle sound

/-- A transaction that settles. -/
theorem Reads.transact {α : Type} {body : Store → Except Failure (α × Store)}
    (settles : ∀ answer after, body service.store = .ok (answer, after) →
      Quiet service.store after) : Reads service (service.transact body) :=
  .settle (commit_induction (motive := fun after => Quiet service.store after) (.refl _) settles)

/-- A transaction that settles and ends its task. -/
theorem Transition.of_finish {α : Type} {body : Store → Except Failure (α × Store)} {index : Nat}
    (settles : ∀ answer after, body service.store = .ok (answer, after) →
      Quiet service.store after) :
    Transition env service label ((service.transact body).advance index none) :=
  .finish (commit_induction (motive := fun after => Quiet service.store after) (.refl _) settles)

theorem Reads.readThen {incidentId : Text} {task : IncidentRow → Store → Option Task}
    (waits : ∀ incident ∈ (service.store.expireRepairs env now).incidents, ∀ spawned,
      task incident (service.store.expireRepairs env now) = some spawned →
        spawned.holds = none ∧ spawned.Sound (service.store.expireRepairs env now)) :
    Reads service (service.readThen env now incidentId task) := by
  have quiet := @quiet_expireRepairs env now service.store
  have swept := @snd_get env now incidentId service.store
  unfold Service.readThen
  dsimp only
  rw [swept]
  split
  · exact .settle quiet
  · rename_i incident found
    have member := (get_eq_ok found).1
    rw [← (@swept_expireRepairs env now service.store).base.incidents] at member
    split
    · exact .settle quiet
    · rename_i spawned wanted
      obtain ⟨idle, sound⟩ := waits incident member spawned wanted
      exact .spawn quiet idle sound

theorem reads_propose (incidentId : Text) (spec : RepairSpec) (service : Service) :
    Reads service (service.readThen env now incidentId fun incident _ =>
      Service.proposal spec incident) := by
  refine .readThen fun incident member spawned wanted => ?_
  unfold Service.proposal at wanted
  split at wanted
  · simp at wanted
  · obtain rfl := Option.some.inj wanted
    exact ⟨rfl, incident, member, rfl⟩

theorem reads_authorize (incidentId : Text) (decision : Decision) (service : Service) :
    Reads service (service.readThen env now incidentId fun incident _ =>
      some (.authorizing incident.incidentId decision)) :=
  .readThen fun _ _ _ wanted => Option.some.inj wanted ▸ ⟨rfl, trivial⟩

theorem reads_refuse (incidentId : Text) (decision : Decision) (service : Service) :
    Reads service (service.readThen env now incidentId fun incident _ =>
      some (.refusing incident.incidentId decision)) :=
  .readThen fun _ _ _ wanted => Option.some.inj wanted ▸ ⟨rfl, trivial⟩

theorem reads_defer (incidentId : Text) (decision : Decision) (service : Service) :
    Reads service (service.readThen env now incidentId (Service.deferral decision)) := by
  refine .readThen fun incident _ spawned wanted => ?_
  simp only [Service.deferral, Option.bind_eq_bind, Option.bind_eq_some_iff] at wanted
  obtain ⟨repair, _, requestId, _, chosen⟩ := wanted
  split at chosen
  · obtain rfl := Option.some.inj chosen
    exact ⟨rfl, trivial⟩
  · simp at chosen

theorem reads_answerOf {request : RequestRow} (member : request ∈ service.store.requests)
    (deviceId : Text) (choice : Choice) :
    Reads service (service.answerOf env now request deviceId choice) := by
  have spawned : ∀ task : Task, task.holds = none → task.Sound service.store →
      Reads service (service.spawn task) := fun task idle sound =>
    @Reads.spawn service service.store task (.refl _) idle sound
  unfold Service.answerOf
  split
  · exact spawned _ rfl trivial
  · split
    · exact .refl service
    · rename_i kind
      exact spawned _ rfl ⟨request, member, rfl, by simp [kind]⟩
    · exact .refl service
    · dsimp only
      split
      · exact reads_authorize _ _ _
      · split
        · exact reads_refuse _ _ _
        · exact .refl service

theorem getUserRequest_eq_ok {store after : Store} {requestId : Text} {row : RequestRow}
    (read : store.getUserRequest now requestId = .ok (row, after)) : row ∈ after.requests := by
  simp only [Store.getUserRequest, bind_eq_ok, pure_eq_ok, Prod.mk.injEq] at read
  obtain ⟨found, required, rfl, rfl⟩ := read
  unfold Store.requiredUserRequest at required
  split at required
  · simp at required
  · rename_i lookup
    obtain rfl := Except.ok.inj required
    exact (Table.find?_eq_some_iff.mp lookup).1

theorem reads_respond (requestId deviceId : Text) (choice : Choice) (service : Service) :
    Reads service (service.respond env now requestId deviceId choice) := by
  unfold Service.respond
  split
  · exact .refl service
  · rename_i request store read
    exact .after (quiet_getUserRequest read)
      (reads_answerOf (getUserRequest_eq_ok read) deviceId choice)

theorem quiet_get {store after : Store} {incidentId : Text} {reply : Except Failure IncidentRow}
    (read : store.get env now incidentId = (reply, after)) : Quiet store after := by
  have swept := @quiet_expireRepairs env now store
  rwa [← snd_get incidentId, read] at swept

theorem reads_appendRecord (incidentId : Text) (kind : EventKind) (summary : String)
    (payload : Value) (service : Service) :
    Reads service (service.appendRecord env now incidentId kind summary payload) := by
  unfold Service.appendRecord
  split
  · rename_i store read
    exact .settle (quiet_get read)
  · rename_i incident store read
    exact .settle ((quiet_get read).trans ((quiet_appendRecord _ _ _ _ _).trans
      (quiet_expireRepairs _)))

/-! ## Every transition -/

theorem transition_resume (sound : service.Sound env) {index : Nat}
    (resumes : label.action = .resume index) :
    Transition env service label (service.resume env label.now index) := by
  unfold Service.resume
  split
  · exact .read (.refl service)
  · rename_i incident spec task
    rcases commit_cases (Store.proposeRepair env label.now incident spec) service.store with
      ⟨repair, after, found, equal⟩ | ⟨_, _, equal⟩
    · rw [Service.transact, equal]
      rcases proposeRepair_eq_ok found with rfl | proposes
      · exact .finish (.refl _)
      · exact .propose resumes task proposes
    · rw [Service.transact, equal]
      exact .finish (.refl _)
  · rename_i incidentId decision task
    split
    · exact @Transition.finish env service label service.store index (.refl _)
    · rename_i repair store authorized
      obtain ⟨⟨row, _, same, _, rfl⟩, _⟩ := authorizeRepair_eq_ok authorized
      have moved := Transition.authorize resumes task authorized
      rwa [← same] at moved
  · rename_i incidentId decision task
    rcases commit_cases (Store.refuseRepair env label.now incidentId decision) service.store with
      ⟨repair, after, found, equal⟩ | ⟨_, _, equal⟩
    · rw [Service.transact, equal]
      exact .refuse resumes task found
    · rw [Service.transact, equal]
      exact .finish (.refl _)
  · exact .of_finish fun _ _ => quiet_deferUserRequest
  · rename_i requestId response task
    obtain ⟨known, knownMem, same, kind⟩ := sound.tasks index _ task
    refine .of_finish fun _ _ => quiet_answerUserRequest fun request member equal => ?_
    obtain rfl := Table.key_injective member knownMem (equal.trans same.symm)
    exact kind
  · exact .read (.refl service)
  · rename_i repairId task
    rcases commit_cases (Store.markRepairExecuted env label.now repairId) service.store with
      ⟨⟨⟩, after, found, equal⟩ | ⟨_, _, equal⟩
    · rw [Service.transact, equal]
      exact .conclude task .execute (markRepairExecuted_eq_ok found)
    · rw [Service.transact, equal]
      exact .finish (.refl _)
  · rename_i repairId error task
    rcases commit_cases (Store.markRepairExecutionFailed env label.now repairId error)
      service.store with ⟨⟨⟩, after, found, equal⟩ | ⟨_, _, equal⟩
    · obtain ⟨held, heldMem, same, status, decided⟩ := sound.tasks index _ task
      rw [Service.transact, equal]
      refine .conclude task .fail (markRepairExecutionFailed_eq_ok ?_ found)
      intro row member also
      obtain rfl := Table.key_injective member heldMem (also.trans same.symm)
      exact ⟨status, decided⟩
    · rw [Service.transact, equal]
      exact .finish (.refl _)

theorem transition_execute (index : Nat) (execution : Execution) (service : Service)
    (label : Label) : Transition env service label (service.execute env now index execution) := by
  unfold Service.execute
  split
  · rename_i repairId incidentId task
    cases execution with
    | missing => exact @Transition.call env service label service.store index _ _ _ (.refl _) task
    | returned =>
        dsimp only
        split
        · exact .call (quiet_get ‹_›) task
        · exact .call (quiet_get ‹_›) task
    | raised error =>
        dsimp only
        split
        · exact .call (quiet_get ‹_›) task
        · exact .call (quiet_get ‹_›) task
  · exact .read (.refl service)

/-- Every transition of a sound service is one of the cases. -/
theorem transition_act (sound : service.Sound env) (label : Label) :
    Transition env service label (service.act env label.now label.action) := by
  obtain ⟨now, action⟩ := label
  cases action with
  | process observation => exact .observe rfl
  | purgeProcessedObservations =>
      exact .read (.settle (quiet_purgeProcessedObservations _))
  | list => exact .read (.settle (quiet_expireRepairs _))
  | get incidentId =>
      refine .read (.settle ?_)
      rw [snd_get]
      exact quiet_expireRepairs _
  | listUserRequests => exact .read (.settle (quiet_expireUserRequests _))
  | getUserRequest requestId => exact .read (.transact fun _ _ => quiet_getUserRequest)
  | propose incidentId spec => exact .read (reads_propose incidentId spec service)
  | authorize incidentId decision => exact .read (reads_authorize incidentId decision service)
  | refuse incidentId decision => exact .read (reads_refuse incidentId decision service)
  | defer incidentId decision => exact .read (reads_defer incidentId decision service)
  | respond requestId deviceId choice =>
      exact .read (reads_respond requestId deviceId choice service)
  | resume index => exact transition_resume sound rfl
  | execute index execution => exact transition_execute index execution service _
  | declareManualResolution =>
      exact .read (.transact fun _ _ => quiet_declareManualResolution)
  | appendRecord => exact .read (reads_appendRecord _ _ _ _ service)
  | proposeFollowup incidentId originJobId basis reason question =>
      rcases commit_cases (Store.proposeFollowup env now incidentId originJobId basis reason
        question) service.store with ⟨_, after, found, done⟩ | ⟨_, _, done⟩
      · show Transition env service _ (service.transact _)
        rw [Service.transact, done]
        rcases proposeFollowup_eq_ok found with rfl | follows
        · exact .read (.refl service)
        · exact .follow follows
      · show Transition env service _ (service.transact _)
        rw [Service.transact, done]
        exact .read (.refl service)
  | answerFollowup => exact .read (.transact fun _ _ => quiet_answerFollowup)
  | updateFollowup => exact .read (.transact fun _ _ => quiet_updateFollowup)
  | resolveRemovedNetworkDevices deviceIds occurredAt =>
      exact .close rfl (settling_resolveRemovedNetworkDevices deviceIds occurredAt _)
        (closing_resolveRemovedNetworkDevices deviceIds occurredAt _)
  | resolveLogIncident => 
      exact .close rfl (settling_resolveLogIncident _ _ _ _ _ _)
        (closing_resolveLogIncident _ _ _ _ _ _)
  | crash => 
      exact .crash (.of_same rfl rfl rfl (.of_eq rfl rfl rfl le_rfl (noEvents rfl)))

end Act

/-! ## The invariant holds in every run -/

section Preservation

variable {service after : Service} {label : Label}

theorem Reads.quiet (reads : Reads service after) : Quiet service.store after.store := by
  cases reads with
  | settle quiet => exact quiet
  | spawn quiet _ _ => exact quiet

/-- What a transition does to the store. -/
theorem Transition.effect (sound : service.Sound env) (taken : Transition env service label after) :
    Effect env label.now service.store after.store := by
  cases taken with
  | @observe observation _ => exact .settle (settling_process observation _)
  | close _ settling _ => exact .settle settling
  | read reads => exact .settle reads.quiet.settling
  | finish quiet => exact .settle quiet.settling
  | propose _ task proposes => exact .propose (sound.tasks _ _ task) proposes
  | follow follows => exact .follow follows
  | authorize _ _ authorized =>
      exact .steer (settling_expireRepairs _) .authorize (authorizeRepair_eq_ok authorized).2
  | refuse _ _ refused =>
      exact .steer (settling_expireRepairs _) .refuse (refuseRepair_eq_ok refused).2
  | call quiet _ => exact .settle quiet.settling
  | conclude _ advances steers => exact .steer (.refl _) advances steers
  | crash quiet => exact .settle quiet.settling

/-- The repairs progress, unless the transition is a proposal that inserts one. -/
theorem Transition.repairs (taken : Transition env service label after) :
    Table.Rewrites RepairProgress service.store.repairs after.store.repairs ∨
      ∃ index incident spec, label.action = .resume index ∧
        service.tasks index = some (.proposing incident spec) ∧
        Proposes env label.now incident spec service.store after.store := by
  have settled : ∀ {store : Store}, Settling service.store store →
      Table.Rewrites RepairProgress service.store.repairs store.repairs := fun settling =>
    settling.repairs.mono fun _ _ settles =>
      ⟨settles.repairId, settles.incidentId, .settle settles.status⟩
  cases taken with
  | @observe observation _ => exact Or.inl (settled (settling_process observation _))
  | close _ settling _ => exact Or.inl (settled settling)
  | read reads => exact Or.inl (settled reads.quiet.settling)
  | finish quiet => exact Or.inl (settled quiet.settling)
  | @propose _ index incident spec resumes task proposes =>
      exact Or.inr ⟨index, incident, spec, resumes, task, proposes⟩
  | follow follows => exact Or.inl (Table.Rewrites.of_eq RepairProgress.refl follows.repairs)
  | authorize _ _ authorized =>
      exact Or.inl (Effect.repairs_steer (settling_expireRepairs _) .authorize
        (authorizeRepair_eq_ok authorized).2)
  | refuse _ _ refused =>
      exact Or.inl (Effect.repairs_steer (settling_expireRepairs _) .refuse
        (refuseRepair_eq_ok refused).2)
  | call quiet _ => exact Or.inl (settled quiet.settling)
  | conclude _ advances steers => exact Or.inl (Effect.repairs_steer (.refl _) advances steers)
  | crash quiet => exact Or.inl (settled quiet.settling)

/-- The store moves, the tasks stay. -/
theorem Service.Sound.move {store : Store} (sound : service.Sound env)
    (effect : Effect env now service.store store)
    (authorized : ∀ repairId, service.store.Authorized repairId → store.Authorized repairId) :
    Service.Sound env { service with store } where
  accounted := effect.accounted sound.accounted
  tasks := fun index task running => (sound.tasks index task running).effect effect
    fun repairId holds => authorized repairId ((sound.tasks index task running).authorized holds)
  exclusive := sound.exclusive

theorem Service.Sound.settle {store : Store} (sound : service.Sound env)
    (settling : Settling service.store store) : Service.Sound env { service with store } :=
  @Service.Sound.move env 0 service store sound (.settle settling) fun _ => settling.authorized

/-- The store moves and one task changes. -/
theorem Service.Sound.advance {store : Store} {index : Nat} {own : Option Task}
    (sound : service.Sound env) (effect : Effect env now service.store store)
    (authorized : ∀ other task repairId, other ≠ index → service.tasks other = some task →
      task.holds = some repairId → store.Authorized repairId)
    (alone : ∀ task, own = some task → task.Sound store ∧ ∀ repairId,
      task.holds = some repairId → ∀ other running, other ≠ index →
        service.tasks other = some running → running.holds ≠ some repairId) :
    Service.Sound env ({ service with store }.advance index own) where
  accounted := effect.accounted sound.accounted
  tasks := by
    intro other task running
    by_cases same : other = index
    · subst same
      simp only [Service.advance, Function.update_self] at running
      exact (alone task running).1
    · simp only [Service.advance, Function.update_of_ne same] at running
      exact (sound.tasks other task running).effect effect fun repairId holds =>
        authorized other task repairId same running holds
  exclusive := by
    intro first second repairId one two firstRuns secondRuns firstHolds secondHolds
    simp only [Service.advance, Function.update_apply] at firstRuns secondRuns
    split at firstRuns
    · split at secondRuns
      · rename_i left right
        exact left.trans right.symm
      · rename_i different
        exact absurd secondHolds ((alone one firstRuns).2 repairId firstHolds second two different
          secondRuns)
    · rename_i different
      split at secondRuns
      · exact absurd firstHolds ((alone two secondRuns).2 repairId secondHolds first one different
          firstRuns)
      · exact sound.exclusive first second repairId one two firstRuns secondRuns firstHolds
          secondHolds

theorem Reads.sound (reads : Reads service after) (sound : service.Sound env) :
    after.Sound env := by
  cases reads with
  | settle quiet => exact sound.settle quiet.settling
  | @spawn store task quiet idle waits =>
      have moved := @Service.Sound.advance env 0 service store service.started (some task) sound
        (.settle quiet.settling) (fun other running repairId _ runs holds =>
          quiet.settling.authorized ((sound.tasks other running runs).authorized holds))
        (by
          rintro spawned ⟨⟩
          exact ⟨waits, fun repairId holds => by simp [idle] at holds⟩)
      exact ⟨moved.accounted, moved.tasks, moved.exclusive⟩

/-- One transition keeps the invariant. -/
theorem Transition.sound (taken : Transition env service label after)
    (sound : service.Sound env) : after.Sound env := by
  have effect := taken.effect sound
  have held : ∀ index task repairId, service.tasks index = some task →
      task.holds = some repairId → service.store.Authorized repairId :=
    fun index task repairId runs holds => (sound.tasks index task runs).authorized holds
  cases taken with
  | @observe observation _ => exact sound.settle (settling_process observation _)
  | close _ settling _ => exact sound.settle settling
  | read reads => exact reads.sound sound
  | finish quiet =>
      exact sound.advance effect (fun other task repairId _ runs holds =>
        quiet.settling.authorized (held other task repairId runs holds)) (by simp)
  | propose _ task proposes =>
      exact sound.advance effect (fun other task repairId _ runs holds =>
        proposes.authorized (held other task repairId runs holds)) (by simp)
  | follow follows =>
      refine sound.move effect fun repairId => ?_
      rintro ⟨row, member, rest⟩
      exact ⟨row, follows.repairs ▸ member, rest⟩
  | @authorize store index incidentId decision repair _ _ authorized =>
      have steers := (authorizeRepair_eq_ok authorized).2
      have swept : ∀ repairId, service.store.Authorized repairId →
          (service.store.expireRepairs env label.now).Authorized repairId :=
        fun repairId => (settling_expireRepairs _).authorized
      refine sound.advance effect (fun other task repairId _ runs holds => ?_) ?_
      · have before := swept repairId (held other task repairId runs holds)
        exact steers.authorized_of_ne (steers.ne_of_authorized before) before
      · rintro task ⟨⟩
        obtain ⟨row, member, same⟩ := steers.known
        obtain ⟨next, nextMem, steered⟩ := steers.repairs.target member
        obtain ⟨_, status, decided⟩ := steered.moved same
        refine ⟨⟨next, nextMem, steered.repairId.trans same, status, decided⟩, ?_⟩
        rintro repairId ⟨⟩ other running _ runs holds
        exact steers.ne_of_authorized (swept _ (held other running _ runs holds)) rfl
  | refuse _ _ refused =>
      have steers := (refuseRepair_eq_ok refused).2
      refine sound.advance effect (fun other task repairId _ runs holds => ?_) (by simp)
      have before : (service.store.expireRepairs env label.now).Authorized repairId :=
        (settling_expireRepairs _).authorized (held other task repairId runs holds)
      exact steers.authorized_of_ne (steers.ne_of_authorized before) before
  | @call store index repairId incidentId error quiet task =>
      refine sound.advance effect (fun other task repairId _ runs holds =>
        quiet.settling.authorized (held other task repairId runs holds)) ?_
      rintro next ⟨⟩
      refine ⟨quiet.settling.authorized (held index _ repairId task rfl), ?_⟩
      rintro _ ⟨⟩ other running different runs holds
      exact different (sound.exclusive other index repairId running _ runs task holds rfl)
  | @conclude store index repairId error target task advances steers =>
      refine sound.advance effect (fun other running wanted different runs holds => ?_) (by simp)
      refine steers.authorized_of_ne (fun same => ?_) (held other running wanted runs holds)
      exact different (sound.exclusive other index wanted running _ runs task holds
        (congrArg some same.symm))
  | crash quiet =>
      exact ⟨effect.accounted sound.accounted, by simp, by simp⟩

/-- One step keeps the invariant. -/
theorem sound_act (sound : service.Sound env) (label : Label) :
    (service.act env label.now label.action).Sound env :=
  (transition_act sound label).sound sound

/-- The invariant holds after every list of transitions. -/
theorem sound_execute (labels : List Label) (sound : service.Sound env) :
    (execute env labels service).Sound env :=
  (run_execute env labels service).invariant (P := fun state => state.Sound env)
    (fun before taken => taken ▸ sound_act before _) sound

end Preservation

end OhanaAgent.Tsunade
