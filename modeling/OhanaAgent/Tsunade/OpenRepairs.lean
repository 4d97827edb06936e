import OhanaAgent.Tsunade.Supervision

/-!
# Open repairs of an incident

`propose_repair` looks for a proposal and for a verification, and not for the
authorized repair whose executor still runs.  An incident keeps at most one open
repair exactly in the runs where no proposal is inserted while a repair of its
incident is authorized.
-/

namespace OhanaAgent.Tsunade

open OhanaAgent.Encoding.Json
open OhanaAgent.Store
open OhanaAgent.Time
open OhanaAgent.Transition

variable {env : Environment} {service : Service} {label : Label}

/-- At most one repair of an incident is open. -/
def Store.OneOpen (store : Store) : Prop :=
  ∀ first ∈ store.repairs, ∀ second ∈ store.repairs, first.incidentId = second.incidentId →
    first.status.isOpen = true → second.status.isOpen = true → first = second

/-- The transition is not the locked part of a proposal on an incident that has
an authorized repair. -/
def ProposesFreely (service : Service) (label : Label) : Prop :=
  ∀ index incident spec, label.action = .resume index →
    service.tasks index = some (.proposing incident spec) →
    ∀ repair ∈ service.store.repairs, repair.incidentId = incident.incidentId →
      repair.status ≠ .authorized

/-! ## One transition -/

theorem Progresses.open {source target : RepairStatus} (progresses : Progresses source target)
    (opened : target.isOpen = true) : source.isOpen = true := by
  rcases progresses with settles | advances
  · cases settles <;> first | exact opened | contradiction
  · cases advances <;> rfl

theorem Store.OneOpen.rewrites {before after : Store} (one : before.OneOpen)
    (rewrites : Table.Rewrites RepairProgress before.repairs after.repairs) : after.OneOpen := by
  intro first firstMem second secondMem same firstOpen secondOpen
  obtain ⟨left, leftMem, leftProgress⟩ := rewrites.source firstMem
  obtain ⟨right, rightMem, rightProgress⟩ := rewrites.source secondMem
  have equal := one left leftMem right rightMem
    (leftProgress.incidentId.symm.trans (same.trans rightProgress.incidentId))
    (leftProgress.status.open firstOpen) (rightProgress.status.open secondOpen)
  refine Table.key_injective firstMem secondMem ?_
  rw [leftProgress.repairId, rightProgress.repairId, equal]

/-- The guard of a proposal: no repair of the incident is proposed or verified. -/
theorem existingRepair_eq_none_iff {store : Store} {incidentId : Text} :
    store.existingRepair incidentId = none ↔ ∀ repair ∈ store.repairs,
      repair.incidentId = incidentId → repair.status ≠ .proposed ∧ repair.status ≠ .verifying := by
  unfold Store.existingRepair
  rw [newest_eq_none_iff, List.filter_eq_nil_iff]
  simp [Table.mem_def]

/-- A proposal that finds no authorized repair inserts the only open one. -/
theorem Store.OneOpen.proposes {now : Int} {before after : Store} {incident : IncidentRow}
    {spec : RepairSpec} (one : before.OneOpen)
    (proposes : Proposes env now incident spec before after)
    (free : ∀ repair ∈ before.repairs, repair.incidentId = incident.incidentId →
      repair.status ≠ .authorized) : after.OneOpen := by
  have closed : ∀ repair ∈ before.repairs, repair.incidentId = incident.incidentId →
      repair.status.isOpen = true → False := by
    intro repair member owner opened
    obtain ⟨proposed, verifying⟩ := existingRepair_eq_none_iff.mp proposes.free repair member owner
    have authorized := free repair member owner
    cases status : repair.status <;> simp_all [RepairStatus.isOpen]
  obtain ⟨_, rows, _⟩ := proposes.inserted
  intro first firstMem second secondMem same firstOpen secondOpen
  rw [Table.mem_def, rows, List.mem_append, List.mem_singleton] at firstMem secondMem
  rcases firstMem with firstOld | rfl
  · rcases secondMem with secondOld | rfl
    · exact one first firstOld second secondOld same firstOpen secondOpen
    · exact (closed first firstOld same firstOpen).elim
  · rcases secondMem with secondOld | rfl
    · exact (closed second secondOld same.symm secondOpen).elim
    · rfl

/-- A transition that proposes freely keeps at most one open repair. -/
theorem oneOpen_act (sound : service.Sound env) (one : service.store.OneOpen)
    (free : ProposesFreely service label) :
    (service.act env label.now label.action).store.OneOpen := by
  rcases (transition_act sound label).repairs with rewrites |
    ⟨index, incident, spec, resumes, task, proposes⟩
  · exact one.rewrites rewrites
  · exact one.proposes proposes (free index incident spec resumes task)

/-- A proposal on an incident whose only open repair is authorized opens a
second one. -/
theorem not_oneOpen_act (sound : service.Sound env) (one : service.store.OneOpen)
    (bound : ¬ ProposesFreely service label) :
    ¬ (service.act env label.now label.action).store.OneOpen := by
  simp only [ProposesFreely, not_forall, not_not] at bound
  obtain ⟨index, incident, spec, resumes, task, repair, member, owner, authorized⟩ := bound
  have free : service.store.existingRepair incident.incidentId = none := by
    refine existingRepair_eq_none_iff.mpr fun other otherMem otherOwner => ?_
    have alone : other.status.isOpen = true → other = repair := fun opened =>
      one other otherMem repair member (otherOwner.trans owner.symm) opened (by simp [authorized,
        RepairStatus.isOpen])
    constructor
    · intro proposed
      rw [alone (by simp [proposed, RepairStatus.isOpen]), authorized] at proposed
      contradiction
    · intro verifying
      rw [alone (by simp [verifying, RepairStatus.isOpen]), authorized] at verifying
      contradiction
  obtain ⟨_, after, done, proposes⟩ := sound.accounted.proposeRepair_ok free label.now spec
  obtain ⟨known, rows, _⟩ := proposes.inserted
  have moved : (service.act env label.now label.action).store = after := by
    simp only [resumes, Service.act, Service.resume, task, Service.advance, Service.transact,
      commit_of_ok done]
  rw [moved]
  intro both
  have same := both repair (Table.mem_def.mpr (rows ▸ List.mem_append_left _ member))
    (spec.repair (env.uuid service.store.uuids) incident.incidentId label.now known)
    (Table.mem_def.mpr (rows ▸ List.mem_append_right _ (List.mem_singleton_self _))) owner
    (by simp [authorized, RepairStatus.isOpen]) rfl
  exact (sound.accounted.drawn repair member).ne_next (congrArg RepairRow.repairId same)

/-! ## Whole runs -/

/-- In every run: at most one repair of an incident is open in every state
reached if and only if no proposal is made while a repair of its incident is
authorized. -/
theorem one_open_repair_iff (env : Environment)
    (experiences : Table ExperienceRow ExperienceRow.experienceId) (labels : List Label) :
    (∀ earlier later, labels = earlier ++ later →
      (execute env earlier (Service.start experiences)).store.OneOpen) ↔
    ∀ earlier label later, labels = earlier ++ label :: later →
      ProposesFreely (execute env earlier (Service.start experiences)) label := by
  have sound := fun earlier => sound_execute earlier (@Service.sound_start env experiences)
  constructor
  · intro one earlier label later equal
    by_contra bound
    refine not_oneOpen_act (sound earlier) (one earlier _ equal) bound ?_
    have next := one (earlier ++ [label]) later (by simp [equal])
    rwa [execute_append] at next
  · intro free earlier
    induction earlier using List.reverseRecOn with
    | nil =>
        intro _ _ first member
        exact absurd member (Table.not_mem_empty first)
    | append_singleton earlier label ih =>
        intro later equal
        rw [execute_append]
        exact oneOpen_act (sound earlier) (ih (label :: later) (by simpa using equal))
          (free earlier label later (by simpa using equal))

/-- A second proposal while the executor of the first repair runs. -/
def secondProposal : List Label :=
  [minutesIn 3 (.propose (summerEnvironment.uuid 0) dnsmasqRestart), minutesIn 3 (.resume 2)]

/-- The incident has an authorized repair and a proposed one. -/
theorem second_proposal_opens_two :
    ¬ ∀ (env : Environment) (experiences : Table ExperienceRow ExperienceRow.experienceId)
      (labels : List Label),
      (execute env labels (Service.start experiences)).store.OneOpen := by
  intro one
  have rows : (execute summerEnvironment (authorizedRestart ++ secondProposal)
      (Service.start ∅)).store.repairs.rows.map (fun row =>
        (row.repairId, row.incidentId, row.status)) =
      [(summerEnvironment.uuid 1, summerEnvironment.uuid 0, .authorized),
        (summerEnvironment.uuid 3, summerEnvironment.uuid 0, .proposed)] := by
    decide +kernel
  have member : ∀ shown ∈
      [(summerEnvironment.uuid 1, summerEnvironment.uuid 0, RepairStatus.authorized),
        (summerEnvironment.uuid 3, summerEnvironment.uuid 0, .proposed)],
      ∃ row ∈ (execute summerEnvironment (authorizedRestart ++ secondProposal)
        (Service.start ∅)).store.repairs, (row.repairId, row.incidentId, row.status) = shown := by
    rw [← rows]
    exact fun shown inside => List.mem_map.mp inside
  obtain ⟨first, firstMem, firstShown⟩ := member _ List.mem_cons_self
  obtain ⟨second, secondMem, secondShown⟩ :=
    member _ (List.mem_cons_of_mem _ List.mem_cons_self)
  simp only [Prod.mk.injEq] at firstShown secondShown
  have same := one summerEnvironment ∅ _ first firstMem second secondMem
    (firstShown.2.1.trans secondShown.2.1.symm) (by simp [firstShown.2.2, RepairStatus.isOpen])
    (by simp [secondShown.2.2, RepairStatus.isOpen])
  rw [same, secondShown.2.2] at firstShown
  exact absurd firstShown.2.2 (by simp)

end OhanaAgent.Tsunade
