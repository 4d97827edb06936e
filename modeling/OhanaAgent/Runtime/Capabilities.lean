import OhanaAgent.Encoding.Json
import OhanaAgent.Store.Table
import OhanaAgent.Store.Transaction
import OhanaAgent.Transition.DependencyOrder
import OhanaAgent.Transition.Run

/-!
# The capability manager

Capabilities declare the capabilities they depend on.  A capability starts only
while everything it depends on is running, and `dependency_order` puts them in an
order in which every one of them can start.
-/

namespace OhanaAgent.Runtime

open OhanaAgent.Encoding.Json (Text)
open OhanaAgent.Store
open OhanaAgent.Transition

/-! ## Capabilities -/

/-- `CapabilityState`. -/
inductive CapabilityState where
  | created
  | registered
  | initializing
  | ready
  | starting
  | running
  | degraded
  | stopping
  | stopped
  | error
  deriving DecidableEq, Repr

/-- `CapabilityHealth`. -/
inductive CapabilityHealth where
  | unknown
  | healthy
  | warning
  | critical
  deriving DecidableEq, Repr

/-- The fields of a `Capability` that the manager reads, or that its lifecycle
writes. -/
structure Capability where
  capabilityId : Text
  dependencies : List Text
  state : CapabilityState
  health : CapabilityHealth
  lastTransitionAt : Int
  deriving DecidableEq

namespace Capability

/-- `transition_to`, at a reading of the clock. -/
def transitionTo (now : Int) (state : CapabilityState) (capability : Capability) : Capability :=
  { capability with state, lastTransitionAt := now }

/-- `initialize`. -/
def initialise (now : Int) (capability : Capability) : Capability :=
  (capability.transitionTo now .initializing).transitionTo now .ready

/-- `start`. -/
def start (now : Int) (capability : Capability) : Capability :=
  { (capability.transitionTo now .starting).transitionTo now .running with health := .healthy }

/-- `stop`. -/
def stop (now : Int) (capability : Capability) : Capability :=
  (capability.transitionTo now .stopping).transitionTo now .stopped

theorem capabilityId_initialise (now : Int) (capability : Capability) :
    (capability.initialise now).capabilityId = capability.capabilityId := rfl

theorem capabilityId_start (now : Int) (capability : Capability) :
    (capability.start now).capabilityId = capability.capabilityId := rfl

theorem capabilityId_stop (now : Int) (capability : Capability) :
    (capability.stop now).capabilityId = capability.capabilityId := rfl

theorem dependencies_initialise (now : Int) (capability : Capability) :
    (capability.initialise now).dependencies = capability.dependencies := rfl

theorem dependencies_start (now : Int) (capability : Capability) :
    (capability.start now).dependencies = capability.dependencies := rfl

theorem dependencies_stop (now : Int) (capability : Capability) :
    (capability.stop now).dependencies = capability.dependencies := rfl

end Capability

/-! ## The manager -/

/-- The exceptions of the manager, with their texts. -/
inductive CapabilityError where
  | alreadyRegistered (message : Text)
  | notFound (message : Text)
  | dependency (message : Text)
  | cycle (message : Text)
  deriving DecidableEq

/-- The registered capabilities, in the order of their registration. -/
abbrev CapabilityManager : Type := Table Capability Capability.capabilityId

namespace CapabilityManager

/-- `register`. -/
def register (now : Int) (capability : Capability) (manager : CapabilityManager) :
    Except CapabilityError CapabilityManager :=
  match manager.insert? (capability.transitionTo now .registered) with
  | none => .error (.alreadyRegistered
      ("Capability already registered: ".toList ++ capability.capabilityId))
  | some registered => .ok registered

/-- `get`. -/
def get (manager : CapabilityManager) (capabilityId : Text) : Except CapabilityError Capability :=
  match manager.find? capabilityId with
  | none => .error (.notFound ("Capability not found: ".toList ++ capabilityId))
  | some capability => .ok capability

/-- `unregister`. -/
def unregister (capabilityId : Text) (manager : CapabilityManager) :
    Except CapabilityError CapabilityManager := do
  let _ ← manager.get capabilityId
  pure (manager.filter fun capability => capability.capabilityId ≠ capabilityId)

/-- `exists`. -/
def exists_ (manager : CapabilityManager) (capabilityId : Text) : Bool :=
  (manager.find? capabilityId).isSome

/-- `_ensure_required_dependencies_exist`. -/
def ensureRequiredDependenciesExist (manager : CapabilityManager) (capability : Capability) :
    Except CapabilityError Unit :=
  match capability.dependencies.find? fun dependencyId => !manager.exists_ dependencyId with
  | none => .ok ()
  | some dependencyId => .error (.dependency ("Missing dependency '".toList ++ dependencyId ++
      "' for capability '".toList ++ capability.capabilityId ++ "'".toList))

/-- `_ensure_all_required_dependencies_exist`. -/
def ensureAllRequiredDependenciesExist (manager : CapabilityManager) :
    Except CapabilityError Unit :=
  manager.rows.forM manager.ensureRequiredDependenciesExist

/-- The second loop of `_ensure_required_dependencies_running`. -/
def ensureRunning (manager : CapabilityManager) (capability : Capability) (dependencyId : Text) :
    Except CapabilityError Unit := do
  let dependency ← manager.get dependencyId
  if dependency.state = .running then pure ()
  else .error (.dependency ("Dependency '".toList ++ dependencyId ++
    "' is not running for capability '".toList ++ capability.capabilityId ++ "'".toList))

/-- `_ensure_required_dependencies_running`. -/
def ensureRequiredDependenciesRunning (manager : CapabilityManager) (capability : Capability) :
    Except CapabilityError Unit := do
  manager.ensureRequiredDependenciesExist capability
  capability.dependencies.forM (manager.ensureRunning capability)

/-- A capability writes its own state. -/
def write (capabilityId : Text) (change : Capability → Capability)
    (keeps : ∀ capability, (change capability).capabilityId = capability.capabilityId)
    (manager : CapabilityManager) : CapabilityManager :=
  manager.modify capabilityId change keeps

/-- `initialize`. -/
def initialise (now : Int) (capabilityId : Text) (manager : CapabilityManager) :
    Except CapabilityError CapabilityManager := do
  let capability ← manager.get capabilityId
  manager.ensureRequiredDependenciesExist capability
  pure (manager.write capabilityId (Capability.initialise now)
    (Capability.capabilityId_initialise now))

/-- `start`. -/
def start (now : Int) (capabilityId : Text) (manager : CapabilityManager) :
    Except CapabilityError CapabilityManager := do
  let capability ← manager.get capabilityId
  manager.ensureRequiredDependenciesRunning capability
  pure (manager.write capabilityId (Capability.start now) (Capability.capabilityId_start now))

/-- `stop`. -/
def stop (now : Int) (capabilityId : Text) (manager : CapabilityManager) :
    Except CapabilityError CapabilityManager := do
  let _ ← manager.get capabilityId
  pure (manager.write capabilityId (Capability.stop now) (Capability.capabilityId_stop now))

/-- `restart`: a capability that cannot start again stays stopped. -/
def restart (now : Int) (capabilityId : Text) (manager : CapabilityManager) :
    Except CapabilityError Unit × CapabilityManager :=
  match manager.stop now capabilityId with
  | .error failure => (.error failure, manager)
  | .ok stopped =>
      match stopped.start now capabilityId with
      | .error failure => (.error failure, stopped)
      | .ok started => (.ok (), started)

/-- The identifiers of the capabilities. -/
def ids (manager : CapabilityManager) : List Text :=
  manager.rows.map Capability.capabilityId

/-- The capabilities with what they depend on, as the loops of `dependency_order` go
through them. -/
def declarations (manager : CapabilityManager) : List (Text × List Text) :=
  manager.rows.map fun capability => (capability.capabilityId, capability.dependencies)

/-- `dependency_order`. -/
def dependencyOrder (manager : CapabilityManager) : Except CapabilityError (List Text) := do
  manager.ensureAllRequiredDependenciesExist
  match Transition.dependencyOrder manager.declarations with
  | none => .error (.cycle "Capability dependency cycle detected".toList)
  | some ordered => pure ordered

/-- `reverse_dependency_order`. -/
def reverseDependencyOrder (manager : CapabilityManager) : Except CapabilityError (List Text) := do
  let ordered ← manager.dependencyOrder
  pure ordered.reverse

/-! ## Dependencies -/

/-- A registered capability depends on an identifier. -/
def DependsOn (manager : CapabilityManager) (capabilityId dependencyId : Text) : Prop :=
  ∃ capability ∈ manager, capability.capabilityId = capabilityId ∧
    dependencyId ∈ capability.dependencies

/-- Every dependency is registered. -/
def Complete (manager : CapabilityManager) : Prop :=
  ∀ capabilityId dependencyId, manager.DependsOn capabilityId dependencyId →
    dependencyId ∈ manager.ids

/-- Every capability, after the capabilities it depends on. -/
structure StartOrder (manager : CapabilityManager) (order : List Text) : Prop where
  perm : order.Perm manager.ids
  after : ∀ before capabilityId later, order = before ++ capabilityId :: later →
    ∀ dependencyId, manager.DependsOn capabilityId dependencyId → dependencyId ∈ before

variable {manager : CapabilityManager}

theorem mem_ids_iff {capabilityId : Text} :
    capabilityId ∈ manager.ids ↔ ∃ capability ∈ manager, capability.capabilityId = capabilityId :=
  List.mem_map

theorem ids_eq (manager : CapabilityManager) : manager.ids = manager.declarations.map Prod.fst := by
  rw [declarations, List.map_map]
  rfl

theorem distinct_declarations (manager : CapabilityManager) :
    (manager.declarations.map Prod.fst).Nodup := by
  rw [← ids_eq]
  exact manager.distinct

theorem mem_declared_declarations_iff {capabilityId dependencyId : Text} :
    dependencyId ∈ declared manager.declarations capabilityId ↔
      manager.DependsOn capabilityId dependencyId := by
  simp only [mem_declared_iff, declarations, List.mem_map, Prod.mk.injEq]
  constructor
  · rintro ⟨_, ⟨capability, member, same, rfl⟩, needed⟩
    exact ⟨capability, member, same, needed⟩
  · rintro ⟨capability, member, same, needed⟩
    exact ⟨_, ⟨capability, member, same, rfl⟩, needed⟩

/-- Two managers that declare the same depend alike. -/
theorem dependsOn_iff_of_declarations {other : CapabilityManager}
    (same : other.declarations = manager.declarations) {capabilityId dependencyId : Text} :
    other.DependsOn capabilityId dependencyId ↔ manager.DependsOn capabilityId dependencyId := by
  rw [← mem_declared_declarations_iff, same, mem_declared_declarations_iff]

/-! ## The checks -/

theorem forM_eq_ok_iff {α : Type} {check : α → Except CapabilityError Unit} {list : List α} :
    list.forM check = .ok () ↔ ∀ element ∈ list, check element = .ok () := by
  induction list with
  | nil => simp
  | cons first rest ih =>
    change (check first >>= fun _ => rest.forM check) = .ok () ↔ _
    rw [bind_eq_ok, List.forall_mem_cons, ← ih]
    constructor
    · rintro ⟨⟨⟩, checked, others⟩
      exact ⟨checked, others⟩
    · rintro ⟨checked, others⟩
      exact ⟨(), checked, others⟩

theorem exists_eq_true_iff {capabilityId : Text} :
    manager.exists_ capabilityId = true ↔ capabilityId ∈ manager.ids := by
  rw [exists_, Option.isSome_iff_exists, mem_ids_iff]
  constructor
  · rintro ⟨capability, found⟩
    exact ⟨capability, Table.find?_eq_some_iff.mp found⟩
  · rintro ⟨capability, found⟩
    exact ⟨capability, Table.find?_eq_some_iff.mpr found⟩

theorem get_eq_ok_iff {capabilityId : Text} {capability : Capability} :
    manager.get capabilityId = .ok capability ↔
      capability ∈ manager ∧ capability.capabilityId = capabilityId := by
  rw [← Table.find?_eq_some_iff, get]
  cases manager.find? capabilityId <;> simp

theorem ensureRequiredDependenciesExist_eq_ok_iff {capability : Capability} :
    manager.ensureRequiredDependenciesExist capability = .ok () ↔
      ∀ dependencyId ∈ capability.dependencies, dependencyId ∈ manager.ids := by
  simp only [ensureRequiredDependenciesExist, ← exists_eq_true_iff]
  cases found : capability.dependencies.find? fun dependencyId =>
      !manager.exists_ dependencyId with
  | none => simpa using List.find?_eq_none.mp found
  | some dependencyId =>
    have missing := List.find?_some found
    simp only [reduceCtorEq, false_iff]
    intro all
    simp [all dependencyId (List.mem_of_find?_eq_some found)] at missing

theorem ensureAllRequiredDependenciesExist_eq_ok_iff :
    manager.ensureAllRequiredDependenciesExist = .ok () ↔ manager.Complete := by
  rw [ensureAllRequiredDependenciesExist, forM_eq_ok_iff]
  constructor
  · rintro checked _ dependencyId ⟨capability, member, rfl, needed⟩
    exact ensureRequiredDependenciesExist_eq_ok_iff.mp (checked capability member)
      dependencyId needed
  · intro complete capability member
    exact ensureRequiredDependenciesExist_eq_ok_iff.mpr fun dependencyId needed =>
      complete _ dependencyId ⟨capability, member, rfl, needed⟩

/-- A failed check names a missing dependency. -/
theorem ensureAllRequiredDependenciesExist_error {failure : CapabilityError}
    (failed : manager.ensureAllRequiredDependenciesExist = .error failure) :
    ∃ message, failure = .dependency message := by
  have failing : ∀ capabilities : List Capability,
      capabilities.forM manager.ensureRequiredDependenciesExist = .error failure →
        ∃ message, failure = .dependency message := by
    intro capabilities
    induction capabilities with
    | nil =>
      intro equal
      cases equal
    | cons first rest ih =>
      intro equal
      change (manager.ensureRequiredDependenciesExist first >>= fun _ =>
        rest.forM manager.ensureRequiredDependenciesExist) = .error failure at equal
      cases checked : manager.ensureRequiredDependenciesExist first with
      | ok _ =>
        rw [checked] at equal
        exact ih equal
      | error other =>
        rw [checked] at equal
        cases equal
        rw [ensureRequiredDependenciesExist] at checked
        split at checked
        · cases checked
        · cases checked
          exact ⟨_, rfl⟩
  exact failing manager.rows failed

/-! ## The order -/

/-- The error of a cycle. -/
def cycleDetected : CapabilityError :=
  .cycle "Capability dependency cycle detected".toList

theorem dependencyOrder_of_complete (complete : manager.Complete) :
    manager.dependencyOrder = match Transition.dependencyOrder manager.declarations with
      | none => .error cycleDetected
      | some ordered => .ok ordered := by
  rw [dependencyOrder, ensureAllRequiredDependenciesExist_eq_ok_iff.mpr complete]
  rfl

theorem isSome_dependencyOrder_iff (complete : manager.Complete) :
    (Transition.dependencyOrder manager.declarations).isSome ↔ Acyclic manager.DependsOn := by
  rw [dependencyOrder_isSome_iff (distinct_declarations manager)
    fun capabilityId dependencyId needed => by
      rw [← ids_eq]
      exact complete capabilityId dependencyId (mem_declared_declarations_iff.mp needed)]
  simp only [mem_declared_declarations_iff]

theorem dependencyOrder_eq_ok {order : List Text} (found : manager.dependencyOrder = .ok order) :
    manager.Complete ∧ Transition.dependencyOrder manager.declarations = some order := by
  have complete : manager.Complete := by
    rw [dependencyOrder, bind_eq_ok] at found
    obtain ⟨⟨⟩, checked, _⟩ := found
    exact ensureAllRequiredDependenciesExist_eq_ok_iff.mp checked
  rw [dependencyOrder_of_complete complete] at found
  refine ⟨complete, ?_⟩
  split at found
  · cases found
  · cases found
    assumption

theorem startOrder_of_dependencyOrder {order : List Text}
    (found : manager.dependencyOrder = .ok order) : manager.StartOrder order := by
  obtain ⟨perm, ordered⟩ := Transition.dependencyOrder_eq_some (distinct_declarations manager)
    (dependencyOrder_eq_ok found).2
  constructor
  · rwa [ids_eq]
  · intro before capabilityId later equal dependencyId needed
    exact ordered before capabilityId later equal dependencyId
      (mem_declared_declarations_iff.mpr needed)

/-- `dependency_order` fails on a missing dependency or on a cycle and on nothing
else, and what it returns is an order to start in. -/
theorem dependencyOrder_outcomes (manager : CapabilityManager) :
    (∀ order, manager.dependencyOrder = .ok order → manager.StartOrder order) ∧
      ((∃ order, manager.dependencyOrder = .ok order) ↔
        manager.Complete ∧ Acyclic manager.DependsOn) ∧
      (manager.dependencyOrder = .error cycleDetected ↔
        manager.Complete ∧ ¬ Acyclic manager.DependsOn) ∧
      ((∃ message, manager.dependencyOrder = .error (.dependency message)) ↔
        ¬ manager.Complete) := by
  refine ⟨fun order found => startOrder_of_dependencyOrder found, ?_⟩
  by_cases complete : manager.Complete
  · have cyclic := isSome_dependencyOrder_iff complete
    rw [dependencyOrder_of_complete complete]
    cases found : Transition.dependencyOrder manager.declarations with
    | none =>
      rw [found] at cyclic
      simp_all [cycleDetected]
    | some order =>
      rw [found] at cyclic
      simp_all
  · have failed : ∃ message, manager.dependencyOrder = .error (.dependency message) := by
      rw [dependencyOrder]
      cases checked : manager.ensureAllRequiredDependenciesExist with
      | ok _ => exact absurd (ensureAllRequiredDependenciesExist_eq_ok_iff.mp checked) complete
      | error failure =>
        obtain ⟨message, rfl⟩ := ensureAllRequiredDependenciesExist_error checked
        exact ⟨message, rfl⟩
    obtain ⟨message, failed⟩ := failed
    simp [failed, complete, cycleDetected]

/-! ## Starting and stopping -/

/-- A capability is registered and running. -/
def Running (manager : CapabilityManager) (capabilityId : Text) : Prop :=
  ∃ capability ∈ manager, capability.capabilityId = capabilityId ∧ capability.state = .running

/-- Whatever runs depends only on what runs. -/
def Supported (manager : CapabilityManager) : Prop :=
  ∀ capabilityId dependencyId, manager.Running capabilityId →
    manager.DependsOn capabilityId dependencyId → manager.Running dependencyId

instance (manager : CapabilityManager) (capabilityId : Text) :
    Decidable (manager.Running capabilityId) :=
  inferInstanceAs (Decidable (∃ capability ∈ manager.rows, _ ∧ _))

theorem supported_iff : manager.Supported ↔ ∀ capability ∈ manager.rows,
    capability.state = .running → ∀ dependencyId ∈ capability.dependencies,
      manager.Running dependencyId := by
  constructor
  · intro supported capability member state dependencyId needed
    exact supported capability.capabilityId dependencyId ⟨capability, member, rfl, state⟩
      ⟨capability, member, rfl, needed⟩
  · rintro supported _ dependencyId ⟨capability, member, rfl, state⟩ ⟨other, otherMem, same, needed⟩
    rw [manager.key_injective otherMem member same] at needed
    exact supported capability member state dependencyId needed

instance (manager : CapabilityManager) : Decidable manager.Supported :=
  decidable_of_iff _ supported_iff.symm

/-- Start some capabilities, each at its own time. -/
def startAll (clock : Text → Int) :
    List Text → CapabilityManager → Except CapabilityError CapabilityManager
  | [], manager => .ok manager
  | capabilityId :: rest, manager => do
      let started ← manager.start (clock capabilityId) capabilityId
      startAll clock rest started

/-- Stop some capabilities, each at its own time. -/
def stopAll (clock : Text → Int) :
    List Text → CapabilityManager → Except CapabilityError CapabilityManager
  | [], manager => .ok manager
  | capabilityId :: rest, manager => do
      let stopped ← manager.stop (clock capabilityId) capabilityId
      stopAll clock rest stopped

theorem Running.mem_ids {capabilityId : Text} (running : manager.Running capabilityId) :
    capabilityId ∈ manager.ids := by
  obtain ⟨capability, member, same, _⟩ := running
  exact mem_ids_iff.mpr ⟨capability, member, same⟩

theorem declarations_write {capabilityId : Text} (change : Capability → Capability)
    {keeps : ∀ capability, (change capability).capabilityId = capability.capabilityId}
    (spares : ∀ capability, (change capability).dependencies = capability.dependencies) :
    (manager.write capabilityId change keeps).declarations = manager.declarations := by
  rw [declarations, write, Table.rows_modify, List.map_map, declarations]
  refine List.map_congr_left fun capability _ => ?_
  by_cases same : capability.capabilityId = capabilityId
  · simp [same, keeps, spares]
  · simp [same]

theorem running_write_iff {capabilityId other : Text} {change : Capability → Capability}
    {keeps : ∀ capability, (change capability).capabilityId = capability.capabilityId} :
    (manager.write capabilityId change keeps).Running other ↔
      if other = capabilityId then
        ∃ capability ∈ manager, capability.capabilityId = capabilityId ∧
          (change capability).state = .running
      else manager.Running other := by
  constructor
  · rintro ⟨capability, member, rfl, state⟩
    rcases Table.mem_modify.mp member with ⟨source, sourceMem, rfl, rfl⟩ | ⟨rowMem, different⟩
    · rw [if_pos (keeps source)]
      exact ⟨source, sourceMem, rfl, state⟩
    · rw [if_neg different]
      exact ⟨capability, rowMem, rfl, state⟩
  · split
    case isTrue same =>
      rintro ⟨capability, member, rfl, state⟩
      exact ⟨change capability, Table.mem_modify.mpr (Or.inl ⟨capability, member, rfl, rfl⟩),
        (keeps capability).trans same.symm, state⟩
    case isFalse different =>
      rintro ⟨capability, member, rfl, state⟩
      exact ⟨capability, Table.mem_modify.mpr (Or.inr ⟨member, different⟩), rfl, state⟩

theorem ensureRunning_eq_ok_iff {capability : Capability} {dependencyId : Text} :
    manager.ensureRunning capability dependencyId = .ok () ↔ manager.Running dependencyId := by
  rw [ensureRunning, bind_eq_ok]
  constructor
  · rintro ⟨dependency, found, checked⟩
    obtain ⟨member, same⟩ := get_eq_ok_iff.mp found
    split at checked
    · exact ⟨dependency, member, same, by assumption⟩
    · cases checked
  · rintro ⟨dependency, member, same, state⟩
    exact ⟨dependency, get_eq_ok_iff.mpr ⟨member, same⟩, by rw [if_pos state]; rfl⟩

/-- A capability starts exactly when it is registered and all it depends on runs. -/
theorem start_eq_ok_iff {now : Int} {capabilityId : Text} {after : CapabilityManager} :
    manager.start now capabilityId = .ok after ↔
      (capabilityId ∈ manager.ids ∧
        ∀ dependencyId, manager.DependsOn capabilityId dependencyId →
          manager.Running dependencyId) ∧
      after = manager.write capabilityId (Capability.start now)
        (Capability.capabilityId_start now) := by
  rw [start, bind_eq_ok]
  constructor
  · rintro ⟨capability, found, rest⟩
    obtain ⟨member, rfl⟩ := get_eq_ok_iff.mp found
    obtain ⟨⟨⟩, checked, rest⟩ := bind_eq_ok.mp rest
    obtain ⟨⟨⟩, _, running⟩ := bind_eq_ok.mp checked
    cases rest
    refine ⟨⟨mem_ids_iff.mpr ⟨capability, member, rfl⟩, ?_⟩, rfl⟩
    rintro dependencyId ⟨other, otherMem, same, needed⟩
    rw [manager.key_injective otherMem member same] at needed
    exact ensureRunning_eq_ok_iff.mp (forM_eq_ok_iff.mp running dependencyId needed)
  · rintro ⟨⟨registered, running⟩, rfl⟩
    obtain ⟨capability, member, rfl⟩ := mem_ids_iff.mp registered
    have needed : ∀ dependencyId ∈ capability.dependencies, manager.Running dependencyId :=
      fun dependencyId needed => running dependencyId ⟨capability, member, rfl, needed⟩
    have exist : manager.ensureRequiredDependenciesExist capability = .ok () :=
      ensureRequiredDependenciesExist_eq_ok_iff.mpr fun dependencyId dependency =>
        (needed dependencyId dependency).mem_ids
    have checked : capability.dependencies.forM (manager.ensureRunning capability) = .ok () :=
      forM_eq_ok_iff.mpr fun dependencyId dependency =>
        ensureRunning_eq_ok_iff.mpr (needed dependencyId dependency)
    refine ⟨capability, get_eq_ok_iff.mpr ⟨member, rfl⟩, ?_⟩
    rw [ensureRequiredDependenciesRunning, exist]
    change (capability.dependencies.forM (manager.ensureRunning capability) >>= fun _ => _) = _
    rw [checked]
    rfl

theorem stop_eq_ok_iff {now : Int} {capabilityId : Text} {stopped : CapabilityManager} :
    manager.stop now capabilityId = .ok stopped ↔ capabilityId ∈ manager.ids ∧
      stopped = write capabilityId (Capability.stop now) (Capability.capabilityId_stop now)
        manager := by
  rw [stop, bind_eq_ok]
  constructor
  · rintro ⟨capability, found, equal⟩
    cases equal
    exact ⟨mem_ids_iff.mpr ⟨capability, get_eq_ok_iff.mp found⟩, rfl⟩
  · rintro ⟨registered, rfl⟩
    obtain ⟨capability, found⟩ := mem_ids_iff.mp registered
    exact ⟨capability, get_eq_ok_iff.mpr found, rfl⟩

theorem running_stopped_iff {now : Int} {capabilityId other : Text} :
    (write capabilityId (Capability.stop now) (Capability.capabilityId_stop now)
        manager).Running other ↔ manager.Running other ∧ other ≠ capabilityId := by
  rw [running_write_iff]
  by_cases equal : other = capabilityId
  · simp [equal, Capability.stop, Capability.transitionTo]
  · simp [equal]

/-- Starting the rest of an order whose beginning runs. -/
theorem exists_startAll (clock : Text → Int) {order : List Text}
    (starts : manager.StartOrder order) (later : List Text) {before : List Text}
    (split : order = before ++ later) {middle : CapabilityManager}
    (same : middle.declarations = manager.declarations)
    (running : ∀ capabilityId ∈ before, middle.Running capabilityId) :
    ∃ started, startAll clock later middle = .ok started ∧
      started.declarations = manager.declarations ∧
      ∀ capabilityId ∈ order, started.Running capabilityId := by
  induction later generalizing before middle with
  | nil =>
    rw [split, List.append_nil]
    exact ⟨middle, rfl, same, running⟩
  | cons capabilityId rest ih =>
    have registered : capabilityId ∈ middle.ids := by
      rw [ids_eq, same, ← ids_eq, ← starts.perm.mem_iff, split]
      simp
    have met : ∀ dependencyId, middle.DependsOn capabilityId dependencyId →
        middle.Running dependencyId := fun dependencyId needed =>
      running dependencyId (starts.after before capabilityId rest split dependencyId
        ((dependsOn_iff_of_declarations same).mp needed))
    have started : middle.start (clock capabilityId) capabilityId = .ok _ :=
      start_eq_ok_iff.mpr ⟨⟨registered, met⟩, rfl⟩
    have next : order = (before ++ [capabilityId]) ++ rest := by simp [split]
    rw [startAll, started]
    refine ih next ((declarations_write _ (Capability.dependencies_start _)).trans same) ?_
    intro other member
    rw [running_write_iff]
    split
    case isTrue equal =>
      obtain ⟨capability, inside, rfl⟩ := mem_ids_iff.mp registered
      exact ⟨capability, inside, rfl, rfl⟩
    case isFalse different =>
      rcases List.mem_append.mp member with old | new
      · exact running other old
      · exact absurd (List.mem_singleton.mp new) different

/-- What depends on a capability stands after it in every order. -/
theorem StartOrder.mem_of_dependsOn {order before later : List Text}
    {capabilityId dependencyId : Text} (starts : manager.StartOrder order)
    (split : order = before ++ dependencyId :: later)
    (needed : manager.DependsOn capabilityId dependencyId) : capabilityId ∈ later := by
  have once : order.Nodup := starts.perm.nodup_iff.mpr manager.distinct
  have inside : capabilityId ∈ order := by
    obtain ⟨capability, member, same, _⟩ := needed
    exact starts.perm.mem_iff.mpr (mem_ids_iff.mpr ⟨capability, member, same⟩)
  rw [split, List.nodup_append] at once
  have absent : dependencyId ∉ before := fun member =>
    once.2.2 dependencyId member dependencyId List.mem_cons_self rfl
  rw [split, List.mem_append, List.mem_cons] at inside
  rcases inside with early | rfl | late
  · obtain ⟨first, rest, rfl⟩ := List.append_of_mem early
    have again := starts.after first capabilityId (rest ++ dependencyId :: later)
      (by simp [split]) dependencyId needed
    exact absurd (List.mem_append_left _ again) absent
  · exact absurd (starts.after before capabilityId later split capabilityId needed) absent
  · exact late

/-- Stopping goes on in the reverse of an order, once its beginning is stopped: what
depends on a capability is stopped before it. -/
theorem exists_stopAll (clock : Text → Int) {order : List Text}
    (starts : manager.StartOrder order) (stops : List Text) {earlier rest : List Text}
    (split : order.reverse = earlier ++ (stops ++ rest)) {middle : CapabilityManager}
    (same : middle.declarations = manager.declarations) (supported : middle.Supported)
    (running : ∀ capabilityId, middle.Running capabilityId ↔
      manager.Running capabilityId ∧ capabilityId ∉ earlier) :
    ∃ stopped, stopAll clock stops middle = .ok stopped ∧
      stopped.declarations = manager.declarations ∧ stopped.Supported ∧
      ∀ capabilityId, stopped.Running capabilityId ↔
        manager.Running capabilityId ∧ capabilityId ∉ earlier ++ stops := by
  induction stops generalizing earlier middle with
  | nil => exact ⟨middle, rfl, same, supported, by simpa using running⟩
  | cons capabilityId stops ih =>
    have order_eq : order = (stops ++ rest).reverse ++ capabilityId :: earlier.reverse := by
      rw [← List.reverse_reverse order, split]
      simp
    have registered : capabilityId ∈ middle.ids := by
      rw [ids_eq, same, ← ids_eq, ← starts.perm.mem_iff, order_eq]
      simp
    have left : ∀ other, (write capabilityId (Capability.stop (clock capabilityId))
        (Capability.capabilityId_stop _) middle).Running other ↔
        manager.Running other ∧ other ∉ earlier ++ [capabilityId] := by
      intro other
      rw [running_stopped_iff, running, List.mem_append, List.mem_singleton, not_or, and_assoc]
    rw [stopAll, stop_eq_ok_iff.mpr ⟨registered, rfl⟩]
    have declares : (write capabilityId (Capability.stop (clock capabilityId))
        (Capability.capabilityId_stop _) middle).declarations = manager.declarations :=
      (declarations_write _ (Capability.dependencies_stop _)).trans same
    have next : order.reverse = (earlier ++ [capabilityId]) ++ (stops ++ rest) := by
      simp [split]
    have supports : (write capabilityId (Capability.stop (clock capabilityId))
        (Capability.capabilityId_stop _) middle).Supported := by
      intro other dependencyId runs needed
      obtain ⟨ran, late⟩ := (left other).mp runs
      rw [List.mem_append, List.mem_singleton, not_or] at late
      have depends := (dependsOn_iff_of_declarations declares).mp needed
      have kept := (running dependencyId).mp (supported other dependencyId
        ((running other).mpr ⟨ran, late.1⟩) ((dependsOn_iff_of_declarations same).mpr depends))
      refine (left dependencyId).mpr ⟨kept.1, ?_⟩
      rw [List.mem_append, List.mem_singleton, not_or]
      refine ⟨kept.2, ?_⟩
      rintro rfl
      have stopped := starts.mem_of_dependsOn order_eq depends
      exact late.1 (List.mem_reverse.mp stopped)
    have rests := ih next declares supports left
    rwa [List.append_assoc] at rests

theorem reverseDependencyOrder_eq_ok {order : List Text}
    (found : manager.reverseDependencyOrder = .ok order) :
    manager.dependencyOrder = .ok order.reverse := by
  rw [reverseDependencyOrder, bind_eq_ok] at found
  obtain ⟨ordered, found, equal⟩ := found
  cases equal
  rw [found, List.reverse_reverse]

/-- In the order of `dependency_order` every capability starts, from any states; in
that of `reverse_dependency_order` they all stop, and no capability runs at any
moment without what it depends on. -/
theorem lifecycle_in_dependency_order (clock : Text → Int) {manager : CapabilityManager}
    {order : List Text} (found : manager.dependencyOrder = .ok order) :
    (∃ started, startAll clock order manager = .ok started ∧
      started.declarations = manager.declarations ∧ started.Supported ∧
      ∀ capability ∈ started, capability.state = .running) ∧
    (manager.Supported → ∀ stops rest, manager.reverseDependencyOrder = .ok (stops ++ rest) →
      ∃ stopped, stopAll clock stops manager = .ok stopped ∧
        stopped.declarations = manager.declarations ∧ stopped.Supported ∧
        ∀ capabilityId ∈ stops, ¬ stopped.Running capabilityId) := by
  have starts := startOrder_of_dependencyOrder found
  constructor
  · obtain ⟨started, done, same, running⟩ := exists_startAll clock starts order
      (List.nil_append order).symm rfl fun capabilityId member => absurd member List.not_mem_nil
    have ids : started.ids = manager.ids := by rw [ids_eq, same, ← ids_eq]
    have all : ∀ capabilityId ∈ started.ids, started.Running capabilityId := fun _ member =>
      running _ (starts.perm.mem_iff.mpr (ids ▸ member))
    refine ⟨started, done, same, fun capabilityId dependencyId _ needed => all _ ?_, ?_⟩
    · rw [ids]
      exact (dependencyOrder_eq_ok found).1 _ _ ((dependsOn_iff_of_declarations same).mp needed)
    · intro capability member
      obtain ⟨other, otherMem, equal, state⟩ :=
        all capability.capabilityId (mem_ids_iff.mpr ⟨capability, member, rfl⟩)
      rwa [started.key_injective otherMem member equal] at state
  · intro supported stops rest reversed
    have same := reverseDependencyOrder_eq_ok reversed
    obtain ⟨stopped, done, declares, supports, running⟩ := exists_stopAll clock
      (startOrder_of_dependencyOrder same) stops
      (by rw [List.reverse_reverse, List.nil_append]) rfl supported (by simp)
    exact ⟨stopped, done, declares, supports, fun capabilityId member runs =>
      ((running capabilityId).mp runs).2 member⟩

/-! ## Runs -/

/-- A call of the manager. -/
inductive Call where
  | register (capability : Capability)
  | unregister (capabilityId : Text)
  | initialise (capabilityId : Text)
  | start (capabilityId : Text)
  | stop (capabilityId : Text)
  | restart (capabilityId : Text)

/-- What a call that may stop a capability is about. -/
def Call.withdrawn? : Call → Option Text
  | .register _ | .start _ => none
  | .unregister capabilityId | .initialise capabilityId | .stop capabilityId
  | .restart capabilityId => some capabilityId

/-- The manager after a call; a call that fails changes nothing, apart from a
`restart` that stopped. -/
def after (now : Int) (call : Call) (manager : CapabilityManager) : CapabilityManager :=
  match call with
  | .register capability => (manager.register now capability).toOption.getD manager
  | .unregister capabilityId => (manager.unregister capabilityId).toOption.getD manager
  | .initialise capabilityId => (manager.initialise now capabilityId).toOption.getD manager
  | .start capabilityId => (manager.start now capabilityId).toOption.getD manager
  | .stop capabilityId => (manager.stop now capabilityId).toOption.getD manager
  | .restart capabilityId => (manager.restart now capabilityId).2

/-- A call at a time that withdraws nothing that something else depends on while it
runs. -/
def Careful (manager : CapabilityManager) (label : Int × Call) (target : CapabilityManager) :
    Prop :=
  target = manager.after label.1 label.2 ∧
    ∀ dependencyId ∈ label.2.withdrawn?, ∀ capabilityId, manager.Running capabilityId →
      manager.DependsOn capabilityId dependencyId → capabilityId = dependencyId

theorem careful_after {now : Int} {call : Call}
    (free : ∀ dependencyId ∈ call.withdrawn?, ∀ capability ∈ manager.rows,
      capability.state = .running → dependencyId ∈ capability.dependencies →
        capability.capabilityId = dependencyId) :
    manager.Careful (now, call) (manager.after now call) := by
  refine ⟨rfl, ?_⟩
  rintro dependencyId withdrawn _ ⟨capability, member, rfl, state⟩ ⟨other, otherMem, same, needed⟩
  rw [manager.key_injective otherMem member same] at needed
  exact free dependencyId withdrawn capability member state needed

/-- Nothing new runs or depends. -/
theorem Supported.withdrawn {target : CapabilityManager} {dependencyId : Text}
    (supported : manager.Supported)
    (running : ∀ capabilityId, target.Running capabilityId ↔
      manager.Running capabilityId ∧ capabilityId ≠ dependencyId)
    (depends : ∀ capabilityId other, target.DependsOn capabilityId other →
      manager.DependsOn capabilityId other)
    (free : ∀ capabilityId, manager.Running capabilityId →
      manager.DependsOn capabilityId dependencyId → capabilityId = dependencyId) :
    target.Supported := by
  intro capabilityId other runs needed
  obtain ⟨ran, different⟩ := (running capabilityId).mp runs
  have kept := supported capabilityId other ran (depends capabilityId other needed)
  refine (running other).mpr ⟨kept, ?_⟩
  rintro rfl
  exact different (free capabilityId ran (depends capabilityId other needed))

theorem Supported.stopped {now : Int} {capabilityId : Text} (supported : manager.Supported)
    (free : ∀ other, manager.Running other → manager.DependsOn other capabilityId →
      other = capabilityId) :
    (write capabilityId (Capability.stop now) (Capability.capabilityId_stop now)
      manager).Supported :=
  supported.withdrawn (fun _ => running_stopped_iff)
    (fun _ _ => (dependsOn_iff_of_declarations
      (declarations_write _ (Capability.dependencies_stop now))).mp) free

theorem Supported.started {now : Int} {capabilityId : Text} {started : CapabilityManager}
    (supported : manager.Supported) (found : manager.start now capabilityId = .ok started) :
    started.Supported := by
  obtain ⟨⟨registered, met⟩, rfl⟩ := start_eq_ok_iff.mp found
  have keeps : ∀ other, manager.Running other → (write capabilityId (Capability.start now)
      (Capability.capabilityId_start now) manager).Running other := by
    intro other runs
    rw [running_write_iff]
    split
    case isTrue =>
      obtain ⟨capability, member, same⟩ := mem_ids_iff.mp registered
      exact ⟨capability, member, same, rfl⟩
    case isFalse => exact runs
  intro other dependencyId runs needed
  rw [dependsOn_iff_of_declarations
    (declarations_write _ (Capability.dependencies_start now))] at needed
  rw [running_write_iff] at runs
  split at runs
  case isTrue equal =>
    subst equal
    exact keeps dependencyId (met dependencyId needed)
  case isFalse => exact keeps dependencyId (supported other dependencyId runs needed)

theorem Supported.registered {now : Int} {capability : Capability} {registered : CapabilityManager}
    (supported : manager.Supported) (found : manager.register now capability = .ok registered) :
    registered.Supported := by
  rw [register] at found
  split at found
  case h_1 => cases found
  case h_2 after inserted =>
    cases found
    obtain ⟨fresh, rows⟩ := Table.insert?_eq_some_iff.mp inserted
    have mem_iff : ∀ row, row ∈ registered ↔
        row ∈ manager ∨ row = capability.transitionTo now .registered := by
      intro row
      rw [Table.mem_def, rows, List.mem_append, List.mem_singleton, ← Table.mem_def]
    have old : ∀ other, registered.Running other ↔ manager.Running other := by
      intro other
      constructor
      · rintro ⟨row, member, same, state⟩
        rcases (mem_iff row).mp member with inside | rfl
        · exact ⟨row, inside, same, state⟩
        · cases state
      · rintro ⟨row, member, same, state⟩
        exact ⟨row, (mem_iff row).mpr (Or.inl member), same, state⟩
    rintro other dependencyId runs ⟨row, member, same, needed⟩
    rw [old] at runs ⊢
    rcases (mem_iff row).mp member with inside | rfl
    · exact supported other dependencyId runs ⟨row, inside, same, needed⟩
    · obtain ⟨taken, takenMem, takenSame, _⟩ := runs
      exact absurd (takenSame.trans same.symm) (fresh taken takenMem)

theorem Supported.unregistered {capabilityId : Text} {target : CapabilityManager}
    (supported : manager.Supported) (found : manager.unregister capabilityId = .ok target)
    (free : ∀ other, manager.Running other → manager.DependsOn other capabilityId →
      other = capabilityId) : target.Supported := by
  rw [unregister, bind_eq_ok] at found
  obtain ⟨_, _, equal⟩ := found
  cases equal
  refine supported.withdrawn (fun other => ?_) ?_ free
  · constructor
    · rintro ⟨row, member, rfl, state⟩
      obtain ⟨inside, different⟩ := Table.mem_filter.mp member
      exact ⟨⟨row, inside, rfl, state⟩, by simpa using different⟩
    · rintro ⟨⟨row, member, rfl, state⟩, different⟩
      exact ⟨row, Table.mem_filter.mpr ⟨member, by simpa using different⟩, rfl, state⟩
  · rintro other dependencyId ⟨row, member, same, needed⟩
    exact ⟨row, (Table.mem_filter.mp member).1, same, needed⟩

theorem Supported.initialised {now : Int} {capabilityId : Text} {target : CapabilityManager}
    (supported : manager.Supported) (found : manager.initialise now capabilityId = .ok target)
    (free : ∀ other, manager.Running other → manager.DependsOn other capabilityId →
      other = capabilityId) : target.Supported := by
  rw [initialise, bind_eq_ok] at found
  obtain ⟨_, _, rest⟩ := found
  obtain ⟨_, _, equal⟩ := bind_eq_ok.mp rest
  cases equal
  refine supported.withdrawn (fun other => ?_) (fun _ _ => (dependsOn_iff_of_declarations
    (declarations_write _ (Capability.dependencies_initialise now))).mp) free
  rw [running_write_iff]
  by_cases equal : other = capabilityId
  · simp [equal, Capability.initialise, Capability.transitionTo]
  · simp [equal]

/-- A careful call keeps everything that runs supported. -/
theorem Careful.supported {target : CapabilityManager} {label : Int × Call}
    (careful : manager.Careful label target) (supported : manager.Supported) :
    target.Supported := by
  obtain ⟨now, call⟩ := label
  obtain ⟨rfl, free⟩ := careful
  cases call with
  | register capability =>
    rw [after]
    cases found : manager.register now capability with
    | error failure => exact supported
    | ok registered => exact supported.registered found
  | unregister capabilityId =>
    rw [after]
    cases found : manager.unregister capabilityId with
    | error failure => exact supported
    | ok target => exact supported.unregistered found (free capabilityId rfl)
  | initialise capabilityId =>
    rw [after]
    cases found : manager.initialise now capabilityId with
    | error failure => exact supported
    | ok target => exact supported.initialised found (free capabilityId rfl)
  | start capabilityId =>
    rw [after]
    cases found : manager.start now capabilityId with
    | error failure => exact supported
    | ok started => exact supported.started found
  | stop capabilityId =>
    rw [after]
    cases found : manager.stop now capabilityId with
    | error failure => exact supported
    | ok stopped =>
      obtain ⟨_, rfl⟩ := stop_eq_ok_iff.mp found
      exact supported.stopped (free capabilityId rfl)
  | restart capabilityId =>
    rw [after, restart]
    cases found : manager.stop now capabilityId with
    | error failure => exact supported
    | ok stopped =>
      obtain ⟨_, rfl⟩ := stop_eq_ok_iff.mp found
      have kept : Supported (manager.write capabilityId (Capability.stop now) _) :=
        supported.stopped (free capabilityId rfl)
      dsimp only
      cases again : CapabilityManager.start now capabilityId _ with
      | error failure => exact kept
      | ok started => exact kept.started again

/-- Only withdrawing what something depends on can leave a capability running
without it. -/
theorem supported_of_careful_run {manager target : CapabilityManager} {labels : List (Int × Call)}
    (run : Run Careful manager labels target) (supported : manager.Supported) :
    target.Supported :=
  run.invariant (fun supported careful => careful.supported supported) supported

/-- Home Assistant depends on MQTT and DNS, and MQTT on DNS. -/
def homeManager : CapabilityManager where
  rows :=
    [⟨"home_assistant".toList, ["mqtt".toList, "dns".toList], .registered, .unknown, 0⟩,
      ⟨"mqtt".toList, ["dns".toList], .registered, .unknown, 0⟩,
      ⟨"dns".toList, [], .registered, .unknown, 0⟩]
  distinct := by decide

theorem homeManager_order : homeManager.dependencyOrder =
    .ok ["dns".toList, "mqtt".toList, "home_assistant".toList] := by
  decide

/-- DNS and MQTT started, one after the other. -/
def mqttStarted : CapabilityManager :=
  (homeManager.after 1 (.start "dns".toList)).after 2 (.start "mqtt".toList)

/-- Everything started. -/
def homeStarted : CapabilityManager :=
  mqttStarted.after 3 (.start "home_assistant".toList)

theorem homeStarted_order : homeStarted.dependencyOrder =
    .ok ["dns".toList, "mqtt".toList, "home_assistant".toList] := by
  decide

/-- Everything starts, and of everything started Home Assistant and MQTT stop. -/
theorem homeManager_lifecycle :
    (∃ started, startAll (fun _ => 0) ["dns".toList, "mqtt".toList, "home_assistant".toList]
      homeManager = .ok started ∧ started.Supported) ∧
    homeStarted.Running "home_assistant".toList ∧ homeStarted.Running "mqtt".toList ∧
    ∃ stopped, stopAll (fun _ => 4) ["home_assistant".toList, "mqtt".toList] homeStarted =
        .ok stopped ∧ stopped.Supported ∧ ¬ stopped.Running "mqtt".toList := by
  obtain ⟨⟨started, done, _, supported, _⟩, _⟩ :=
    lifecycle_in_dependency_order (fun _ => 0) homeManager_order
  obtain ⟨_, stops⟩ := lifecycle_in_dependency_order (fun _ => 4) homeStarted_order
  obtain ⟨stopped, ended, _, supports, silent⟩ := stops (by decide)
    ["home_assistant".toList, "mqtt".toList] ["dns".toList] (by decide)
  exact ⟨⟨started, done, supported⟩, by decide, by decide, stopped, ended, supports,
    silent _ (by decide)⟩

/-- DNS and MQTT start, and MQTT stops while Home Assistant, which depends on it, does
not run. -/
theorem homeManager_run :
    mqttStarted.Running "mqtt".toList ∧ mqttStarted.Running "dns".toList ∧
      (mqttStarted.after 3 (.stop "mqtt".toList)).Running "dns".toList ∧
      ¬ (mqttStarted.after 3 (.stop "mqtt".toList)).Running "mqtt".toList ∧
      (mqttStarted.after 3 (.stop "mqtt".toList)).Supported := by
  have run : Run Careful homeManager
      [(1, .start "dns".toList), (2, .start "mqtt".toList), (3, .stop "mqtt".toList)]
      (mqttStarted.after 3 (.stop "mqtt".toList)) :=
    .cons (careful_after (by decide)) (.cons (careful_after (by decide))
      (.single (careful_after (by decide))))
  exact ⟨by decide, by decide, by decide, by decide, supported_of_careful_run run (by decide)⟩

end CapabilityManager

end OhanaAgent.Runtime
