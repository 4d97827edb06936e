import Mathlib.Data.List.Dedup
import Mathlib.Data.List.MinMax
import Mathlib.Data.List.Sort
import OhanaAgent.Encoding.Lines
import OhanaAgent.Privacy.SessionPaths
import OhanaAgent.Store.Table
import OhanaAgent.Time.Zone

/-!
# The summary for the home automation

The publisher keeps the latest observation of each capability and folds them three
ways: by device, with the impact of each service on its parent; by logical service,
with the redundancy of its instances; and over the observations themselves.
-/

namespace OhanaAgent.Plugins.HealthSummary

open OhanaAgent.Encoding
open OhanaAgent.Encoding.Json (Text Fields Value)
open OhanaAgent.Privacy (isWhitespace)
open OhanaAgent.Store
open OhanaAgent.Time

/-! ## Infrastructure and observations -/

/-- The fields of a `ServiceConfig` that the summary reads. -/
structure Service where
  id : Text
  name : Text
  type : Text
  node : Text
  enabled : Bool
  critical : Bool
  metadata : Fields
  deriving DecidableEq

/-- The fields of a `TopologyDeviceConfig` that the summary reads. -/
structure Device where
  id : Text
  label : Text
  node : Option Text
  deriving DecidableEq

/-- An infrastructure as the validator accepts it, with its topology. -/
structure Infrastructure where
  services : List Service
  topology : Option (List Device)
  services_distinct : (services.map Service.id).Nodup
  devices_distinct : ∀ devices, topology = some devices → (devices.map Device.id).Nodup
  nodes_distinct : ∀ devices, topology = some devices → (devices.filterMap Device.node).Nodup

/-- The fields of an `Observation` that the summary reads. -/
structure Observation where
  node : Text
  service : Text
  capability : Text
  status : Text
  message : Text
  timestamp : Int
  deriving DecidableEq

/-- The key of the latest observations. -/
def Observation.key (observation : Observation) : Text × Text × Text :=
  (observation.node, observation.service, observation.capability)

abbrev Observations : Type := Table Observation Observation.key

/-! ## Statuses -/

inductive Status where
  | healthy
  | unknown
  | degraded
  | unhealthy
  deriving DecidableEq

/-- `_STATUS_PRIORITY`. -/
def Status.priority : Status → Nat
  | .healthy => 0
  | .unknown => 1
  | .degraded => 2
  | .unhealthy => 3

/-- `_normalize_status`; no text outside ASCII has one of these lower cases. -/
def normalizeStatus (status : Text) : Status :=
  let normalized := status.map Char.toLower
  if normalized = "unhealthy".toList ∨ normalized = "unavailable".toList then .unhealthy
  else if normalized = "degraded".toList ∨ normalized = "stale".toList then .degraded
  else if normalized = "healthy".toList then .healthy
  else .unknown

/-- `_most_severe`. -/
def mostSevere (statuses : List Status) : Status :=
  (statuses.argmax Status.priority).getD .unknown

/-- `_redundant_service_status`. -/
def redundantServiceStatus (statuses : List Status) : Status :=
  match statuses.dedup with
  | [status] => status
  | _ => .degraded

/-- `_service_parent_impact`. -/
def serviceParentImpact (status : Status) (critical : Bool) (logicalStatus : Status) : Status :=
  match status with
  | .unhealthy =>
      if logicalStatus = .degraded then .degraded
      else if critical then .unhealthy else .degraded
  | .degraded => .degraded
  | .unknown => if critical then .degraded else .unknown
  | .healthy => .healthy

/-! ## The three aggregations -/

inductive LogicalKey where
  | availabilityGroup (name : Text)
  | service (node id : Text)
  deriving DecidableEq

namespace Infrastructure

variable (infrastructure : Infrastructure) (observations : List Observation)

/-- The services that are enabled. -/
def enabledServices : List Service :=
  infrastructure.services.filter Service.enabled

/-- `_logical_service_key`. -/
def logicalServiceKey (service : Service) : LogicalKey :=
  let byDefault :=
    if service.type = "dns".toList ∧
        1 < (infrastructure.services.filter fun candidate =>
          candidate.enabled ∧ candidate.type = "dns".toList).length then
      .availabilityGroup "dns".toList
    else .service service.node service.id
  match service.metadata.lookup "availability_group".toList with
  | some (.string name) =>
      if trim isWhitespace name ≠ [] then .availabilityGroup (trim isWhitespace name) else byDefault
  | _ => byDefault

/-- The statuses that were observed for a service. -/
def observedStatuses (node id : Text) : List Status :=
  (observations.filter fun observation =>
    observation.node = node ∧ observation.service = id).map fun observation =>
      normalizeStatus observation.status

/-- `_service_statuses`, at the key of a service; a service without observations
has none. -/
def serviceStatus (service : Service) : Option Status :=
  match observedStatuses observations service.node service.id with
  | [] => none
  | status :: statuses => some (mostSevere (status :: statuses))

/-- The statuses of the instances of a logical service. -/
def instanceStatuses (key : LogicalKey) : List Status :=
  (infrastructure.enabledServices.filter fun service =>
    infrastructure.logicalServiceKey service = key).filterMap (serviceStatus observations)

/-- `_logical_service_statuses`, at a key. -/
def logicalServiceStatus (key : LogicalKey) : Option Status :=
  match infrastructure.instanceStatuses observations key with
  | [] => none
  | status :: statuses =>
      match key with
      | .availabilityGroup _ => some (redundantServiceStatus (status :: statuses))
      | .service _ _ => some (mostSevere (status :: statuses))

/-- The logical services with a status. -/
def logicalKeys : List LogicalKey :=
  ((infrastructure.enabledServices.filter fun service =>
    (serviceStatus observations service).isSome).map infrastructure.logicalServiceKey).dedup

/-- The impacts of the services of a node. -/
def impacts (node : Text) : List Status :=
  (infrastructure.enabledServices.filter fun service => service.node = node).filterMap fun service =>
    (serviceStatus observations service).map fun status =>
      serviceParentImpact status service.critical
        ((infrastructure.logicalServiceStatus observations
          (infrastructure.logicalServiceKey service)).getD status)

/-- `_device_statuses`, in the order of the devices. -/
def deviceStatuses : List Status :=
  match infrastructure.topology with
  | none => []
  | some devices => (devices.filterMap Device.node).map fun node =>
      mostSevere (infrastructure.impacts observations node)

/-- The services that are enabled and critical. -/
def criticalServices : List Service :=
  infrastructure.enabledServices.filter Service.critical

/-- `critical_incidents`. -/
def criticalIncidents : Nat :=
  (((infrastructure.criticalServices.map infrastructure.logicalServiceKey).dedup).filter fun key =>
    infrastructure.logicalServiceStatus observations key = some .unhealthy).length

/-- The instances of critical services that are out of service. -/
def criticalServiceInstances : List Service :=
  infrastructure.criticalServices.filter fun service =>
    infrastructure.logicalServiceStatus observations (infrastructure.logicalServiceKey service) =
      some .unhealthy

/-- `_first_critical_observation`. -/
def firstCriticalObservation : Option Observation :=
  (observations.filter fun observation =>
    ((infrastructure.criticalServiceInstances observations).any fun service =>
      observation.node = service.node ∧ observation.service = service.id) ∧
    normalizeStatus observation.status = .unhealthy).maxOn? Observation.timestamp

/-- `_device_label_for_node`. -/
def deviceLabelForNode (node : Text) : Text :=
  match infrastructure.topology with
  | none => node
  | some devices =>
      match devices.find? fun device => device.node = some node with
      | some device => device.label
      | none => node

/-- The label in an alert; an empty one is replaced by the node. -/
def equipmentOf (node : Text) : Text :=
  if infrastructure.deviceLabelForNode node = [] then node
  else infrastructure.deviceLabelForNode node

end Infrastructure

/-! ## The summary -/

inductive SummaryState where
  | critical
  | degraded
  | healthy
  | unavailable
  deriving DecidableEq

/-- `MQTTHomeAssistantAlert`. -/
structure Alert where
  equipment : Text
  node : Text
  service : Text
  serviceName : Text
  capability : Text
  status : Status
  deriving DecidableEq

/-- `MQTTHomeAssistantHealthSummary`; the score is the share of healthy devices among
the known ones, before it is rounded. -/
structure Summary where
  score : Option (Nat × Nat)
  state : SummaryState
  activeAlerts : Nat
  criticalIncidents : Nat
  healthyServices : Nat
  degradedServices : Nat
  unavailableServices : Nat
  staleCapabilities : Nat
  updatedAt : Text
  criticalService : Option Text
  criticalEquipment : Option Text
  criticalCapability : Option Text
  criticalMessage : Option Text
  affectedEquipment : List Text
  affectedCapabilities : List Text
  alerts : List Alert
  deriving DecidableEq

/-- `str.casefold`, the clock and the heartbeat of the publisher. -/
structure Publisher where
  casefold : Text → Text
  now : Int
  heartbeatSeconds : Int

namespace Publisher

variable (publisher : Publisher)

/-- `_is_stale`. -/
def isStale (observation : Observation) : Bool :=
  max (publisher.heartbeatSeconds * 3) 180 * second < publisher.now - observation.timestamp

/-- Texts in the order of their case folded forms. -/
def sorted (texts : List Text) : List Text :=
  texts.dedup.mergeSort fun first second =>
    decide (publisher.casefold first ≤ publisher.casefold second)

/-- The order of the alerts. -/
def alertLE (first second : Alert) : Bool :=
  let key (alert : Alert) := [publisher.casefold alert.equipment,
    publisher.casefold alert.service, publisher.casefold alert.capability]
  decide (second.status.priority < first.status.priority) ||
    decide (first.status = second.status) && !decide (key second < key first)

/-- `_active_alert_details`. -/
def activeAlertDetails (infrastructure : Infrastructure) (observations : List Observation) :
    List Alert :=
  ((observations.filter fun observation =>
    normalizeStatus observation.status = .degraded ∨
      normalizeStatus observation.status = .unhealthy).map fun observation =>
    { equipment := infrastructure.equipmentOf observation.node
      node := observation.node
      service := observation.service
      serviceName := ((infrastructure.services.find? fun service =>
        service.node = observation.node ∧ service.id = observation.service).map
          Service.name).getD observation.service
      capability := observation.capability
      status := normalizeStatus observation.status }).mergeSort publisher.alertLE

/-- The state of the summary, from the devices with a known status. -/
def summaryState (statuses : List Status) : SummaryState :=
  if .unhealthy ∈ statuses then .critical
  else if .degraded ∈ statuses then .degraded
  else if .healthy ∈ statuses then .healthy
  else .unavailable

/-- `build_summary`. -/
def buildSummary (infrastructure : Infrastructure) (latest : Observations) : Summary :=
  let observations := latest.rows
  let known := (infrastructure.deviceStatuses observations).filter (· ≠ .unknown)
  let logical := (infrastructure.logicalKeys observations).map
    (infrastructure.logicalServiceStatus observations)
  let criticalObservation := infrastructure.firstCriticalObservation observations
  let alerts := publisher.activeAlertDetails infrastructure observations
  { score := if known = [] then none else some (known.count .healthy, known.length)
    state := summaryState known
    activeAlerts := observations.countP fun observation =>
      normalizeStatus observation.status = .degraded ∨
        normalizeStatus observation.status = .unhealthy
    criticalIncidents := infrastructure.criticalIncidents observations
    healthyServices := logical.count (some .healthy)
    degradedServices := logical.count (some .degraded)
    unavailableServices := logical.count (some .unhealthy)
    staleCapabilities := observations.countP publisher.isStale
    updatedAt := isoText 0 publisher.now
    criticalService := criticalObservation.map Observation.service
    criticalEquipment := criticalObservation.map fun observation =>
      infrastructure.deviceLabelForNode observation.node
    criticalCapability := criticalObservation.map Observation.capability
    criticalMessage := criticalObservation.map Observation.message
    affectedEquipment := publisher.sorted (alerts.map Alert.equipment)
    affectedCapabilities := publisher.sorted (alerts.map Alert.capability)
    alerts }

end Publisher

/-! ## Severities -/

theorem Status.eq_unhealthy_of_priority {status : Status}
    (most : Status.unhealthy.priority ≤ status.priority) : status = .unhealthy := by
  cases status with
  | unhealthy => rfl
  | healthy => contradiction
  | unknown => contradiction
  | degraded => contradiction

/-- The worst status shows as soon as one status is the worst. -/
theorem mostSevere_eq_unhealthy_iff {statuses : List Status} :
    mostSevere statuses = .unhealthy ↔ .unhealthy ∈ statuses := by
  unfold mostSevere
  cases worst : statuses.argmax Status.priority with
  | none => simp [List.argmax_eq_none.mp worst]
  | some status =>
      rw [Option.getD_some]
      constructor
      · rintro rfl
        exact List.argmax_mem worst
      · intro inside
        exact Status.eq_unhealthy_of_priority (List.le_of_mem_argmax inside worst)

/-- A redundant service is out of service when all of its instances are. -/
theorem redundantServiceStatus_eq_unhealthy_iff {statuses : List Status} (some_ : statuses ≠ []) :
    redundantServiceStatus statuses = .unhealthy ↔ ∀ status ∈ statuses, status = .unhealthy := by
  unfold redundantServiceStatus
  constructor
  · intro unhealthy status inside
    split at unhealthy
    · rename_i only single
      have member : status ∈ statuses.dedup := List.mem_dedup.mpr inside
      rw [single, List.mem_singleton] at member
      exact member.trans unhealthy
    · contradiction
  · intro all
    have single : statuses.dedup = [.unhealthy] := by
      cases statuses with
      | nil => contradiction
      | cons first rest =>
          have same : first :: rest = List.replicate (rest.length + 1) .unhealthy := by
            rw [List.eq_replicate_iff]
            exact ⟨rfl, all⟩
          rw [same, List.replicate_dedup (Nat.succ_ne_zero _)]
    rw [single]

/-- With one instance out of service, a redundant service is out of service or
degraded. -/
theorem redundantServiceStatus_of_mem {statuses : List Status} (inside : .unhealthy ∈ statuses) :
    redundantServiceStatus statuses = .unhealthy ∨ redundantServiceStatus statuses = .degraded := by
  unfold redundantServiceStatus
  split
  · rename_i only single
    have member : .unhealthy ∈ statuses.dedup := List.mem_dedup.mpr inside
    rw [single, List.mem_singleton] at member
    exact Or.inl member.symm
  · exact Or.inr rfl

/-! ## Services in the observations -/

/-- The service has an observation. -/
def Observed (observations : List Observation) (service : Service) : Prop :=
  ∃ observation ∈ observations, observation.node = service.node ∧
    observation.service = service.id

/-- The service has an observation that it does not work. -/
def Failing (observations : List Observation) (service : Service) : Prop :=
  ∃ observation ∈ observations, (observation.node = service.node ∧
    observation.service = service.id) ∧ normalizeStatus observation.status = .unhealthy

variable {infrastructure : Infrastructure} {observations : List Observation} {service : Service}

theorem Failing.observed (failing : Failing observations service) :
    Observed observations service := by
  rcases failing with ⟨observation, inside, same, _⟩
  exact ⟨observation, inside, same⟩

open Infrastructure

theorem mem_observedStatuses {status : Status} :
    status ∈ observedStatuses observations service.node service.id ↔
      ∃ observation ∈ observations, (observation.node = service.node ∧
        observation.service = service.id) ∧ normalizeStatus observation.status = status := by
  simp [observedStatuses, and_assoc]

theorem serviceStatus_eq_none_iff :
    serviceStatus observations service = none ↔ ¬ Observed observations service := by
  have empty : observedStatuses observations service.node service.id = [] ↔
      ¬ Observed observations service := by
    simp [observedStatuses, Observed]
  rw [← empty]
  unfold serviceStatus
  split <;> simp_all

theorem serviceStatus_eq_unhealthy_iff :
    serviceStatus observations service = some .unhealthy ↔ Failing observations service := by
  unfold Failing
  rw [← mem_observedStatuses, ← mostSevere_eq_unhealthy_iff]
  unfold serviceStatus
  split
  · rename_i empty
    simp [empty, mostSevere]
  · rename_i first rest found
    rw [found, Option.some.injEq]

/-- The instances of a logical service. -/
def Instance (infrastructure : Infrastructure) (key : LogicalKey) (service : Service) : Prop :=
  service ∈ infrastructure.enabledServices ∧ infrastructure.logicalServiceKey service = key

/-- Some instance of the logical service was observed, and every one that was does
not work. -/
def Down (infrastructure : Infrastructure) (observations : List Observation)
    (key : LogicalKey) : Prop :=
  (∃ service, Instance infrastructure key service ∧ Observed observations service) ∧
    ∀ service, Instance infrastructure key service → Observed observations service →
      Failing observations service

theorem mem_instanceStatuses {key : LogicalKey} {status : Status} :
    status ∈ infrastructure.instanceStatuses observations key ↔
      ∃ service, Instance infrastructure key service ∧
        serviceStatus observations service = some status := by
  simp [instanceStatuses, Instance]

theorem instanceStatuses_eq_nil_iff {key : LogicalKey} :
    infrastructure.instanceStatuses observations key = [] ↔
      ∀ service, Instance infrastructure key service → ¬ Observed observations service := by
  rw [List.eq_nil_iff_forall_not_mem]
  constructor
  · intro none service inside
    rw [← serviceStatus_eq_none_iff]
    cases found : serviceStatus observations service with
    | none => rfl
    | some status => exact absurd (mem_instanceStatuses.mpr ⟨service, inside, found⟩) (none status)
  · intro unobserved status inside
    rcases mem_instanceStatuses.mp inside with ⟨service, isInstance, found⟩
    rw [serviceStatus_eq_none_iff.mpr (unobserved service isInstance)] at found
    cases found

/-- All the observed instances fail, as their statuses say. -/
theorem forall_instanceStatuses_iff {key : LogicalKey} :
    (∀ status ∈ infrastructure.instanceStatuses observations key, status = .unhealthy) ↔
      ∀ service, Instance infrastructure key service → Observed observations service →
        Failing observations service := by
  constructor
  · intro all service isInstance observed
    rw [← serviceStatus_eq_unhealthy_iff]
    cases found : serviceStatus observations service with
    | none => exact absurd observed (serviceStatus_eq_none_iff.mp found)
    | some status => rw [all status (mem_instanceStatuses.mpr ⟨service, isInstance, found⟩)]
  · intro failing status inside
    rcases mem_instanceStatuses.mp inside with ⟨service, isInstance, found⟩
    have observed : Observed observations service := by
      by_contra unobserved
      rw [serviceStatus_eq_none_iff.mpr unobserved] at found
      cases found
    rw [serviceStatus_eq_unhealthy_iff.mpr (failing service isInstance observed)] at found
    exact (Option.some.inj found).symm

/-- A logical service that is no group is the only instance of itself. -/
theorem instance_service {node id : Text} (isInstance : Instance infrastructure (.service node id)
    service) : service.id = id := by
  have key := isInstance.2
  unfold logicalServiceKey at key
  simp only at key
  split at key
  · split at key
    · contradiction
    · split at key
      · contradiction
      · cases key
        rfl
  · split at key
    · contradiction
    · cases key
      rfl

theorem instance_unique {node id : Text} {first second : Service}
    (left : Instance infrastructure (.service node id) first)
    (right : Instance infrastructure (.service node id) second) : first = second :=
  List.inj_on_of_nodup_map infrastructure.services_distinct (List.mem_filter.mp left.1).1
    (List.mem_filter.mp right.1).1 ((instance_service left).trans (instance_service right).symm)

/-- A logical service is out of service when it is down. -/
theorem logicalServiceStatus_eq_unhealthy_iff {key : LogicalKey} :
    infrastructure.logicalServiceStatus observations key = some .unhealthy ↔
      Down infrastructure observations key := by
  have known : infrastructure.instanceStatuses observations key ≠ [] ↔
      ∃ service, Instance infrastructure key service ∧ Observed observations service := by
    rw [Ne, instanceStatuses_eq_nil_iff]
    simp
  unfold Down
  rw [← known, ← forall_instanceStatuses_iff]
  unfold logicalServiceStatus
  cases statuses : infrastructure.instanceStatuses observations key with
  | nil => simp
  | cons status rest =>
      simp only [ne_eq, reduceCtorEq, not_false_eq_true, true_and]
      cases key with
      | availabilityGroup name =>
          rw [Option.some.injEq]
          exact redundantServiceStatus_eq_unhealthy_iff (List.cons_ne_nil _ _)
      | service node id =>
          rw [Option.some.injEq, mostSevere_eq_unhealthy_iff, ← statuses]
          constructor
          · intro inside other otherInside
            rcases mem_instanceStatuses.mp inside with ⟨first, firstInstance, firstStatus⟩
            rcases mem_instanceStatuses.mp otherInside with ⟨second, secondInstance, secondStatus⟩
            rw [instance_unique secondInstance firstInstance, firstStatus] at secondStatus
            exact (Option.some.inj secondStatus).symm
          · intro all
            have first : status ∈ infrastructure.instanceStatuses observations (.service node id) := by
              rw [statuses]
              exact List.mem_cons_self
            exact all status first ▸ first

/-- A service that fails takes its logical service down, or degrades it. -/
theorem logicalServiceStatus_of_failing {key : LogicalKey}
    (isInstance : Instance infrastructure key service) (failing : Failing observations service) :
    infrastructure.logicalServiceStatus observations key = some .unhealthy ∨
      infrastructure.logicalServiceStatus observations key = some .degraded := by
  have inside : .unhealthy ∈ infrastructure.instanceStatuses observations key :=
    mem_instanceStatuses.mpr ⟨service, isInstance, serviceStatus_eq_unhealthy_iff.mpr failing⟩
  unfold logicalServiceStatus
  cases statuses : infrastructure.instanceStatuses observations key with
  | nil =>
      rw [statuses] at inside
      cases inside
  | cons status rest =>
      rw [statuses] at inside
      cases key with
      | availabilityGroup name =>
          simp only [Option.some.injEq]
          exact redundantServiceStatus_of_mem inside
      | service node id => exact Or.inl (congrArg some (mostSevere_eq_unhealthy_iff.mpr inside))

/-! ## The three fields -/

/-- Every node with an enabled service is carried by a device of the topology. -/
def Carried (infrastructure : Infrastructure) : Prop :=
  ∀ service ∈ infrastructure.enabledServices, ∃ devices, infrastructure.topology = some devices ∧
    service.node ∈ devices.filterMap Device.node

/-- A critical service whose logical service is down. -/
def CriticalDown (infrastructure : Infrastructure) (observations : List Observation)
    (service : Service) : Prop :=
  service ∈ infrastructure.criticalServices ∧
    Down infrastructure observations (infrastructure.logicalServiceKey service)

theorem mem_criticalServices : service ∈ infrastructure.criticalServices ↔
    service ∈ infrastructure.enabledServices ∧ service.critical = true := by
  unfold criticalServices
  rw [List.mem_filter]

/-- An observed instance of a service that is down does not work. -/
theorem CriticalDown.failing (down : CriticalDown infrastructure observations service)
    (observed : Observed observations service) : Failing observations service :=
  down.2.2 service ⟨(mem_criticalServices.mp down.1).1, rfl⟩ observed

/-- The count of incidents. -/
theorem criticalIncidents_pos_iff :
    0 < infrastructure.criticalIncidents observations ↔
      ∃ service, CriticalDown infrastructure observations service := by
  unfold criticalIncidents CriticalDown
  rw [List.length_pos_iff_exists_mem]
  constructor
  · rintro ⟨key, inside⟩
    rw [List.mem_filter, List.mem_dedup, List.mem_map] at inside
    rcases inside with ⟨⟨service, member, rfl⟩, unhealthy⟩
    exact ⟨service, member, logicalServiceStatus_eq_unhealthy_iff.mp (of_decide_eq_true unhealthy)⟩
  · rintro ⟨service, member, down⟩
    use infrastructure.logicalServiceKey service
    rw [List.mem_filter, List.mem_dedup, List.mem_map]
    exact ⟨⟨service, member, rfl⟩,
      decide_eq_true (logicalServiceStatus_eq_unhealthy_iff.mpr down)⟩

/-- The observation that the summary names. -/
theorem firstCriticalObservation_isSome_iff :
    (infrastructure.firstCriticalObservation observations).isSome ↔
      ∃ service, CriticalDown infrastructure observations service ∧
        Observed observations service := by
  unfold firstCriticalObservation
  rw [List.isSome_maxOn?_iff, Ne, List.filter_eq_nil_iff]
  constructor
  · intro candidates
    push Not at candidates
    rcases candidates with ⟨observation, inside, candidate⟩
    simp only [List.any_eq_true, decide_eq_true_eq] at candidate
    rcases candidate with ⟨⟨service, isInstance, same⟩, _⟩
    rw [criticalServiceInstances, List.mem_filter, decide_eq_true_eq,
      logicalServiceStatus_eq_unhealthy_iff] at isInstance
    exact ⟨service, isInstance, observation, inside, same⟩
  · rintro ⟨service, down, observed⟩ none
    rcases down.failing observed with ⟨observation, inside, same, unhealthy⟩
    apply none observation inside
    simp only [List.any_eq_true, decide_eq_true_eq]
    refine ⟨⟨service, ?_, same⟩, unhealthy⟩
    rw [criticalServiceInstances, List.mem_filter, decide_eq_true_eq,
      logicalServiceStatus_eq_unhealthy_iff]
    exact down

/-- A service has the worst impact on its node when it is critical, does not work
and no other instance replaces it. -/
theorem serviceParentImpact_eq_unhealthy_iff {status logical : Status} {critical : Bool} :
    serviceParentImpact status critical logical = .unhealthy ↔
      status = .unhealthy ∧ critical = true ∧ logical ≠ .degraded := by
  unfold serviceParentImpact
  cases status with
  | unhealthy => cases logical <;> cases critical <;> simp
  | healthy => simp
  | degraded => simp
  | unknown => cases critical <;> simp

/-- A node has the worst impact from an observed critical service that is down. -/
theorem unhealthy_mem_impacts_iff {node : Text} :
    .unhealthy ∈ infrastructure.impacts observations node ↔
      ∃ service, service.node = node ∧ CriticalDown infrastructure observations service ∧
        Observed observations service := by
  unfold impacts
  simp only [List.mem_filterMap, List.mem_filter, Option.map_eq_some_iff, decide_eq_true_eq,
    serviceParentImpact_eq_unhealthy_iff]
  constructor
  · rintro ⟨service, ⟨enabled, same⟩, status, found, rfl, critical, replaced⟩
    have failing := serviceStatus_eq_unhealthy_iff.mp found
    refine ⟨service, same, ⟨mem_criticalServices.mpr ⟨enabled, critical⟩, ?_⟩, failing.observed⟩
    rw [← logicalServiceStatus_eq_unhealthy_iff]
    rcases logicalServiceStatus_of_failing ⟨enabled, rfl⟩ failing with unhealthy | degraded
    · exact unhealthy
    · rw [degraded] at replaced
      exact absurd rfl replaced
  · rintro ⟨service, same, down, observed⟩
    have member := mem_criticalServices.mp down.1
    refine ⟨service, ⟨member.1, same⟩, .unhealthy,
      serviceStatus_eq_unhealthy_iff.mpr (down.failing observed), rfl, member.2, ?_⟩
    rw [logicalServiceStatus_eq_unhealthy_iff.mpr down.2, Option.getD_some]
    decide

/-- The state of the summary. -/
theorem state_eq_critical_iff (publisher : Publisher) {latest : Observations}
    (carried : Carried infrastructure) :
    (publisher.buildSummary infrastructure latest).state = .critical ↔
      ∃ service, CriticalDown infrastructure latest.rows service ∧
        Observed latest.rows service := by
  have worst : (publisher.buildSummary infrastructure latest).state = .critical ↔
      .unhealthy ∈ infrastructure.deviceStatuses latest.rows := by
    simp only [Publisher.buildSummary, Publisher.summaryState, List.mem_filter]
    split
    · rename_i unhealthy
      simp [unhealthy.1]
    · rename_i healthy
      have absent : .unhealthy ∉ infrastructure.deviceStatuses latest.rows :=
        fun inside => healthy ⟨inside, by decide⟩
      split
      · simp [absent]
      · split <;> simp [absent]
  rw [worst]
  unfold deviceStatuses
  constructor
  · intro inside
    split at inside
    · cases inside
    · rcases List.mem_map.mp inside with ⟨node, _, severe⟩
      rcases unhealthy_mem_impacts_iff.mp (mostSevere_eq_unhealthy_iff.mp severe) with
        ⟨service, _, down, observed⟩
      exact ⟨service, down, observed⟩
  · rintro ⟨service, down, observed⟩
    rcases carried service (mem_criticalServices.mp down.1).1 with ⟨devices, topology, member⟩
    rw [topology]
    refine List.mem_map.mpr ⟨service.node, member, mostSevere_eq_unhealthy_iff.mpr ?_⟩
    exact unhealthy_mem_impacts_iff.mpr ⟨service, rfl, down, observed⟩

/-! ## Agreement -/

/-- The state is critical exactly with a critical incident, and a critical incident
names a service. -/
def Summary.Agrees (summary : Summary) : Prop :=
  (summary.state = .critical ↔ 0 < summary.criticalIncidents) ∧
    (0 < summary.criticalIncidents ↔ summary.criticalService.isSome)

/-- The three fields agree exactly when, as soon as a critical service belongs to a
logical service that is down, one such service was observed itself. -/
theorem summary_agrees_iff (publisher : Publisher) (infrastructure : Infrastructure)
    (latest : Observations) (carried : Carried infrastructure) :
    (publisher.buildSummary infrastructure latest).Agrees ↔
      ((∃ service, CriticalDown infrastructure latest.rows service) →
        ∃ service, CriticalDown infrastructure latest.rows service ∧
          Observed latest.rows service) := by
  have state : (publisher.buildSummary infrastructure latest).state = .critical ↔
      ∃ service, CriticalDown infrastructure latest.rows service ∧
        Observed latest.rows service := state_eq_critical_iff publisher carried
  have incidents : 0 < (publisher.buildSummary infrastructure latest).criticalIncidents ↔
      ∃ service, CriticalDown infrastructure latest.rows service := criticalIncidents_pos_iff
  have named : (publisher.buildSummary infrastructure latest).criticalService.isSome ↔
      ∃ service, CriticalDown infrastructure latest.rows service ∧
        Observed latest.rows service := by
    rw [← firstCriticalObservation_isSome_iff]
    show ((infrastructure.firstCriticalObservation latest.rows).map Observation.service).isSome ↔ _
    rw [Option.isSome_map]
  unfold Summary.Agrees
  rw [state, incidents, named]
  constructor
  · rintro ⟨_, seen⟩
    exact seen.mp
  · intro seen
    have back : (∃ service, CriticalDown infrastructure latest.rows service ∧
        Observed latest.rows service) → ∃ service, CriticalDown infrastructure latest.rows service :=
      fun ⟨service, down, _⟩ => ⟨service, down⟩
    exact ⟨⟨back, seen⟩, ⟨seen, back⟩⟩

/-! ## A critical instance without observations -/

/-- An instance of the name resolution. -/
def dnsInstance (id node : String) (critical : Bool) : Service where
  id := id.toList
  name := "DNS".toList
  type := "dns".toList
  node := node.toList
  enabled := true
  critical
  metadata := .ofList [("availability_group".toList, .string "dns".toList)]

/-- A critical resolver and another one that is not. -/
def resolvers : Infrastructure where
  services := [dnsInstance "dns-primary" "infra-01" true,
    dnsInstance "dns-secondary" "linky-01" false]
  topology := some [⟨"device-infra".toList, "INFRA-01".toList, some "infra-01".toList⟩,
    ⟨"device-linky".toList, "LINKY-01".toList, some "linky-01".toList⟩]
  services_distinct := by decide
  devices_distinct := by
    rintro devices ⟨⟩
    decide
  nodes_distinct := by
    rintro devices ⟨⟩
    decide

theorem carried_resolvers : Carried resolvers := by
  have carried : ∀ service ∈ resolvers.enabledServices,
      service.node ∈ (resolvers.topology.getD []).filterMap Device.node := by
    decide +kernel
  exact fun service inside => ⟨_, rfl, carried service inside⟩

/-- A resolution of names that fails. -/
def failure (service node : String) : Observation where
  node := node.toList
  service := service.toList
  capability := "dns.resolve".toList
  status := "unhealthy".toList
  message := "timeout".toList
  timestamp := 0

def minutely : Publisher := ⟨id, minute, 60⟩

/-- Only the resolver that is not critical was observed. -/
def secondaryFails : Observations :=
  ⟨[failure "dns-secondary" "linky-01"], List.nodup_singleton _⟩

def bothFail : Observations :=
  ⟨[failure "dns-secondary" "linky-01", failure "dns-primary" "infra-01"], by decide +kernel⟩

/-- With an observation of the critical resolver the fields agree. -/
theorem bothFail_agrees : (minutely.buildSummary resolvers bothFail).Agrees := by
  apply (summary_agrees_iff minutely resolvers bothFail carried_resolvers).mpr
  intro _
  rw [← firstCriticalObservation_isSome_iff]
  decide +kernel

/-- One critical incident, in a summary that is degraded and names no service. -/
theorem secondaryFails_disagrees :
    Carried resolvers ∧
    (minutely.buildSummary resolvers secondaryFails).state = .degraded ∧
    (minutely.buildSummary resolvers secondaryFails).criticalIncidents = 1 ∧
    (minutely.buildSummary resolvers secondaryFails).criticalService = none := by
  refine ⟨carried_resolvers, ?_⟩
  decide +kernel

end OhanaAgent.Plugins.HealthSummary
