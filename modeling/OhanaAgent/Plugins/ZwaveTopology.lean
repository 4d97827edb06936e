import OhanaAgent.Encoding.JsonRoundTrip
import OhanaAgent.Plugins.ZwaveDiscovery

/-!
# The topology after a Z-Wave discovery

A discovery replaces the devices and links it manages and leaves the rest of the
topology as it is, also the links and the layouts that name a device it removes.
The validator of the infrastructure accepts the result exactly when what is
generated neither repeats nor collides with anything, and nothing else names a
removed device.
-/

namespace OhanaAgent.Plugins

open OhanaAgent.Encoding
open OhanaAgent.Encoding.Json
open OhanaAgent.Privacy

/-! ## Documents of nodes -/

/-- What `int()` makes of a value: a number, a `TypeError` or a `ValueError`, or an
`OverflowError`. -/
inductive IntResult where
  | value (number : Int)
  | refused
  | overflow

/-- `int()`, `bool()`, and `str()` of what is not a text. -/
structure Builtins where
  int : Value → IntResult
  bool : Value → Bool
  str : Value → Text

/-- `_valid_nodes` before the sort: the documents with a positive identifier.  An
`OverflowError` is not caught. -/
def validCandidates (builtins : Builtins) : Items → Option (List (Int × Fields))
  | .nil => some []
  | .cons (.object document) rest =>
      match (document.lookup "node_id".toList).getD (.atom .null) with
      | .atom .true => validCandidates builtins rest
      | .atom .false => validCandidates builtins rest
      | nodeId =>
          match builtins.int nodeId with
          | .overflow => none
          | .refused => validCandidates builtins rest
          | .value number =>
              if number ≤ 0 then validCandidates builtins rest
              else (validCandidates builtins rest).map ((number, document) :: ·)
  | .cons _ rest => validCandidates builtins rest

/-- `_valid_nodes`. -/
def validDocuments (builtins : Builtins) (nodes : Option Value) : Option (List (Int × Fields)) :=
  match nodes with
  | some (.array items) => (validCandidates builtins items).map fun documents =>
      documents.insertionSort fun first second => first.1 ≤ second.1
  | _ => some []

/-- `_optional_text` of any value. -/
def Builtins.optionalText (builtins : Builtins) (value : Option Value) : Option Text :=
  match value with
  | none => none
  | some (.atom .null) => none
  | some (.string text) => Plugins.optionalText (some text)
  | some value => Plugins.optionalText (some (builtins.str value))

/-- `_node_label` of a document. -/
def documentLabel (number : Int) (document : Fields) : Text :=
  let label (key : String) : Option Text :=
    match document.lookup key.toList with
    | some (.string text) => Plugins.optionalText (some text)
    | _ => none
  match (label "name").or (label "label") with
  | some label => label
  | none => "Z-Wave ".toList ++ (toString number).toList

/-- A value of the metadata; `None` is left out. -/
def plainValue : Option Value → Option (Plain Value)
  | none => none
  | some (.atom .null) => none
  | some (.atom .true) => some (.integer 1)
  | some (.atom .false) => some (.integer 0)
  | some (.string text) => some (.text text)
  | some (.number number) =>
      match number.toInt? with
      | some integer => some (.integer integer)
      | none => some (.other (.number number))
  | some value => some (.other value)

/-- `_topology_device` of a document. -/
def documentDevice (builtins : Builtins) (serviceId : Text) (homeId : Option Text)
    (node : Int × Fields) : Device Value where
  deviceId := deviceId serviceId node.1
  label := documentLabel node.1 node.2
  kind := "zwave_module".toList
  nodeId := none
  address := none
  metadata := (∅ : Metadata Value)
    |> Metadata.put "managed_by" (some (.text managedBy))
    |> Metadata.put "controller_service_id" (some (.text serviceId))
    |> Metadata.put "radio_kind" (some (.text "zwave".toList))
    |> Metadata.put "home_id" (homeId.map .text)
    |> Metadata.put "zwave_node_id" (some (.integer node.1))
    |> Metadata.put "location"
        ((builtins.optionalText (node.2.lookup "location".toList)).map .text)
    |> Metadata.put "manufacturer"
        ((builtins.optionalText (node.2.lookup "manufacturer".toList)).map .text)
    |> Metadata.put "product_id" (plainValue (node.2.lookup "product_id".toList))
    |> Metadata.put "product_type" (plainValue (node.2.lookup "product_type".toList))
    |> Metadata.put "firmware_version"
        ((builtins.optionalText (node.2.lookup "firmware_version".toList)).map .text)
    |> Metadata.put "can_sleep" (some (.integer
        (if builtins.bool ((node.2.lookup "can_sleep".toList).getD (.atom .false)) then 1 else 0)))

/-! ## Replacing what is managed -/

section Renewal

universe u

variable {α : Type u} [DecidableEq α]

/-- The link of a device to its gateway. -/
def gatewayLink (serviceId gatewayDeviceId : Text) (number : Int) : Link α where
  linkId := gatewayDeviceId ++ '-' :: deviceId serviceId number
  sourceDeviceId := gatewayDeviceId
  targetDeviceId := deviceId serviceId number
  kind := "zwave".toList
  direction := "bidirectional".toList
  label := some "Z-Wave".toList
  bandwidthMbps := .null
  metadata := (∅ : Metadata α)
    |> Metadata.put "managed_by" (some (.text managedBy))
    |> Metadata.put "controller_service_id" (some (.text serviceId))

/-- The devices that the discovery of a controller does not manage. -/
def Topology.freeDevices (topology : Topology α) (serviceId : Text) : List (Device α) :=
  topology.devices.filter fun device => !isManaged serviceId device.metadata

def Topology.freeLinks (topology : Topology α) (serviceId : Text) : List (Link α) :=
  topology.links.filter fun link => !isManaged serviceId link.metadata

/-- The topology of a payload, or the one that is set when it has none. -/
def Payload.topologyOrEmpty (payload : Payload α) : Topology α :=
  payload.topology.getD .empty

/-- The gateway of a controller among the devices that are left. -/
def Payload.freeGateway (payload : Payload α) (serviceId : Text) : Option Text :=
  gatewayDeviceId payload.services (payload.topologyOrEmpty.freeDevices serviceId) serviceId

/-- The payload `_synchronize_topology` computes, from the sorted identifiers and the
devices of the nodes. -/
def Payload.renew (payload : Payload α) (serviceId : Text) (numbers : List Int)
    (found : List (Device α)) : Payload α :=
  let topology := payload.topologyOrEmpty
  let reached := match payload.freeGateway serviceId with
    | some gateway => numbers.map (gatewayLink serviceId gateway)
    | none => []
  { payload with topology := some { topology with
      devices := topology.freeDevices serviceId ++ found
      links := topology.freeLinks serviceId ++ reached } }

/-- Nodes that are already read are renewed in the same way. -/
theorem synchronize_eq_renew (serviceId : Text) (report : Report) (current : Payload α) :
    synchronize serviceId report current =
      current.renew serviceId ((validNodes report.nodes).map Node.nodeId)
        ((validNodes report.nodes).map
          (topologyDevice serviceId (optionalText report.homeId))) := by
  unfold synchronize Payload.renew Payload.freeGateway Payload.topologyOrEmpty
  simp only [Topology.freeDevices, Topology.freeLinks, List.map_map]
  rfl

end Renewal

/-- The payload that a complete discovery computes, unless it raises an error. -/
def synchronizeDocuments (builtins : Builtins) (serviceId : Text) (metadata : Fields)
    (current : Payload Value) : Option (Payload Value) :=
  (validDocuments builtins (metadata.lookup "nodes".toList)).map fun nodes =>
    current.renew serviceId (nodes.map Prod.fst)
      (nodes.map (documentDevice builtins serviceId
        (builtins.optionalText (metadata.lookup "home_id".toList))))

/-- The payload passed to `update_infrastructure`, if any. -/
def updatedPayload (builtins : Builtins) (serviceId : Text) (metadata : Fields)
    (current : Option (Payload Value)) : Option (Payload Value) :=
  current.bind fun current =>
    (synchronizeDocuments builtins serviceId metadata current).filter fun updated =>
      updated ≠ current

/-! ## What the validator checks -/

/-- The keys of a layout. -/
def layoutFields : Plain Value → Fields
  | .other (.object fields) => fields
  | _ => .nil

/-- The entries of a dictionary. -/
def entries : Fields → List (Text × Value)
  | .nil => []
  | .cons key value rest => (key, value) :: entries rest

/-- The positions of a layout, by device. -/
def layoutPositions (layout : Plain Value) : List (Text × Value) :=
  match (layoutFields layout).lookup "positions".toList with
  | some (.object positions) => entries positions
  | _ => []

/-- The column and the row of a position. -/
def gridCell : Value → Option Value × Option Value
  | .object position => (position.lookup "column".toList, position.lookup "row".toList)
  | _ => (none, none)

/-- The checks of the validator that only read what a discovery does not touch:
those of the nodes and the services, of an address, of a reference to a node and of
a monitoring schedule.  A device without a schedule passes. -/
structure Rules where
  basics : List (Service Value) → Metadata Value → Prop
  address : Text → Prop
  node : Metadata Value → Text → Prop
  schedule : Option (Plain Value) → Prop
  schedule_none : schedule none

/-- The checks of the topology in `InfrastructureValidator.validate`. -/
structure AcceptsTopology (rules : Rules) (rest : Metadata Value) (topology : Topology Value) :
    Prop where
  devices_unique : (topology.devices.map Device.deviceId).Nodup
  addresses : ∀ device ∈ topology.devices, ∀ address, device.address = some address →
    rules.address address
  nodes_exist : ∀ device ∈ topology.devices, ∀ node, device.nodeId = some node →
    rules.node rest node
  nodes_unique : (topology.devices.filterMap Device.nodeId).Nodup
  links_unique : (topology.links.map Link.linkId).Nodup
  links_connect : ∀ link ∈ topology.links, link.sourceDeviceId ≠ link.targetDeviceId ∧
    link.sourceDeviceId ∈ topology.devices.map Device.deviceId ∧
    link.targetDeviceId ∈ topology.devices.map Device.deviceId
  layouts_unique : (topology.layouts.map fun layout =>
    (layoutFields layout).lookup "layout_id".toList).Nodup
  layouts_place : ∀ layout ∈ topology.layouts, ∀ position ∈ layoutPositions layout,
    position.1 ∈ topology.devices.map Device.deviceId
  layouts_apart : ∀ layout ∈ topology.layouts,
    ((layoutPositions layout).map fun position => gridCell position.2).Nodup
  schedules : ∀ device ∈ topology.devices,
    rules.schedule (device.metadata.get "monitoring_schedule")

/-- `InfrastructureValidator.validate` raises no error. -/
structure Accepts (rules : Rules) (payload : Payload Value) : Prop where
  basics : rules.basics payload.services payload.rest
  topology : ∀ topology, payload.topology = some topology →
    AcceptsTopology rules payload.rest topology

variable {rules : Rules} {payload : Payload Value}

/-- A payload without a topology is as good as one with an empty topology. -/
theorem Accepts.topologyOrEmpty (accepts : Accepts rules payload) :
    AcceptsTopology rules payload.rest payload.topologyOrEmpty := by
  unfold Payload.topologyOrEmpty
  cases found : payload.topology with
  | some topology => exact accepts.topology topology found
  | none =>
      rw [Option.getD_none]
      constructor <;> simp [Topology.empty]

/-! ## What fits -/

/-- What a discovery generates fits into what it leaves. -/
structure Fits (serviceId : Text) (numbers : List Int) (payload : Payload Value) : Prop where
  /-- No node is reported twice. -/
  distinct : numbers.Nodup
  /-- No device that stays has a generated name. -/
  devices : ∀ number ∈ numbers, ∀ device ∈ payload.topologyOrEmpty.freeDevices serviceId,
    device.deviceId ≠ deviceId serviceId number
  /-- No link that stays has a generated name. -/
  links : ∀ gateway, payload.freeGateway serviceId = some gateway → ∀ number ∈ numbers,
    ∀ link ∈ payload.topologyOrEmpty.freeLinks serviceId,
      link.linkId ≠ gateway ++ '-' :: deviceId serviceId number
  /-- The links that stay connect devices that stay or are reported. -/
  connected : ∀ link ∈ payload.topologyOrEmpty.freeLinks serviceId,
    ∀ name ∈ [link.sourceDeviceId, link.targetDeviceId],
      name ∈ (payload.topologyOrEmpty.freeDevices serviceId).map Device.deviceId ∨
        ∃ number ∈ numbers, name = deviceId serviceId number
  /-- The layouts place devices that stay or are reported. -/
  placed : ∀ layout ∈ payload.topologyOrEmpty.layouts, ∀ position ∈ layoutPositions layout,
    position.1 ∈ (payload.topologyOrEmpty.freeDevices serviceId).map Device.deviceId ∨
      ∃ number ∈ numbers, position.1 = deviceId serviceId number

/-! ## Generated names -/

/-- The text of an integer is its JSON token. -/
theorem toString_toList (number : Int) :
    (toString number).toList = (Number.ofInt number).token := by
  cases number with
  | ofNat n => exact String.toList_ofList
  | negSucc n =>
      show ("-" ++ Nat.repr (n + 1)).toList = '-' :: Nat.toDigits 10 (n + 1)
      rw [String.toList_append, Nat.repr, String.toList_ofList]
      show '-' :: (String.ofList (Nat.toDigits 10 (n + 1))).toList = _
      rw [String.toList_ofList]

theorem deviceId_injective (serviceId : Text) : Function.Injective (deviceId serviceId) := by
  intro first second same
  have texts := List.append_cancel_left same
  rw [toString_toList, toString_toList] at texts
  have numbers : (Number.ofInt first).toInt? = (Number.ofInt second).toInt? := by
    unfold Number.toInt?
    rw [texts]
  rwa [Number.toInt?_ofInt, Number.toInt?_ofInt, Option.some.injEq] at numbers

theorem linkId_injective (serviceId gateway : Text) :
    Function.Injective fun number => gateway ++ '-' :: deviceId serviceId number := by
  intro first second same
  exact deviceId_injective serviceId (List.cons_injective (List.append_cancel_left same))

/-- A list and generated names are distinct when both are, and none is shared. -/
theorem nodup_append_map_iff {κ : Type} {kept : List κ} {numbers : List Int} {name : Int → κ}
    (distinct : kept.Nodup) (injective : Function.Injective name) :
    (kept ++ numbers.map name).Nodup ↔
      numbers.Nodup ∧ ∀ number ∈ numbers, name number ∉ kept := by
  rw [List.nodup_append', List.nodup_map_iff injective]
  constructor
  · rintro ⟨_, numbersDistinct, disjoint⟩
    exact ⟨numbersDistinct, fun number inside kept =>
      disjoint kept (List.mem_map_of_mem inside)⟩
  · rintro ⟨numbersDistinct, apart⟩
    refine ⟨distinct, numbersDistinct, ?_⟩
    intro shared inside generated
    rcases List.mem_map.mp generated with ⟨number, member, rfl⟩
    exact apart number member inside

/-! ## The devices and links of a discovery -/

variable {serviceId : Text} {found : List (Device Value)} {numbers : List Int}

/-- A device as a discovery adds it. -/
structure Generated (serviceId : Text) (number : Int) (device : Device Value) : Prop where
  named : device.deviceId = deviceId serviceId number
  address : device.address = none
  node : device.nodeId = none
  schedule : device.metadata.get "monitoring_schedule" = none
  managed : isManaged serviceId device.metadata = true

theorem generated_documentDevice (builtins : Builtins) (serviceId : Text) (homeId : Option Text)
    (node : Int × Fields) :
    Generated serviceId node.1 (documentDevice builtins serviceId homeId node) := by
  unfold documentDevice
  constructor
  · rfl
  · rfl
  · rfl
  · repeat rw [Metadata.get_put_of_ne (by decide)]
    rfl
  · have manager : (documentDevice builtins serviceId homeId node).metadata.get "managed_by" =
        some (.text managedBy) := by
      unfold documentDevice
      repeat rw [Metadata.get_put_of_ne (by decide)]
      exact Metadata.get_put_self
    have controller : (documentDevice builtins serviceId homeId node).metadata.get
        "controller_service_id" = some (.text serviceId) := by
      unfold documentDevice
      repeat rw [Metadata.get_put_of_ne (by decide)]
      exact Metadata.get_put_self
    rw [isManaged, Bool.and_eq_true, decide_eq_true_eq, decide_eq_true_eq]
    exact ⟨manager, controller⟩

theorem isManaged_gatewayLink (serviceId gateway : Text) (number : Int) :
    isManaged serviceId (gatewayLink serviceId gateway number : Link Value).metadata = true := by
  rw [isManaged, Bool.and_eq_true, decide_eq_true_eq, decide_eq_true_eq]
  unfold gatewayLink
  constructor
  · rw [Metadata.get_put_of_ne (by decide)]
    exact Metadata.get_put_self
  · exact Metadata.get_put_self

/-- The names of generated devices are those of their numbers. -/
theorem names_of_generated (generated : List.Forall₂ (Generated serviceId) numbers found) :
    found.map Device.deviceId = numbers.map (deviceId serviceId) := by
  induction generated with
  | nil => rfl
  | cons head _ inductionHypothesis =>
      rw [List.map_cons, List.map_cons, head.named, inductionHypothesis]

theorem exists_generated (generated : List.Forall₂ (Generated serviceId) numbers found)
    {device : Device Value} (inside : device ∈ found) :
    ∃ number, Generated serviceId number device := by
  induction generated with
  | nil => cases inside
  | cons head _ inductionHypothesis =>
      rcases List.mem_cons.mp inside with rfl | inside
      · exact ⟨_, head⟩
      · exact inductionHypothesis inside

/-- The links to a gateway. -/
def gatewayLinks (serviceId : Text) (gateway : Option Text) (numbers : List Int) :
    List (Link Value) :=
  match gateway with
  | some gateway => numbers.map (gatewayLink serviceId gateway)
  | none => []

/-- A discovery renews a payload. -/
theorem renew_eq (payload : Payload Value) : payload.renew serviceId numbers found =
    { payload with topology := some { payload.topologyOrEmpty with
        devices := payload.topologyOrEmpty.freeDevices serviceId ++ found
        links := payload.topologyOrEmpty.freeLinks serviceId ++
          gatewayLinks serviceId (payload.freeGateway serviceId) numbers } } := by
  unfold Payload.renew gatewayLinks
  cases payload.freeGateway serviceId <;> rfl

/-- The gateway is one of the devices that are left. -/
theorem gateway_mem {services : List (Service Value)} {devices : List (Device Value)}
    {gateway : Text} (chosen : gatewayDeviceId services devices serviceId = some gateway) :
    gateway ∈ devices.map Device.deviceId := by
  have single {keep : Device Value → Bool} {device : Device Value}
      (only : devices.filter keep = [device]) : device ∈ devices := by
    have inside : device ∈ devices.filter keep := by
      rw [only]
      exact List.mem_singleton_self device
    exact (List.mem_filter.mp inside).1
  unfold gatewayDeviceId at chosen
  dsimp only at chosen
  split at chosen
  · rename_i device _ only
    cases chosen
    exact List.mem_map_of_mem (single only)
  · rename_i device only _
    cases chosen
    exact List.mem_map_of_mem (single only)
  · cases chosen

/-! ## The validator after a discovery -/

variable (generated : List.Forall₂ (Generated serviceId) numbers found)

include generated in
/-- The names of the devices after a discovery. -/
theorem mem_names_iff {name : Text} :
    name ∈ (payload.topologyOrEmpty.freeDevices serviceId ++ found).map Device.deviceId ↔
      name ∈ (payload.topologyOrEmpty.freeDevices serviceId).map Device.deviceId ∨
        ∃ number ∈ numbers, name = deviceId serviceId number := by
  rw [List.map_append, List.mem_append, names_of_generated generated]
  simp [eq_comm]

include generated in
/-- What fits is accepted. -/
theorem Fits.accepts (fits : Fits serviceId numbers payload) (accepts : Accepts rules payload) :
    Accepts rules (payload.renew serviceId numbers found) := by
  have before := accepts.topologyOrEmpty
  have kept : (payload.topologyOrEmpty.freeDevices serviceId).Sublist
      payload.topologyOrEmpty.devices := List.filter_sublist
  have keptLinks : (payload.topologyOrEmpty.freeLinks serviceId).Sublist
      payload.topologyOrEmpty.links := List.filter_sublist
  rw [renew_eq]
  constructor
  · exact accepts.basics
  · intro topology same
    cases same
    constructor
    · rw [List.map_append, names_of_generated generated,
        nodup_append_map_iff (before.devices_unique.sublist (kept.map _))
          (deviceId_injective serviceId)]
      refine ⟨fits.distinct, ?_⟩
      intro number inside taken
      rcases List.mem_map.mp taken with ⟨device, free, same⟩
      exact fits.devices number inside device free same
    · intro device inside address shown
      rcases List.mem_append.mp inside with free | added
      · exact before.addresses device (kept.mem free) address shown
      · rcases exists_generated generated added with ⟨number, isGenerated⟩
        rw [isGenerated.address] at shown
        cases shown
    · intro device inside node shown
      rcases List.mem_append.mp inside with free | added
      · exact before.nodes_exist device (kept.mem free) node shown
      · rcases exists_generated generated added with ⟨number, isGenerated⟩
        rw [isGenerated.node] at shown
        cases shown
    · have without : found.filterMap Device.nodeId = [] := by
        rw [List.filterMap_eq_nil_iff]
        intro device added
        rcases exists_generated generated added with ⟨number, isGenerated⟩
        exact isGenerated.node
      rw [List.filterMap_append, without, List.append_nil]
      exact before.nodes_unique.sublist (kept.filterMap _)
    · rw [List.map_append]
      unfold gatewayLinks
      cases chosen : payload.freeGateway serviceId with
      | none =>
          rw [List.map_nil, List.append_nil]
          exact before.links_unique.sublist (keptLinks.map _)
      | some gateway =>
          rw [List.map_map]
          apply (nodup_append_map_iff (before.links_unique.sublist (keptLinks.map _))
            (linkId_injective serviceId gateway)).mpr
          refine ⟨fits.distinct, ?_⟩
          intro number inside taken
          rcases List.mem_map.mp taken with ⟨link, free, same⟩
          exact fits.links gateway chosen number inside link free same
    · intro link inside
      rcases List.mem_append.mp inside with free | added
      · refine ⟨(before.links_connect link (keptLinks.mem free)).1, ?_, ?_⟩
        · exact (mem_names_iff generated).mpr
            (fits.connected link free _ List.mem_cons_self)
        · exact (mem_names_iff generated).mpr
            (fits.connected link free _ (List.mem_cons_of_mem _ List.mem_cons_self))
      · unfold gatewayLinks at added
        cases chosen : payload.freeGateway serviceId with
        | none =>
            rw [chosen] at added
            cases added
        | some gateway =>
            rw [chosen] at added
            rcases List.mem_map.mp added with ⟨number, member, rfl⟩
            have free : gateway ∈ (payload.topologyOrEmpty.freeDevices serviceId).map
                Device.deviceId := gateway_mem chosen
            refine ⟨?_, (mem_names_iff generated).mpr (Or.inl free),
              (mem_names_iff generated).mpr (Or.inr ⟨number, member, rfl⟩)⟩
            intro same
            rcases List.mem_map.mp free with ⟨device, isFree, named⟩
            exact fits.devices number member device isFree (named.trans same)
    · exact before.layouts_unique
    · intro layout inside position placed
      exact (mem_names_iff generated).mpr (fits.placed layout inside position placed)
    · exact before.layouts_apart
    · intro device inside
      rcases List.mem_append.mp inside with free | added
      · exact before.schedules device (kept.mem free)
      · rcases exists_generated generated added with ⟨number, isGenerated⟩
        rw [isGenerated.schedule]
        exact rules.schedule_none

include generated in
/-- What is accepted fits. -/
theorem fits_of_accepts (before : Accepts rules payload)
    (accepts : Accepts rules (payload.renew serviceId numbers found)) :
    Fits serviceId numbers payload := by
  have earlier := before.topologyOrEmpty
  have kept : (payload.topologyOrEmpty.freeDevices serviceId).Sublist
      payload.topologyOrEmpty.devices := List.filter_sublist
  have keptLinks : (payload.topologyOrEmpty.freeLinks serviceId).Sublist
      payload.topologyOrEmpty.links := List.filter_sublist
  rw [renew_eq] at accepts
  have after := accepts.topology _ rfl
  have devices := after.devices_unique
  rw [List.map_append, names_of_generated generated,
    nodup_append_map_iff (earlier.devices_unique.sublist (kept.map _))
      (deviceId_injective serviceId)] at devices
  constructor
  · exact devices.1
  · intro number inside device free same
    exact devices.2 number inside (List.mem_map.mpr ⟨device, free, same⟩)
  · intro gateway chosen number inside link free same
    have links := after.links_unique
    simp only [gatewayLinks, chosen, List.map_append, List.map_map] at links
    exact ((nodup_append_map_iff (earlier.links_unique.sublist (keptLinks.map _))
      (linkId_injective serviceId gateway)).mp links).2 number inside
        (List.mem_map.mpr ⟨link, free, same⟩)
  · intro link free name end_
    have connected := after.links_connect link (List.mem_append_left _ free)
    rcases List.mem_cons.mp end_ with rfl | target
    · exact (mem_names_iff generated).mp connected.2.1
    · rw [List.mem_singleton.mp target]
      exact (mem_names_iff generated).mp connected.2.2
  · intro layout inside position placed
    exact (mem_names_iff generated).mp (after.layouts_place layout inside position placed)

include generated in
/-- What a discovery does not manage stays, in its order. -/
theorem unmanaged_renew (payload : Payload Value) :
    (payload.renew serviceId numbers found).topologyOrEmpty.freeDevices serviceId =
        payload.topologyOrEmpty.freeDevices serviceId ∧
      (payload.renew serviceId numbers found).topologyOrEmpty.freeLinks serviceId =
        payload.topologyOrEmpty.freeLinks serviceId ∧
      (payload.renew serviceId numbers found).topologyOrEmpty.layouts =
        payload.topologyOrEmpty.layouts := by
  have devices : found.filter (fun device => !isManaged serviceId device.metadata) = [] := by
    rw [List.filter_eq_nil_iff]
    intro device added
    rcases exists_generated generated added with ⟨number, isGenerated⟩
    simp [isGenerated.managed]
  have links : (gatewayLinks serviceId (payload.freeGateway serviceId) numbers).filter
      (fun link => !isManaged serviceId link.metadata) = [] := by
    rw [List.filter_eq_nil_iff]
    intro link added
    unfold gatewayLinks at added
    split at added
    · rcases List.mem_map.mp added with ⟨number, _, rfl⟩
      simp [isManaged_gatewayLink]
    · cases added
  rw [renew_eq]
  refine ⟨?_, ?_, rfl⟩
  · show (payload.topologyOrEmpty.freeDevices serviceId ++ found).filter _ = _
    rw [List.filter_append, devices, List.append_nil]
    exact List.filter_eq_self.mpr fun device free => (List.mem_filter.mp free).2
  · show (payload.topologyOrEmpty.freeLinks serviceId ++ gatewayLinks serviceId
      (payload.freeGateway serviceId) numbers).filter _ = _
    rw [List.filter_append, links, List.append_nil]
    exact List.filter_eq_self.mpr fun link free => (List.mem_filter.mp free).2

/-- The payload passed on by a discovery is accepted exactly when what it generates
fits; what it does not manage is unchanged in any case. -/
theorem updatedPayload_accepted_iff (builtins : Builtins) (serviceId : Text) (metadata : Fields)
    {current updated : Payload Value} (accepts : Accepts rules current)
    (passed : updatedPayload builtins serviceId metadata (some current) = some updated) :
    ∃ nodes, validDocuments builtins (metadata.lookup "nodes".toList) = some nodes ∧
      (Accepts rules updated ↔ Fits serviceId (nodes.map Prod.fst) current) ∧
      updated.topologyOrEmpty.freeDevices serviceId =
        current.topologyOrEmpty.freeDevices serviceId ∧
      updated.topologyOrEmpty.freeLinks serviceId =
        current.topologyOrEmpty.freeLinks serviceId ∧
      updated.topologyOrEmpty.layouts = current.topologyOrEmpty.layouts := by
  unfold updatedPayload at passed
  rw [Option.bind_some, Option.filter_eq_some_iff] at passed
  unfold synchronizeDocuments at passed
  rcases Option.map_eq_some_iff.mp passed.1 with ⟨nodes, read, rfl⟩
  have generated : List.Forall₂ (Generated serviceId) (nodes.map Prod.fst)
      (nodes.map (documentDevice builtins serviceId
        (builtins.optionalText (metadata.lookup "home_id".toList)))) := by
    rw [List.forall₂_map_left_iff, List.forall₂_map_right_iff, List.forall₂_same]
    exact fun node _ => generated_documentDevice builtins serviceId _ node
  exact ⟨nodes, read, ⟨fits_of_accepts generated accepts,
    fun fits => fits.accepts generated accepts⟩, unmanaged_renew generated current⟩

/-! ## A module that leaves its place behind -/

/-- Readers of integers, also as texts of digits. -/
def digitBuiltins : Builtins where
  int
    | .number number =>
        match number.toInt? with
        | some integer => .value integer
        | none => .refused
    | .string text =>
        if isDigits text then .value (Nat.ofDigitChars 10 text 0) else .refused
    | _ => .refused
  bool := fun value => value = .atom .true
  str := render

/-- The identifiers of some nodes. -/
def nodeNames : Items → List Text
  | .cons (.object node) rest =>
      match node.lookup "id".toList with
      | some (.string name) => name :: nodeNames rest
      | _ => nodeNames rest
  | .cons _ rest => nodeNames rest
  | .nil => []

/-- The nodes that a payload declares. -/
def declaredNodes (rest : Metadata Value) : List Text :=
  match rest.get "nodes" with
  | some (.other (.array nodes)) => nodeNames nodes
  | _ => []

/-- Unique nodes and services, known nodes, no empty address and no schedule. -/
def houseRules : Rules where
  basics services rest := (declaredNodes rest).Nodup ∧ (services.map Service.serviceId).Nodup ∧
    ∀ service ∈ services, service.nodeId ∈ declaredNodes rest
  address address := address ≠ []
  node rest node := node ∈ declaredNodes rest
  schedule schedule := schedule = none
  schedule_none := rfl

/-- The device of the controller. -/
def controllerDevice : Device Value where
  deviceId := "zwave-01".toList
  label := "ZWAVE-01".toList
  kind := "server".toList
  nodeId := some "zwave-01".toList
  address := none
  metadata := ∅

/-- A place for each of some devices, in one row. -/
def rowLayout (devices : List Text) : Plain Value :=
  .other (.object (.ofList [("layout_id".toList, .string "home".toList),
    ("positions".toList, .object (.ofList (devices.zipIdx.map fun (device, column) =>
      (device, .object (.ofList [("column".toList, .number (.ofNat column)),
        ("row".toList, .number (.ofNat 0))])))))]))

/-- The nodes of the house: one, with the controller. -/
def houseNodes : Metadata Value :=
  Metadata.put "nodes" (some (.other (.array (.ofList
    [.object (.ofList [("id".toList, .string "zwave-01".toList)])])))) ∅

/-- A controller with some modules and layouts. -/
def house (modules : List (Device Value)) (layouts : List (Plain Value)) : Payload Value where
  services := [⟨"zwave".toList, "zwave-01".toList, ∅⟩]
  topology := some ⟨controllerDevice :: modules, [], layouts, ∅⟩
  rest := houseNodes

/-- The metadata of a complete discovery. -/
def discovered (nodeIds : List Value) : Fields :=
  .ofList [("discovery_complete".toList, .atom .true),
    ("nodes".toList, .array (.ofList (nodeIds.map fun nodeId =>
      .object (.ofList [("node_id".toList, nodeId)]))))]

/-- The module of node 5. -/
def lamp : Device Value :=
  documentDevice digitBuiltins "zwave".toList none (5, .nil)

theorem accepts_house {modules : List (Device Value)} {layouts : List (Plain Value)}
    (known : ∀ device ∈ controllerDevice :: modules,
      device.address = none ∧ (∀ node ∈ device.nodeId, node = "zwave-01".toList) ∧
        device.metadata.get "monitoring_schedule" = none)
    (unique : ((controllerDevice :: modules).map Device.deviceId).Nodup)
    (nodes : ((controllerDevice :: modules).filterMap Device.nodeId).Nodup)
    (names : (layouts.map fun layout => (layoutFields layout).lookup "layout_id".toList).Nodup)
    (place : ∀ layout ∈ layouts, ∀ position ∈ layoutPositions layout,
      position.1 ∈ (controllerDevice :: modules).map Device.deviceId)
    (apart : ∀ layout ∈ layouts,
      ((layoutPositions layout).map fun position => gridCell position.2).Nodup) :
    Accepts houseRules (house modules layouts) := by
  have declared : declaredNodes houseNodes = ["zwave-01".toList] := by decide +kernel
  constructor
  · show (declaredNodes houseNodes).Nodup ∧ ["zwave".toList].Nodup ∧
      ∀ service ∈ [(⟨"zwave".toList, "zwave-01".toList, ∅⟩ : Service Value)],
        service.nodeId ∈ declaredNodes houseNodes
    rw [declared]
    decide
  · rintro topology ⟨⟩
    constructor
    · exact unique
    · intro device inside address given
      rw [(known device inside).1] at given
      cases given
    · intro device inside node given
      show node ∈ declaredNodes houseNodes
      rw [declared, List.mem_singleton]
      exact (known device inside).2.1 node given
    · exact nodes
    · exact List.nodup_nil
    · intro link inside
      cases inside
    · exact names
    · exact place
    · exact apart
    · exact fun device inside => (known device inside).2.2

/-- A node whose identifier is a text joins an accepted house. -/
theorem house_accepts_lamp :
    ∃ updated, updatedPayload digitBuiltins "zwave".toList (discovered [.string "5".toList])
        (some (house [] [])) = some updated ∧ Accepts houseRules updated := by
  have accepts : Accepts houseRules (house [] []) :=
    accepts_house (by decide +kernel) (by decide) (by decide) (by decide) (by decide) (by decide)
  have some_ : (updatedPayload digitBuiltins "zwave".toList (discovered [.string "5".toList])
      (some (house [] []))).isSome = true := by decide +kernel
  rcases Option.isSome_iff_exists.mp some_ with ⟨updated, passed⟩
  rcases updatedPayload_accepted_iff digitBuiltins _ _ accepts passed with
    ⟨nodes, read, accepted, _⟩
  refine ⟨updated, passed, accepted.mpr ?_⟩
  have only : (validDocuments digitBuiltins
      ((discovered [.string "5".toList]).lookup "nodes".toList)).map
        (fun documents => documents.map Prod.fst) = some [5] := by decide +kernel
  rw [read, Option.map_some, Option.some.injEq] at only
  rw [only]
  constructor
  · decide
  · decide +kernel
  · intro gateway _ number _ link inside
    cases inside
  · intro link inside
    cases inside
  · intro layout inside
    cases inside

/-- When a module that was placed in a layout is no longer reported, its place
remains, and the validator refuses the payload. -/
theorem place_remains :
    Accepts houseRules (house [lamp] [rowLayout ["zwave-01".toList, lamp.deviceId]]) ∧
    ∃ updated, updatedPayload digitBuiltins "zwave".toList (discovered [])
        (some (house [lamp] [rowLayout ["zwave-01".toList, lamp.deviceId]])) = some updated ∧
      ¬ Accepts houseRules updated := by
  have accepts : Accepts houseRules (house [lamp] [rowLayout ["zwave-01".toList, lamp.deviceId]]) :=
    accepts_house (by decide +kernel) (by decide +kernel) (by decide +kernel) (by decide +kernel)
      (by decide +kernel) (by decide +kernel)
  refine ⟨accepts, (house [lamp] [rowLayout ["zwave-01".toList, lamp.deviceId]]).renew
    "zwave".toList [] [], by decide +kernel, ?_⟩
  intro accepted
  have nothing : List.Forall₂ (Generated "zwave".toList) ([] : List Int) [] := .nil
  have fits := fits_of_accepts nothing accepts accepted
  have place := fits.placed (rowLayout ["zwave-01".toList, lamp.deviceId]) (by decide +kernel)
    (lamp.deviceId, .object (.ofList [("column".toList, .number (.ofNat 1)),
      ("row".toList, .number (.ofNat 0))])) (by decide +kernel)
  rcases place with stays | ⟨number, reported, _⟩
  · exact absurd stays (by decide +kernel)
  · cases reported

end OhanaAgent.Plugins
