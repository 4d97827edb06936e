import Mathlib.Data.Finmap
import Mathlib.Data.List.Sort
import OhanaAgent.Encoding.Lines
import OhanaAgent.Privacy.SessionPaths

/-!
# Z-Wave discovery

`ZWaveDiscoveryHandler` keeps the nodes that a Z-Wave controller reports in the
topology of the infrastructure payload.  A complete discovery replaces the
devices and links it manages for its controller, and stores the payload when it
changed.
-/

namespace OhanaAgent.Plugins

open OhanaAgent.Encoding.Json
open OhanaAgent.Encoding
open OhanaAgent.Privacy

universe u

/-! ## Payloads -/

/-- A metadata value, up to the equality of Python: a Boolean is an integer, and
`other` holds what is neither a text nor an integer. -/
inductive Plain (α : Type u) where
  | null
  | text (content : Text)
  | integer (value : Int)
  | other (value : α)
  deriving DecidableEq

/-- A metadata dictionary; `==` does not see the order of its keys. -/
abbrev Metadata (α : Type u) : Type u :=
  Finmap fun _ : Text => Plain α

/-- A device of the topology. -/
structure Device (α : Type u) where
  deviceId : Text
  label : Text
  kind : Text
  nodeId : Option Text
  address : Option Text
  metadata : Metadata α
  deriving DecidableEq

/-- A link of the topology. -/
structure Link (α : Type u) where
  linkId : Text
  sourceDeviceId : Text
  targetDeviceId : Text
  kind : Text
  direction : Text
  label : Option Text
  bandwidthMbps : Plain α
  metadata : Metadata α
  deriving DecidableEq

/-- A topology as `VisionInfrastructureMapper` writes it, with all of its keys. -/
structure Topology (α : Type u) where
  devices : List (Device α)
  links : List (Link α)
  layouts : List (Plain α)
  metadata : Metadata α
  deriving DecidableEq

structure Service (α : Type u) where
  serviceId : Text
  nodeId : Text
  rest : Metadata α
  deriving DecidableEq

/-- An infrastructure payload. -/
structure Payload (α : Type u) where
  services : List (Service α)
  topology : Option (Topology α)
  rest : Metadata α
  deriving DecidableEq

/-! ## Reports -/

/-- A node of a controller, as `ZWavePlugin` reports it. -/
structure Node where
  nodeId : Int
  name : Option Text
  label : Option Text
  location : Option Text
  manufacturer : Option Text
  productId : Option (Int ⊕ Text)
  productType : Option (Int ⊕ Text)
  firmwareVersion : Option Text
  canSleep : Bool

/-- What a controller reports in a complete discovery. -/
structure Report where
  homeId : Option Text
  nodes : List Node

/-- `_valid_nodes`: the nodes with a positive identifier, in its order. -/
def validNodes (nodes : List Node) : List Node :=
  (nodes.filter fun node => 0 < node.nodeId).insertionSort fun first second =>
    first.nodeId ≤ second.nodeId

/-! ## Names -/

def managedBy : Text := "zwave_discovery".toList

/-- `_optional_text`. -/
def optionalText (value : Option Text) : Option Text :=
  (value.map (trim isWhitespace)).filter fun text => text ≠ []

/-- The lower case of a character, as far as it is ASCII. -/
def lowerChar (c : Char) : Text :=
  if c = 'İ' then ['i', '\u0307']
  else if c = '\u212A' then ['k']
  else [c.toLower]

def isSlugChar (c : Char) : Bool :=
  (97 ≤ c.toNat && c.toNat ≤ 122) || (48 ≤ c.toNat && c.toNat ≤ 57)

/-- Every run of other characters becomes one hyphen. -/
def hyphenate : Text → Text
  | [] => []
  | c :: rest =>
      if isSlugChar c then c :: hyphenate rest
      else
        match hyphenate rest with
        | '-' :: slug => '-' :: slug
        | slug => '-' :: slug

/-- `_device_id`. -/
def deviceId (serviceId : Text) (nodeId : Int) : Text :=
  let serviceSlug := trim (· = '-') (hyphenate (serviceId.flatMap lowerChar))
  "zwave-".toList ++ (if serviceSlug = [] then "controller".toList else serviceSlug) ++
    "-node-".toList ++ (toString nodeId).toList

/-- `_node_label`. -/
def nodeLabel (node : Node) : Text :=
  match (optionalText node.name).or (optionalText node.label) with
  | some label => label
  | none => "Z-Wave ".toList ++ (toString node.nodeId).toList

variable {α : Type u}

/-- The plain value of an integer or a text. -/
def scalar : Int ⊕ Text → Plain α
  | .inl value => .integer value
  | .inr content => .text content

/-- Set a key that has a value. -/
def Metadata.put (key : String) (value : Option (Plain α)) (metadata : Metadata α) : Metadata α :=
  match value with
  | some value => metadata.insert key.toList value
  | none => metadata

/-- `metadata.get(key)`. -/
def Metadata.get (key : String) (metadata : Metadata α) : Option (Plain α) :=
  metadata.lookup key.toList

/-- `_topology_device`. -/
def topologyDevice (serviceId : Text) (homeId : Option Text) (node : Node) : Device α where
  deviceId := deviceId serviceId node.nodeId
  label := nodeLabel node
  kind := "zwave_module".toList
  nodeId := none
  address := none
  metadata := (∅ : Metadata α)
    |> Metadata.put "managed_by" (some (.text managedBy))
    |> Metadata.put "controller_service_id" (some (.text serviceId))
    |> Metadata.put "radio_kind" (some (.text "zwave".toList))
    |> Metadata.put "home_id" (homeId.map .text)
    |> Metadata.put "zwave_node_id" (some (.integer node.nodeId))
    |> Metadata.put "location" ((optionalText node.location).map .text)
    |> Metadata.put "manufacturer" ((optionalText node.manufacturer).map .text)
    |> Metadata.put "product_id" (node.productId.map scalar)
    |> Metadata.put "product_type" (node.productType.map scalar)
    |> Metadata.put "firmware_version" ((optionalText node.firmwareVersion).map .text)
    |> Metadata.put "can_sleep" (some (.integer (if node.canSleep then 1 else 0)))

/-- The link of a node to its gateway. -/
def topologyLink (serviceId gatewayDeviceId : Text) (node : Node) : Link α where
  linkId := gatewayDeviceId ++ '-' :: deviceId serviceId node.nodeId
  sourceDeviceId := gatewayDeviceId
  targetDeviceId := deviceId serviceId node.nodeId
  kind := "zwave".toList
  direction := "bidirectional".toList
  label := some "Z-Wave".toList
  bandwidthMbps := .null
  metadata := (∅ : Metadata α)
    |> Metadata.put "managed_by" (some (.text managedBy))
    |> Metadata.put "controller_service_id" (some (.text serviceId))

@[simp]
theorem Metadata.get_put_self {key : String} {value : Plain α} {metadata : Metadata α} :
    (metadata.put key (some value)).get key = some value :=
  Finmap.lookup_insert _

theorem Metadata.get_put_of_ne {key other : String} (different : other.toList ≠ key.toList)
    (value : Option (Plain α)) (metadata : Metadata α) :
    (metadata.put key value).get other = metadata.get other := by
  cases value with
  | none => rfl
  | some value => exact Finmap.lookup_insert_of_ne _ different

/-- The keys of the owner in the metadata of a device. -/
theorem owner_topologyDevice (serviceId : Text) (homeId : Option Text) (node : Node) :
    (topologyDevice serviceId homeId node : Device α).metadata.get "managed_by" =
        some (.text managedBy) ∧
      (topologyDevice serviceId homeId node : Device α).metadata.get "controller_service_id" =
        some (.text serviceId) := by
  unfold topologyDevice
  constructor
  · repeat rw [Metadata.get_put_of_ne (by decide)]
    exact Metadata.get_put_self
  · repeat rw [Metadata.get_put_of_ne (by decide)]
    exact Metadata.get_put_self

theorem owner_topologyLink (serviceId gatewayDeviceId : Text) (node : Node) :
    (topologyLink serviceId gatewayDeviceId node : Link α).metadata.get "managed_by" =
        some (.text managedBy) ∧
      (topologyLink serviceId gatewayDeviceId node : Link α).metadata.get "controller_service_id" =
        some (.text serviceId) := by
  unfold topologyLink
  constructor
  · rw [Metadata.get_put_of_ne (by decide)]
    exact Metadata.get_put_self
  · exact Metadata.get_put_self

/-! ## Discoveries -/

variable [DecidableEq α]

/-- `_is_managed`. -/
def isManaged (serviceId : Text) (metadata : Metadata α) : Bool :=
  metadata.get "managed_by" = some (.text managedBy) &&
    metadata.get "controller_service_id" = some (.text serviceId)

/-- `_gateway_device_id`: the only device on the node of the service, or else the
only gateway. -/
def gatewayDeviceId (services : List (Service α)) (devices : List (Device α)) (serviceId : Text) :
    Option Text :=
  let serviceNodeId := (services.find? fun service => service.serviceId = serviceId).map
    Service.nodeId
  let nodeMatches := devices.filter fun device =>
    serviceNodeId.isSome && device.nodeId = serviceNodeId
  let roleMatches := devices.filter fun device =>
    device.metadata.get "role" = some (.text "zwave_gateway".toList)
  match nodeMatches, roleMatches with
  | [device], _ => some device.deviceId
  | _, [device] => some device.deviceId
  | _, _ => none

/-- The topology that is set when the payload has none. -/
def Topology.empty : Topology α where
  devices := []
  links := []
  layouts := []
  metadata := ∅

/-- The payload `_synchronize_topology` computes. -/
def synchronize (serviceId : Text) (report : Report) (current : Payload α) : Payload α :=
  let nodes := validNodes report.nodes
  let topology := current.topology.getD .empty
  let devices := topology.devices.filter fun device => !isManaged serviceId device.metadata
  let links := topology.links.filter fun link => !isManaged serviceId link.metadata
  let found := nodes.map (topologyDevice serviceId (optionalText report.homeId))
  let reached := match gatewayDeviceId current.services devices serviceId with
    | some gateway => nodes.map (topologyLink serviceId gateway)
    | none => []
  let renewed := { topology with
    devices := devices ++ found
    links := links ++ reached }
  { current with topology := some renewed }

/-- A discovery updates the infrastructure. -/
def updates (serviceId : Text) (report : Report) (current : Option (Payload α)) : Bool :=
  match current with
  | none => false
  | some current => synchronize serviceId report current ≠ current

/-- The payload after a complete discovery, which `update_infrastructure` stored
when it changed. -/
def discover (reports : Text → Report) (current : Option (Payload α)) (serviceId : Text) :
    Option (Payload α) :=
  if updates serviceId (reports serviceId) current then
    current.map (synchronize serviceId (reports serviceId))
  else current

end OhanaAgent.Plugins
