import OhanaAgent.Plugins.ZwaveDiscovery
import OhanaAgent.Store.Owned

/-!
# When Z-Wave discovery settles

A discovery appends what it manages behind everything else, and compares ordered
lists.  Two controllers with nodes take turns at the end of the list for ever; a
single one settles, unless the gateway it links to goes with what another
controller manages.
-/

namespace OhanaAgent.Plugins

open OhanaAgent.Encoding.Json
open OhanaAgent.Store

universe u

variable {α : Type u} {reports : Text → Report} {controllers seen : List Text} {serviceId : Text}

/-! ## What a controller adds -/

/-- The controller reports a node. -/
def Busy (reports : Text → Report) (serviceId : Text) : Prop :=
  validNodes (reports serviceId).nodes ≠ []

/-- The devices a discovery of the controller adds. -/
def foundDevices (reports : Text → Report) (serviceId : Text) : List (Device α) :=
  (validNodes (reports serviceId).nodes).map
    (topologyDevice serviceId (optionalText (reports serviceId).homeId))

/-- The links it adds to a gateway. -/
def foundLinks (reports : Text → Report) (serviceId : Text) (gateway : Option Text) :
    List (Link α) :=
  match gateway with
  | some gateway => (validNodes (reports serviceId).nodes).map (topologyLink serviceId gateway)
  | none => []

theorem foundDevices_of_idle (idle : ¬ Busy reports serviceId) :
    (foundDevices reports serviceId : List (Device α)) = [] := by
  unfold Busy at idle
  rw [foundDevices, not_not.mp idle, List.map_nil]

theorem foundLinks_of_idle (idle : ¬ Busy reports serviceId) (gateway : Option Text) :
    (foundLinks reports serviceId gateway : List (Link α)) = [] := by
  unfold Busy at idle
  unfold foundLinks
  split
  · rw [not_not.mp idle, List.map_nil]
  · rfl

variable [DecidableEq α]

/-- A controller manages what it adds, and nothing that another one adds. -/
theorem isManaged_foundDevices (other : Text) {device : Device α}
    (member : device ∈ (foundDevices reports serviceId : List (Device α))) :
    isManaged other device.metadata = decide (serviceId = other) := by
  rcases List.mem_map.mp member with ⟨node, _, rfl⟩
  rcases owner_topologyDevice (α := α) serviceId (optionalText (reports serviceId).homeId) node with
    ⟨manager, controller⟩
  rw [isManaged, manager, controller]
  simp

theorem isManaged_foundLinks (other : Text) {gateway : Option Text} {link : Link α}
    (member : link ∈ (foundLinks reports serviceId gateway : List (Link α))) :
    isManaged other link.metadata = decide (serviceId = other) := by
  unfold foundLinks at member
  split at member
  · rename_i gateway
    rcases List.mem_map.mp member with ⟨node, _, rfl⟩
    rcases owner_topologyLink (α := α) serviceId gateway node with ⟨manager, controller⟩
    rw [isManaged, manager, controller]
    simp
  · exact absurd member List.not_mem_nil

omit [DecidableEq α] in
/-- The links say to which gateway they go. -/
theorem foundLinks_injective (busy : Busy reports serviceId) {first second : Option Text}
    (same : (foundLinks reports serviceId first : List (Link α)) =
      foundLinks reports serviceId second) : first = second := by
  unfold Busy at busy
  unfold foundLinks at same
  cases nodes : validNodes (reports serviceId).nodes with
  | nil => exact absurd nodes busy
  | cons node rest =>
      cases first <;> cases second <;> simp [nodes, topologyLink] at same ⊢
      exact same.1

/-! ## Discoveries one after the other -/

/-- The devices and the links of controllers are removed, and others follow. -/
def Payload.renewed (current : Payload α) (seen : List Text) (devices : List (Device α))
    (links : List (Link α)) : Payload α :=
  let topology := current.topology.getD .empty
  let renewed := { topology with
    devices := without (fun id device => isManaged id device.metadata) seen topology.devices ++ devices
    links := without (fun id link => isManaged id link.metadata) seen topology.links ++ links }
  { current with topology := some renewed }

/-- The gateway of a controller after the devices of others were removed. -/
def Payload.gateway (current : Payload α) (seen : List Text) (serviceId : Text) : Option Text :=
  gatewayDeviceId current.services (without (fun id device => isManaged id device.metadata) seen
    (current.topology.getD .empty).devices) serviceId

variable {current : Payload α} {devices : List (Device α)} {links : List (Link α)}

theorem synchronize_eq (current : Payload α) :
    synchronize serviceId (reports serviceId) current =
      current.renewed [serviceId] (foundDevices reports serviceId)
        (foundLinks reports serviceId (current.gateway [serviceId] serviceId)) := by
  have devices := @filter_without _ _ (fun id (device : Device α) => isManaged id device.metadata)
    serviceId [] (current.topology.getD .empty).devices
  have links := @filter_without _ _ (fun id (link : Link α) => isManaged id link.metadata)
    serviceId [] (current.topology.getD .empty).links
  rw [without_nil] at devices links
  unfold synchronize Payload.renewed Payload.gateway
  dsimp only
  rw [← devices, ← links]
  generalize gatewayDeviceId current.services _ serviceId = gateway
  cases gateway with
  | none => rfl
  | some gateway => rfl

/-- A controller that reports no node removes what it manages. -/
theorem synchronize_idle (idle : ¬ Busy reports serviceId)
    (freeDevices : ∀ device ∈ devices, isManaged serviceId device.metadata = false)
    (freeLinks : ∀ link ∈ links, isManaged serviceId link.metadata = false) :
    synchronize serviceId (reports serviceId) (current.renewed seen devices links) =
      current.renewed (serviceId :: seen) devices links := by
  have keptDevices : devices.filter (fun device => !isManaged serviceId device.metadata) = devices := by
    rw [List.filter_eq_self]
    simpa using freeDevices
  have keptLinks : links.filter (fun link => !isManaged serviceId link.metadata) = links := by
    rw [List.filter_eq_self]
    simpa using freeLinks
  rw [synchronize_eq, foundDevices_of_idle idle, foundLinks_of_idle idle]
  unfold Payload.renewed
  simp only [Option.getD_some, List.append_nil, ← filter_without, without_nil, List.filter_append,
    keptDevices, keptLinks]

/-- A controller replaces what it manages. -/
theorem synchronize_own
    (ownDevices : ∀ device ∈ devices, isManaged serviceId device.metadata = true)
    (ownLinks : ∀ link ∈ links, isManaged serviceId link.metadata = true) :
    synchronize serviceId (reports serviceId) (current.renewed seen devices links) =
      current.renewed (serviceId :: seen) (foundDevices reports serviceId)
        (foundLinks reports serviceId (current.gateway (serviceId :: seen) serviceId)) := by
  have goneDevices : devices.filter (fun device => !isManaged serviceId device.metadata) = [] := by
    rw [List.filter_eq_nil_iff]
    simpa using ownDevices
  have goneLinks : links.filter (fun link => !isManaged serviceId link.metadata) = [] := by
    rw [List.filter_eq_nil_iff]
    simpa using ownLinks
  rw [synchronize_eq]
  unfold Payload.gateway Payload.renewed
  simp only [Option.getD_some, ← filter_without, without_nil, List.filter_append, goneDevices,
    goneLinks, List.append_nil]

theorem discover_some (current : Payload α) :
    discover reports (some current) serviceId =
      some (synchronize serviceId (reports serviceId) current) := by
  unfold discover updates
  by_cases unchanged : synchronize serviceId (reports serviceId) current = current
  · simp [unchanged]
  · simp [unchanged]

theorem renewed_congr {others : List Text} (same : ∀ id, id ∈ seen ↔ id ∈ others) :
    current.renewed seen devices links = current.renewed others devices links := by
  unfold Payload.renewed
  dsimp only
  rw [without_congr same, without_congr same]

theorem gateway_congr {others : List Text} (same : ∀ id, id ∈ seen ↔ id ∈ others) :
    current.gateway seen serviceId = current.gateway others serviceId := by
  unfold Payload.gateway
  rw [without_congr same]

theorem synchronize_renewed_nil (current : Payload α) :
    synchronize serviceId (reports serviceId) (current.renewed [] [] []) =
      synchronize serviceId (reports serviceId) current := by
  rw [synchronize_eq, synchronize_eq]
  unfold Payload.renewed Payload.gateway
  simp

/-- Controllers that report no node, one after the other. -/
theorem discover_idle {idle : List Text} (quiet : ∀ id ∈ idle, ¬ Busy reports id)
    (freeDevices : ∀ device ∈ devices, ∀ id ∈ idle, isManaged id device.metadata = false)
    (freeLinks : ∀ link ∈ links, ∀ id ∈ idle, isManaged id link.metadata = false) :
    idle.foldl (discover reports) (some (current.renewed seen devices links)) =
      some (current.renewed (idle.reverse ++ seen) devices links) := by
  induction idle generalizing seen with
  | nil => rfl
  | cons id idle inductionHypothesis =>
      rw [List.forall_mem_cons] at quiet
      rw [List.foldl_cons, discover_some, synchronize_idle quiet.1
        (fun device member => freeDevices device member id List.mem_cons_self)
        (fun link member => freeLinks link member id List.mem_cons_self),
        inductionHypothesis quiet.2
          (fun device member other listed =>
            freeDevices device member other (List.mem_cons_of_mem id listed))
          (fun link member other listed =>
            freeLinks link member other (List.mem_cons_of_mem id listed)),
        List.reverse_cons, List.append_assoc, List.singleton_append]

/-! ## Settling -/

/-- Once every controller was synchronized, no complete discovery updates the
infrastructure, in whatever order they come. -/
def Settles (reports : Text → Report) (controllers : List Text) (payload : Option (Payload α)) :
    Prop :=
  ∀ order : List Text, (∀ id ∈ order, id ∈ controllers) → (∀ id ∈ controllers, id ∈ order) →
    ∀ id ∈ controllers,
      updates id (reports id) (order.foldl (discover reports) payload) = false

/-- At most one controller reports nodes. -/
def Alone (reports : Text → Report) (controllers : List Text) : Prop :=
  ∀ first ∈ controllers, ∀ second ∈ controllers, Busy reports first → Busy reports second →
    first = second

/-- The gateway of a controller with nodes does not depend on which of the others
were synchronized before it. -/
def Steady (reports : Text → Report) (controllers : List Text) (current : Payload α) : Prop :=
  ∀ id ∈ controllers, Busy reports id → ∀ seen : List Text, id ∈ seen →
    (∀ other ∈ seen, other ∈ controllers) → current.gateway seen id = current.gateway controllers id

/-- What is managed for the only controller with nodes after some controllers were
synchronized. -/
def settled (reports : Text → Report) (controllers : List Text) (busy : Option Text)
    (seen : List Text) (current : Payload α) : Payload α :=
  match busy.filter (· ∈ seen) with
  | some id => current.renewed seen (foundDevices reports id)
      (foundLinks reports id (current.gateway controllers id))
  | none => current.renewed seen [] []

theorem settled_congr {busy : Option Text} {others : List Text}
    (same : ∀ id, id ∈ seen ↔ id ∈ others) :
    settled reports controllers busy seen current =
      settled reports controllers busy others current := by
  unfold settled
  simp only [same, renewed_congr same]

theorem synchronize_settled {busy : Option Text} (alone : ∀ id ∈ controllers, Busy reports id ↔
    busy = some id) (steady : Steady reports controllers current)
    (listed : ∀ id ∈ seen, id ∈ controllers) (member : serviceId ∈ controllers) :
    synchronize serviceId (reports serviceId) (settled reports controllers busy seen current) =
      settled reports controllers busy (serviceId :: seen) current := by
  have others : ∀ id ∈ serviceId :: seen, id ∈ controllers := by
    rw [List.forall_mem_cons]
    exact ⟨member, listed⟩
  by_cases isBusy : Busy reports serviceId
  · have only := (alone serviceId member).mp isBusy
    subst only
    have gateway := steady serviceId member isBusy (serviceId :: seen) List.mem_cons_self others
    have after : settled reports controllers (some serviceId) (serviceId :: seen) current =
        current.renewed (serviceId :: seen) (foundDevices reports serviceId)
          (foundLinks reports serviceId (current.gateway (serviceId :: seen) serviceId)) := by
      rw [settled, gateway]
      simp [Option.filter]
    rw [after, settled]
    split
    · rename_i id found
      rcases Option.filter_eq_some_iff.mp found with ⟨same, _⟩
      cases same
      apply synchronize_own
      · intro device deviceMem
        rw [isManaged_foundDevices serviceId deviceMem, decide_eq_true rfl]
      · intro link linkMem
        rw [isManaged_foundLinks serviceId linkMem, decide_eq_true rfl]
    · apply synchronize_own
      · exact fun device deviceMem => absurd deviceMem List.not_mem_nil
      · exact fun link linkMem => absurd linkMem List.not_mem_nil
  · have different : busy ≠ some serviceId := fun same => isBusy ((alone serviceId member).mpr same)
    have filtered : busy.filter (· ∈ serviceId :: seen) = busy.filter (· ∈ seen) := by
      cases busy with
      | none => rfl
      | some id =>
          have other : id ≠ serviceId := fun same => different (by rw [same])
          simp [Option.filter, other]
    unfold settled
    rw [filtered]
    split
    · rename_i id found
      rcases Option.filter_eq_some_iff.mp found with ⟨same, _⟩
      have other : id ≠ serviceId := fun equal => different (by rw [same, equal])
      apply synchronize_idle isBusy
      · intro device deviceMem
        rw [isManaged_foundDevices serviceId deviceMem, decide_eq_false other]
      · intro link linkMem
        rw [isManaged_foundLinks serviceId linkMem, decide_eq_false other]
    · apply synchronize_idle isBusy
      · exact fun device deviceMem => absurd deviceMem List.not_mem_nil
      · exact fun link linkMem => absurd linkMem List.not_mem_nil

/-- The first discovery sets the topology when there is none. -/
theorem discover_renewed_nil {order : List Text} (nonempty : order ≠ []) (current : Payload α) :
    order.foldl (discover reports) (some current) =
      order.foldl (discover reports) (some (current.renewed [] [] [])) := by
  cases order with
  | nil => exact absurd rfl nonempty
  | cons id order =>
      rw [List.foldl_cons, List.foldl_cons, discover_some, discover_some, synchronize_renewed_nil]

theorem discover_settled {busy : Option Text} (alone : ∀ id ∈ controllers, Busy reports id ↔
    busy = some id) (steady : Steady reports controllers current) {order : List Text}
    (listed : ∀ id ∈ seen, id ∈ controllers) (members : ∀ id ∈ order, id ∈ controllers) :
    order.foldl (discover reports) (some (settled reports controllers busy seen current)) =
      some (settled reports controllers busy (order.reverse ++ seen) current) := by
  induction order generalizing seen with
  | nil => rfl
  | cons id order inductionHypothesis =>
      rw [List.forall_mem_cons] at members
      rw [List.foldl_cons, discover_some, synchronize_settled alone steady listed members.1,
        inductionHypothesis _ members.2, List.reverse_cons, List.append_assoc,
        List.singleton_append]
      rw [List.forall_mem_cons]
      exact ⟨members.1, listed⟩

/-- A single controller with nodes and a steady gateway settle. -/
theorem settles_of_alone (alone : Alone reports controllers)
    (steady : Steady reports controllers current) :
    Settles reports controllers (some current) := by
  have chosen : ∃ busy : Option Text, ∀ id ∈ controllers, Busy reports id ↔ busy = some id := by
    by_cases someBusy : ∃ id ∈ controllers, Busy reports id
    · rcases someBusy with ⟨only, member, busy⟩
      refine ⟨some only, ?_⟩
      intro id idMem
      constructor
      · intro other
        rw [alone only member id idMem busy other]
      · intro same
        rw [← Option.some.inj same]
        exact busy
    · refine ⟨none, ?_⟩
      intro id idMem
      constructor
      · exact fun busy => absurd ⟨id, idMem, busy⟩ someBusy
      · intro same
        contradiction
  rcases chosen with ⟨busy, only⟩
  intro order members all id member
  cases order with
  | nil => exact absurd (all id member) List.not_mem_nil
  | cons first order =>
      rw [List.forall_mem_cons] at members
      have start : settled reports controllers busy [] current = current.renewed [] [] [] := by
        cases busy <;> simp [settled, Option.filter]
      have reached : (first :: order).foldl (discover reports) (some current) =
          some (settled reports controllers busy (order.reverse ++ [first]) current) := by
        rw [discover_renewed_nil (List.cons_ne_nil first order), ← start,
          discover_settled only steady (fun _ none => absurd none List.not_mem_nil), List.append_nil,
          List.reverse_cons]
        rw [List.forall_mem_cons]
        exact members
      have whole : ∀ other, other ∈ order.reverse ++ [first] ↔ other ∈ first :: order := by
        intro other
        simp [or_comm]
      have again : ∀ other, other ∈ id :: (order.reverse ++ [first]) ↔
          other ∈ order.reverse ++ [first] := by
        intro other
        rw [List.mem_cons, whole]
        constructor
        · rintro (rfl | listed)
          · exact all other member
          · exact listed
        · exact Or.inr
      rw [reached, updates, synchronize_settled only steady _ member, settled_congr again]
      · simp
      · intro other listed
        rw [whole, List.mem_cons] at listed
        rcases listed with rfl | listed
        · exact members.1
        · exact members.2 other listed

/-- Two controllers with nodes never settle: the one that did not report last is
moved behind the other. -/
theorem alone_of_settles (settles : Settles reports controllers (some current)) :
    Alone reports controllers := by
  intro first firstMem second secondMem firstBusy secondBusy
  by_contra different
  rcases Option.isSome_iff_exists.mp (show ((controllers ++ [first]).foldl (discover reports)
      (some current)).isSome = true by
    have kept (order : List Text) (payload : Payload α) :
        (order.foldl (discover reports) (some payload)).isSome = true := by
      induction order generalizing payload with
      | nil => rfl
      | cons id order inductionHypothesis =>
          rw [List.foldl_cons, discover_some]
          exact inductionHypothesis _
    exact kept _ current) with ⟨before, reached⟩
  have quiet := settles (controllers ++ [first] ++ [second]) (by
    intro id member
    simp only [List.mem_append, List.mem_singleton] at member
    rcases member with (listed | rfl) | rfl
    · exact listed
    · exact firstMem
    · exact secondMem) (fun id member => by simp [member]) first firstMem
  rw [List.foldl_append, reached, List.foldl_cons, List.foldl_nil, discover_some] at quiet
  simp only [updates, ne_eq, decide_not, Bool.not_eq_false', decide_eq_true_eq] at quiet
  have ends := congrArg (fun payload : Payload α =>
    (payload.topology.getD .empty).devices.getLast?) quiet
  rw [synchronize_eq, synchronize_eq] at ends
  simp only [Payload.renewed, Option.getD_some, List.getLast?_append] at ends
  have last {id : Text} (busy : Busy reports id) : ∃ device : Device α,
      (foundDevices reports id).getLast? = some device ∧
        isManaged id device.metadata = true := by
    have nonempty : (foundDevices reports id : List (Device α)) ≠ [] := by
      unfold foundDevices
      rw [ne_eq, List.map_eq_nil_iff]
      exact busy
    refine ⟨_, List.getLast?_eq_some_getLast nonempty, ?_⟩
    rw [isManaged_foundDevices id (List.getLast_mem nonempty), decide_eq_true rfl]
  rcases last firstBusy with ⟨device, isLast, managed⟩
  rcases last secondBusy with ⟨other, otherLast, _⟩
  rw [isLast, otherLast, Option.some_or, Option.some_or, Option.some.injEq] at ends
  rw [ends, isManaged_foundDevices first (List.mem_of_getLast? otherLast)] at managed
  exact different (of_decide_eq_true managed).symm

theorem renewed_links {others : List (Link α)} (same : current.renewed seen devices links =
    current.renewed seen devices others) : links = others := by
  unfold Payload.renewed at same
  simpa using same

/-- A gateway that another controller takes away is linked to once more before
it is gone. -/
theorem steady_of_settles (settles : Settles reports controllers (some current)) :
    Steady reports controllers current := by
  intro id member busy seen seenId listed
  have alone := alone_of_settles settles
  have idle : ∀ other ∈ controllers, other ≠ id → ¬ Busy reports other :=
    fun other otherMem different otherBusy => different (alone other otherMem id member otherBusy busy)
  have apart {list : List Text} (part : ∀ other ∈ list, other ∈ controllers) :
      ∀ other ∈ list.filter (· ≠ id), other ∈ controllers ∧ other ≠ id := by
    intro other otherMem
    rcases List.mem_filter.mp otherMem with ⟨inside, different⟩
    exact ⟨part other inside, of_decide_eq_true different⟩
  have back (list : List Text) : ∀ other, other = id ∨ other ∈ list.filter (· ≠ id) ↔
      other = id ∨ other ∈ list := by
    intro other
    by_cases same : other = id <;> simp [same]
  have before := apart listed
  have after := apart fun other (otherMem : other ∈ controllers) => otherMem
  have earlier := back seen
  have later := back controllers
  generalize seen.filter (· ≠ id) = early at before earlier
  generalize controllers.filter (· ≠ id) = rest at after later
  have none {β : Type u} {p : β → Prop} : ∀ element ∈ ([] : List β), p element :=
    fun element absent => absurd absent List.not_mem_nil
  have ownDevices : ∀ device ∈ (foundDevices reports id : List (Device α)),
      isManaged id device.metadata = true := by
    intro device deviceMem
    rw [isManaged_foundDevices id deviceMem, decide_eq_true rfl]
  have ownLinks (gateway : Option Text) : ∀ link ∈ (foundLinks reports id gateway : List (Link α)),
      isManaged id link.metadata = true := by
    intro link linkMem
    rw [isManaged_foundLinks id linkMem, decide_eq_true rfl]
  have order : (early ++ [id] ++ rest).foldl (discover reports) (some current) =
      some (current.renewed (rest.reverse ++ id :: (early.reverse ++ []))
        (foundDevices reports id)
        (foundLinks reports id (current.gateway (id :: (early.reverse ++ [])) id))) := by
    rw [discover_renewed_nil (by simp), List.foldl_append, List.foldl_append,
      discover_idle (fun other otherMem => idle other (before other otherMem).1 (before other otherMem).2)
        none none,
      List.foldl_cons, List.foldl_nil, discover_some, synchronize_own none none,
      discover_idle (fun other otherMem => idle other (after other otherMem).1 (after other otherMem).2)]
    · intro device deviceMem other otherMem
      rw [isManaged_foundDevices other deviceMem, decide_eq_false (Ne.symm (after other otherMem).2)]
    · intro link linkMem other otherMem
      rw [isManaged_foundLinks other linkMem, decide_eq_false (Ne.symm (after other otherMem).2)]
  have quiet := settles (early ++ [id] ++ rest) (by
    intro other otherMem
    simp only [List.mem_append, List.mem_singleton] at otherMem
    rcases otherMem with (isEarly | rfl) | isLate
    · exact (before other isEarly).1
    · exact member
    · exact (after other isLate).1) (by
    intro other otherMem
    have place := (later other).mpr (Or.inr otherMem)
    simp only [List.mem_append, List.mem_singleton]
    tauto) id member
  rw [order] at quiet
  simp only [updates, ne_eq, decide_not, Bool.not_eq_false', decide_eq_true_eq] at quiet
  have wholeSeen : ∀ other, other ∈ id :: (early.reverse ++ []) ↔ other ∈ seen := by
    intro other
    have place := earlier other
    have own : other = id → other ∈ seen := fun same => same ▸ seenId
    simp only [List.append_nil, List.mem_cons, List.mem_reverse]
    tauto
  have wholeControllers : ∀ other, other ∈ rest.reverse ++ id :: (early.reverse ++ []) ↔
      other ∈ controllers := by
    intro other
    have place := later other
    have own : other = id → other ∈ controllers := fun same => same ▸ member
    have inside := before other
    simp only [List.append_nil, List.mem_append, List.mem_cons, List.mem_reverse]
    tauto
  have again : ∀ other, other ∈ id :: (rest.reverse ++ id :: (early.reverse ++ [])) ↔
      other ∈ rest.reverse ++ id :: (early.reverse ++ []) := by
    intro other
    rw [List.mem_cons, or_iff_right_iff_imp, wholeControllers]
    exact fun same => same ▸ member
  rw [synchronize_own ownDevices (ownLinks _), renewed_congr again, gateway_congr again,
    gateway_congr wholeControllers, gateway_congr wholeSeen] at quiet
  exact (foundLinks_injective busy (renewed_links quiet)).symm

/-- Z-Wave discovery settles for every interleaving exactly when there is no
payload, or at most one controller reports nodes and the device it links to does
not depend on which of the other controllers were synchronized. -/
theorem zwave_settles_iff (reports : Text → Report) (controllers : List Text)
    (payload : Option (Payload α)) :
    Settles reports controllers payload ↔ ∀ current ∈ payload,
      Alone reports controllers ∧ Steady reports controllers current := by
  cases payload with
  | none =>
      constructor
      · exact fun _ current absent => by contradiction
      · intro _ order _ _ id _
        have kept (order : List Text) :
            order.foldl (discover reports) (none : Option (Payload α)) = none := by
          induction order with
          | nil => rfl
          | cons other order inductionHypothesis => exact inductionHypothesis
        rw [kept]
        rfl
  | some current =>
      constructor
      · intro settles other same
        rw [Option.mem_some_iff] at same
        subst same
        exact ⟨alone_of_settles settles, steady_of_settles settles⟩
      · intro condition
        exact settles_of_alone (condition current rfl).1 (condition current rfl).2

/-! ## Two controllers -/

/-- Every controller reports one node. -/
def oneNode : Text → Report := fun _ =>
  { homeId := some "3735928559".toList
    nodes := [
      { nodeId := 2
        name := some "Prise".toList
        label := none
        location := none
        manufacturer := none
        productId := some (.inl 2)
        productType := none
        firmwareVersion := none
        canSleep := false }] }

def bareInfrastructure : Payload Empty where
  services := []
  topology := none
  rest := ∅

/-- Of two controllers, the one that reported first updates the infrastructure
again, and so does the other after it. -/
theorem two_controllers_do_not_settle :
    let order := ["north".toList, "south".toList]
    let reached := order.foldl (discover oneNode) (some bareInfrastructure)
    updates "north".toList (oneNode "north".toList) reached = true ∧
      updates "south".toList (oneNode "south".toList)
        (discover oneNode reached "north".toList) = true ∧
      ¬ Settles oneNode order (some bareInfrastructure) := by
  have first : updates "north".toList (oneNode "north".toList)
      (["north".toList, "south".toList].foldl (discover oneNode) (some bareInfrastructure)) =
        true := by
    decide +kernel
  refine ⟨first, by decide +kernel, ?_⟩
  intro settles
  have quiet := settles ["north".toList, "south".toList] (fun _ listed => listed)
    (fun _ listed => listed) "north".toList List.mem_cons_self
  rw [first] at quiet
  contradiction

end OhanaAgent.Plugins
