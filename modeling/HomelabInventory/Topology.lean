import HomelabInventory.ExceptLoop
import HomelabInventory.Geometry

/-!
# Topology

The inventory of a project as the engine sees it: items with their ports, the
components assigned to hosts, the cables between endpoints, and the index of
endpoints that is built from them. An index carries the proof that it was built
from its own snapshot, so it never disagrees with it.
-/

namespace HomelabInventory

/-- Why a topology snapshot is rejected. -/
inductive TopologyError where
  | emptyType
  | invalidId
  | duplicateItem
  | duplicatePort
  | duplicatePortEndpoint
  | duplicateAssignment
  | duplicateConnection
  | missingItem
  | invalidHostedItem
  | invalidPort
  | invalidPortEndpoint
  | invalidRoute
  | unavailableEndpoint
  deriving DecidableEq

/-- The message of a topology error. -/
def TopologyError.display : TopologyError → String
  | .emptyType => "Topology type values must not be empty."
  | .invalidId => "Topology IDs must be positive integers."
  | .duplicateItem => "Topology item references must be unique."
  | .duplicatePort => "Port IDs must be unique within an inventory item."
  | .duplicatePortEndpoint => "Port endpoint IDs must be unique within a port."
  | .duplicateAssignment => "Topology assignment IDs must be unique."
  | .duplicateConnection => "Topology connection IDs must be unique."
  | .missingItem => "Topology relationship references a missing item."
  | .invalidHostedItem => "Hosted endpoint does not match an assignment to its host."
  | .invalidPort => "Topology endpoint references a missing port."
  | .invalidPortEndpoint => "Topology endpoint references an invalid port side."
  | .invalidRoute => "Connection route contains an invalid coordinate."
  | .unavailableEndpoint =>
    "Topology endpoint is not exposed by a direct host or assigned component."

/-! ## References -/

/-- A reference to an inventory item. -/
structure ItemRef where
  itemType : String
  id : ℕ
  deriving BEq, ReflBEq, LawfulBEq, DecidableEq

namespace ItemRef

instance : Ord ItemRef := ⟨compareLex (compareOn ItemRef.itemType) (compareOn ItemRef.id)⟩

instance : Std.TransOrd ItemRef :=
  inferInstanceAs (Std.TransCmp (compareLex (compareOn ItemRef.itemType) (compareOn ItemRef.id)))

instance : Std.LawfulEqOrd ItemRef := lawfulEqCmp_compareLex (by
  rintro ⟨itemType, id⟩ ⟨itemType', id'⟩ htype hid
  simp only [compareOn, Std.LawfulEqOrd.compare_eq_iff_eq] at htype hid
  rw [htype, hid])

/-- A reference has a type and a positive identifier. -/
def validate (item : ItemRef) : Except TopologyError Unit := do
  failIf (isBlank item.itemType) .emptyType
  failIf (item.id = 0) .invalidId

end ItemRef

/-- A reference to a port, or to one side of it, of an item or of a component
hosted by the item. -/
structure EndpointRef where
  item : ItemRef
  portId : ℕ
  endpointId : Option ℕ := none
  hostedItem : Option ItemRef := none
  deriving BEq, ReflBEq, LawfulBEq, DecidableEq

namespace EndpointRef

/-- The order of endpoints: by item, port, side and hosted component. -/
def compareFields : EndpointRef → EndpointRef → Ordering :=
  compareLex (compareOn EndpointRef.item) <|
    compareLex (compareOn EndpointRef.portId) <|
      compareLex (compareOn EndpointRef.endpointId) (compareOn EndpointRef.hostedItem)

instance : Ord EndpointRef := ⟨compareFields⟩

instance : Std.TransOrd EndpointRef := inferInstanceAs (Std.TransCmp
  (compareLex (compareOn EndpointRef.item) <|
    compareLex (compareOn EndpointRef.portId) <|
      compareLex (compareOn EndpointRef.endpointId) (compareOn EndpointRef.hostedItem)))

instance : Std.LawfulEqOrd EndpointRef := lawfulEqCmp_compareLex (by
  rintro ⟨item, portId, endpointId, hostedItem⟩ ⟨item', portId', endpointId', hostedItem'⟩ hitem h
  simp only [compareLex, Ordering.then_eq_eq, compareOn, Std.LawfulEqOrd.compare_eq_iff_eq]
    at hitem h
  obtain ⟨hport, hendpoint, hhosted⟩ := h
  rw [hitem, hport, hendpoint, hhosted])

/-- The item whose port the reference is about. -/
def owner (endpoint : EndpointRef) : ItemRef := endpoint.hostedItem.getD endpoint.item

end EndpointRef

/-! ## Snapshots -/

/-- One side of a port. -/
structure TopologyPortSide where
  id : ℕ
  side : String
  deriving BEq, ReflBEq, LawfulBEq, DecidableEq

/-- A port of an item. -/
structure TopologyPort where
  id : ℕ
  key : Option String := none
  portType : String
  slotNumber : ℕ
  speed : Option String := none
  endpoints : List TopologyPortSide := []
  deriving BEq, ReflBEq, LawfulBEq, DecidableEq

/-- An inventory item with its ports. -/
structure TopologyItem where
  item : ItemRef
  archived : Bool := false
  powerConfiguration : Option String := none
  powerAdapterDisposition : Option String := none
  allowOutletFanOut : Bool := false
  ports : List TopologyPort := []
  deriving BEq, ReflBEq, LawfulBEq, DecidableEq

/-- The slots of the host an assigned component takes. -/
structure AssignmentAllocation where
  resourceType : String
  groupId : Option ℕ := none
  positions : List ℕ
  deriving BEq, ReflBEq, LawfulBEq, DecidableEq

/-- A component assigned to a host. -/
structure TopologyAssignment where
  id : ℕ
  host : ItemRef
  item : ItemRef
  componentType : String
  assignedAt : String
  allocation : Option AssignmentAllocation := none
  deriving BEq, ReflBEq, LawfulBEq, DecidableEq

/-- The drawn course of a cable. -/
structure ConnectionRoute (K : Type) where
  sourceSide : Option String := none
  targetSide : Option String := none
  bendPoints : List (Point K) := []
  avoidCableOverlap : Bool := false
  deriving BEq, ReflBEq, LawfulBEq, DecidableEq

/-- A cable from one endpoint, the `source`, to another, the `target`. -/
structure TopologyConnection (K : Type) where
  id : ℕ
  source : EndpointRef
  target : EndpointRef
  connectionType : String
  negotiatedSpeedBps : Option ℕ := none
  label : Option String := none
  route : Option (ConnectionRoute K) := none
  createdAt : String
  deriving BEq, ReflBEq, LawfulBEq, DecidableEq

/-- A project's inventory, assignments, cables and placed items. -/
structure TopologySnapshot (K : Type) where
  items : List TopologyItem := []
  assignments : List TopologyAssignment := []
  connections : List (TopologyConnection K) := []
  placements : List ItemRef := []
  deriving BEq, ReflBEq, LawfulBEq, DecidableEq

/-! ## Kinds of items and ports -/

/-- Items whose own ports can be wired. -/
def exposesDirectPorts (itemType : String) : Bool :=
  ["server", "nas", "pcBuild", "switch", "patchPanel", "monitor", "ups", "powerStrip"].contains
    itemType

/-- Items that components can be assigned to. -/
def hostsComponents (itemType : String) : Bool := ["server", "nas", "pcBuild"].contains itemType

/-- Ports that carry network traffic. -/
def isNetworkPort (portType : String) : Bool := ["rj45", "sfp", "sfp-plus"].contains portType

/-- Ports that carry a display signal. -/
def isDisplayPort (portType : String) : Bool :=
  ["hdmi", "displayport", "mini-displayport"].contains portType

/-- Ports a cable can join. -/
def portsCompatible (first second : String) : Bool :=
  first == second || (isDisplayPort first && isDisplayPort second)

theorem exposesDirectPorts_of_hostsComponents {itemType : String}
    (h : hostsComponents itemType = true) : exposesDirectPorts itemType = true := by
  simp only [hostsComponents, exposesDirectPorts, List.contains_iff_mem, List.mem_cons,
    List.not_mem_nil, or_false] at h ⊢
  rcases h with h | h | h <;> simp [h]

/-! ## Validation of snapshots -/

/-- The sides of a port have positive, distinct identifiers and a name. -/
def validatePortSides (port : TopologyPort) : Except TopologyError (BTreeSet ℕ) :=
  port.endpoints.foldlM (fun (seen : BTreeSet ℕ) endpoint => do
    failIf (endpoint.id = 0) .invalidId
    failIf (isBlank endpoint.side) .emptyType
    failIf (endpoint.id ∈ seen) .duplicatePortEndpoint
    return seen.insert endpoint.id) ∅

/-- The ports of an item have positive, distinct identifiers, a type and a slot. -/
def validatePorts (item : TopologyItem) : Except TopologyError (BTreeSet ℕ) :=
  item.ports.foldlM (fun (seen : BTreeSet ℕ) port => do
    failIf (port.id = 0 ∨ port.slotNumber = 0 ∧ port.portType ≠ "ac-input") .invalidId
    failIf (isBlank port.portType) .emptyType
    failIf (port.id ∈ seen) .duplicatePort
    let _ ← validatePortSides port
    return seen.insert port.id) ∅

/-- The items have valid, distinct references and valid ports. -/
def validateItems (items : List TopologyItem) : Except TopologyError (BTreeSet ItemRef) :=
  items.foldlM (fun (seen : BTreeSet ItemRef) item => do
    item.item.validate
    failIf (item.item ∈ seen) .duplicateItem
    let _ ← validatePorts item
    return seen.insert item.item) ∅

/-- A stored allocation names its resource and no position twice. -/
def invalidAllocation (allocation : AssignmentAllocation) : Bool :=
  isBlank allocation.resourceType || allocation.groupId == some 0 ||
    (collectSet allocation.positions).size != allocation.positions.length

/-- The assignments have valid, distinct identifiers and join existing items,
each component at most once. -/
def validateAssignments (itemRefs : BTreeSet ItemRef) (assignments : List TopologyAssignment) :
    Except TopologyError (BTreeSet ℕ × BTreeSet ItemRef) :=
  assignments.foldlM (fun (seen : BTreeSet ℕ × BTreeSet ItemRef) assignment => do
    failIf (assignment.id = 0) .invalidId
    assignment.host.validate
    assignment.item.validate
    failIf (isBlank assignment.componentType ∨ isBlank assignment.assignedAt) .emptyType
    failIf (assignment.componentType ≠ assignment.item.itemType ∨
      !hostsComponents assignment.host.itemType) .invalidHostedItem
    failIf (assignment.allocation.any invalidAllocation) .invalidHostedItem
    failIf (assignment.id ∈ seen.1 ∨ assignment.item ∈ seen.2) .duplicateAssignment
    failIf (assignment.host ∉ itemRefs ∨ assignment.item ∉ itemRefs) .missingItem
    return (seen.1.insert assignment.id, seen.2.insert assignment.item)) (∅, ∅)

section Connections

variable {K : Type} [Scalar K]

/-- An endpoint reference names existing items, and a hosted component that is
assigned to its host. -/
def validateEndpointReference (snapshot : TopologySnapshot K) (endpoint : EndpointRef) :
    Except TopologyError Unit := do
  endpoint.item.validate
  failIf (endpoint.portId = 0 ∨ endpoint.endpointId = some 0) .invalidId
  endpoint.owner.validate
  failIf (endpoint.hostedItem.any fun hosted => !snapshot.assignments.any fun assignment =>
    assignment.host == endpoint.item && assignment.item == hosted) .invalidHostedItem
  failIf ((snapshot.items.find? fun item => item.item == endpoint.owner).isNone) .missingItem

/-- A drawn course with a coordinate that is not finite. -/
def invalidRoute (route : ConnectionRoute K) : Bool :=
  route.bendPoints.any fun point => !Scalar.isFinite point.x || !Scalar.isFinite point.y

/-- The connections have positive, distinct identifiers, valid ends and a drawable course. -/
def validateConnections (snapshot : TopologySnapshot K) : Except TopologyError (BTreeSet ℕ) :=
  snapshot.connections.foldlM (fun (seen : BTreeSet ℕ) connection => do
    failIf (connection.id = 0) .invalidId
    failIf (connection.id ∈ seen) .duplicateConnection
    validateEndpointReference snapshot connection.source
    validateEndpointReference snapshot connection.target
    failIf (connection.route.any invalidRoute) .invalidRoute
    return seen.insert connection.id) ∅

/-- A snapshot is consistent. -/
def TopologySnapshot.validate (snapshot : TopologySnapshot K) : Except TopologyError Unit := do
  let itemRefs ← validateItems snapshot.items
  let _ ← validateAssignments itemRefs snapshot.assignments
  let _ ← validateConnections snapshot
  snapshot.placements.forM fun placement => do
    placement.validate
    failIf (placement ∉ itemRefs) .missingItem

end Connections

/-! ## Endpoint descriptors -/

/-- The power role of an endpoint. -/
structure PowerEndpointDescriptor where
  direction : String
  kind : String
  allowFanOut : Bool
  deriving BEq, ReflBEq, LawfulBEq, DecidableEq

/-- What the index knows about an endpoint. -/
structure EndpointDescriptor where
  endpoint : EndpointRef
  host : ItemRef
  owner : ItemRef
  portType : String
  slotNumber : ℕ
  side : Option String
  speed : Option String
  connectionIds : List ℕ
  placed : Bool
  available : Bool
  power : Option PowerEndpointDescriptor
  deriving BEq, ReflBEq, LawfulBEq, DecidableEq

/-- The kind of a power input, when the port is one. -/
def powerInputKind (host owner : TopologyItem) : Option String :=
  if host.item = owner.item then
    match owner.item.itemType with
    | "monitor" => some "monitor-input"
    | "powerStrip" => some "power-strip-input"
    | "nas" =>
      if owner.powerConfiguration = some "internal-psu" then some "nas-internal-input"
      else if owner.powerConfiguration = some "external-adapter" ∧
        owner.powerAdapterDisposition = some "fixed" then some "oem-power-adapter-input"
      else none
    | _ => none
  else
    match host.item.itemType, owner.item.itemType with
    | "pcBuild", "powerSupply" => some "pc-power-supply-input"
    | "server", "powerAdapter" => some "oem-power-adapter-input"
    | "nas", "powerAdapter" =>
      if host.powerConfiguration = some "external-adapter" then some "oem-power-adapter-input"
      else none
    | _, _ => none

/-- The power role of a port. -/
def powerEndpoint (host owner : TopologyItem) (port : TopologyPort) :
    Option PowerEndpointDescriptor :=
  if port.portType = "ac-outlet" ∧ (owner.item.itemType = "ups" ∨ owner.item.itemType = "powerStrip")
  then
    some
      { direction := "output"
        kind := if owner.item.itemType = "ups" then "ups-outlet" else "power-strip-outlet"
        allowFanOut := owner.allowOutletFanOut }
  else if port.portType ≠ "ac-input" then none
  else
    (powerInputKind host owner).map fun kind =>
      { direction := "input", kind := kind, allowFanOut := false }

/-- The descriptor of a port, or of one side of it, before any cable is plugged in. -/
def describePort (host owner : TopologyItem) (placed : Bool) (port : TopologyPort)
    (side : Option TopologyPortSide) : EndpointDescriptor where
  endpoint :=
    { item := host.item
      portId := port.id
      endpointId := side.map (·.id)
      hostedItem := if host.item ≠ owner.item then some owner.item else none }
  host := host.item
  owner := owner.item
  portType := port.portType
  slotNumber := port.slotNumber
  side := side.map (·.side)
  speed := port.speed
  connectionIds := []
  placed := placed
  available := true
  power := powerEndpoint host owner port

/-- A port without sides is one endpoint, a port with sides one for each. -/
def portSides (port : TopologyPort) : List (Option TopologyPortSide) :=
  if port.endpoints.isEmpty then [none] else port.endpoints.map some

/-- The descriptors of an item's ports under a host; barrel connectors are left out. -/
def describeItemPorts (host owner : TopologyItem) (placed : Bool) : List EndpointDescriptor :=
  (owner.ports.filter fun port => port.portType ≠ "barrel").flatMap fun port =>
    (portSides port).map (describePort host owner placed port)

/-- Descriptors by endpoint. -/
abbrev EndpointMap := BTreeMap EndpointRef EndpointDescriptor

/-- Add the ports of an item to the index. -/
def indexItemPorts (endpoints : EndpointMap) (host owner : TopologyItem) (placed : Bool) :
    EndpointMap :=
  insertEntries endpoints ((describeItemPorts host owner placed).map fun d => (d.endpoint, d))

/-! ## The index -/

/-- The lookup tables of an index. -/
structure TopologyTables (K : Type) where
  snapshot : TopologySnapshot K
  endpoints : EndpointMap
  placements : BTreeSet ItemRef
  connectionIndexById : BTreeMap ℕ ℕ

namespace TopologyTables

variable {K : Type} [Scalar K]

/-- The ports that the items expose themselves. -/
def directEndpoints (placements : BTreeSet ItemRef) (items : List TopologyItem) : EndpointMap :=
  items.foldl (fun endpoints item =>
    if !item.archived && exposesDirectPorts item.item.itemType then
      indexItemPorts endpoints item item (placements.contains item.item)
    else endpoints) ∅

/-- Add the ports of the assigned components. -/
def hostedEndpoints (items : BTreeMap ItemRef TopologyItem) (placements : BTreeSet ItemRef)
    (endpoints : EndpointMap) (assignments : List TopologyAssignment) :
    Except TopologyError EndpointMap :=
  assignments.foldlM (fun endpoints assignment =>
    match items[assignment.host]?, items[assignment.item]? with
    | some host, some owner =>
      if host.archived || owner.archived || !hostsComponents host.item.itemType then .ok endpoints
      else .ok (indexItemPorts endpoints host owner (placements.contains host.item))
    | _, _ => .error .missingItem) endpoints

/-- Note a cable at one of its ends. -/
def plugEnd (connectionId : ℕ) (endpoints : EndpointMap) (endpoint : EndpointRef) :
    Except TopologyError EndpointMap :=
  match endpoints[endpoint]? with
  | some descriptor =>
    .ok (endpoints.insert endpoint
      { descriptor with connectionIds := descriptor.connectionIds ++ [connectionId] })
  | none =>
    if endpoint.hostedItem.isNone && !exposesDirectPorts endpoint.item.itemType then
      .error .unavailableEndpoint
    else .ok endpoints

/-- Note every cable at both of its ends. -/
def plugConnections (endpoints : EndpointMap) (connections : List (TopologyConnection K)) :
    Except TopologyError EndpointMap :=
  connections.foldlM (fun endpoints connection =>
    [connection.source, connection.target].foldlM (plugEnd connection.id) endpoints) endpoints

/-- Sort the cables of an endpoint and decide whether it takes another one. -/
def finishDescriptor (descriptor : EndpointDescriptor) : EndpointDescriptor :=
  let connectionIds := sortBy compare descriptor.connectionIds
  { descriptor with
    connectionIds := connectionIds
    available := connectionIds.isEmpty || descriptor.power.any (·.allowFanOut) }

/-- Build the tables of a snapshot. -/
def build (snapshot : TopologySnapshot K) : Except TopologyError (TopologyTables K) := do
  snapshot.validate
  let items := collectEntries (snapshot.items.map fun item => (item.item, item))
  let placements := collectSet snapshot.placements
  let endpoints ← hostedEndpoints items placements (directEndpoints placements snapshot.items)
    snapshot.assignments
  let endpoints ← plugConnections endpoints snapshot.connections
  return {
    snapshot := snapshot
    endpoints := endpoints.map fun _ descriptor => finishDescriptor descriptor
    placements := placements
    connectionIndexById := collectEntries
      (snapshot.connections.zipIdx.map fun entry => (entry.1.id, entry.2)) }

theorem snapshot_of_build {snapshot : TopologySnapshot K} {tables : TopologyTables K}
    (h : build snapshot = .ok tables) : tables.snapshot = snapshot := by
  simp only [build, bind_eq_ok, pure_eq_ok] at h
  obtain ⟨_, _, _, _, _, _, rfl⟩ := h
  rfl

end TopologyTables

/-- An index: lookup tables that were built from their own snapshot. -/
structure TopologyIndex (K : Type) [Scalar K] extends TopologyTables K where
  built : TopologyTables.build snapshot = .ok toTopologyTables

namespace TopologyIndex

variable {K : Type} [Scalar K]

/-- Build the index of a snapshot. -/
def build (snapshot : TopologySnapshot K) : Except TopologyError (TopologyIndex K) :=
  match h : TopologyTables.build snapshot with
  | .error error => .error error
  | .ok tables => .ok ⟨tables, by rw [TopologyTables.snapshot_of_build h, h]⟩

theorem build_eq_ok {snapshot : TopologySnapshot K} {index : TopologyIndex K} :
    build snapshot = .ok index ↔ index.snapshot = snapshot := by
  constructor
  · intro h
    unfold build at h
    split at h
    · cases h
    · rename_i tables htables
      cases h
      exact TopologyTables.snapshot_of_build htables
  · rintro rfl
    obtain ⟨tables, hbuilt⟩ := index
    unfold build
    split
    · rename_i error herror
      rw [hbuilt] at herror
      cases herror
    · rename_i tables' htables
      rw [hbuilt] at htables
      cases htables
      rfl

/-- Two indexes of one snapshot are the same. -/
theorem ext_snapshot {first second : TopologyIndex K} (h : first.snapshot = second.snapshot) :
    first = second := by
  have hfirst := build_eq_ok.mpr h
  have hsecond := build_eq_ok.mpr (rfl : second.snapshot = second.snapshot)
  rw [hfirst] at hsecond
  exact Except.ok.inj hsecond

/-- The endpoints in order. -/
def endpointList (index : TopologyIndex K) : List EndpointDescriptor := index.endpoints.values

/-- The descriptor of an endpoint. -/
def endpoint (index : TopologyIndex K) (endpoint : EndpointRef) : Option EndpointDescriptor :=
  index.endpoints[endpoint]?

end TopologyIndex

/-! ## Connection validation -/

/-- The verdict on a cable between two endpoints. -/
structure ConnectionValidation where
  ok : Bool
  code : Option String := none
  message : Option String := none
  deriving DecidableEq

/-- A negative verdict. -/
def invalid (code message : String) : ConnectionValidation where
  ok := false
  code := some code
  message := some message

namespace TopologyIndex

variable {K : Type} [Scalar K]

/-- The verdict on the power roles and port types of two endpoints. -/
def validatePortPair (first second : EndpointDescriptor) : ConnectionValidation :=
  match first.power, second.power with
  | some firstPower, some secondPower =>
    if firstPower.direction = secondPower.direction then
      invalid "invalid-power-direction" "Power connections must run from an outlet to an AC input."
    else { ok := true }
  | some _, none | none, some _ =>
    invalid "incompatible-port-type" "Power endpoints can only connect to other power endpoints."
  | none, none =>
    if !portsCompatible first.portType second.portType then
      invalid "incompatible-port-type" "Those port types cannot be connected."
    else { ok := true }

/-- Whether a cable may join two endpoints. -/
def validateConnection (index : TopologyIndex K) (first second : EndpointRef) :
    ConnectionValidation :=
  if first = second then invalid "same-endpoint" "Choose two different ports to connect."
  else
    match index.endpoint first, index.endpoint second with
    | some firstDescriptor, some secondDescriptor =>
      if firstDescriptor.host = secondDescriptor.host then
        invalid "same-host" "Choose a port on different equipment."
      else
        let pair := validatePortPair firstDescriptor secondDescriptor
        if !pair.ok then pair
        else if !firstDescriptor.available then
          invalid "source-occupied" "The source port is already connected."
        else if !secondDescriptor.available then
          invalid "destination-occupied" "The destination port is already connected."
        else { ok := true }
    | _, _ => invalid "stale-endpoint" "One of the selected ports is no longer available."

/-- The placed endpoints on other equipment that a cable from an endpoint may reach. -/
def compatibleDestinations (index : TopologyIndex K) (source : EndpointRef) :
    List EndpointDescriptor :=
  match index.endpoint source with
  | none => []
  | some sourceDescriptor =>
    index.endpointList.filter fun target =>
      target.placed && target.host != sourceDescriptor.host &&
        (index.validateConnection source target.endpoint).ok

end TopologyIndex

/-! ## Two small projects -/

/-- A monitor and an uninterruptible power supply with one outlet. -/
def poweredDesk : TopologySnapshot ℚ where
  items :=
    [{ item := ⟨"monitor", 1⟩, ports := [{ id := 1, portType := "ac-input", slotNumber := 1 }] },
      { item := ⟨"ups", 2⟩, ports := [{ id := 1, portType := "ac-outlet", slotNumber := 1 }] }]
  placements := [⟨"monitor", 1⟩]

/-- A server that a patch panel connects to a switch. -/
def patchedServer : TopologySnapshot ℚ where
  items :=
    [{ item := ⟨"server", 1⟩,
       ports := [{ id := 1, portType := "rj45", slotNumber := 1, speed := some "2.5G" }] },
     { item := ⟨"patchPanel", 2⟩
       ports := [{ id := 1, portType := "rj45", slotNumber := 1,
                   endpoints := [⟨1, "front"⟩, ⟨2, "back"⟩] }] },
     { item := ⟨"switch", 3⟩
       ports := [{ id := 1, portType := "rj45", slotNumber := 1, speed := some "1G" }] }]
  connections :=
    [{ id := 1
       source := { item := ⟨"server", 1⟩, portId := 1 }
       target := { item := ⟨"patchPanel", 2⟩, portId := 1, endpointId := some 1 }
       connectionType := "network", createdAt := "today" },
     { id := 2
       source := { item := ⟨"switch", 3⟩, portId := 1 }
       target := { item := ⟨"patchPanel", 2⟩, portId := 1, endpointId := some 2 }
       connectionType := "network", createdAt := "today" }]

/-- The same before the switch is connected. -/
def halfPatched : TopologySnapshot ℚ :=
  { patchedServer with connections := patchedServer.connections.take 1 }

end HomelabInventory
