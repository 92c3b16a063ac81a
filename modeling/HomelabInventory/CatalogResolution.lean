import HomelabInventory.ExceptLoop
import HomelabInventory.Lookup
import HomelabInventory.RecordTable
import HomelabInventory.WlanResources

/-!
# Resolving a catalog update

When an update of a catalog item changes its ports or resources, the cables plugged into
the item and the components assigned to it have to follow. A plan lists the operations
that make them follow: cable ends move to other ports, assignments move to the renamed
resource or are released. Applying the plan checks each operation against the project as
the operations before it left it.
-/

namespace HomelabInventory.CatalogResolution

open Compatibility (TextRules)
open Wlan (Resource Host trimSpace isPositiveId resourceCount maxSafeInteger)

/-! ## The project -/

/-- The kinds of resource of a host. -/
inductive ResourceType where
  | storage
  | expansion
  | optionalModule
  | controllerSlot
  | bootDeviceSlot
  /-- a kind that no collection of a host holds, such as `cpu` -/
  | other (name : String)
  deriving DecidableEq

/-- The name of a kind of resource. -/
def ResourceType.name : ResourceType → String
  | storage => "storage"
  | expansion => "expansion"
  | optionalModule => "optionalModule"
  | controllerSlot => "controllerSlot"
  | bootDeviceSlot => "bootDeviceSlot"
  | other name => name

/-- The resource an assigned component occupies, and its slots in it. An older
allocation names its resource by the key alone. -/
structure Allocation where
  resourceType : ResourceType
  resourceKey : Option String
  groupId : Option ℤ
  positions : List ℤ
  deriving DecidableEq

/-- A component assigned to a host. -/
structure Assignment where
  id : ℕ
  serverId : String
  itemId : String
  type : String
  allocation : Option Allocation
  deriving DecidableEq

/-- An end of a cable. A hosted item has the port when there is one. -/
structure Endpoint where
  itemId : String
  portId : ℕ
  endpointId : Option ℕ
  hostedItemId : Option String
  deriving DecidableEq

/-- A cable. -/
structure Connection where
  id : ℕ
  source : Endpoint
  target : Endpoint
  deriving DecidableEq

/-- The two ends of a cable, `from` and `to`. -/
inductive EndpointRole where
  | source
  | target
  deriving DecidableEq

/-- The end of a cable in a role. -/
def Connection.endpoint (connection : Connection) : EndpointRole → Endpoint
  | .source => connection.source
  | .target => connection.target

/-- Replace the end of a cable in a role. -/
def Connection.setEndpoint (connection : Connection) (role : EndpointRole)
    (endpoint : Endpoint) : Connection :=
  match role with
  | .source => { connection with source := endpoint }
  | .target => { connection with target := endpoint }

/-- What tells products apart. -/
structure Definition where
  type : String
  manufacturer : Option String
  model : Option String
  number : Option String
  deriving DecidableEq

/-- An item of the inventory. -/
structure StoredItem extends Definition where
  id : ℕ
  deriving DecidableEq

/-- A project: its items by their key, the assignments and the cables. -/
structure Project where
  items : List (String × StoredItem)
  assignments : List Assignment
  connections : List Connection
  deriving DecidableEq

/-- The item with a key. -/
def Project.item? (project : Project) (key : String) : Option StoredItem :=
  InsertionMap.get? project.items key

/-- The ends of all cables, in the order of the cables. -/
def Project.ends (project : Project) : List (Connection × EndpointRole) :=
  project.connections.flatMap fun connection => [(connection, .source), (connection, .target)]

/-- The key of an item. -/
def runtimeKey (type : String) (id : ℕ) : String := type ++ ":" ++ toString id

/-! ## The catalog item -/

/-- A port of a catalog item. -/
structure Port where
  id : ℕ
  key : Option String
  type : String
  deriving DecidableEq

/-- A component that is part of an item. -/
structure FixedComponent where
  id : ℕ
  componentType : String
  item : Definition
  deriving DecidableEq

/-- A catalog item: the current or the next definition of an inventory item. -/
structure CatalogItem where
  ports : List Port
  fixedComponents : List FixedComponent
  host : Host
  /-- `compatibility.host.power.configuration` -/
  powerConfiguration : Option String
  /-- `compatibility.host.power.adapterDisposition` -/
  adapterDisposition : Option String
  /-- `specs.powerConfiguration` -/
  specPowerConfiguration : Option String
  deriving DecidableEq

/-- The inventory item that a catalog update is about. -/
structure Link where
  itemType : String
  itemId : ℕ
  deriving DecidableEq

/-- The key of the item that is updated. -/
def Link.hostKey (link : Link) : String := runtimeKey link.itemType link.itemId

/-! ## Power -/

/-- How a NAS is powered. -/
inductive PowerConfiguration where
  | internalPsu
  | externalAdapter
  deriving DecidableEq

/-- Whether an external adapter can be replaced. -/
inductive AdapterDisposition where
  | fixed
  | replaceable
  deriving DecidableEq

/-- The configuration with a name. -/
def powerConfiguration? : Option String → Option PowerConfiguration
  | some "internal-psu" => some .internalPsu
  | some "external-adapter" => some .externalAdapter
  | _ => none

/-- How an item is powered, and for an external adapter whether it can be replaced. -/
def nasPowerTopology (item : CatalogItem) : PowerConfiguration × Option AdapterDisposition :=
  let configuration := ((powerConfiguration? item.powerConfiguration).or
    (powerConfiguration? item.specPowerConfiguration)).getD .internalPsu
  match configuration with
  | .externalAdapter => (.externalAdapter,
      some (if item.adapterDisposition = some "fixed" then .fixed else .replaceable))
  | .internalPsu => (.internalPsu, none)

/-- The item has the power inlet, not its adapter. -/
def nasOwnsPowerEndpoint (item : CatalogItem) : Bool :=
  (nasPowerTopology item).1 == .internalPsu || (nasPowerTopology item).2 == some .fixed

/-! ## Operations -/

/-- The port of an item that an operation moves a cable end from or to. -/
structure EndpointRef where
  itemType : String
  itemId : ℕ
  hostedItemType : Option String
  hostedItemId : Option ℕ
  portId : ℕ
  deriving DecidableEq

/-- The resource that an operation moves assignments from or to. -/
structure ResourceRef where
  resourceType : ResourceType
  resourceId : Option ℤ
  key : String
  label : Option String
  deriving DecidableEq

/-- An operation of a plan. An unassigned item always returns to the inventory. -/
inductive Operation where
  /-- `unassign-item` -/
  | unassignItem (assignmentId : ℕ) (itemType : String) (itemId : Option ℕ)
  /-- `remap-resource-key` -/
  | remapResourceKey (resourceType : ResourceType) (resourceId : Option ℤ)
      (fromKey toKey : String) (assignmentIds : List ℕ)
  /-- `reclassify-resource` -/
  | reclassifyResource (source target : ResourceRef) (assignmentIds : List ℕ)
  /-- `move-connection-endpoint` -/
  | moveConnectionEndpoint (connectionId : ℕ) (endpointRole : EndpointRole)
      (source target : EndpointRef)
  deriving DecidableEq

/-- The relationships a plan changes. -/
structure AffectedRelationships where
  connectionIds : List ℕ
  assignmentIds : List ℕ
  deriving DecidableEq

/-- A plan, or why there is none. -/
structure Plan where
  available : Bool
  operations : List Operation
  affectedRelationships : AffectedRelationships
  reason : String
  deriving DecidableEq

/-! ## Ports -/

/-- A text to compare by. -/
def normalizedText (rules : TextRules) (value : Option String) : String :=
  match value with
  | some value => rules.toLowerCase (trimSpace value)
  | none => ""

/-- The only element of a list. -/
def unique {α : Type} : List α → Option α
  | [value] => some value
  | _ => none

/-- The only port with a key and a type. -/
def uniquePortByKey (rules : TextRules) (ports : List Port) (key : Option String)
    (type : String) : Option Port :=
  let normalizedKey := normalizedText rules key
  if normalizedKey = "" then none
  else unique (ports.filter fun port =>
    normalizedText rules port.key == normalizedKey && port.type == type)

/-- The port of the next item that a port of the current one becomes. -/
def targetPort (rules : TextRules) (currentPort : Port) (nextPorts : List Port) : Option Port :=
  match nextPorts.find? fun port => port.id == currentPort.id with
  | some sameId =>
    if sameId.type = currentPort.type then some sameId
    else uniquePortByKey rules nextPorts currentPort.key currentPort.type
  | none => uniquePortByKey rules nextPorts currentPort.key currentPort.type

/-- The port is one of a hosted item. -/
def Endpoint.isHosted (endpoint : Endpoint) : Bool :=
  match endpoint.hostedItemId with
  | some hosted => hosted != ""
  | none => false

/-- Move a cable end to the port that its port becomes. -/
def portRemapOperation (rules : TextRules) (current next : CatalogItem) (link : Link)
    (hostKey : String) (connection : Connection) (role : EndpointRole) :
    Except String (Option Operation) :=
  let endpoint := connection.endpoint role
  if endpoint.itemId ≠ hostKey ∨ endpoint.isHosted = true then .ok none
  else
    match current.ports.find? fun port => port.id == endpoint.portId with
    | none => .error ("Connection " ++ toString connection.id ++
        " references missing current port " ++ toString endpoint.portId ++ ".")
    | some currentPort =>
      match targetPort rules currentPort next.ports with
      | none => .error ("Connected port " ++ toString endpoint.portId ++
          " has no unique target in the Registry definition.")
      | some target =>
        if target.id = endpoint.portId then .ok none
        else .ok (some (.moveConnectionEndpoint connection.id role
          ⟨link.itemType, link.itemId, none, none, endpoint.portId⟩
          ⟨link.itemType, link.itemId, none, none, target.id⟩))

/-- Move the cable ends on the item's own ports. -/
def portRemapOperations (rules : TextRules) (current next : CatalogItem) (project : Project)
    (link : Link) (hostKey : String) : Except String (List Operation) := do
  let operations ← project.ends.mapM fun entry =>
    portRemapOperation rules current next link hostKey entry.1 entry.2
  return operations.reduceOption

/-- The power adapters assigned to a host. -/
def assignedAdapters (project : Project) (hostKey : String) : List Assignment :=
  project.assignments.filter fun assignment =>
    assignment.serverId == hostKey && assignment.type == "powerAdapter"

/-- Move a cable end from the adapter to the item's own inlet. -/
def adapterOperation (project : Project) (link : Link) (hostKey : String)
    (assignment : Assignment) (target : Port) (connection : Connection) (role : EndpointRole) :
    Option Operation :=
  let endpoint := connection.endpoint role
  if endpoint.itemId ≠ hostKey ∨ endpoint.hostedItemId ≠ some assignment.itemId then none
  else some (.moveConnectionEndpoint connection.id role
    ⟨link.itemType, link.itemId, some "powerAdapter",
      (project.item? assignment.itemId).map StoredItem.id, endpoint.portId⟩
    ⟨link.itemType, link.itemId, none, none, target.id⟩)

/-- The adapter of the current item is replaced by an inlet of its own. -/
def losesAdapter (current next : CatalogItem) (link : Link) : Bool :=
  link.itemType == "nas" && nasPowerTopology current == (.externalAdapter, some .replaceable) &&
    nasOwnsPowerEndpoint next

/-- The power inlets of an item. -/
def acInputs (item : CatalogItem) : List Port :=
  item.ports.filter fun port => port.key == some "ac-input" && port.type == "ac-input"

/-- Release the power adapter and move its cable ends to the item's own inlet. -/
def powerAdapterOperations (current next : CatalogItem) (project : Project) (link : Link)
    (hostKey : String) : Except String (List Operation) :=
  if losesAdapter current next link = false then .ok []
  else
    match assignedAdapters project hostKey with
    | [] => .ok []
    | [assignment] =>
      match unique (acInputs next) with
      | none => .error "The fixed NAS power topology has no unique AC input."
      | some target =>
        .ok (project.ends.filterMap (fun entry =>
            adapterOperation project link hostKey assignment target entry.1 entry.2) ++
          [.unassignItem assignment.id "powerAdapter"
            ((project.item? assignment.itemId).map StoredItem.id)])
    | _ => .error "More than one power adapter is assigned to this NAS."

/-! ## Fixed components -/

/-- An item is the product that a definition describes. -/
def itemIdentityMatches (rules : TextRules) (item : Option StoredItem) (definition : Definition) :
    Bool :=
  match item with
  | none => false
  | some item =>
    let fields := [(item.manufacturer, definition.manufacturer), (item.model, definition.model),
      (item.number, definition.number)]
    let comparable := fields.filter fun field => normalizedText rules field.2 != ""
    item.type == definition.type && !comparable.isEmpty &&
      comparable.all fun field => normalizedText rules field.1 == normalizedText rules field.2

/-- The assigned components that a fixed component is. -/
def fixedMatches (rules : TextRules) (project : Project) (hostKey : String)
    (component : FixedComponent) : List Assignment :=
  project.assignments.filter fun assignment =>
    assignment.serverId == hostKey && assignment.type == component.componentType &&
      itemIdentityMatches rules (project.item? assignment.itemId) component.item

/-- A cable is plugged into a port of a component. -/
def hasHostedCable (project : Project) (itemId : String) : Bool :=
  project.connections.any fun connection =>
    connection.source.hostedItemId == some itemId || connection.target.hostedItemId == some itemId

/-- Release the assigned component that a fixed component is. -/
def fixedComponentOperation (rules : TextRules) (project : Project) (hostKey : String)
    (component : FixedComponent) : Except String (Option Operation) :=
  match fixedMatches rules project hostKey component with
  | [] => .ok none
  | [assignment] =>
    if hasHostedCable project assignment.itemId then
      .error ("Assigned " ++ component.componentType ++ " " ++ assignment.itemId ++
        " has a connected port without a unique fixed endpoint.")
    else
      .ok (some (.unassignItem assignment.id
        (((project.item? assignment.itemId).map fun item => item.type).getD
          component.componentType)
        ((project.item? assignment.itemId).map StoredItem.id)))
  | _ => .error ("More than one assigned " ++ component.componentType ++
      " matches fixed component " ++ toString component.id ++ ".")

/-- The key of a fixed component. -/
def FixedComponent.key (component : FixedComponent) : String :=
  component.componentType ++ ":" ++ toString component.id

/-- The fixed components that an update adds. -/
def newFixedComponents (current next : CatalogItem) : List FixedComponent :=
  next.fixedComponents.filter fun component =>
    !(current.fixedComponents.map FixedComponent.key).contains component.key

/-- Release the assigned components that become part of the item. -/
def fixedComponentOperations (rules : TextRules) (current next : CatalogItem) (project : Project)
    (hostKey : String) : Except String (List Operation) := do
  let operations ← (newFixedComponents current next).mapM
    (fixedComponentOperation rules project hostKey)
  return operations.reduceOption

/-! ## Resources -/

/-- A resource of a host with its kind. -/
structure HostResource extends Resource where
  resourceType : ResourceType
  deriving DecidableEq

/-- The resources of an item. -/
def hostResources (item : CatalogItem) : List HostResource :=
  item.host.storageSlots.map (fun resource => ⟨resource, .storage⟩) ++
    item.host.expansionSlots.map (fun resource => ⟨resource, .expansion⟩) ++
    item.host.optionalModuleSlots.map (fun resource => ⟨resource, .optionalModule⟩) ++
    item.host.controllerSlots.map (fun resource => ⟨resource, .controllerSlot⟩) ++
    item.host.bootDeviceSlots.map (fun resource => ⟨resource, .bootDeviceSlot⟩)

/-- The kind and id of a resource, which stand for the text `kind:id`. -/
def resourceIdentity (resource : HostResource) : Option (ResourceType × ℤ) :=
  if isPositiveId resource.id then resource.id.map (resource.resourceType, ·) else none

/-- The text of an identity. -/
def identityText (identity : ResourceType × ℤ) : String :=
  identity.1.name ++ ":" ++ toString identity.2

/-- A number that may be absent, as text. -/
def idText (id : Option ℤ) : String := (id.map toString).getD "undefined"

/-- The assignments to a resource: by its id, an older one by its key. -/
def resourceAssignments (project : Project) (hostKey : String) (resource : HostResource) :
    List Assignment :=
  project.assignments.filter fun assignment =>
    assignment.serverId == hostKey &&
      match assignment.allocation with
      | none => false
      | some allocation => allocation.resourceType == resource.resourceType &&
          (allocation.groupId == resource.id ||
            (allocation.groupId.isNone && allocation.resourceKey == some resource.key))

/-- Release a component. -/
def releaseAssignment (project : Project) (assignment : Assignment) : Operation :=
  .unassignItem assignment.id
    (((project.item? assignment.itemId).map fun item => item.type).getD assignment.type)
    ((project.item? assignment.itemId).map StoredItem.id)

/-- Every slot taken in a resource is one of the resource that replaces it. -/
def checkPositions (assignments : List Assignment) (count : ℤ) (subject : String) :
    Except String Unit :=
  (assignments.flatMap fun assignment =>
      (assignment.allocation.map Allocation.positions).getD []).forM fun position =>
    failIf (maxSafeInteger < position ∨ position < 0 ∨ count ≤ position)
      (subject ++ " uses position " ++ toString (position + 1) ++
        ", but the proposed resource has " ++ toString count ++ " slots.")

/-- The ids of assignments, in order. -/
def sortedIds (assignments : List Assignment) : List ℕ :=
  (assignments.map Assignment.id).mergeSort

/-- Add a resource to an index by identity. -/
def indexResource (index : List ((ResourceType × ℤ) × HostResource)) (resource : HostResource) :
    Except String (List ((ResourceType × ℤ) × HostResource)) :=
  match resourceIdentity resource with
  | none => .ok index
  | some identity =>
    if (InsertionMap.get? index identity).isSome then
      .error ("The proposed topology contains duplicate resource identity " ++
        identityText identity ++ ".")
    else .ok (index ++ [(identity, resource)])

/-- The next resources by their identity. -/
def indexResources (nextResources : List HostResource) :
    Except String (List ((ResourceType × ℤ) × HostResource)) :=
  nextResources.foldlM indexResource []

/-- What marks a resource as handled by the migration. -/
def HostResource.mark (resource : HostResource) : String :=
  resource.resourceType.name ++ ":" ++ idText resource.id ++ ":" ++ resource.key

/-- The operations for the assignments to one resource of the current item. -/
def resourceOperations (project : Project) (hostKey : String)
    (nextResources : List HostResource) (nextByIdentity : List ((ResourceType × ℤ) × HostResource))
    (resource : HostResource) : Except String (List Operation) := do
  let assignments := resourceAssignments project hostKey resource
  if assignments = [] then return []
  match (resourceIdentity resource).bind (InsertionMap.get? nextByIdentity) with
  | some sameIdentity =>
    if sameIdentity.key = resource.key then return []
    checkPositions assignments (resourceCount sameIdentity.toResource)
      ("Assigned resource " ++ resource.resourceType.name ++ ":" ++ idText resource.id)
    return [.remapResourceKey resource.resourceType resource.id resource.key sameIdentity.key
      (sortedIds assignments)]
  | none =>
    let sameKeyTargets := nextResources.filter fun candidate =>
      candidate.resourceType == resource.resourceType && candidate.key == resource.key
    if sameKeyTargets.length = 1 then return []
    return assignments.map (releaseAssignment project)

/-- The slot that migrates, as a resource of the host. -/
def migratedSource (migration : Wlan.Migration) : HostResource := ⟨migration.source, .expansion⟩

/-- The reclassification of the slot that migrates. -/
def wlanResourceReclassification (migration : Wlan.Migration) (assignmentIds : List ℕ) :
    Operation :=
  .reclassifyResource
    ⟨.expansion, migration.source.id, migration.source.key, migration.source.label⟩
    ⟨.optionalModule, migration.source.id, migration.destination.key, migration.destination.label⟩
    assignmentIds.mergeSort

/-- The operations of the migration of the wireless card slot. -/
def migrationOperations (project : Project) (hostKey : String) :
    Wlan.MigrationPlan → List HostResource → Except String (List Operation)
  | .none, _ => return []
  | .ambiguous reason, legacy => if legacy = [] then return [] else .error reason
  | .ready migration, _ => do
    let assignments := resourceAssignments project hostKey (migratedSource migration)
    checkPositions assignments migration.count "Assigned WLAN resource"
    return [wlanResourceReclassification migration (assignments.map Assignment.id)]

/-- The resources that the migration handles. -/
def handledResources : Wlan.MigrationPlan → List String
  | .ready migration => [(migratedSource migration).mark]
  | _ => []

/-- Move or release the assignments to resources that an update renames or drops. -/
def resourceRelationshipOperations (rules : TextRules) (current next : CatalogItem)
    (project : Project) (hostKey : String) : Except String (List Operation) := do
  let currentResources := hostResources current
  let nextResources := hostResources next
  if currentResources = [] then return []
  let nextByIdentity ← indexResources nextResources
  let wlanMigration := Wlan.planWlanResourceMigration rules current.host next.host
  let migrated ← migrationOperations project hostKey wlanMigration
    (currentResources.filter fun resource => resource.resourceType == .expansion &&
      Wlan.isLegacyWlanExpansionResource rules resource.toResource)
  let operations ← (currentResources.filter fun resource =>
      !(handledResources wlanMigration).contains resource.mark).mapM
    (resourceOperations project hostKey nextResources nextByIdentity)
  return migrated ++ operations.flatten

/-! ## The plan -/

/-- What makes an operation one that is in the plan already. A text of a kind and an id,
which hold no colon, is kept in its parts. -/
inductive OperationKey where
  /-- `assignment:id` -/
  | assignment (id : ℕ)
  /-- `resource:kind:id:rest` -/
  | resource (resourceType : ResourceType) (id : Option ℤ) (rest : String)
  /-- `connection:id:role` -/
  | connection (id : ℕ) (role : EndpointRole)
  deriving DecidableEq

/-- The key of an operation. -/
def Operation.key : Operation → OperationKey
  | .unassignItem assignmentId _ _ => .assignment assignmentId
  | .remapResourceKey resourceType resourceId fromKey toKey _ =>
    .resource resourceType resourceId (fromKey ++ ":" ++ toKey)
  | .reclassifyResource source target _ =>
    .resource source.resourceType source.resourceId (source.key ++ ":" ++
      (target.resourceType.name ++ ":" ++ idText target.resourceId ++ ":" ++ target.key))
  | .moveConnectionEndpoint connectionId endpointRole _ _ => .connection connectionId endpointRole

/-- Keep the first operation of each key. -/
def deduplicateOperations (operations : List Operation) : List Operation :=
  operations.foldl (fun kept operation =>
    if (kept.map Operation.key).contains operation.key then kept else kept ++ [operation]) []

/-- The cable whose end an operation moves. -/
def Operation.connectionId? : Operation → Option ℕ
  | .moveConnectionEndpoint connectionId _ _ _ => some connectionId
  | _ => none

/-- The assignments an operation changes. -/
def Operation.assignmentIds : Operation → List ℕ
  | .unassignItem assignmentId _ _ => [assignmentId]
  | .remapResourceKey _ _ _ _ assignmentIds => assignmentIds
  | .reclassifyResource _ _ assignmentIds => assignmentIds
  | .moveConnectionEndpoint _ _ _ _ => []

/-- The operations that an update requires, or why they are not determined. -/
def plannedOperations (rules : TextRules) (current next : CatalogItem) (project : Project)
    (link : Link) : Except String (List Operation) := do
  let hostKey := link.hostKey
  let ports ← portRemapOperations rules current next project link hostKey
  let adapters ← powerAdapterOperations current next project link hostKey
  let fixed ← fixedComponentOperations rules current next project hostKey
  let resources ← resourceRelationshipOperations rules current next project hostKey
  return ports ++ adapters ++ fixed ++ resources

/-- Plan how the relationships of a project follow an update of an item. -/
def buildCatalogResolutionPlan (rules : TextRules) (current next : CatalogItem)
    (project : Project) (link : Link) : Plan :=
  match plannedOperations rules current next project link with
  | .error reason => ⟨false, [], ⟨[], []⟩, reason⟩
  | .ok planned =>
    let operations := deduplicateOperations planned
    { available := !operations.isEmpty
      operations
      affectedRelationships :=
        { connectionIds := InsertionMap.distinct (operations.filterMap Operation.connectionId?)
          assignmentIds := InsertionMap.distinct (operations.flatMap Operation.assignmentIds) }
      reason := if operations.isEmpty then "No relationship migration is required."
        else "A deterministic relationship migration is available." }

/-! ## Applying a plan -/

/-- The allocation is the one an operation moves from. -/
def Assignment.isAt (assignment : Assignment) (resourceType : ResourceType)
    (resourceId : Option ℤ) (key : String) : Bool :=
  match assignment.allocation with
  | some allocation => allocation.resourceType == resourceType &&
      allocation.resourceKey == some key && allocation.groupId == resourceId
  | none => false

/-- Move an allocation to another resource. -/
def Assignment.moveTo (assignment : Assignment) (resourceType : ResourceType)
    (resourceId : Option ℤ) (key : String) : Assignment :=
  { assignment with
    allocation := assignment.allocation.map fun allocation =>
      { allocation with resourceType, groupId := resourceId, resourceKey := some key } }

/-- Move one assignment from a resource to another, which is where it has to be. -/
def moveAssignment (source target : ResourceRef) (migration : String) (draft : Project)
    (assignmentId : ℕ) : Except String Project :=
  match lookup Assignment.id draft.assignments assignmentId with
  | none => .error ("Assignment " ++ toString assignmentId ++ " does not exist.")
  | some assignment =>
    if assignment.isAt source.resourceType source.resourceId source.key = false then
      .error ("Assignment " ++ toString assignmentId ++ " changed after the resource " ++
        migration ++ " was planned.")
    else .ok { draft with
      assignments := modifyFirst (fun entry => entry.id == assignmentId)
        (fun entry => entry.moveTo target.resourceType target.resourceId target.key)
        draft.assignments }

/-- Remove an assignment. -/
def unassignItem (draft : Project) (assignmentId : ℕ) : Except String Project :=
  match lookup Assignment.id draft.assignments assignmentId with
  | none => .error ("Assignment " ++ toString assignmentId ++ " does not exist.")
  | some _ => .ok { draft with
      assignments := spliceOut Assignment.id assignmentId draft.assignments }

/-- The cable end is the one an operation moves. -/
def Endpoint.isAt (endpoint : Endpoint) (source : EndpointRef) : Bool :=
  endpoint.itemId == runtimeKey source.itemType source.itemId &&
    endpoint.portId == source.portId &&
    match source.hostedItemId with
    | none => true
    | some hosted =>
      endpoint.hostedItemId == some (runtimeKey (source.hostedItemType.getD "undefined") hosted)

/-- The cable end an operation moves to. -/
def EndpointRef.endpoint (target : EndpointRef) : Endpoint :=
  { itemId := runtimeKey target.itemType target.itemId
    portId := target.portId
    endpointId := none
    hostedItemId := target.hostedItemId.map
      (runtimeKey (target.hostedItemType.getD "undefined")) }

/-- Move an end of a cable. -/
def moveConnectionEndpoint (draft : Project) (connectionId : ℕ) (role : EndpointRole)
    (source target : EndpointRef) : Except String Project :=
  match lookup Connection.id draft.connections connectionId with
  | none => .error ("Connection " ++ toString connectionId ++ " endpoint does not exist.")
  | some connection =>
    if (connection.endpoint role).isAt source = false then
      .error ("Connection " ++ toString connectionId ++
        " changed after the resolution was planned.")
    else .ok { draft with
      connections := modifyFirst (fun entry => entry.id == connectionId)
        (fun entry => entry.setEndpoint role target.endpoint) draft.connections }

/-- Apply one operation of a plan. -/
def applyOperation (draft : Project) : Operation → Except String Project
  | .unassignItem assignmentId _ _ => unassignItem draft assignmentId
  | .remapResourceKey resourceType resourceId fromKey toKey assignmentIds =>
    assignmentIds.foldlM (moveAssignment ⟨resourceType, resourceId, fromKey, none⟩
      ⟨resourceType, resourceId, toKey, none⟩ "remap") draft
  | .reclassifyResource source target assignmentIds =>
    assignmentIds.foldlM (moveAssignment source target "migration") draft
  | .moveConnectionEndpoint connectionId role source target =>
    moveConnectionEndpoint draft connectionId role source target

/-- Apply a plan to a copy of the project. -/
def applyCatalogResolutionPlan (project : Project) (plan : Plan) : Except String Project :=
  if plan.available = false then .error
    (if plan.reason = "" then "Catalog update resolution is unavailable." else plan.reason)
  else plan.operations.foldlM applyOperation project

end HomelabInventory.CatalogResolution
