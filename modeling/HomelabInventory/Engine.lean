import HomelabInventory.Protocol

/-!
# The engine

The authoritative state of a project and the commands on it. A command computes
its outcome from the current state first and is committed afterwards; a request
that is turned down leaves the state as it was.
-/

namespace HomelabInventory

/-- The state of an engine. -/
structure Engine (K : Type) [Scalar K] where
  revision : ℕ
  projectName : String
  nextConnectionId : Option ℕ
  geometryRevision : ℕ := 0
  geometry : SpatialIndex K := {}
  handles : BTreeMap String (GeometryHandle K) := ∅
  routingRevision : ℕ := 0
  routes : BTreeMap ℕ (RouteDefinition K) := ∅
  routePlanner : RoutePlanner K := {}
  topology : TopologyIndex K

/-- The number after this one, when it fits. -/
def checkedSucc (n : ℕ) : Option ℕ := if n < u32Max then some (n + 1) else none

/-! ## Errors -/

/-- The revision cannot be advanced. -/
def revisionExhausted : EngineError :=
  ⟨"revision-exhausted", "Project revision cannot be advanced safely."⟩

/-- The geometry revision cannot be advanced. -/
def geometryRevisionExhausted : EngineError :=
  ⟨"geometry-revision-exhausted", "Geometry revision cannot be advanced safely."⟩

/-- The routing revision cannot be advanced. -/
def routingRevisionExhausted : EngineError :=
  ⟨"routing-revision-exhausted", "Routing revision cannot be advanced safely."⟩

/-- A geometry error as the engine reports it. -/
def geometryError (error : GeometryError) : EngineError := ⟨"invalid-geometry", error.display⟩

/-- A routing error as the engine reports it. -/
def routingError (error : RoutingError) : EngineError := ⟨"invalid-route", error.display⟩

/-- A topology error as the engine reports it. -/
def topologyError (error : TopologyError) : EngineError := ⟨"invalid-topology", error.display⟩

/-- A result with its error as the engine reports it. -/
def mapError {ε ε' α : Type} (f : ε → ε') : Except ε α → Except ε' α
  | .ok a => .ok a
  | .error error => .error (f error)

@[simp] theorem mapError_eq_ok {ε ε' α : Type} {f : ε → ε'} {x : Except ε α} {a : α} :
    mapError f x = .ok a ↔ x = .ok a := by
  cases x <;> simp [mapError]

/-! ## Lists of changes -/

section Changes

variable {α κ : Type}

/-- What a change writes and removes, and what its inverse does. -/
structure ChangeLists (α κ : Type) where
  forwardUpsert : List α := []
  forwardRemove : List κ := []
  inverseUpsert : List α := []
  inverseRemove : List κ := []

/-- Add the change of one key. -/
def ChangeLists.record (lists : ChangeLists α κ) (key : κ) (previous next : Option α) :
    ChangeLists α κ where
  forwardUpsert := lists.forwardUpsert ++ next.toList
  forwardRemove := lists.forwardRemove ++ (if next.isNone then [key] else [])
  inverseUpsert := lists.inverseUpsert ++ previous.toList
  inverseRemove := lists.inverseRemove ++ (if previous.isNone then [key] else [])

/-- Nothing changes. -/
def ChangeLists.isEmpty (lists : ChangeLists α κ) : Bool :=
  lists.forwardUpsert.isEmpty && lists.forwardRemove.isEmpty

/-- The key that a change is about. -/
def changeKey [DecidableEq κ] (key : α → κ) (replaced missing : EngineError)
    (previous next : Option α) : Except EngineError κ :=
  match previous, next with
  | some previous, some next => if key previous = key next then .ok (key previous) else .error replaced
  | some previous, none => .ok (key previous)
  | none, some next => .ok (key next)
  | none, none => .error missing

end Changes

variable {K : Type} [Scalar K]

/-- A prepared change of the topology with its patches. -/
structure TopologyChange (K : Type) where
  snapshot : TopologySnapshot K
  forward : ProjectPatch K
  inverse : ProjectPatch K

/-! ## Assignments -/

/-- The assignments of a change in progress. -/
structure AssignmentPlan where
  assignments : BTreeMap ℕ TopologyAssignment
  seen : BTreeSet ℕ := ∅
  lists : ChangeLists TopologyAssignment ℕ := {}

/-- Take up one assignment change. -/
def planAssignment (plan : AssignmentPlan) (change : AssignmentChange) :
    Except EngineError AssignmentPlan := do
  let id ← changeKey TopologyAssignment.id
    ⟨"invalid-assignment-change",
      "An assignment change cannot replace one assignment ID with another."⟩
    ⟨"invalid-assignment-change",
      "An assignment change requires a previous or next assignment."⟩
    change.previous change.next
  failIf (id = 0 ∨ id ∈ plan.seen)
    ⟨"invalid-assignment-change",
      "Assignment changes must reference unique positive assignment IDs."⟩
  failIf (plan.assignments[id]? ≠ change.previous)
    ⟨"stale-assignment-change", "The assignment change does not match canonical state."⟩
  let plan := { plan with seen := plan.seen.insert id }
  if change.previous = change.next then return plan
  return { plan with
    assignments := setEntry plan.assignments id change.next
    lists := plan.lists.record id change.previous change.next }

/-- The change of the topology that some assignment changes ask for. -/
def prepareAssignments (topology : TopologySnapshot K) (changes : List AssignmentChange) :
    Except EngineError (TopologyChange K) := do
  let plan ← changes.foldlM planAssignment
    { assignments := collectEntries (topology.assignments.map fun assignment =>
        (assignment.id, assignment)) }
  failIf plan.lists.isEmpty ⟨"unchanged-assignment", "Assignments did not change."⟩
  return {
    snapshot := { topology with assignments := plan.assignments.values }
    forward := .patchAssignments (sortByKey (·.id) plan.lists.forwardUpsert)
      (sortBy compare plan.lists.forwardRemove)
    inverse := .patchAssignments (sortByKey (·.id) plan.lists.inverseUpsert)
      (sortBy compare plan.lists.inverseRemove) }

/-! ## Placements -/

/-- The placements of a change in progress. -/
structure PlacementPlan (K : Type) where
  placedItems : BTreeSet ItemRef
  seen : BTreeSet ItemRef := ∅
  lists : ChangeLists (CanvasPlacement K) ItemRef := {}

/-- A placement names an item and has finite coordinates. -/
def validCanvasPlacement (placement : CanvasPlacement K) : Bool :=
  placement.item.validate.isOk && Scalar.isFinite placement.x && Scalar.isFinite placement.y

/-- Take up one placement change. -/
def planPlacement (knownItems : BTreeSet ItemRef) (plan : PlacementPlan K)
    (change : PlacementChange K) : Except EngineError (PlacementPlan K) := do
  let item ← changeKey CanvasPlacement.item
    ⟨"invalid-placement-change",
      "A placement change cannot replace one inventory item with another."⟩
    ⟨"invalid-placement-change", "A placement change requires a previous or next placement."⟩
    change.previous change.next
  failIf (!item.validate.isOk ∨ item ∉ knownItems ∨ item ∈ plan.seen)
    ⟨"invalid-placement-change",
      "Placement changes must reference unique existing inventory items."⟩
  failIf (change.previous.any (!validCanvasPlacement ·) ∨ change.next.any (!validCanvasPlacement ·))
    ⟨"invalid-placement-change", "Placement coordinates must be finite numbers."⟩
  let plan := { plan with seen := plan.seen.insert item }
  if change.previous == change.next then return plan
  return { plan with
    placedItems := if change.next.isSome then plan.placedItems.insert item
      else plan.placedItems.erase item
    lists := plan.lists.record item change.previous change.next }

/-- The placed items and the patches that some placement changes ask for. -/
def planPlacements (topology : TopologySnapshot K) (changes : List (PlacementChange K)) :
    Except EngineError (PlacementPlan K) := do
  let knownItems := collectSet (topology.items.map (·.item))
  let plan ← changes.foldlM (planPlacement knownItems)
    { placedItems := collectSet topology.placements }
  failIf plan.lists.isEmpty ⟨"unchanged-placement", "Placement coordinates did not change."⟩
  return plan

/-- The placement changes that align the placed items to the grid. -/
def snapChanges (topology : TopologySnapshot K) (nodes : List (GeometryNode K)) (gridSize : K)
    (maxRings : ℕ) : Except EngineError (List (PlacementChange K)) := do
  let placementItems := collectEntries (topology.placements.map fun item => (itemKey item, item))
  let suppliedIds := collectSet (nodes.map (·.itemId))
  failIf (suppliedIds.size ≠ nodes.length ∨ suppliedIds.toList ≠ placementItems.keys)
    ⟨"invalid-grid-placement-set",
      "Grid alignment geometry must match every placed canvas item exactly."⟩
  failIf nodes.isEmpty
    ⟨"empty-grid-placement-set", "Grid alignment requires at least one placed canvas item."⟩
  let originals := collectEntries (nodes.map fun node => (node.itemId, node.bounds))
  let planned ← mapError geometryError (snapNodesToGrid nodes gridSize maxRings)
  let changes := planned.filterMap fun node => do
    let previousBounds ← originals[node.itemId]?
    guard !(previousBounds.x == node.bounds.x && previousBounds.y == node.bounds.y)
    let item ← placementItems[node.itemId]?
    return {
      previous := some { item := item, x := previousBounds.x, y := previousBounds.y }
      next := some { item := item, x := node.bounds.x, y := node.bounds.y } }
  failIf changes.isEmpty
    ⟨"unchanged-placement", "Every canvas item is already aligned to the grid."⟩
  return changes

/-! ## Derived states -/

/-- A connection with a derived state. -/
def TopologyConnection.withDerived (connection : TopologyConnection K)
    (state : ConnectionDerivedState) : TopologyConnection K :=
  { connection with
    connectionType := state.connectionType
    negotiatedSpeedBps := state.negotiatedSpeedBps }

/-- The derived state that a connection stores. -/
def TopologyConnection.derived (connection : TopologyConnection K) : ConnectionDerivedState where
  connectionId := connection.id
  connectionType := connection.connectionType
  negotiatedSpeedBps := connection.negotiatedSpeedBps

/-- Store the derived state of every connection. -/
def normalizeConnectionDerived (snapshot : TopologySnapshot K) :
    Except TopologyError (TopologySnapshot K) := do
  let index ← TopologyIndex.build snapshot
  let states := collectEntries
    (index.connectionDerivedStates.map fun state => (state.connectionId, state))
  return { snapshot with
    connections := snapshot.connections.map fun connection =>
      match states[connection.id]? with
      | some state => connection.withDerived state
      | none => connection }

/-- The stored derived states that differ between two snapshots, after and before. -/
def connectionDerivedChanges (before after : TopologySnapshot K) :
    List (ConnectionDerivedState × ConnectionDerivedState) :=
  let previousById := collectEntries (before.connections.map fun connection =>
    (connection.id, connection))
  after.connections.filterMap fun connection =>
    match previousById[connection.id]? with
    | none => none
    | some previous =>
      if previous.connectionType = connection.connectionType ∧
        previous.negotiatedSpeedBps = connection.negotiatedSpeedBps then none
      else some (connection.derived, previous.derived)

/-- A patch that sets derived states, when there are any. -/
def derivedPatch (states : List ConnectionDerivedState) : List (ProjectPatch K) :=
  if states.isEmpty then [] else [.setConnectionDerived states]

/-- Several patches as one. -/
def batchPatch : List (ProjectPatch K) → ProjectPatch K
  | [patch] => patch
  | patches => .batch patches

/-! ## Creating and removing connections -/

/-- The type of a new cable. A cable from a power input is turned around. -/
def orientConnection (source target : EndpointRef)
    (sourceDescriptor targetDescriptor : EndpointDescriptor) : EndpointRef × EndpointRef × String :=
  match sourceDescriptor.power with
  | some power =>
    if power.direction = "input" then (target, source, "power") else (source, target, "power")
  | none =>
    if isNetworkPort sourceDescriptor.portType && isNetworkPort targetDescriptor.portType then
      (source, target, "network")
    else if isDisplayPort sourceDescriptor.portType && isDisplayPort targetDescriptor.portType then
      (source, target, "display")
    else (source, target, "other")

/-- The identifier of the next connection. -/
def allocateConnectionId (nextConnectionId : Option ℕ)
    (connections : List (TopologyConnection K)) : Except EngineError ℕ :=
  match checkedSucc ((connections.map (·.id)).max?.getD 0) with
  | none =>
    .error ⟨"connection-id-exhausted", "A new connection ID cannot be allocated safely."⟩
  | some localId => .ok (max (nextConnectionId.getD localId) localId)

/-- The change that adds a connection to a snapshot. -/
def prepareAddition (before : TopologySnapshot K) (connection : TopologyConnection K) :
    Except EngineError (TopologyChange K) := do
  let snapshot ← mapError topologyError (normalizeConnectionDerived
    { before with connections := sortByKey (·.id) (before.connections ++ [connection]) })
  let normalized := (snapshot.connections.find? (·.id == connection.id)).getD connection
  let changes := connectionDerivedChanges before snapshot
  return {
    snapshot := snapshot
    forward := batchPatch (.addConnection normalized :: derivedPatch (changes.map (·.1)))
    inverse := batchPatch (derivedPatch (changes.map (·.2)) ++ [.removeConnection normalized]) }

/-- The change that creates a connection, with its identifier. -/
def prepareCreation (topology : TopologyIndex K) (nextConnectionId : Option ℕ)
    (source target : EndpointRef) (createdAt : String) :
    Except EngineError (ℕ × TopologyChange K) :=
  let validation := topology.validateConnection source target
  if !validation.ok then
    .error
      ⟨validation.code.getD "invalid-connection",
        validation.message.getD "The connection is invalid."⟩
  else
    match topology.endpoint source, topology.endpoint target with
    | some sourceDescriptor, some targetDescriptor => do
      let (source, target, connectionType) :=
        orientConnection source target sourceDescriptor targetDescriptor
      let id ← allocateConnectionId nextConnectionId topology.snapshot.connections
      failIf (isBlank createdAt)
        ⟨"invalid-created-at", "Connection creation time must not be empty."⟩
      let change ← prepareAddition topology.snapshot
        { id := id
          source := source
          target := target
          connectionType := connectionType
          createdAt := createdAt }
      return (id, change)
    | _, _ => .error ⟨"invalid-connection", "The connection is invalid."⟩

/-- The selected connection is gone. -/
def missingConnection : EngineError :=
  ⟨"missing-connection", "The selected connection no longer exists."⟩

/-- The change that removes a connection. -/
def prepareRemoval (before : TopologySnapshot K) (connectionId : ℕ) :
    Except EngineError (TopologyChange K) :=
  match before.connections.find? (·.id == connectionId) with
  | none => .error missingConnection
  | some connection => do
    let snapshot ← mapError topologyError (normalizeConnectionDerived
      { before with connections := before.connections.filter (·.id != connectionId) })
    let changes := connectionDerivedChanges before snapshot
    return {
      snapshot := snapshot
      forward := batchPatch (.removeConnection connection :: derivedPatch (changes.map (·.1)))
      inverse := batchPatch (derivedPatch (changes.map (·.2)) ++ [.addConnection connection]) }

/-! ## Labels and routes -/

/-- Change the first connection with an identifier. -/
def modifyConnection (connectionId : ℕ)
    (f : TopologyConnection K → TopologyConnection K) :
    List (TopologyConnection K) → List (TopologyConnection K)
  | [] => []
  | connection :: rest =>
    if connection.id = connectionId then f connection :: rest
    else connection :: modifyConnection connectionId f rest

/-- The change of the label of a connection. -/
def prepareLabel (topology : TopologySnapshot K) (connectionId : ℕ) (label : Option String) :
    Except EngineError (TopologyChange K) :=
  let nextLabel := (label.map trim).filter (!·.isEmpty)
  match topology.connections.find? (·.id == connectionId) with
  | none => .error missingConnection
  | some connection =>
    .ok
      { snapshot := { topology with
          connections := modifyConnection connectionId ({ · with label := nextLabel })
            topology.connections }
        forward := .setConnectionLabel connectionId nextLabel
        inverse := .setConnectionLabel connectionId connection.label }

/-- The change of the route of a connection. -/
def prepareRoute (topology : TopologySnapshot K) (connectionId : ℕ)
    (route : Option (ConnectionRoute K)) : Except EngineError (TopologyChange K) :=
  match topology.connections.find? (·.id == connectionId) with
  | none => .error missingConnection
  | some connection =>
    .ok
      { snapshot := { topology with
          connections := modifyConnection connectionId ({ · with route := route })
            topology.connections }
        forward := .setConnectionRoute connectionId route
        inverse := .setConnectionRoute connectionId connection.route }

/-- The connections and route patches of a change in progress. -/
structure RoutePlan (K : Type) where
  connections : List (TopologyConnection K)
  forward : List (ProjectPatch K) := []
  inverse : List (ProjectPatch K) := []

namespace RoutePlan

/-- Set the route of a connection. -/
def setRoute (plan : RoutePlan K) (connection : TopologyConnection K)
    (route : Option (ConnectionRoute K)) : RoutePlan K where
  connections := modifyConnection connection.id ({ · with route := route }) plan.connections
  forward := plan.forward ++ [.setConnectionRoute connection.id route]
  inverse := plan.inverse ++ [.setConnectionRoute connection.id connection.route]

/-- The finished change; the inverse goes backwards. -/
def change (plan : RoutePlan K) (topology : TopologySnapshot K) (unchanged : String) :
    Except EngineError (TopologyChange K) := do
  failIf plan.forward.isEmpty ⟨"unchanged-connection-routes", unchanged⟩
  return {
    snapshot := { topology with connections := plan.connections }
    forward := batchPatch plan.forward
    inverse := batchPatch plan.inverse.reverse }

end RoutePlan

/-- Take up the route change of one connection: `next` gives the new route, or
`none` when the route stays as it is. -/
def planRoute {γ : Type} (connectionId : γ → ℕ) (missing : String)
    (next : γ → Option (ConnectionRoute K) → Except EngineError (Option (ConnectionRoute K)))
    (plan : RoutePlan K) (change : γ) : Except EngineError (RoutePlan K) :=
  match plan.connections.find? (·.id == connectionId change) with
  | none => .error ⟨"missing-connection", missing⟩
  | some connection => do
    match ← next change connection.route with
    | none => return plan
    | some route => return plan.setRoute connection (some route)

/-- The name of a side. -/
def sideName : Side → String
  | .left => "left"
  | .right => "right"
  | .top => "top"
  | .bottom => "bottom"

/-- The route, unless it is the same as before. -/
def changedRoute (previous : Option (ConnectionRoute K)) (next : ConnectionRoute K) :
    Option (ConnectionRoute K) :=
  if previous == some next then none else some next

/-- The route with its open sides resolved. -/
def resolvedRoute (change : ConnectionRouteSideResolution) (previous : Option (ConnectionRoute K)) :
    Except EngineError (Option (ConnectionRoute K)) :=
  let route := previous.getD {}
  .ok (changedRoute previous { route with
    sourceSide := route.sourceSide.or (some (sideName change.sourceSide))
    targetSide := route.targetSide.or (some (sideName change.targetSide)) })

/-- The change that saves the sides of cables. -/
def prepareSides (topology : TopologySnapshot K) (changes : List ConnectionRouteSideResolution) :
    Except EngineError (TopologyChange K) := do
  failIf changes.isEmpty
    ⟨"unchanged-connection-routes", "No unresolved cable endpoint sides are available to save."⟩
  failIf (¬(changes.map (·.connectionId)).Nodup)
    ⟨"duplicate-connection-route",
      "A cable endpoint-side resolution was provided more than once."⟩
  let plan ← changes.foldlM
    (planRoute (·.connectionId)
      "A cable selected for endpoint-side resolution no longer exists." resolvedRoute)
    { connections := topology.connections }
  plan.change topology "Every cable already has saved endpoint sides."

/-- The route with its bends repaired, when it still has the bends to repair. -/
def canonicalizedRoute (change : ConnectionRouteCanonicalization K)
    (previous : Option (ConnectionRoute K)) : Except EngineError (Option (ConnectionRoute K)) :=
  if (previous.map (·.bendPoints)).getD [] != change.expectedBendPoints then
    .error
      ⟨"stale-connection-route-repair",
        "A cable route changed before its automatic repair could be saved."⟩
  else .ok (changedRoute previous { previous.getD {} with bendPoints := change.bendPoints })

/-- A point has finite coordinates. -/
def Point.isFinite (point : Point K) : Bool := Scalar.isFinite point.x && Scalar.isFinite point.y

/-- The change that saves repaired bends. -/
def prepareCanonicalization (topology : TopologySnapshot K)
    (changes : List (ConnectionRouteCanonicalization K)) :
    Except EngineError (TopologyChange K) := do
  failIf changes.isEmpty
    ⟨"unchanged-connection-routes", "No cable route repairs are available to save."⟩
  failIf (¬(changes.map (·.connectionId)).Nodup ∨ changes.any fun change =>
      (change.expectedBendPoints ++ change.bendPoints).any (!·.isFinite))
    ⟨"invalid-connection-route-repair",
      "Cable route repairs must have unique connections and finite bend points."⟩
  let plan ← changes.foldlM
    (planRoute (·.connectionId) "A cable selected for route repair no longer exists."
      canonicalizedRoute)
    { connections := topology.connections }
  plan.change topology "Every cable route repair is already saved."

/-- Go through all connections with a route: `next` gives the new route, or `none`
when the route stays as it is. -/
def sweepRoutes (next : ConnectionRoute K → Option (Option (ConnectionRoute K)))
    (connections : List (TopologyConnection K)) : RoutePlan K :=
  let changed := fun connection : TopologyConnection K =>
    (connection.route.bind next).map fun route => (connection, route)
  { connections := connections.map fun connection =>
      match changed connection with
      | some (_, route) => { connection with route := route }
      | none => connection
    forward := (connections.filterMap changed).map fun change =>
      .setConnectionRoute change.1.id change.2
    inverse := (connections.filterMap changed).map fun change =>
      .setConnectionRoute change.1.id change.1.route }

/-- The route without its bends. -/
def resetBends (previous : ConnectionRoute K) : Option (Option (ConnectionRoute K)) :=
  if previous.bendPoints.isEmpty then none
  else if previous.sourceSide.isSome || previous.targetSide.isSome || previous.avoidCableOverlap
  then some (some { previous with bendPoints := [] })
  else some none

/-- The route without any manual geometry. -/
def restoreAutomatic (previous : ConnectionRoute K) : Option (Option (ConnectionRoute K)) :=
  if previous.sourceSide.isNone && previous.targetSide.isNone && previous.bendPoints.isEmpty
  then none
  else if previous.avoidCableOverlap then some (some { avoidCableOverlap := true })
  else some none

namespace Engine

/-! ## Committing -/

/-- Advance to a new topology and answer with the patches. -/
def advance (engine : Engine K) (topology : TopologyIndex K) (forward inverse : ProjectPatch K) :
    Engine K × ResponseBody K :=
  ({ engine with topology := topology, revision := engine.revision + 1 },
    .patch { revision := engine.revision + 1, forward := forward, inverse := inverse })

/-- Build the topology of a change and advance to it. -/
def install (engine : Engine K) (change : TopologyChange K) : Engine K × ResponseBody K :=
  match TopologyIndex.build change.snapshot with
  | .error error => (engine, .error (topologyError error))
  | .ok topology => engine.advance topology change.forward change.inverse

/-- Commit a change, when the revision can be advanced. -/
def commitTopology (engine : Engine K) (change : TopologyChange K) : Engine K × ResponseBody K :=
  if engine.revision = u32Max then (engine, .error revisionExhausted) else engine.install change

/-- Commit a change that was prepared, or report why there is none. -/
def commitPrepared (engine : Engine K) (prepared : Except EngineError (TopologyChange K)) :
    Engine K × ResponseBody K :=
  match prepared with
  | .error error => (engine, .error error)
  | .ok change => engine.commitTopology change

/-! ## Commands on the project -/

/-- Rename the project. -/
def updateProjectMetadata (engine : Engine K) (name : String) : Engine K × ResponseBody K :=
  let name := trim name
  if name.isEmpty then
    (engine, .error ⟨"invalid-project-name", "Project name must not be empty."⟩)
  else if engine.revision = u32Max then (engine, .error revisionExhausted)
  else
    ({ engine with projectName := name, revision := engine.revision + 1 },
      .patch
        { revision := engine.revision + 1
          forward := .setProjectName name
          inverse := .setProjectName engine.projectName })

/-- Change assignments. -/
def updateAssignments (engine : Engine K) (changes : List AssignmentChange) :
    Engine K × ResponseBody K :=
  if changes.isEmpty then
    (engine, .error ⟨"invalid-assignment-change", "Assignment changes must not be empty."⟩)
  else if engine.revision = u32Max then (engine, .error revisionExhausted)
  else
    match prepareAssignments engine.topology.snapshot changes with
    | .error error => (engine, .error error)
    | .ok change => engine.install change

/-- Change placements. The topology is only rebuilt when the set of placed items changes. -/
def updatePlacements (engine : Engine K) (changes : List (PlacementChange K)) :
    Engine K × ResponseBody K :=
  if changes.isEmpty then
    (engine, .error ⟨"invalid-placement-change", "Placement changes must not be empty."⟩)
  else if engine.revision = u32Max then (engine, .error revisionExhausted)
  else
    match planPlacements engine.topology.snapshot changes with
    | .error error => (engine, .error error)
    | .ok plan =>
      let forward := .patchPlacements plan.lists.forwardUpsert plan.lists.forwardRemove
      let inverse := .patchPlacements plan.lists.inverseUpsert plan.lists.inverseRemove
      let placedItems := plan.placedItems.toList
      if placedItems ≠ (collectSet engine.topology.snapshot.placements).toList then
        engine.install
          { snapshot := { engine.topology.snapshot with placements := placedItems }
            forward := forward
            inverse := inverse }
      else engine.advance engine.topology forward inverse

/-- Align the placed items to the grid. -/
def snapPlacementsToGrid (engine : Engine K) (nodes : List (GeometryNode K)) (gridSize : K)
    (maxRings : ℕ) : Engine K × ResponseBody K :=
  match snapChanges engine.topology.snapshot nodes gridSize maxRings with
  | .error error => (engine, .error error)
  | .ok changes => engine.updatePlacements changes

/-- Reserve the identifiers up to that of a connection, when the answer is a patch. -/
def reserveConnectionId (connectionId : ℕ) : Engine K × ResponseBody K → Engine K × ResponseBody K
  | (next, .patch patches) =>
    ({ next with nextConnectionId := checkedSucc connectionId }, .patch patches)
  | answer => answer

/-- Create a connection. The next identifier is only advanced with the commit. -/
def createConnection (engine : Engine K) (source target : EndpointRef) (createdAt : String) :
    Engine K × ResponseBody K :=
  match prepareCreation engine.topology engine.nextConnectionId source target createdAt with
  | .error error => (engine, .error error)
  | .ok (connectionId, change) => reserveConnectionId connectionId (engine.commitTopology change)

/-- Remove a connection. -/
def removeConnection (engine : Engine K) (connectionId : ℕ) : Engine K × ResponseBody K :=
  engine.commitPrepared (prepareRemoval engine.topology.snapshot connectionId)

/-- Label a connection. -/
def updateConnectionLabel (engine : Engine K) (connectionId : ℕ) (label : Option String) :
    Engine K × ResponseBody K :=
  engine.commitPrepared (prepareLabel engine.topology.snapshot connectionId label)

/-- Set the route of a connection. -/
def updateConnectionRoute (engine : Engine K) (connectionId : ℕ)
    (route : Option (ConnectionRoute K)) : Engine K × ResponseBody K :=
  engine.commitPrepared (prepareRoute engine.topology.snapshot connectionId route)

/-- Save the sides of cables. -/
def resolveConnectionRouteSides (engine : Engine K)
    (changes : List ConnectionRouteSideResolution) : Engine K × ResponseBody K :=
  engine.commitPrepared (prepareSides engine.topology.snapshot changes)

/-- Save repaired bends. -/
def canonicalizeConnectionRoutes (engine : Engine K)
    (changes : List (ConnectionRouteCanonicalization K)) : Engine K × ResponseBody K :=
  engine.commitPrepared (prepareCanonicalization engine.topology.snapshot changes)

/-- Drop the bends of all connections. -/
def resetAllConnectionBends (engine : Engine K) : Engine K × ResponseBody K :=
  let topology := engine.topology.snapshot
  engine.commitPrepared ((sweepRoutes resetBends topology.connections).change topology
    "No saved manual cable bends are available to reset.")

/-- Drop the manual geometry of all connections. -/
def restoreAutomaticConnectionRoutes (engine : Engine K) : Engine K × ResponseBody K :=
  let topology := engine.topology.snapshot
  engine.commitPrepared ((sweepRoutes restoreAutomatic topology.connections).change topology
    "No manual cable geometry is available to restore automatically.")

/-! ## Geometry and routes -/

/-- Every handle belongs to an item of the index. -/
def validateHandleOwners (handles : BTreeMap String (GeometryHandle K)) (geometry : SpatialIndex K) :
    Except GeometryError Unit :=
  failIf (handles.values.any fun handle => (geometry.rect handle.itemId).isNone)
    (.unknownIdentifier "geometry handle owner node")

/-- Valid handles with distinct keys on items of the index. -/
def collectHandles (handles : List (GeometryHandle K)) (geometry : SpatialIndex K) :
    Except GeometryError (BTreeMap String (GeometryHandle K)) := do
  let collected ← handles.foldlM (fun (collected : BTreeMap String (GeometryHandle K)) handle => do
    handle.validate
    failIf (collected.contains handle.key) (.duplicateIdentifier "geometry handle key")
    return collected.insert handle.key handle) ∅
  validateHandleOwners collected geometry
  return collected

/-- Replace all geometry. -/
def replaceGeometry (engine : Engine K) (nodes : List (GeometryNode K))
    (handles : List (GeometryHandle K)) : Engine K × ResponseBody K :=
  let prepared : Except GeometryError (SpatialIndex K × BTreeMap String (GeometryHandle K)) := do
    let replacement ← SpatialIndex.replace nodes
    let handles ← collectHandles handles replacement
    return (replacement, handles)
  match prepared, checkedSucc engine.geometryRevision with
  | .error error, _ => (engine, .error (geometryError error))
  | .ok _, none => (engine, .error geometryRevisionExhausted)
  | .ok (geometry, handles), some revision =>
    ({ engine with geometry := geometry, handles := handles, geometryRevision := revision },
      .geometryUpdated revision)

/-- The geometry and handles after an update. -/
def prepareGeometry (geometry : SpatialIndex K) (handles : BTreeMap String (GeometryHandle K))
    (upsertNodes : List (GeometryNode K)) (removeNodeIds : List String)
    (upsertHandles : List (GeometryHandle K)) (removeHandleKeys : List String) :
    Except GeometryError (SpatialIndex K × BTreeMap String (GeometryHandle K)) := do
  failIf (¬(upsertNodes.map (·.itemId)).Nodup) (.duplicateIdentifier "upsert geometry node item_id")
  failIf (¬(upsertHandles.map (·.key)).Nodup) (.duplicateIdentifier "upsert geometry handle key")
  let geometry ← upsertNodes.foldlM SpatialIndex.upsert (removeNodeIds.foldl SpatialIndex.remove geometry)
  let handles := removeHandleKeys.foldl
    (fun (handles : BTreeMap String (GeometryHandle K)) key => handles.erase key) handles
  let handles ← upsertHandles.foldlM
    (fun (handles : BTreeMap String (GeometryHandle K)) handle => do
      handle.validate
      return handles.insert handle.key handle) handles
  validateHandleOwners handles geometry
  return (geometry, handles)

/-- Update geometry. -/
def updateGeometry (engine : Engine K) (upsertNodes : List (GeometryNode K))
    (removeNodeIds : List String) (upsertHandles : List (GeometryHandle K))
    (removeHandleKeys : List String) : Engine K × ResponseBody K :=
  match prepareGeometry engine.geometry engine.handles upsertNodes removeNodeIds upsertHandles
    removeHandleKeys, checkedSucc engine.geometryRevision with
  | .error error, _ => (engine, .error (geometryError error))
  | .ok _, none => (engine, .error geometryRevisionExhausted)
  | .ok (geometry, handles), some revision =>
    ({ engine with geometry := geometry, handles := handles, geometryRevision := revision },
      .geometryUpdated revision)

/-- Replace all routes. -/
def replaceRoutes (engine : Engine K) (routes : List (RouteDefinition K)) :
    Engine K × ResponseBody K :=
  let prepared := routes.foldlM (fun (collected : BTreeMap ℕ (RouteDefinition K)) route => do
    route.validate
    failIf (collected.contains route.connectionId) .invalidConnectionId
    return collected.insert route.connectionId route) ∅
  match prepared, checkedSucc engine.routingRevision with
  | .error error, _ => (engine, .error (routingError error))
  | .ok _, none => (engine, .error routingRevisionExhausted)
  | .ok routes, some revision =>
    ({ engine with routes := routes, routingRevision := revision }, .routesUpdated revision)

/-- The definition of a route. -/
def route (engine : Engine K) (connectionId : ℕ) : Except RoutingError (RouteDefinition K) :=
  match engine.routes[connectionId]? with
  | some route => .ok route
  | none => .error .invalidConnectionId

/-- Commit an edit of a route. -/
def commitRouteEdit (engine : Engine K) (edit : Except RoutingError (RouteEdit K)) :
    Engine K × ResponseBody K :=
  match edit with
  | .error error => (engine, .error (routingError error))
  | .ok edit =>
    match checkedSucc engine.routingRevision with
    | none => (engine, .error routingRevisionExhausted)
    | some revision =>
      match engine.routes[edit.forward.connectionId]? with
      | none => (engine, .error (routingError .invalidConnectionId))
      | some route =>
        ({ engine with
            routes := engine.routes.insert edit.forward.connectionId
              { route with manualBends := edit.forward.bendPoints }
            routingRevision := revision },
          .routeEdited revision edit)

/-! ## Queries -/

/-- The items a placement would collide with. -/
def checkPlacement (engine : Engine K) (itemId : String) (bounds : Rect K)
    (excludeItemIds : List String) : Except GeometryError (List String) := do
  GeometryNode.validate { itemId := itemId, bounds := bounds }
  return engine.geometry.overlappingIds bounds ((collectSet excludeItemIds).insert itemId)

/-- The answer about colliding items. -/
def placementCheck (collidingItemIds : List String) : ResponseBody K :=
  .placementCheck collidingItemIds.isEmpty collidingItemIds

/-- The answer to a query about geometry. -/
def geometryAnswer {α : Type} (answer : α → ResponseBody K) :
    Except GeometryError α → ResponseBody K
  | .ok a => answer a
  | .error error => .error (geometryError error)

/-- The answer to a query about routes. -/
def routingAnswer {α : Type} (answer : α → ResponseBody K) :
    Except RoutingError α → ResponseBody K
  | .ok a => answer a
  | .error error => .error (routingError error)

/-! ## Dispatch -/

/-- Plan all cables. -/
def planCableRoutes (engine : Engine K) (plan : CableRoutePlanRequest K) :
    Engine K × ResponseBody K :=
  let (planner, result) := engine.routePlanner.plan plan
  ({ engine with routePlanner := planner }, routingAnswer .cableRoutesPlanned result)

/-- The status of an engine. -/
def status (engine : Engine K) : EngineStatus where
  revision := engine.revision
  geometryRevision := engine.geometryRevision
  routingRevision := engine.routingRevision
  projectName := engine.projectName

/-- Carry out an operation. -/
def perform (engine : Engine K) : Operation K → Engine K × ResponseBody K
  | .status => (engine, .status engine.status)
  | .topologyEndpoints => (engine, .topologyEndpoints engine.topology.endpointList)
  | .compatibleDestinations source =>
    (engine, .topologyEndpoints (engine.topology.compatibleDestinations source))
  | .validateConnection source target =>
    (engine, .connectionValidation (engine.topology.validateConnection source target))
  | .traceNetworkPath start => (engine, .networkTrace (engine.topology.traceNetworkPath start))
  | .networkTraces => (engine, .networkTraces engine.topology.networkTraces)
  | .powerTopology => (engine, .powerTopology engine.topology.powerTopology)
  | .connectionDerivedStates =>
    (engine, .connectionDerivedStates engine.topology.connectionDerivedStates)
  | .createConnection source target createdAt => engine.createConnection source target createdAt
  | .removeConnection connectionId => engine.removeConnection connectionId
  | .updateConnectionLabel connectionId label => engine.updateConnectionLabel connectionId label
  | .updateConnectionRoute connectionId route => engine.updateConnectionRoute connectionId route
  | .resolveConnectionRouteSides changes => engine.resolveConnectionRouteSides changes
  | .canonicalizeConnectionRoutes changes => engine.canonicalizeConnectionRoutes changes
  | .resetAllConnectionBends => engine.resetAllConnectionBends
  | .restoreAutomaticConnectionRoutes => engine.restoreAutomaticConnectionRoutes
  | .updateProjectMetadata name => engine.updateProjectMetadata name
  | .updateAssignments changes => engine.updateAssignments changes
  | .updatePlacements changes => engine.updatePlacements changes
  | .snapPlacementsToGrid nodes gridSize maxRings =>
    engine.snapPlacementsToGrid nodes gridSize maxRings
  | .replaceGeometry nodes handles => engine.replaceGeometry nodes handles
  | .updateGeometry upsertNodes removeNodeIds upsertHandles removeHandleKeys =>
    engine.updateGeometry upsertNodes removeNodeIds upsertHandles removeHandleKeys
  | .checkPlacement itemId bounds excludeItemIds =>
    (engine, geometryAnswer placementCheck (engine.checkPlacement itemId bounds excludeItemIds))
  | .checkGroupMove moves =>
    (engine, geometryAnswer placementCheck (engine.geometry.checkGroup moves))
  | .findNearestPlacement itemId preferred clearance step maxRings =>
    (engine, geometryAnswer .nearestPlacement
      (engine.geometry.nearestValid itemId preferred clearance step maxRings))
  | .arrangeItems items gridSize columnGap itemGap =>
    (engine, geometryAnswer .arrangement (arrangeItems items gridSize columnGap itemGap))
  | .replaceRoutes routes => engine.replaceRoutes routes
  | .buildRoute connectionId =>
    (engine, routingAnswer .route (engine.route connectionId >>= HomelabInventory.buildRoute))
  | .routeAroundObstacles request =>
    (engine, routingAnswer .obstacleRoute (routeAroundObstacles request))
  | .planCableRoutes plan => engine.planCableRoutes plan
  | .previewPlannedRouteSegment connectionId segmentIndex coordinate snapGrid threshold =>
    (engine, routingAnswer .routePreview
      (engine.routePlanner.previewMoveSegment connectionId segmentIndex coordinate snapGrid
        threshold))
  | .insertPlannedManualBend connectionId segmentIndex point snapGrid =>
    (engine, routingAnswer .routePreview
      (engine.routePlanner.previewInsertManualBend connectionId segmentIndex point snapGrid))
  | .previewMoveRouteSegment connectionId segmentIndex coordinate snapGrid threshold =>
    (engine, routingAnswer .routePreview (do
      previewMoveSegment (← engine.route connectionId) segmentIndex coordinate snapGrid threshold))
  | .insertManualBend connectionId segmentIndex point snapGrid =>
    engine.commitRouteEdit (do
      previewInsertManualBend (← engine.route connectionId) segmentIndex point snapGrid)
  | .removeManualBend connectionId bendIndex =>
    engine.commitRouteEdit (do previewRemoveManualBend (← engine.route connectionId) bendIndex)
  | .moveRouteSegment connectionId segmentIndex coordinate snapGrid threshold =>
    engine.commitRouteEdit (do
      previewMoveSegment (← engine.route connectionId) segmentIndex coordinate snapGrid threshold)
  | .resetRoute connectionId =>
    engine.commitRouteEdit (do previewResetRoute (← engine.route connectionId))

/-- The answer to a request for another version of the protocol. -/
def versionMismatch (version : ℕ) : EngineError :=
  ⟨"protocol-version-mismatch", "Protocol version " ++ toString version ++
    " is unsupported; expected " ++ toString protocolVersion ++ "."⟩

/-- The answer to a request about another revision. -/
def revisionConflict (baseRevision revision : ℕ) : EngineError :=
  ⟨"revision-conflict", "Project revision " ++ toString baseRevision ++
    " is stale; current revision is " ++ toString revision ++ "."⟩

/-- The body of the answer to a request, and the engine after it. -/
def handle (engine : Engine K) (request : EngineRequest K) : Engine K × ResponseBody K :=
  if request.protocolVersion ≠ protocolVersion then
    (engine, .error (versionMismatch request.protocolVersion))
  else if request.baseRevision ≠ engine.revision then
    (engine, .error (revisionConflict request.baseRevision engine.revision))
  else engine.perform request.operation

/-- Answer a request. -/
def dispatch (engine : Engine K) (request : EngineRequest K) : Engine K × EngineResponse K :=
  let (next, result) := engine.handle request
  (next,
    { protocolVersion := protocolVersion
      requestId := request.requestId
      baseRevision := request.baseRevision
      result := result })

end Engine

end HomelabInventory
