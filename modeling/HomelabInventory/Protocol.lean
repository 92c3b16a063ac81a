import HomelabInventory.RoutePlanner
import HomelabInventory.TopologyGraph

/-!
# The engine protocol

The requests an engine accepts, the answers it gives, and the patches in which
it describes a committed change.
-/

namespace HomelabInventory

/-- `PROTOCOL_VERSION` -/
def protocolVersion : ℕ := 1

/-- `u32::MAX` -/
def u32Max : ℕ := 4294967295

section Requests

variable (K : Type)

/-- The place of an item on the canvas. -/
structure CanvasPlacement where
  item : ItemRef
  x : K
  y : K
  deriving BEq, ReflBEq, LawfulBEq, DecidableEq

/-- A placement before and after a change. -/
structure PlacementChange where
  previous : Option (CanvasPlacement K) := none
  next : Option (CanvasPlacement K) := none
  deriving BEq, ReflBEq, LawfulBEq, DecidableEq

/-- An assignment before and after a change. -/
structure AssignmentChange where
  previous : Option TopologyAssignment := none
  next : Option TopologyAssignment := none
  deriving BEq, ReflBEq, LawfulBEq, DecidableEq

/-- The sides of a cable, to be saved when they are not yet. -/
structure ConnectionRouteSideResolution where
  connectionId : ℕ
  sourceSide : Side
  targetSide : Side
  deriving BEq, ReflBEq, LawfulBEq, DecidableEq

/-- Repaired bends of a cable, and the bends they repair. -/
structure ConnectionRouteCanonicalization where
  connectionId : ℕ
  expectedBendPoints : List (Point K)
  bendPoints : List (Point K)
  deriving BEq, ReflBEq, LawfulBEq, DecidableEq

/-- What an engine can be asked to do. -/
inductive Operation where
  | status
  | topologyEndpoints
  | compatibleDestinations (source : EndpointRef)
  | validateConnection (source target : EndpointRef)
  | traceNetworkPath (start : EndpointRef)
  | networkTraces
  | powerTopology
  | connectionDerivedStates
  | createConnection (source target : EndpointRef) (createdAt : String)
  | removeConnection (connectionId : ℕ)
  | updateConnectionLabel (connectionId : ℕ) (label : Option String)
  | updateConnectionRoute (connectionId : ℕ) (route : Option (ConnectionRoute K))
  | resolveConnectionRouteSides (changes : List ConnectionRouteSideResolution)
  | canonicalizeConnectionRoutes (changes : List (ConnectionRouteCanonicalization K))
  | resetAllConnectionBends
  | restoreAutomaticConnectionRoutes
  | updateProjectMetadata (name : String)
  | updateAssignments (changes : List AssignmentChange)
  | updatePlacements (changes : List (PlacementChange K))
  | snapPlacementsToGrid (nodes : List (GeometryNode K)) (gridSize : K) (maxRings : ℕ)
  | replaceGeometry (nodes : List (GeometryNode K)) (handles : List (GeometryHandle K))
  | updateGeometry (upsertNodes : List (GeometryNode K)) (removeNodeIds : List String)
      (upsertHandles : List (GeometryHandle K)) (removeHandleKeys : List String)
  | checkPlacement (itemId : String) (bounds : Rect K) (excludeItemIds : List String)
  | checkGroupMove (moves : List (GeometryNode K))
  | findNearestPlacement (itemId : String) (preferred : Rect K) (clearance step : K)
      (maxRings : ℕ)
  | arrangeItems (items : List (ArrangementItem K)) (gridSize columnGap itemGap : K)
  | replaceRoutes (routes : List (RouteDefinition K))
  | buildRoute (connectionId : ℕ)
  | routeAroundObstacles (request : ObstacleRouteRequest K)
  | planCableRoutes (plan : CableRoutePlanRequest K)
  | previewPlannedRouteSegment (connectionId segmentIndex : ℕ) (coordinate : K)
      (snapGrid : Option K) (endpointSnapThreshold : K)
  | insertPlannedManualBend (connectionId segmentIndex : ℕ) (point : Point K)
      (snapGrid : Option K)
  | previewMoveRouteSegment (connectionId segmentIndex : ℕ) (coordinate : K)
      (snapGrid : Option K) (endpointSnapThreshold : K)
  | insertManualBend (connectionId segmentIndex : ℕ) (point : Point K) (snapGrid : Option K)
  | removeManualBend (connectionId bendIndex : ℕ)
  | moveRouteSegment (connectionId segmentIndex : ℕ) (coordinate : K) (snapGrid : Option K)
      (endpointSnapThreshold : K)
  | resetRoute (connectionId : ℕ)

/-- A request to an engine. -/
structure EngineRequest where
  protocolVersion : ℕ
  requestId : ℕ
  baseRevision : ℕ
  operation : Operation K

end Requests

section Responses

variable (K : Type)

/-- A committed change of a project. -/
inductive ProjectPatch where
  | setProjectName (name : String)
  | addConnection (connection : TopologyConnection K)
  | removeConnection (connection : TopologyConnection K)
  | setConnectionLabel (connectionId : ℕ) (label : Option String)
  | setConnectionRoute (connectionId : ℕ) (route : Option (ConnectionRoute K))
  | setConnectionDerived (states : List ConnectionDerivedState)
  | patchPlacements (upsert : List (CanvasPlacement K)) (removeItems : List ItemRef)
  | patchAssignments (upsert : List TopologyAssignment) (removeAssignmentIds : List ℕ)
  | batch (patches : List ProjectPatch)

/-- A committed change with its inverse. -/
structure CommandPatchSet where
  revision : ℕ
  forward : ProjectPatch K
  inverse : ProjectPatch K

/-- The state counters of an engine. -/
structure EngineStatus where
  revision : ℕ
  geometryRevision : ℕ
  routingRevision : ℕ
  projectName : String
  deriving DecidableEq

/-- Why a request was turned down. -/
structure EngineError where
  code : String
  message : String
  deriving DecidableEq

/-- The body of an answer. -/
inductive ResponseBody where
  | status (status : EngineStatus)
  | topologyEndpoints (endpoints : List EndpointDescriptor)
  | connectionValidation (validation : ConnectionValidation)
  | networkTrace (trace : Option NetworkTrace)
  | networkTraces (traces : List NetworkTrace)
  | powerTopology (topology : PowerTopology)
  | connectionDerivedStates (states : List ConnectionDerivedState)
  | patch (patches : CommandPatchSet K)
  | geometryUpdated (geometryRevision : ℕ)
  | placementCheck (valid : Bool) (collidingItemIds : List String)
  | nearestPlacement (bounds : Option (Rect K))
  | arrangement (nodes : List (GeometryNode K))
  | routesUpdated (routingRevision : ℕ)
  | route (route : RoutedPath K)
  | obstacleRoute (result : ObstacleRouteResult K)
  | cableRoutesPlanned (plan : CableRoutePlan K)
  | routePreview (edit : RouteEdit K)
  | routeEdited (routingRevision : ℕ) (edit : RouteEdit K)
  | error (error : EngineError)

/-- An answer of an engine. -/
structure EngineResponse where
  protocolVersion : ℕ
  requestId : ℕ
  baseRevision : ℕ
  result : ResponseBody K

end Responses

namespace Operation

variable {K : Type}

/-- The operations that only ask, or only preview an edit. -/
def isQuery : Operation K → Bool
  | status | topologyEndpoints | compatibleDestinations _ | validateConnection _ _
  | traceNetworkPath _ | networkTraces | powerTopology | connectionDerivedStates
  | checkPlacement _ _ _ | checkGroupMove _ | findNearestPlacement _ _ _ _ _
  | arrangeItems _ _ _ _ | buildRoute _ | routeAroundObstacles _
  | previewPlannedRouteSegment _ _ _ _ _ | insertPlannedManualBend _ _ _ _
  | previewMoveRouteSegment _ _ _ _ _ => true
  | _ => false

/-- The commands on the project. -/
def isCommand : Operation K → Bool
  | createConnection _ _ _ | removeConnection _ | updateConnectionLabel _ _
  | updateConnectionRoute _ _ | resolveConnectionRouteSides _ | canonicalizeConnectionRoutes _
  | resetAllConnectionBends | restoreAutomaticConnectionRoutes | updateProjectMetadata _
  | updateAssignments _ | updatePlacements _ | snapPlacementsToGrid _ _ _ => true
  | _ => false

/-- The request to plan all cables. -/
def isPlanCableRoutes : Operation K → Bool
  | planCableRoutes _ => true
  | _ => false

end Operation

end HomelabInventory
