import HomelabInventory.RouteAround

/-!
# The route planner

The planner keeps a cache of routes between calls. A call recalculates a bounded
number of the routes that its input, its obstacles or its reserved lanes make
stale, and leaves the others for the next call with the same request. The
function that routes one cable and the bound are parameters of the planner.
-/

namespace HomelabInventory

/-- `MAX_ROUTE_RECALCULATIONS_PER_PLAN` -/
def maxRouteRecalculationsPerPlan : ℕ := 4

section Values

variable (K : Type)

/-- A request to route one cable, and whether it keeps out of reserved lanes. -/
structure LaneRouteRequest where
  avoidCableOverlap : Bool
  request : ObstacleRouteRequest K
  deriving BEq, ReflBEq, LawfulBEq, DecidableEq

/-- A cached route with the input it was computed for. -/
structure CachedLaneRoute where
  input : LaneRouteRequest K
  result : ObstacleRouteResult K
  deriving BEq, ReflBEq, LawfulBEq, DecidableEq

/-- Cached routes of an earlier session and the obstacles they were computed for. -/
structure CableRouteCacheSeed where
  obstacles : List (RouteObstacle K)
  entries : List (CachedLaneRoute K)
  deriving BEq, ReflBEq, LawfulBEq, DecidableEq

/-- A request to route all cables. -/
structure CableRoutePlanRequest where
  obstacles : List (RouteObstacle K)
  requests : List (LaneRouteRequest K)
  seed : Option (CableRouteCacheSeed K) := none
  deriving BEq, ReflBEq, LawfulBEq, DecidableEq

/-- A cable that could not be routed. -/
structure CableRouteFailure where
  connectionId : ℕ
  message : String
  deriving DecidableEq

/-- Bends that were repaired. -/
structure CableRouteRepair where
  connectionId : ℕ
  bendPoints : List (Point K)
  reason : RouteRepairReason
  deriving DecidableEq

/-- The answer to a request. -/
structure CableRoutePlan where
  routes : List (ObstacleRouteResult K)
  recalculatedConnectionIds : List ℕ
  deferredConnectionIds : List ℕ
  failures : List CableRouteFailure
  repairs : List (CableRouteRepair K)
  deriving DecidableEq

/-- Cached routes by connection. -/
abbrev RouteCache := BTreeMap ℕ (CachedLaneRoute K)

/-- The state of the planner. -/
structure RoutePlanner where
  cache : RouteCache K := ∅
  obstacles : List (RouteObstacle K) := []
  pendingObstacles : Option (List (RouteObstacle K)) := none
  pendingRequests : Option (List (LaneRouteRequest K)) := none
  pendingConnectionIds : BTreeSet ℕ := ∅
  pendingReservationChanges : List (ReservedSegment K) := []

end Values

section Requests

variable {K : Type}

/-- The connection of a request. -/
def LaneRouteRequest.connectionId (entry : LaneRouteRequest K) : ℕ :=
  entry.request.definition.connectionId

/-- A request without the parts that the planner fills in. -/
def LaneRouteRequest.cleaned (entry : LaneRouteRequest K) : LaneRouteRequest K :=
  { entry with request := { entry.request with previousValidRoute := none, obstacles := [] } }

/-- The requests in the order of their connections, without the parts that the
planner fills in. -/
def sortedRequestInputs (request : CableRoutePlanRequest K) : List (LaneRouteRequest K) :=
  (sortByKey LaneRouteRequest.connectionId request.requests).map LaneRouteRequest.cleaned

end Requests

variable {K : Type} [Scalar K]

/-- The requests are valid and for distinct connections. -/
def validateRequests (requests : List (LaneRouteRequest K)) : Except RoutingError (BTreeSet ℕ) :=
  requests.foldlM (fun (seen : BTreeSet ℕ) entry => do
    failIf (entry.connectionId ∈ seen) .invalidConnectionId
    validateObstacleRequestBase entry.request
    return seen.insert entry.connectionId) ∅

/-- The reserved stretches of a cached route. -/
def CachedLaneRoute.reserved (cached : CachedLaneRoute K) : List (ReservedSegment K) :=
  reservableSegments cached.result.route.points

/-- The rectangles of obstacles by name. -/
def boundsById (obstacles : List (RouteObstacle K)) : BTreeMap String (Rect K) :=
  collectEntries (obstacles.map fun obstacle => (obstacle.itemId, obstacle.bounds))

/-- The obstacles that appeared, vanished or moved, with their old and new rectangles. -/
def changedObstacleBounds (previous next : List (RouteObstacle K)) : List (String × Rect K) :=
  let previousById := boundsById previous
  let nextById := boundsById next
  (collectSet (previousById.keys ++ nextById.keys)).toList.flatMap fun itemId =>
    let previousBounds := previousById[itemId]?
    let nextBounds := nextById[itemId]?
    if previousBounds == nextBounds then []
    else (previousBounds.toList ++ nextBounds.toList).map fun bounds => (itemId, bounds)

/-- A path comes near a rectangle. -/
def routeNearRect (points : List (Point K)) (rect : Rect K) : Bool :=
  let clearance : K := defaultRoutingGrid
  let left := rect.x - clearance
  let right := rect.right + clearance
  let top := rect.y - clearance
  let bottom := rect.bottom + clearance
  (stretches points).any fun pair =>
    decide (left ≤ max pair.1.x pair.2.x) && decide (min pair.1.x pair.2.x ≤ right) &&
      decide (top ≤ max pair.1.y pair.2.y) && decide (min pair.1.y pair.2.y ≤ bottom)

/-! ## One entry -/

/-- What stays the same during a call. -/
structure PlanContext (K : Type) where
  /-- the function that routes one cable -/
  route : ObstacleRouteRequest K → Except RoutingError (ObstacleRouteResult K)
  /-- how many routes may be recalculated -/
  limit : Option ℕ
  obstacles : List (RouteObstacle K)
  changedObstacles : List (String × Rect K)
  continuing : Bool
  pendingConnectionIds : BTreeSet ℕ

/-- What changes from entry to entry. -/
structure PlanProgress (K : Type) where
  cache : RouteCache K
  changedReservations : List (ReservedSegment K)
  reservations : List (ReservedSegment K) := []
  recalculated : List ℕ := []
  deferred : List ℕ := []
  failures : List CableRouteFailure := []

namespace PlanContext

variable (context : PlanContext K)

/-- The cached route was computed for another input. -/
def inputChanged (entry : LaneRouteRequest K) (previous : Option (CachedLaneRoute K)) : Bool :=
  previous.all fun cached => cached.input != entry

/-- An obstacle changed at the ends of the cable or near its cached route. -/
def obstacleChanged (entry : LaneRouteRequest K) (previous : Option (CachedLaneRoute K)) : Bool :=
  previous.any fun cached => context.changedObstacles.any fun changed =>
    changed.1 == entry.request.sourceItemId || changed.1 == entry.request.targetItemId ||
      routeNearRect cached.result.route.points changed.2

/-- A reservation changed near the lanes of the cached route. -/
def reservationChanged (changedReservations : List (ReservedSegment K))
    (entry : LaneRouteRequest K) (previous : Option (CachedLaneRoute K)) : Bool :=
  entry.avoidCableOverlap && previous.any fun cached => cached.reserved.any fun segment =>
    changedReservations.any fun changed =>
      reservationChangeAffectsRoute segment changed entry.request.gridSize

/-- The entry needs another route. A continued call only takes up what the last
one has left. -/
def shouldRecalculate (progress : PlanProgress K) (entry : LaneRouteRequest K)
    (previous : Option (CachedLaneRoute K)) : Bool :=
  if context.continuing then context.pendingConnectionIds.contains entry.connectionId
  else
    inputChanged entry previous || context.obstacleChanged entry previous ||
      reservationChanged progress.changedReservations entry previous

/-- The call has recalculated as many routes as it may. -/
def exhausted (progress : PlanProgress K) : Bool :=
  context.limit.any fun limit => decide (limit ≤ progress.recalculated.length)

/-- The request for one cable, completed with obstacles, history and reservations. -/
def routeRequest (progress : PlanProgress K) (entry : LaneRouteRequest K)
    (previous : Option (CachedLaneRoute K)) : ObstacleRouteRequest K :=
  { entry.request with
    obstacles := context.obstacles
    previousValidRoute :=
      (previous.filter fun cached => cached.input == entry).map fun cached => cached.result.route
    previousSourceSide := previous.map fun cached => cached.result.sourceSide
    previousTargetSide := previous.map fun cached => cached.result.targetSide
    reservedSegments :=
      if entry.avoidCableOverlap then entry.request.reservedSegments ++ progress.reservations
      else entry.request.reservedSegments }

/-- Recalculate a route. When there is none, the cached one is kept as long as it
is safe; the answer is `none` when there is no route at all. -/
def recalculate (progress : PlanProgress K) (entry : LaneRouteRequest K)
    (previous : Option (CachedLaneRoute K)) : Except RoutingError (Option (ObstacleRouteResult K)) :=
  let request := context.routeRequest progress entry previous
  match context.route request with
  | .ok result => .ok (some result)
  | .error .noRoute =>
    match previous.filter fun cached => routeSafeForResult cached.result request with
    | some cached =>
      .ok (some { cached.result with usedFallback := true, warning := some .searchExhausted })
    | none => .ok none
  | .error error => .error error

/-- The result differs from the cached one in its course. -/
def routeChanged (previous : Option (CachedLaneRoute K)) (result : ObstacleRouteResult K) : Bool :=
  previous.all fun cached => cached.result.route != result.route ||
    cached.result.sourceSide != result.sourceSide || cached.result.targetSide != result.targetSide

/-- Plan one entry. -/
def planEntry (progress : PlanProgress K) (entry : LaneRouteRequest K) :
    Except RoutingError (PlanProgress K) :=
  let connectionId := entry.connectionId
  let previous := progress.cache[connectionId]?
  let reservedBefore := (previous.map CachedLaneRoute.reserved).getD []
  if !context.shouldRecalculate progress entry previous then
    .ok { progress with reservations := progress.reservations ++ reservedBefore }
  else if context.exhausted progress then
    .ok { progress with
      deferred := progress.deferred ++ [connectionId]
      reservations := progress.reservations ++ reservedBefore }
  else
    match context.recalculate progress entry previous with
    | .error error => .error error
    | .ok none =>
      .ok { progress with
        cache := progress.cache.erase connectionId
        recalculated := progress.recalculated ++ [connectionId]
        failures := progress.failures ++
          [{ connectionId := connectionId, message := RoutingError.noRoute.display }] }
    | .ok (some result) =>
      let reserved := reservableSegments result.route.points
      let changes := if routeChanged previous result then reservedBefore ++ reserved else []
      .ok { progress with
        cache := progress.cache.insert connectionId { input := entry, result := result }
        changedReservations := progress.changedReservations ++ changes
        recalculated := progress.recalculated ++ [connectionId]
        reservations := progress.reservations ++ reserved }

/-- Plan entry after entry, up to the first error. -/
def planEntries : PlanProgress K → List (LaneRouteRequest K) → PlanProgress K × Option RoutingError
  | progress, [] => (progress, none)
  | progress, entry :: entries =>
    match context.planEntry progress entry with
    | .error error => (progress, some error)
    | .ok progress => planEntries progress entries

end PlanContext

namespace RoutePlanner

/-! ## A call -/

/-- A seed entry is usable: valid, and safe among the obstacles of the seed. -/
def usableSeed (seed : CableRouteCacheSeed K) (input : LaneRouteRequest K)
    (result : ObstacleRouteResult K) : Bool :=
  (validateObstacleRequestBase input.request).isOk && input.connectionId != 0 &&
    result.route.connectionId == input.connectionId &&
    ((selectedDefinition input.request result).any fun definition =>
      routeStructureValid result.route.points definition) &&
    !routeIntersectsEquipmentClearance result.route.points seed.obstacles
      input.request.sourceItemId input.request.targetItemId

/-- The cache that a seed describes. -/
def seedCache (seed : CableRouteCacheSeed K) : RouteCache K :=
  seed.entries.foldl (fun (cache : RouteCache K) entry =>
    let input := entry.input.cleaned
    if !usableSeed seed input entry.result || cache.contains input.connectionId then cache
    else cache.insert input.connectionId { input := input, result := entry.result }) ∅

/-- Take over the cache of a seed, when it has a usable entry. -/
def hydrate (planner : RoutePlanner K) (seed : CableRouteCacheSeed K) : RoutePlanner K :=
  if !(validateObstacles seed.obstacles).isOk then planner
  else
    let cache := seedCache seed
    if cache.isEmpty then planner else { planner with cache := cache, obstacles := seed.obstacles }

/-- Take over the cache of a seed when there is nothing else. -/
def hydrateFrom (planner : RoutePlanner K) (seed : Option (CableRouteCacheSeed K)) :
    RoutePlanner K :=
  match seed with
  | some seed => if planner.cache.isEmpty then planner.hydrate seed else planner
  | none => planner

/-- The call goes on with what the last one has left. -/
def isContinuing (planner : RoutePlanner K) (obstacles : List (RouteObstacle K))
    (sorted : List (LaneRouteRequest K)) : Bool :=
  planner.pendingObstacles == some obstacles && planner.pendingRequests == some sorted

/-- Forget what the last call has left. -/
def clearPending (planner : RoutePlanner K) : RoutePlanner K :=
  { planner with
    pendingObstacles := none
    pendingRequests := none
    pendingConnectionIds := ∅
    pendingReservationChanges := [] }

/-- The context of a call. -/
def context (route : ObstacleRouteRequest K → Except RoutingError (ObstacleRouteResult K))
    (limit : Option ℕ) (planner : RoutePlanner K) (obstacles : List (RouteObstacle K))
    (continuing : Bool) : PlanContext K where
  route := route
  limit := limit
  obstacles := obstacles
  changedObstacles := changedObstacleBounds planner.obstacles obstacles
  continuing := continuing
  pendingConnectionIds := planner.pendingConnectionIds

/-- The progress at the start of a call: cables that are gone leave the cache and
free their lanes. -/
def startProgress (planner : RoutePlanner K) (desiredIds : BTreeSet ℕ) : PlanProgress K where
  cache := planner.cache.filter fun id _ => desiredIds.contains id
  changedReservations := planner.pendingReservationChanges ++
    (planner.cache.toList.filter fun entry => !desiredIds.contains entry.1).flatMap
      fun entry => entry.2.reserved

/-- The planner after a call. Obstacles are only taken over when nothing is left. -/
def finish (planner : RoutePlanner K) (obstacles : List (RouteObstacle K))
    (sorted : List (LaneRouteRequest K)) (progress : PlanProgress K) : RoutePlanner K :=
  if progress.deferred.isEmpty then
    clearPending { planner with cache := progress.cache, obstacles := obstacles }
  else
    { planner with
      cache := progress.cache
      pendingObstacles := some obstacles
      pendingRequests := some sorted
      pendingConnectionIds := collectSet progress.deferred
      pendingReservationChanges := progress.changedReservations }

/-- The repair a result asks for. -/
def repairOf (result : ObstacleRouteResult K) : Option (CableRouteRepair K) := do
  let bendPoints ← result.repairedBendPoints
  let reason ← result.repairReason
  return { connectionId := result.route.connectionId, bendPoints := bendPoints, reason := reason }

/-- The answer of a call. -/
def answer (desiredIds : BTreeSet ℕ) (progress : PlanProgress K) : CableRoutePlan K :=
  let routes := (progress.cache.toList.filter fun entry => desiredIds.contains entry.1).map
    fun entry => entry.2.result
  { routes := routes
    recalculatedConnectionIds := progress.recalculated
    deferredConnectionIds := progress.deferred
    failures := progress.failures
    repairs := routes.filterMap repairOf }

/-- One call, after the seed was considered. -/
def planHydrated (route : ObstacleRouteRequest K → Except RoutingError (ObstacleRouteResult K))
    (limit : Option ℕ) (planner : RoutePlanner K) (request : CableRoutePlanRequest K) :
    RoutePlanner K × Except RoutingError (CableRoutePlan K) :=
  let sorted := sortedRequestInputs request
  match validateRequests sorted with
  | .error error => (planner, .error error)
  | .ok desiredIds =>
    let continuing := planner.isContinuing request.obstacles sorted
    let planner := if continuing then planner else planner.clearPending
    let context := planner.context route limit request.obstacles continuing
    match context.planEntries (planner.startProgress desiredIds) sorted with
    | (progress, some error) => ({ planner with cache := progress.cache }, .error error)
    | (progress, none) =>
      (planner.finish request.obstacles sorted progress, .ok (answer desiredIds progress))

/-- One call of a planner with a given single-route function and bound. -/
def planWith (route : ObstacleRouteRequest K → Except RoutingError (ObstacleRouteResult K))
    (limit : Option ℕ) (planner : RoutePlanner K) (request : CableRoutePlanRequest K) :
    RoutePlanner K × Except RoutingError (CableRoutePlan K) :=
  match validateObstacles request.obstacles with
  | .error error => (planner, .error error)
  | .ok _ => planHydrated route limit (planner.hydrateFrom request.seed) request

/-- One call of the planner. -/
def plan (planner : RoutePlanner K) (request : CableRoutePlanRequest K) :
    RoutePlanner K × Except RoutingError (CableRoutePlan K) :=
  planWith routeAroundObstacles (some maxRouteRecalculationsPerPlan) planner request

/-! ## Previews of planned routes -/

/-- The definition and path of a planned route. -/
def plannedRoute (planner : RoutePlanner K) (connectionId : ℕ) :
    Except RoutingError (RouteDefinition K × RoutedPath K) :=
  match planner.cache[connectionId]? with
  | none => .error .invalidConnectionId
  | some cached =>
    match selectedDefinition cached.input.request cached.result with
    | none => .error .invalidEndpointCandidates
    | some definition => .ok (definition, cached.result.route)

/-- Move a stretch of a planned route. -/
def previewMoveSegment (planner : RoutePlanner K) (connectionId segmentIndex : ℕ) (coordinate : K)
    (snapGrid : Option K) (endpointSnapThreshold : K) : Except RoutingError (RouteEdit K) := do
  let (definition, route) ← planner.plannedRoute connectionId
  previewMoveRoutedSegment definition route segmentIndex coordinate snapGrid endpointSnapThreshold

/-- Insert a manual bend on a planned route. -/
def previewInsertManualBend (planner : RoutePlanner K) (connectionId segmentIndex : ℕ)
    (pointer : Point K) (snapGrid : Option K) : Except RoutingError (RouteEdit K) := do
  let (definition, route) ← planner.plannedRoute connectionId
  previewInsertRoutedBend definition route segmentIndex pointer snapGrid

end RoutePlanner

end HomelabInventory
