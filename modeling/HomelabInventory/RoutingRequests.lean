import HomelabInventory.InsertionMap
import HomelabInventory.RoutePlanner

/-!
# Routing requests of the canvas

What the canvas asks the planner for, when two request sets are the same, and
when cached routes are those of a request set.
-/

namespace HomelabInventory.CableRouting

section Values

variable (K : Type)

/-- An item in the way of cables, by its edges. -/
structure CableObstacle where
  itemId : String
  left : K
  top : K
  right : K
  bottom : K

/-- The measured ends of a cable and how it is to be drawn. -/
structure CableRouteRequest where
  source : Point K
  target : Point K
  sourceSide : Option Side
  targetSide : Option Side
  sourceCandidates : List (RouteEndpointCandidate K)
  targetCandidates : List (RouteEndpointCandidate K)
  laneOffset : K
  obstacles : List (CableObstacle K)
  sourceItemId : String
  targetItemId : String
  manualBendPoints : Option (List (Point K)) := none
  reservedSegments : Option (List (ReservedSegment K)) := none
  snapToGrid : Bool

/-- A request to route one cable. -/
structure CableLaneRouteRequest where
  connectionId : ℕ
  avoidCableOverlap : Bool
  request : CableRouteRequest K

/-- A route as it is drawn. -/
structure CableRouteResult where
  points : List (Point K)
  sourceSide : Side
  targetSide : Side
  manualAnchorPointIndexes : List ℕ
  usedFallback : Bool

/-- A cached route. -/
structure PersistedCableRouteEntry where
  connectionId : ℕ
  result : ObstacleRouteResult K

/-- The routes and failures of an earlier plan. -/
structure CableRoutingCacheSnapshot where
  version : ℕ
  plannerVersion : ℕ
  geometryFingerprint : Option String
  entries : List (PersistedCableRouteEntry K)
  failures : List CableRouteFailure

/-- What a plan came to. -/
structure CableRoutePlanResult where
  routes : List (ℕ × CableRouteResult K)
  recalculatedConnectionIds : List ℕ
  failures : List (ℕ × String)
  repairs : List (CableRouteRepair K)
  cache : CableRoutingCacheSnapshot K

/-- What the canvas has from its platform: the order of texts, and the JSON text of the geometry
that is planned. -/
structure Platform where
  localeCompare : String → String → Ordering
  stringify : List (RouteObstacle K) → List (LaneRouteRequest K) → String

end Values

variable {K : Type}

/-! ## The same requests -/

section Equality

variable [BEq K]

def pointEqual (first second : Point K) : Bool := first.x == second.x && first.y == second.y

/-- Two lists agree place by place. -/
def listsEqual {α : Type} (equal : α → α → Bool) (first second : List α) : Bool :=
  first.length == second.length && (first.zip second).all fun pair => equal pair.1 pair.2

/-- Lists that may be left out. -/
def pointsEqual : Option (List (Point K)) → Option (List (Point K)) → Bool
  | none, none => true
  | some first, some second => listsEqual pointEqual first second
  | _, _ => false

def candidatesEqual (first second : List (RouteEndpointCandidate K)) : Bool :=
  listsEqual (fun candidate other =>
    candidate.side == other.side && pointEqual candidate.point other.point) first second

/-- The same obstacles in any order. Two objects that are one are not compared in the source. -/
def obstaclesEqual (first second : List (CableObstacle K)) : Bool :=
  let secondById := InsertionMap.ofEntries (second.map fun obstacle => (obstacle.itemId, obstacle))
  first.length == second.length && first.all fun obstacle =>
    (InsertionMap.get? secondById obstacle.itemId).any fun candidate =>
      obstacle.itemId == candidate.itemId && obstacle.left == candidate.left
        && obstacle.top == candidate.top && obstacle.right == candidate.right
        && obstacle.bottom == candidate.bottom

/-- The ends of the reserved segments. -/
def CableRouteRequest.reservedPoints (request : CableRouteRequest K) : Option (List (Point K)) :=
  request.reservedSegments.map (·.flatMap fun segment => [segment.start, segment.stop])

def routeRequestsEqual (first second : CableLaneRouteRequest K) : Bool :=
  first.connectionId == second.connectionId
    && first.avoidCableOverlap == second.avoidCableOverlap
    && pointEqual first.request.source second.request.source
    && pointEqual first.request.target second.request.target
    && first.request.sourceSide == second.request.sourceSide
    && first.request.targetSide == second.request.targetSide
    && candidatesEqual first.request.sourceCandidates second.request.sourceCandidates
    && candidatesEqual first.request.targetCandidates second.request.targetCandidates
    && first.request.laneOffset == second.request.laneOffset
    && obstaclesEqual first.request.obstacles second.request.obstacles
    && first.request.sourceItemId == second.request.sourceItemId
    && first.request.targetItemId == second.request.targetItemId
    && first.request.snapToGrid == second.request.snapToGrid
    && pointsEqual first.request.manualBendPoints second.request.manualBendPoints
    && pointsEqual first.request.reservedPoints second.request.reservedPoints

/-- The requests by connection, the last one of a connection counting. -/
def requestsById (requests : List (CableLaneRouteRequest K)) :
    List (ℕ × CableLaneRouteRequest K) :=
  InsertionMap.ofEntries (requests.map fun request => (request.connectionId, request))

def requestSetsEqual (first second : List (ℕ × CableLaneRouteRequest K)) : Bool :=
  first.length == second.length && first.all fun entry =>
    (InsertionMap.get? second entry.1).any fun candidate => routeRequestsEqual entry.2 candidate

def cableRouteResultsEqual (first second : CableRouteResult K) : Bool :=
  first.usedFallback == second.usedFallback
    && first.sourceSide == second.sourceSide
    && first.targetSide == second.targetSide
    && first.manualAnchorPointIndexes == second.manualAnchorPointIndexes
    && listsEqual pointEqual first.points second.points

end Equality

/-! ## Cached routes -/

section Cache

variable [Scalar K] (platform : Platform K)

/-- `ROUTING_CACHE_FORMAT_VERSION` -/
def routingCacheFormatVersion : ℕ := 4

/-- `ROUTING_PLANNER_VERSION` -/
def routingPlannerVersion : ℕ := 12

def obstacleBounds (obstacle : CableObstacle K) : Rect K where
  x := obstacle.left
  y := obstacle.top
  width := obstacle.right - obstacle.left
  height := obstacle.bottom - obstacle.top

/-- The obstacles of the first request, for the planner. -/
def engineObstacles (requests : List (CableLaneRouteRequest K)) : List (RouteObstacle K) :=
  let obstacles := (requests.head?.map (·.request.obstacles)).getD []
  (sortBy (fun first second => platform.localeCompare first.itemId second.itemId) obstacles).map
    fun obstacle => ⟨obstacle.itemId, obstacleBounds obstacle⟩

/-- The candidates on the side that is asked for. -/
def candidatesOnSide (side : Option Side) (candidates : List (RouteEndpointCandidate K)) :
    List (RouteEndpointCandidate K) :=
  match side with
  | some side => candidates.filter (·.side == side)
  | none => candidates

def toEngineRequest (entry : CableLaneRouteRequest K) : Except String (LaneRouteRequest K) :=
  let sourceCandidates := candidatesOnSide entry.request.sourceSide entry.request.sourceCandidates
  let targetCandidates := candidatesOnSide entry.request.targetSide entry.request.targetCandidates
  match sourceCandidates.head?, targetCandidates.head? with
  | some sourceCandidate, some targetCandidate => .ok
    { avoidCableOverlap := entry.avoidCableOverlap
      request :=
        { definition :=
            { connectionId := entry.connectionId
              source := sourceCandidate.point
              target := targetCandidate.point
              sourceSide := sourceCandidate.side
              targetSide := targetCandidate.side
              laneOffset := entry.request.laneOffset
              manualBends := entry.request.manualBendPoints.getD [] }
          sourceCandidates := sourceCandidates
          targetCandidates := targetCandidates
          sourceSideConstraint := entry.request.sourceSide
          targetSideConstraint := entry.request.targetSide
          previousSourceSide := none
          previousTargetSide := none
          sourceItemId := entry.request.sourceItemId
          targetItemId := entry.request.targetItemId
          obstacles := []
          reservedSegments := entry.request.reservedSegments.getD []
          snapToGrid := entry.request.snapToGrid
          gridSize := Scalar.lit 12
          previousValidRoute := none } }
  | _, _ => .error s!"Cable {entry.connectionId} is missing measured endpoint candidates."

/-- The requests in the order of their connections, for the planner. -/
def engineRequests (requests : List (CableLaneRouteRequest K)) :
    Except String (List (LaneRouteRequest K)) :=
  (sortByKey (·.connectionId) requests).mapM toEngineRequest

/-- The UTF-16 code units of a text. -/
def codeUnits (text : String) : List UInt32 :=
  text.toList.flatMap fun char =>
    let offset : UInt32 := char.val - 0x10000
    if char.toNat < 0x10000 then [char.val]
    else [(0xd800 : UInt32) + (offset >>> 10), (0xdc00 : UInt32) + (offset &&& 0x3ff)]

/-- A number in lower-case hexadecimal digits, eight at least. -/
def hexDigits (value : UInt32) : String :=
  let digits := Nat.toDigits 16 value.toNat
  String.ofList (List.replicate (8 - digits.length) '0' ++ digits)

def hashGeometry (value : String) : String :=
  let hashed := (codeUnits value).zipIdx.foldl (fun (hash : UInt32 × UInt32) code =>
    ((hash.1 ^^^ code.1) * 0x01000193,
      (hash.2 ^^^ (code.1 + UInt32.ofNat code.2)) * 0x85ebca6b)) (0x811c9dc5, 0x9e3779b9)
  hexDigits hashed.1 ++ hexDigits hashed.2

def cableRoutingGeometryFingerprint (requests : List (CableLaneRouteRequest K)) :
    Except String String := do
  let normalized ← engineRequests requests
  return hashGeometry (platform.stringify (engineObstacles platform requests) normalized)

def endpointMatchesCandidates (point : Option (Point K)) (side : Side)
    (candidates : List (RouteEndpointCandidate K)) (fallback : RouteEndpointCandidate K) : Bool :=
  point.any fun point =>
    let available := if candidates.isEmpty then [fallback] else candidates
    available.any fun candidate => candidate.side == side && pointEqual candidate.point point

def resultMatchesInput (result : ObstacleRouteResult K) (input : LaneRouteRequest K) : Bool :=
  let points := result.route.points
  let definition := input.request.definition
  result.route.connectionId == definition.connectionId
    && endpointMatchesCandidates points.head? result.sourceSide input.request.sourceCandidates
      ⟨definition.source, definition.sourceSide⟩
    && endpointMatchesCandidates points.getLast? result.targetSide input.request.targetCandidates
      ⟨definition.target, definition.targetSide⟩

/-- Take over the cached routes; a route of no input, twice or off its ends spoils them all. -/
def seedEntries (inputs : List (ℕ × LaneRouteRequest K)) :
    List (PersistedCableRouteEntry K) → List ℕ → List (CachedLaneRoute K) →
      Option (List ℕ × List (CachedLaneRoute K))
  | [], seen, seeded => some (seen, seeded)
  | entry :: rest, seen, seeded =>
    match InsertionMap.get? inputs entry.connectionId with
    | none => none
    | some input =>
      if seen.contains entry.connectionId || !(resultMatchesInput entry.result input) then none
      else seedEntries inputs rest (seen ++ [entry.connectionId]) (seeded ++ [⟨input, entry.result⟩])

/-- A failure of no input or of a connection that was seen spoils the cache. -/
def failuresApart (inputs : List (ℕ × LaneRouteRequest K)) :
    List CableRouteFailure → List ℕ → Bool
  | [], _ => true
  | failure :: rest, seen =>
    (InsertionMap.get? inputs failure.connectionId).isSome
      && !(seen.contains failure.connectionId)
      && failuresApart inputs rest (seen ++ [failure.connectionId])

def reconstructRoutingSeed (cache : Option (CableRoutingCacheSnapshot K))
    (requests : List (CableLaneRouteRequest K)) :
    Except String (Option (CableRouteCacheSeed K)) :=
  match cache with
  | none => .ok none
  | some cache =>
    if cache.version ≠ routingCacheFormatVersion
        ∨ cache.plannerVersion ≠ routingPlannerVersion then .ok none
    else do
      let fingerprint ← cableRoutingGeometryFingerprint platform requests
      if cache.geometryFingerprint ≠ some fingerprint then return none
      let normalizedRequests ← engineRequests requests
      let inputs := InsertionMap.ofEntries
        (normalizedRequests.map fun input => (input.request.definition.connectionId, input))
      if inputs.length ≠ requests.length then return none
      match seedEntries inputs cache.entries [] [] with
      | none => return none
      | some (seen, entries) =>
        if !(failuresApart inputs cache.failures seen) then return none
        return some ⟨engineObstacles platform requests, entries⟩

def routingCacheMatchesRequests (cache : CableRoutingCacheSnapshot K)
    (requests : List (CableLaneRouteRequest K)) : Except String Bool := do
  let seed ← reconstructRoutingSeed platform (some cache) requests
  return seed.isSome && cache.entries.length + cache.failures.length == requests.length

def routingCacheGeometryMatchesRequests (cache : Option (CableRoutingCacheSnapshot K))
    (requests : List (CableLaneRouteRequest K)) : Except String Bool := do
  let seed ← reconstructRoutingSeed platform cache requests
  return seed.isSome

end Cache

def fromEngineResult (result : ObstacleRouteResult K) : CableRouteResult K where
  points := result.route.points
  sourceSide := result.sourceSide
  targetSide := result.targetSide
  manualAnchorPointIndexes := result.route.manualAnchorPointIndexes
  usedFallback := result.usedFallback

def routesFromRoutingCache (cache : CableRoutingCacheSnapshot K) : List (ℕ × CableRouteResult K) :=
  InsertionMap.ofEntries
    (cache.entries.map fun entry => (entry.connectionId, fromEngineResult entry.result))

def failuresFromRoutingCache (cache : CableRoutingCacheSnapshot K) : List (ℕ × String) :=
  InsertionMap.ofEntries
    (cache.failures.map fun failure => (failure.connectionId, failure.message))

end HomelabInventory.CableRouting
