import HomelabInventory.Routing

/-!
# Searching for a route

The search for one cable between two fixed end points: which paths are
acceptable, where cables leave their equipment, and the shortest path in the
grid of visible points around the obstacles.
-/

namespace HomelabInventory

variable {K : Type} [Scalar K]

/-- `MIN_ROUTING_MARGIN` -/
def minRoutingMargin : K := Scalar.lit 96

/-- `EQUIPMENT_ROUTE_CLEARANCE` -/
def equipmentRouteClearance : K := Scalar.lit 6

/-- `MIN_COLLISION_DETOUR_BUDGET_IN_GRIDS` -/
def minCollisionDetourBudgetInGrids : K := Scalar.lit 4

/-- `MAX_COLLISION_DETOUR_BUDGET_IN_GRIDS` -/
def maxCollisionDetourBudgetInGrids : K := Scalar.lit 24

/-- `COLLISION_DETOUR_RATIO` -/
def collisionDetourRatio : K := Scalar.lit (15 / 100)

/-- `MAX_VISIBILITY_SEARCH_STATES` -/
def maxVisibilitySearchStates : ℕ := 100000

/-! ## Validation of requests -/

/-- The candidates of an end are valid and distinct. -/
def validateEndpointCandidates (candidates : List (RouteEndpointCandidate K)) :
    Except RoutingError (List (RouteEndpointCandidate K)) :=
  candidates.foldlM (fun seen candidate => do
    liftGeometry candidate.point.validate
    failIf (seen.any fun other => other.side == candidate.side &&
      Scalar.sameBits other.point.x candidate.point.x &&
      Scalar.sameBits other.point.y candidate.point.y) .invalidEndpointCandidates
    return candidate :: seen) []

/-- The obstacles have distinct names and valid rectangles. -/
def validateObstacles (obstacles : List (RouteObstacle K)) : Except RoutingError Unit := do
  failIf (¬(obstacles.map (·.itemId)).Nodup) .duplicateObstacleId
  obstacles.forM fun obstacle => do
    failIf (isBlank obstacle.itemId) .emptyItemId
    liftGeometry obstacle.bounds.validate

/-- A stretch between two points is a valid segment. -/
def validateStretch (start stop : Point K) : Except RoutingError Unit :=
  liftGeometry (Segment.validate ⟨start, stop⟩)

/-- Everything but the obstacles of a request is valid. -/
def validateObstacleRequestBase (request : ObstacleRouteRequest K) :
    Except RoutingError Unit := do
  request.definition.validate
  let _ ← validateEndpointCandidates request.sourceCandidates
  let _ ← validateEndpointCandidates request.targetCandidates
  failIf (isBlank request.sourceItemId || isBlank request.targetItemId) .emptyItemId
  validateOptionalGrid (if request.snapToGrid then some request.gridSize else none)
  request.reservedSegments.forM fun segment => validateStretch segment.start segment.stop
  match request.previousValidRoute with
  | none => return
  | some previous =>
    failIf (previous.connectionId ≠ request.definition.connectionId) .invalidConnectionId
    (stretches previous.points).forM fun pair => validateStretch pair.1 pair.2

/-- A request is valid. -/
def validateObstacleRequest (request : ObstacleRouteRequest K) : Except RoutingError Unit := do
  validateObstacleRequestBase request
  validateObstacles request.obstacles

/-! ## Points, stretches and obstacles -/

/-- The distance along the axes. -/
def manhattan (first second : Point K) : K :=
  Scalar.abs (first.x - second.x) + Scalar.abs (first.y - second.y)

/-- The length of a path. -/
def routeDistance (points : List (Point K)) : K :=
  (stretches points).foldl (fun sum pair => sum + manhattan pair.1 pair.2) (Scalar.lit 0)

/-- The second point lies on the given side of the first. -/
def movesInSide (first second : Point K) : Side → Bool
  | .left => decide (second.x < first.x)
  | .right => decide (first.x < second.x)
  | .top => decide (second.y < first.y)
  | .bottom => decide (first.y < second.y)

/-- The second point lies opposite to the given side of the first. -/
def movesAgainstSide (first second : Point K) : Side → Bool
  | .left => decide (first.x < second.x)
  | .right => decide (second.x < first.x)
  | .top => decide (first.y < second.y)
  | .bottom => decide (second.y < first.y)

/-- The point lies inside the rectangle. -/
def pointInsideObstacle (point : Point K) (obstacle : Rect K) : Bool :=
  decide (obstacle.x < point.x) && decide (point.x < obstacle.right) &&
    decide (obstacle.y < point.y) && decide (point.y < obstacle.bottom)

/-- The point lies inside one of the obstacles. -/
def pointInsideAnyObstacle (point : Point K) (obstacles : List (RouteObstacle K)) : Bool :=
  obstacles.any fun obstacle => pointInsideObstacle point obstacle.bounds

/-- The stretch crosses the interior of the rectangle; a diagonal always does. -/
def segmentCrossesObstacleInterior (first second : Point K) (obstacle : Rect K) : Bool :=
  if first.y == second.y then
    decide (obstacle.y < first.y) && decide (first.y < obstacle.bottom) &&
      decide (obstacle.x < max first.x second.x) && decide (min first.x second.x < obstacle.right)
  else if first.x == second.x then
    decide (obstacle.x < first.x) && decide (first.x < obstacle.right) &&
      decide (obstacle.y < max first.y second.y) && decide (min first.y second.y < obstacle.bottom)
  else true

/-- The stretch crosses no obstacle. -/
def segmentClear (first second : Point K) (obstacles : List (RouteObstacle K)) : Bool :=
  !obstacles.any fun obstacle => segmentCrossesObstacleInterior first second obstacle.bounds

/-- The obstacles grown by the clearance that cables keep from equipment. -/
def expandedRoutingObstacles (obstacles : List (RouteObstacle K)) : List (RouteObstacle K) :=
  obstacles.map fun obstacle =>
    { obstacle with bounds := obstacle.bounds.inflate equipmentRouteClearance }

/-- A path crosses an obstacle. The first stretch may cross the source item and
the last one the target item. -/
def routeIntersectsObstacles (points : List (Point K)) (obstacles : List (RouteObstacle K))
    (sourceItemId targetItemId : String) : Bool :=
  (stretches points).zipIdx.any fun entry => obstacles.any fun obstacle =>
    if entry.2 = 0 ∧ obstacle.itemId = sourceItemId then false
    else if entry.2 = points.length - 2 ∧ obstacle.itemId = targetItemId then false
    else segmentCrossesObstacleInterior entry.1.1 entry.1.2 obstacle.bounds

/-- A path comes too close to equipment. -/
def routeIntersectsEquipmentClearance (points : List (Point K))
    (obstacles : List (RouteObstacle K)) (sourceItemId targetItemId : String) : Bool :=
  routeIntersectsObstacles points (expandedRoutingObstacles obstacles) sourceItemId targetItemId

/-- A path runs between the ends of its definition, leaves both of them on their
side and has valid geometry. -/
def routeStructureValid (points : List (Point K)) (definition : RouteDefinition K) : Bool :=
  match points, points.reverse with
  | first :: second :: _, last :: beforeLast :: _ =>
    pointsEqual first definition.source && pointsEqual last definition.target &&
      movesInSide first second definition.sourceSide &&
      movesInSide last beforeLast definition.targetSide && routeGeometryValid points
  | _, _ => false

/-- A path that is acceptable for a request. -/
def routeSafeForRequest (route : RoutedPath K) (request : ObstacleRouteRequest K) : Bool :=
  routeStructureValid route.points request.definition &&
    !routeIntersectsEquipmentClearance route.points request.obstacles request.sourceItemId
      request.targetItemId

/-! ## Lanes -/

/-- The length two ranges share. -/
def overlapLength (firstStart firstEnd secondStart secondEnd : K) : K :=
  let overlapStart := max (min firstStart firstEnd) (min secondStart secondEnd)
  let overlapEnd := min (max firstStart firstEnd) (max secondStart secondEnd)
  max (overlapEnd - overlapStart) (Scalar.lit 0)

/-- The direction of a reserved stretch. -/
def ReservedSegment.orientation (segment : ReservedSegment K) : Option Orientation :=
  HomelabInventory.orientation segment.start segment.stop

/-- The distance between the lanes of two stretches of one direction, and the
length they share along it. -/
def laneDistanceAndOverlap (direction : Orientation) (first second : ReservedSegment K) : K × K :=
  match direction with
  | .horizontal =>
    (Scalar.abs (first.start.y - second.start.y),
      overlapLength first.start.x first.stop.x second.start.x second.stop.x)
  | .vertical =>
    (Scalar.abs (first.start.x - second.start.x),
      overlapLength first.start.y first.stop.y second.start.y second.stop.y)

/-- The length along which two stretches are closer than the separation. -/
def collinearConflictLength (first second : ReservedSegment K) (separation : K) : K :=
  match first.orientation with
  | none => Scalar.lit 0
  | some direction =>
    if second.orientation ≠ some direction then Scalar.lit 0
    else
      let lane := laneDistanceAndOverlap direction first second
      if separation ≤ lane.1 then Scalar.lit 0 else lane.2

/-- A change of a reservation is close enough to a stretch to matter to it. -/
def reservationChangeAffectsRoute (route changed : ReservedSegment K) (laneSpacing : K) : Bool :=
  match route.orientation with
  | none => false
  | some direction =>
    changed.orientation == some direction &&
      let lane := laneDistanceAndOverlap direction route changed
      decide (lane.1 ≤ laneSpacing) && decide (Scalar.lit 0 < lane.2)

/-- The stretches a path reserves: all of a short path, else all but the first
and the last. -/
def reservableSegments (points : List (Point K)) : List (ReservedSegment K) :=
  (stretches points).zipIdx.filterMap fun entry =>
    if 3 < points.length ∧ (entry.2 = 0 ∨ entry.2 + 1 = points.length - 1) then none
    else (orientation entry.1.1 entry.1.2).map fun _ => ⟨entry.1.1, entry.1.2⟩

/-- The length along which a path is too close to the reserved stretches. -/
def reservedOverlapDistance (points : List (Point K)) (request : ObstacleRouteRequest K) : K :=
  (reservableSegments points).foldl
    (fun sum segment => request.reservedSegments.foldl
      (fun sum reserved => sum + collinearConflictLength segment reserved request.gridSize) sum)
    (Scalar.lit 0)

/-! ## Portals -/

/-- The value, on the grid when the request asks for it. -/
def snapIf (value : K) (request : ObstacleRouteRequest K) : K :=
  if request.snapToGrid then snapValue value request.gridSize else value

/-- The value, on the grid line before it when the request asks for it. -/
def snapBeforeIf (value : K) (request : ObstacleRouteRequest K) : K :=
  if request.snapToGrid then Scalar.floor (value / request.gridSize) * request.gridSize else value

/-- The value, on the grid line after it when the request asks for it. -/
def snapAfterIf (value : K) (request : ObstacleRouteRequest K) : K :=
  if request.snapToGrid then Scalar.ceil (value / request.gridSize) * request.gridSize else value

/-- The point at a clearance from the side of an obstacle. -/
def portalAtClearance (point : Point K) (side : Side) (bounds : Rect K) (clearance : K)
    (request : ObstacleRouteRequest K) (snapOutward : Bool) : Point K :=
  let snapBefore := fun value =>
    if snapOutward then snapBeforeIf value request else snapIf value request
  let snapAfter := fun value =>
    if snapOutward then snapAfterIf value request else snapIf value request
  match side with
  | .left => { point with x := snapBefore (bounds.x - clearance) }
  | .right => { point with x := snapAfter (bounds.right + clearance) }
  | .top => { point with y := snapBefore (bounds.y - clearance) }
  | .bottom => { point with y := snapAfter (bounds.bottom + clearance) }

/-- A portal lies on its side, outside the obstacles, and can be reached from the
end point; the item of the end point itself may be crossed. -/
def portalCandidateClear (endpoint candidate : Point K) (side : Side) (ownItemId : String)
    (obstacles : List (RouteObstacle K)) : Bool :=
  movesInSide endpoint candidate side && obstacles.all fun obstacle =>
    !pointInsideObstacle candidate obstacle.bounds &&
      (obstacle.itemId == ownItemId ||
        !segmentCrossesObstacleInterior endpoint candidate obstacle.bounds)

/-- The first clear point among some distances from the side. -/
def safeSideOffset (point : Point K) (side : Side) (preferredDistance gridSize : K)
    (obstacles : List (RouteObstacle K)) : Point K :=
  let distances := (sortBy (fun first second => Scalar.totalCmp second first)
    [preferredDistance, min preferredDistance gridSize, Scalar.lit 0]).eraseRepsBy
      fun first second => first == second
  ((distances.map fun distance => sideOffset point side distance).find? fun candidate =>
    !pointInsideAnyObstacle candidate obstacles && segmentClear point candidate obstacles).getD point

/-- The point where a cable leaves the surroundings of its equipment. -/
def obstaclePortal (point : Point K) (side : Side) (obstacle : Option (RouteObstacle K))
    (request : ObstacleRouteRequest K) (obstacles : List (RouteObstacle K)) : Point K :=
  match obstacle with
  | none => safeSideOffset point side request.definition.laneOffset request.gridSize obstacles
  | some obstacle =>
    let preferredClearance := max request.definition.laneOffset request.gridSize
    let preferred := portalAtClearance point side obstacle.bounds preferredClearance request true
    let gridClearance := min preferredClearance request.gridSize
    let grid := portalAtClearance point side obstacle.bounds gridClearance request false
    let boundary := portalAtClearance point side obstacle.bounds (Scalar.lit 0) request false
    ([preferred, grid, boundary].find? fun candidate =>
      portalCandidateClear point candidate side obstacle.itemId obstacles).getD boundary

/-! ## Search bounds -/

/-- The part of the canvas that is searched. -/
structure SearchBounds (K : Type) where
  left : K
  top : K
  right : K
  bottom : K

namespace SearchBounds

/-- The point lies within the bounds. -/
def contains (bounds : SearchBounds K) (point : Point K) : Bool :=
  decide (bounds.left ≤ point.x) && decide (point.x ≤ bounds.right) &&
    decide (bounds.top ≤ point.y) && decide (point.y ≤ bounds.bottom)

/-- The rectangle touches the bounds. -/
def intersects (bounds : SearchBounds K) (rect : Rect K) : Bool :=
  decide (bounds.left ≤ rect.right) && decide (rect.x ≤ bounds.right) &&
    decide (bounds.top ≤ rect.bottom) && decide (rect.y ≤ bounds.bottom)

/-- The rectangle spanned by some points, grown by a margin. -/
def withMargin (points : List (Point K)) (margin : K) : SearchBounds K where
  left := (points.map (·.x)).min?.getD (Scalar.lit 0) - margin
  top := (points.map (·.y)).min?.getD (Scalar.lit 0) - margin
  right := (points.map (·.x)).max?.getD (Scalar.lit 0) + margin
  bottom := (points.map (·.y)).max?.getD (Scalar.lit 0) + margin

end SearchBounds

/-- Two opposite corners of every obstacle. -/
def obstacleCorners (obstacles : List (RouteObstacle K)) : List (Point K) :=
  obstacles.flatMap fun obstacle =>
    [⟨obstacle.bounds.x, obstacle.bounds.y⟩, ⟨obstacle.bounds.right, obstacle.bounds.bottom⟩]

/-- The bounds to search, growing. -/
def adaptiveSearchBounds (points : List (Point K)) (laneOffset : K)
    (obstacles : List (RouteObstacle K)) : List (SearchBounds K) :=
  let base := max minRoutingMargin (laneOffset * Scalar.lit 3)
  let attempts :=
    [.withMargin points base, .withMargin points (base * Scalar.lit 2),
      .withMargin points (base * Scalar.lit 4)]
  if obstacles.isEmpty then attempts
  else attempts ++ [.withMargin (points ++ obstacleCorners obstacles) base]

/-- An anchor that an obstacle covers moves to the nearest free edge of the
obstacle. -/
def resolveCoveredAnchor (anchor : Point K) (obstacles : List (RouteObstacle K))
    (request : ObstacleRouteRequest K) : Point K :=
  if !pointInsideAnyObstacle anchor obstacles then anchor
  else
    let candidates := ((obstacles.filter fun obstacle =>
      pointInsideObstacle anchor obstacle.bounds).flatMap fun obstacle =>
        let left := snapBeforeIf obstacle.bounds.x request
        let right := snapAfterIf obstacle.bounds.right request
        let top := snapBeforeIf obstacle.bounds.y request
        let bottom := snapAfterIf obstacle.bounds.bottom request
        let anchorX := snapIf anchor.x request
        let anchorY := snapIf anchor.y request
        [⟨left, anchorY⟩, ⟨right, anchorY⟩, ⟨anchorX, top⟩, ⟨anchorX, bottom⟩]).filter
      fun candidate => !pointInsideAnyObstacle candidate obstacles
    let byDistance := fun first second : Point K =>
      (Scalar.totalCmp (manhattan first anchor) (manhattan second anchor)).then
        ((Scalar.totalCmp first.x second.x).then (Scalar.totalCmp first.y second.y))
    (sortBy byDistance candidates).head?.getD anchor

/-! ## The visibility graph -/

/-- An edge of the visibility graph. -/
structure GraphEdge (K : Type) where
  target : ℕ
  direction : Orientation
  distance : K
  overlapDistance : K

/-- The free grid points and the clear stretches between neighbors on a line. -/
structure VisibilityGraph (K : Type) where
  nodes : List (Point K)
  edges : List (List (GraphEdge K))

/-- The points are the same number for number. -/
def samePoint (first second : Point K) : Bool :=
  Scalar.sameBits first.x second.x && Scalar.sameBits first.y second.y

/-- Sort and drop repetitions. -/
def sortDeduplicate (values : List K) : List K :=
  (sortBy Scalar.totalCmp values).eraseRepsBy Scalar.sameBits

/-- The coordinates of the grid lines. -/
def coordinateValues (start stop : Point K) (anchors : List (Point K))
    (obstacles : List (RouteObstacle K)) (reservedSegments : List (ReservedSegment K))
    (request : ObstacleRouteRequest K) (bounds : SearchBounds K) : List K × List K :=
  let obstacleXs := obstacles.flatMap fun obstacle =>
    [snapBeforeIf obstacle.bounds.x request, snapAfterIf obstacle.bounds.right request]
  let obstacleYs := obstacles.flatMap fun obstacle =>
    [snapBeforeIf obstacle.bounds.y request, snapAfterIf obstacle.bounds.bottom request]
  let lanes := fun value : K => [value - request.gridSize, value + request.gridSize]
  let reservedXs := reservedSegments.flatMap fun segment =>
    match segment.orientation with
    | some .horizontal => [segment.start.x, segment.stop.x]
    | some .vertical => lanes segment.start.x
    | none => []
  let reservedYs := reservedSegments.flatMap fun segment =>
    match segment.orientation with
    | some .horizontal => lanes segment.start.y
    | some .vertical => [segment.start.y, segment.stop.y]
    | none => []
  let xs := [start.x, stop.x, bounds.left, bounds.right] ++ anchors.map (·.x) ++ obstacleXs ++
    reservedXs
  let ys := [start.y, stop.y, bounds.top, bounds.bottom] ++ anchors.map (·.y) ++ obstacleYs ++
    reservedYs
  (sortDeduplicate (xs.filter fun x => decide (bounds.left ≤ x) && decide (x ≤ bounds.right)),
    sortDeduplicate (ys.filter fun y => decide (bounds.top ≤ y) && decide (y ≤ bounds.bottom)))

/-- The free grid points, row by row. -/
def visibleNodes (grid : List K × List K) (obstacles : List (RouteObstacle K))
    (bounds : SearchBounds K) : List (Point K) :=
  (grid.2.flatMap fun y => grid.1.map fun x => (⟨x, y⟩ : Point K)).filter fun point =>
    bounds.contains point && !pointInsideAnyObstacle point obstacles

/-- The pairs of neighbors on the grid lines of one direction. -/
def neighborPairs (nodes : List (Point K)) (lines : List K) (across along : Point K → K) :
    List (ℕ × ℕ) :=
  lines.flatMap fun line =>
    let members := nodes.zipIdx.filter fun entry => Scalar.sameBits (across entry.1) line
    let sorted := sortBy
      (fun first second => Scalar.totalCmp (along first.1) (along second.1)) members
    (sorted.zip sorted.tail).map fun pair => (pair.1.2, pair.2.2)

/-- Join two nodes, in both directions, when the stretch between them is clear. -/
def connectGraphNodes (nodes : List (Point K)) (direction : Orientation)
    (obstacles : List (RouteObstacle K)) (reservedSegments : List (ReservedSegment K))
    (separation : K) (edges : List (List (GraphEdge K))) (pair : ℕ × ℕ) :
    List (List (GraphEdge K)) :=
  match nodes[pair.1]?, nodes[pair.2]? with
  | some first, some second =>
    if pointsEqual first second || !segmentClear first second obstacles then edges
    else
      let overlapDistance := reservedSegments.foldl
        (fun sum reserved => sum + collinearConflictLength ⟨first, second⟩ reserved separation)
        (Scalar.lit 0)
      let edge : GraphEdge K :=
        { target := pair.2
          direction := direction
          distance := manhattan first second
          overlapDistance := overlapDistance }
      (edges.modify pair.1 (· ++ [edge])).modify pair.2 (· ++ [{ edge with target := pair.1 }])
  | _, _ => edges

/-- The rank of a direction. -/
def Orientation.rank : Orientation → ℕ
  | .horizontal => 0
  | .vertical => 1

/-- The visibility graph of a search. -/
def buildVisibilityGraph (start stop : Point K) (anchors : List (Point K))
    (obstacles : List (RouteObstacle K)) (reservedSegments : List (ReservedSegment K))
    (request : ObstacleRouteRequest K) (bounds : SearchBounds K) : VisibilityGraph K :=
  let grid := coordinateValues start stop anchors obstacles reservedSegments request bounds
  let nodes := visibleNodes grid obstacles bounds
  let connect := fun direction =>
    connectGraphNodes nodes direction obstacles reservedSegments request.gridSize
  let noEdges : List (List (GraphEdge K)) := nodes.map fun _ => []
  let rows := (neighborPairs nodes grid.2 (·.y) (·.x)).foldl (connect .horizontal) noEdges
  let columns := (neighborPairs nodes grid.1 (·.x) (·.y)).foldl (connect .vertical) rows
  let byTarget := compareLex (compareOn fun edge : GraphEdge K => edge.target)
    (compareOn fun edge => edge.direction.rank)
  { nodes := nodes, edges := columns.map (sortBy byTarget) }

/-! ## The search -/

/-- A state of the search: a node, the direction it was reached in and the
number of anchors passed. -/
structure SearchKey where
  nodeId : ℕ
  direction : Orientation
  phase : ℕ
  deriving DecidableEq

namespace SearchKey

/-- The order of search states. -/
instance : Ord SearchKey := ⟨compareLex (compareOn SearchKey.nodeId)
  (compareLex (compareOn fun key => key.direction.rank) (compareOn SearchKey.phase))⟩

instance : Std.TransOrd SearchKey := inferInstanceAs (Std.TransCmp
  (compareLex (compareOn SearchKey.nodeId)
    (compareLex (compareOn fun key : SearchKey => key.direction.rank)
      (compareOn SearchKey.phase))))

end SearchKey

/-- The cost of a path. -/
structure SearchCost (K : Type) where
  distance : K
  bends : ℕ
  overlapDistance : K
  deriving BEq

/-- The best path to a state so far. -/
structure SearchBest (K : Type) where
  cost : SearchCost K
  lexicalPath : String
  deriving BEq

/-- The order of paths: by overlap, length, bends and spelling. -/
def compareSearchBest (first second : SearchBest K) : Ordering :=
  (Scalar.totalCmp first.cost.overlapDistance second.cost.overlapDistance).then <|
    (Scalar.totalCmp first.cost.distance second.cost.distance).then <|
      (compare first.cost.bends second.cost.bends).then
        (compare first.lexicalPath second.lexicalPath)

/-- An entry of the search queue. -/
structure QueueEntry (K : Type) where
  key : SearchKey
  best : SearchBest K

/-- The number of a node, with leading zeros. -/
def lexicalNode (nodeId : ℕ) : String :=
  let digits := toString nodeId
  String.ofList (List.replicate (8 - digits.length) '0') ++ digits

/-- The anchors passed at a point. -/
def advancePhase (node : Point K) (phase : ℕ) (anchors : List (Point K)) : ℕ :=
  ((anchors.drop phase).takeWhile fun anchor => pointsEqual node anchor).length + phase

/-- The direction in which cables leave a side. -/
def sideDirection (side : Side) : Orientation :=
  if side.isHorizontal then .horizontal else .vertical

/-- Take the best entry out of the queue. -/
def popQueue (queue : List (QueueEntry K)) : Option (QueueEntry K × List (QueueEntry K)) :=
  let indexed := queue.zipIdx
  (minBy? (fun first second => compareSearchBest first.1.best second.1.best) indexed).map
    fun entry => (entry.1, queue.eraseIdx entry.2)

/-- The progress of a search. -/
structure SearchState (K : Type) where
  queue : List (QueueEntry K)
  best : BTreeMap SearchKey (SearchBest K)
  previous : BTreeMap SearchKey SearchKey := ∅
  bestEnd : Option (SearchKey × SearchBest K) := none

section Search

variable (graph : VisibilityGraph K) (startId stopId : ℕ) (anchors : List (Point K))
  (sourceSide targetSide : Side)

/-- Follow one edge. -/
def followEdge (current : QueueEntry K) (currentNode : Point K) (state : SearchState K)
    (edge : GraphEdge K) : SearchState K :=
  match graph.nodes[edge.target]? with
  | none => state
  | some node =>
    if current.key.nodeId = startId ∧ movesAgainstSide currentNode node sourceSide then state
    else if edge.target = stopId ∧ movesInSide currentNode node targetSide then state
    else
      let nextKey : SearchKey :=
        { nodeId := edge.target
          direction := edge.direction
          phase := advancePhase node current.key.phase anchors }
      let turn := if current.key.direction = edge.direction then 0 else 1
      let candidate : SearchBest K :=
        { cost :=
            { distance := current.best.cost.distance + edge.distance
              bends := current.best.cost.bends + turn
              overlapDistance := current.best.cost.overlapDistance + edge.overlapDistance }
          lexicalPath := current.best.lexicalPath ++ ":" ++ lexicalNode edge.target }
      if (state.best[nextKey]?).any fun known => !(compareSearchBest candidate known).isLT then state
      else
        { state with
          previous := state.previous.insert nextKey current.key
          best := state.best.insert nextKey candidate
          queue := { key := nextKey, best := candidate } :: state.queue }

/-- Work off one entry of the queue. -/
def expandEntry (state : SearchState K) (current : QueueEntry K) : SearchState K :=
  match state.best[current.key]? with
  | none => state
  | some known =>
    if known != current.best then state
    else if current.key.nodeId = stopId ∧ current.key.phase = anchors.length then
      let turn := if current.key.direction = sideDirection targetSide then 0 else 1
      let finalBest := { known with cost := { known.cost with bends := known.cost.bends + turn } }
      if state.bestEnd.all fun candidate => (compareSearchBest finalBest candidate.2).isLT then
        { state with bestEnd := some (current.key, finalBest) }
      else state
    else
      match graph.nodes[current.key.nodeId]? with
      | none => state
      | some currentNode =>
        (graph.edges[current.key.nodeId]?.getD []).foldl
          (followEdge graph startId stopId anchors sourceSide targetSide current currentNode) state

/-- Work off the queue. A search that visits too many states is given up. -/
def searchLoop : ℕ → SearchState K → Option (SearchState K)
  | remaining, state =>
    match popQueue state.queue, remaining with
    | none, _ => some state
    | some _, 0 => none
    | some (current, queue), remaining + 1 =>
      searchLoop remaining
        (expandEntry graph startId stopId anchors sourceSide targetSide
          { state with queue := queue } current)

/-- The nodes on the way to a state, last one first. -/
def tracePath (previous : BTreeMap SearchKey SearchKey) : ℕ → SearchKey → List (Point K)
  | 0, key => graph.nodes[key.nodeId]?.toList
  | fuel + 1, key =>
    graph.nodes[key.nodeId]?.toList ++
      match previous[key]? with
      | none => []
      | some parent => tracePath previous fuel parent

end Search

/-- The cheapest path from the source exit through the anchors to the target entry. -/
def findVisibilityPath (start stop : Point K) (anchors : List (Point K))
    (obstacles : List (RouteObstacle K)) (reservedSegments : List (ReservedSegment K))
    (request : ObstacleRouteRequest K) (bounds : SearchBounds K) : Option (List (Point K)) := do
  let graph := buildVisibilityGraph start stop anchors obstacles reservedSegments request bounds
  let startId ← graph.nodes.findIdx? (samePoint start)
  let stopId ← graph.nodes.findIdx? (samePoint stop)
  let sourceSide := request.definition.sourceSide
  let targetSide := request.definition.targetSide
  let initialKey : SearchKey :=
    { nodeId := startId
      direction := sideDirection sourceSide
      phase := advancePhase start 0 anchors }
  let initialBest : SearchBest K :=
    { cost := { distance := Scalar.lit 0, bends := 0, overlapDistance := Scalar.lit 0 }
      lexicalPath := lexicalNode startId }
  let state ← searchLoop graph startId stopId anchors sourceSide targetSide
    maxVisibilitySearchStates
    { queue := [{ key := initialKey, best := initialBest }]
      best := (∅ : BTreeMap SearchKey (SearchBest K)).insert initialKey initialBest }
  let (key, _) ← state.bestEnd
  return (tracePath graph state.previous state.previous.size key).reverse

/-- The path that avoids reserved lanes, unless the shortest one is much shorter. -/
def chooseBoundedOverlapRoute (shortestPath overlapAwarePath : Option (List (Point K)))
    (gridSize : K) : Option (List (Point K)) :=
  match shortestPath.or overlapAwarePath, overlapAwarePath with
  | none, _ => none
  | some shortest, none => some shortest
  | some shortest, some overlapAware =>
    let shortestDistance := routeDistance shortest
    let detourBudget := clamp (shortestDistance * collisionDetourRatio)
      (gridSize * minCollisionDetourBudgetInGrids) (gridSize * maxCollisionDetourBudgetInGrids)
    if routeDistance overlapAware ≤ shortestDistance + detourBudget then some overlapAware
    else some shortest

end HomelabInventory
