import HomelabInventory.RouteSearch

/-!
# Routing around obstacles

Routing one cable between its candidate end points: straight corridors first,
then simple corners, then the visibility search, and at last a way around the
perimeter of everything.
-/

namespace HomelabInventory

variable {K : Type} [Scalar K]

/-- A result for a path between the ends of a definition. -/
def plainResult (definition : RouteDefinition K) (points : List (Point K))
    (manualAnchorPointIndexes : List ℕ) : ObstacleRouteResult K where
  route := {
    connectionId := definition.connectionId
    points := points
    manualAnchorPointIndexes := manualAnchorPointIndexes }
  sourceSide := definition.sourceSide
  targetSide := definition.targetSide
  usedFallback := false

/-! ## Terminal bends -/

/-- The value lies between two others. -/
def valueBetween (value first second : K) : Bool :=
  decide (min first second ≤ value) && decide (value ≤ max first second)

/-- A bend next to an end moves onto the axis of the end when the way from the
bend to its neighbor passes the end on the outside. -/
def canonicalizeTerminal (terminal : Point K) (side : Side) (bend neighbor : Point K) : Point K :=
  if side.isHorizontal then
    if bend.x == neighbor.x && terminal.y != bend.y && valueBetween terminal.y bend.y neighbor.y &&
      movesInSide terminal bend side then { bend with y := terminal.y }
    else bend
  else
    if bend.y == neighbor.y && terminal.x != bend.x && valueBetween terminal.x bend.x neighbor.x &&
      movesInSide terminal bend side then { bend with x := terminal.x }
    else bend

/-- The manual bends with the first and the last one moved onto the axes of the
ends, when that changes them. -/
def canonicalizeTerminalBends (request : ObstacleRouteRequest K) : Option (List (Point K)) :=
  let definition := request.definition
  let bends := definition.manualBends
  match bends with
  | [] => none
  | first :: rest =>
    let first := canonicalizeTerminal definition.source definition.sourceSide first
      (rest.head?.getD definition.target)
    let canonical := first :: rest
    let initial := canonical.dropLast
    let lastPrevious := initial.getLast?.getD definition.source
    let last := canonicalizeTerminal definition.target definition.targetSide
      (rest.getLast?.getD first) lastPrevious
    let canonical := initial ++ [last]
    if canonical != bends then some canonical else none

/-! ## Simple routes -/

/-- The rectangle of an item among some obstacles. -/
def obstacleBounds (obstacles : List (RouteObstacle K)) (itemId : String) : Option (Rect K) :=
  (obstacles.find? fun obstacle => obstacle.itemId == itemId).map (·.bounds)

/-- A path that is acceptable among some expanded obstacles. -/
def routeClear (points : List (Point K)) (request : ObstacleRouteRequest K)
    (obstacles : List (RouteObstacle K)) : Bool :=
  routeStructureValid points request.definition &&
    !routeIntersectsObstacles points obstacles request.sourceItemId request.targetItemId

/-- The gap between two items whose sides face each other, and whether it lies
above or below. -/
def facingGap (definition : RouteDefinition K) (sourceBounds targetBounds : Rect K) :
    Option (K × K × Bool) :=
  match definition.sourceSide, definition.targetSide with
  | .top, .bottom =>
    if targetBounds.bottom ≤ sourceBounds.y then some (targetBounds.bottom, sourceBounds.y, true)
    else none
  | .bottom, .top =>
    if sourceBounds.bottom ≤ targetBounds.y then some (sourceBounds.bottom, targetBounds.y, true)
    else none
  | .left, .right =>
    if targetBounds.right ≤ sourceBounds.x then some (targetBounds.right, sourceBounds.x, false)
    else none
  | .right, .left =>
    if sourceBounds.right ≤ targetBounds.x then some (sourceBounds.right, targetBounds.x, false)
    else none
  | _, _ => none

/-- A route through the gap between two facing items. -/
def facingEndpointCorridorRoute (request : ObstacleRouteRequest K)
    (obstacles : List (RouteObstacle K)) : Option (List (Point K)) := do
  guard request.definition.manualBends.isEmpty
  let sourceBounds ← obstacleBounds obstacles request.sourceItemId
  let targetBounds ← obstacleBounds obstacles request.targetItemId
  let source := request.definition.source
  let target := request.definition.target
  let (gapStart, gapEnd, vertical) ← facingGap request.definition sourceBounds targetBounds
  let midpoint := (gapStart + gapEnd) / Scalar.lit 2
  let coordinates :=
    if request.snapToGrid then
      [snapIf midpoint request, snapAfterIf gapStart request, snapBeforeIf gapEnd request]
    else [midpoint]
  let inGap := coordinates.filter fun coordinate =>
    decide (gapStart ≤ coordinate) && decide (coordinate ≤ gapEnd)
  let byMidpoint := fun first second : K =>
    (Scalar.totalCmp (Scalar.abs (first - midpoint)) (Scalar.abs (second - midpoint))).then
      (Scalar.totalCmp first second)
  let corridors := (sortBy byMidpoint inGap).eraseRepsBy Scalar.sameBits
  let paths := corridors.map fun coordinate => simplifyUnprotected
    (if vertical then [source, ⟨source.x, coordinate⟩, ⟨target.x, coordinate⟩, target]
    else [source, ⟨coordinate, source.y⟩, ⟨coordinate, target.y⟩, target])
  paths.find? fun points =>
    routeClear points request obstacles && reservedOverlapDistance points request == Scalar.lit 0

/-- A route with at most one corner between the exit and the entry. -/
def fastOrthogonalRoute (request : ObstacleRouteRequest K) (sourceExit targetEntry : Point K)
    (obstacles : List (RouteObstacle K)) : Option (List (Point K)) :=
  let straight : List (List (Point K)) :=
    if sourceExit.x == targetEntry.x || sourceExit.y == targetEntry.y then [[]] else []
  let interiors := straight ++ [[⟨sourceExit.x, targetEntry.y⟩], [⟨targetEntry.x, sourceExit.y⟩]]
  let paths := interiors.map fun interior => simplifyUnprotected
    ([request.definition.source, sourceExit] ++ interior ++
      [targetEntry, request.definition.target])
  let acceptable := paths.filter fun points => routeClear points request obstacles &&
    !decide (Scalar.lit 0 < reservedOverlapDistance points request)
  minBy? (fun first second =>
    (Scalar.totalCmp (routeDistance first) (routeDistance second)).then
      (compare first.length second.length)) acceptable

/-! ## One pair of end points -/

/-- One point more on a simplified path, last point first; protected points are kept. -/
def simplifyProtectedPush (isProtected : Point K → Bool) (result : List (Point K))
    (point : Point K) : List (Point K) :=
  match result with
  | [] => [point]
  | previous :: rest =>
    if pointsEqual previous point then result
    else
      match rest with
      | [] => point :: result
      | before :: _ =>
        if !isProtected previous && orientation before previous == orientation previous point &&
          pointBetween before previous point then point :: rest
        else point :: result

/-- Drop repeated points and the middle of three points on a line, unless it is protected. -/
def simplifyProtected (points anchors : List (Point K)) : List (Point K) :=
  (points.foldl
    (simplifyProtectedPush fun point => anchors.any fun anchor => pointsEqual point anchor)
    []).reverse

/-- The places of the anchors on a path, one after the other; `none` when one is
missing, an error when a place is out of range. -/
def anchorIndexes (points : List (Point K)) :
    ℕ → List (Point K) → Except RoutingError (Option (List ℕ))
  | _, [] => .ok (some [])
  | searchFrom, anchor :: anchors =>
    match (points.drop searchFrom).findIdx? fun point => pointsEqual point anchor with
    | none => .ok none
    | some offset => do
      let index := searchFrom + offset
      failIf (65535 < index) .invalidSegmentIndex
      match ← anchorIndexes points (index + 1) anchors with
      | none => return none
      | some indexes => return some (index :: indexes)

/-- Search within some bounds. -/
def searchWithin (request : ObstacleRouteRequest K) (sourceExit targetEntry : Point K)
    (routingObstacles : List (RouteObstacle K)) (bounds : SearchBounds K) :
    Except RoutingError (Option (ObstacleRouteResult K)) :=
  let obstacles := routingObstacles.filter fun obstacle => bounds.intersects obstacle.bounds
  let anchors := request.definition.manualBends.map fun anchor =>
    resolveCoveredAnchor anchor obstacles request
  let shortestPath := findVisibilityPath sourceExit targetEntry anchors obstacles [] request bounds
  let overlapAwarePath := findVisibilityPath sourceExit targetEntry anchors obstacles
    request.reservedSegments request bounds
  match chooseBoundedOverlapRoute shortestPath overlapAwarePath request.gridSize with
  | none => .ok none
  | some graphPath =>
    let points := simplifyProtected
      ([request.definition.source] ++ graphPath ++ [request.definition.target]) anchors
    if !routeClear points request obstacles then .ok none
    else do
      match ← anchorIndexes points 0 anchors with
      | none => return none
      | some indexes => return some (plainResult request.definition points indexes)

/-- Search within growing bounds. -/
def searchBounds (request : ObstacleRouteRequest K) (sourceExit targetEntry : Point K)
    (routingObstacles : List (RouteObstacle K)) :
    List (SearchBounds K) → Except RoutingError (Option (ObstacleRouteResult K))
  | [] => .ok none
  | bounds :: attempts => do
    match ← searchWithin request sourceExit targetEntry routingObstacles bounds with
    | some result => return some result
    | none => searchBounds request sourceExit targetEntry routingObstacles attempts

/-- The route before this one, or the route without obstacles, when it is still safe. -/
def fallbackRoute (request : ObstacleRouteRequest K) :
    Except RoutingError (ObstacleRouteResult K) :=
  let safe := fun route : RoutedPath K => routeSafeForRequest route request
  let previous := request.previousValidRoute.filter safe
  let built := (buildRoute request.definition).toOption.filter safe
  match previous.or built with
  | none => .error .noRoute
  | some route =>
    .ok
      { route := route
        sourceSide := request.definition.sourceSide
        targetSide := request.definition.targetSide
        usedFallback := true
        warning := some .searchExhausted }

/-- Route between the two ends of a definition. -/
def routeSinglePair (request : ObstacleRouteRequest K) :
    Except RoutingError (ObstacleRouteResult K) :=
  let definition := request.definition
  let obstacleOf := fun itemId => request.obstacles.find? fun obstacle => obstacle.itemId == itemId
  let routingObstacles := expandedRoutingObstacles request.obstacles
  match facingEndpointCorridorRoute request routingObstacles with
  | some points => .ok (plainResult definition points [])
  | none =>
    let sourceExit := obstaclePortal definition.source definition.sourceSide
      (obstacleOf request.sourceItemId) request routingObstacles
    let targetEntry := obstaclePortal definition.target definition.targetSide
      (obstacleOf request.targetItemId) request routingObstacles
    let fast :=
      if definition.manualBends.isEmpty then
        fastOrthogonalRoute request sourceExit targetEntry routingObstacles
      else none
    match fast with
    | some points => .ok (plainResult definition points [])
    | none => do
      let routeCoordinates :=
        [definition.source, definition.target, sourceExit, targetEntry] ++ definition.manualBends
      let attempts := adaptiveSearchBounds routeCoordinates definition.laneOffset routingObstacles
      match ← searchBounds request sourceExit targetEntry routingObstacles attempts with
      | some result => return result
      | none => fallbackRoute request

/-- The request for one pair of candidates. -/
def pairRequest (request : ObstacleRouteRequest K) (source target : RouteEndpointCandidate K) :
    ObstacleRouteRequest K :=
  { request with
    definition :=
      { request.definition with
        source := source.point
        sourceSide := source.side
        target := target.point
        targetSide := target.side } }

/-- Route between one pair of candidates. -/
def routeCandidatePair (request : ObstacleRouteRequest K)
    (pair : RouteEndpointCandidate K × RouteEndpointCandidate K) :
    Except RoutingError (ObstacleRouteResult K) :=
  let single :=
    { pairRequest request pair.1 pair.2 with
      sourceCandidates := []
      targetCandidates := []
      sourceSideConstraint := none
      targetSideConstraint := none }
  match canonicalizeTerminalBends single with
  | none => routeSinglePair single
  | some bendPoints => do
    let result ← routeSinglePair
      { single with definition := { single.definition with manualBends := bendPoints } }
    return { result with
      repairedBendPoints := some bendPoints
      repairReason := some .terminalOverlap }

/-! ## Choosing a pair -/

/-- The candidates of an end that meet its constraint. -/
def endpointCandidates (candidates : List (RouteEndpointCandidate K)) (fallbackPoint : Point K)
    (fallbackSide : Side) (constraint : Option Side) : List (RouteEndpointCandidate K) :=
  let candidates :=
    if candidates.isEmpty then [⟨fallbackPoint, fallbackSide⟩] else candidates
  candidates.filter fun candidate => constraint.all (· == candidate.side)

/-- The candidates of the source. -/
def ObstacleRouteRequest.sources (request : ObstacleRouteRequest K) :
    List (RouteEndpointCandidate K) :=
  endpointCandidates request.sourceCandidates request.definition.source
    request.definition.sourceSide request.sourceSideConstraint

/-- The candidates of the target. -/
def ObstacleRouteRequest.targets (request : ObstacleRouteRequest K) :
    List (RouteEndpointCandidate K) :=
  endpointCandidates request.targetCandidates request.definition.target
    request.definition.targetSide request.targetSideConstraint

/-- A pair of candidates. -/
abbrev CandidatePair (K : Type) := RouteEndpointCandidate K × RouteEndpointCandidate K

/-- How far a side points away from the other item. -/
def outwardSidePenalty (side : Side) (source target : Rect K) : K :=
  let center := fun rect : Rect K => (⟨rect.x + rect.width / Scalar.lit 2,
    rect.y + rect.height / Scalar.lit 2⟩ : Point K)
  let dx := (center target).x - (center source).x
  let dy := (center target).y - (center source).y
  let magnitude := Scalar.abs dx + Scalar.abs dy
  if magnitude == Scalar.lit 0 then Scalar.lit 0
  else
    let alignment := match side with
      | .left => -dx
      | .right => dx
      | .top => -dy
      | .bottom => dy
    Scalar.lit 1 - alignment / magnitude

/-- How far two sides point away from each other's item. -/
def endpointPairOutwardPenalty (request : ObstacleRouteRequest K) (sourceSide targetSide : Side) :
    K :=
  match obstacleBounds request.obstacles request.sourceItemId,
    obstacleBounds request.obstacles request.targetItemId with
  | some source, some target =>
    outwardSidePenalty sourceSide source target + outwardSidePenalty targetSide target source
  | _, _ => Scalar.lit 0

/-- The rank of a side. -/
def sideRank : Side → ℕ
  | .top => 0
  | .right => 1
  | .bottom => 2
  | .left => 3

/-- What makes one route better than another. -/
structure RoutePairScore (K : Type) where
  overlapDistance : K
  outwardPenalty : K
  distance : K
  bends : ℕ
  previousPairPenalty : ℕ
  sourceSideRank : ℕ
  targetSideRank : ℕ

/-- The score of a route. -/
def routePairScore (request : ObstacleRouteRequest K) (result : ObstacleRouteResult K) :
    RoutePairScore K where
  overlapDistance := reservedOverlapDistance result.route.points request
  outwardPenalty := endpointPairOutwardPenalty request result.sourceSide result.targetSide
  distance := routeDistance result.route.points
  bends := result.route.points.length - 2
  previousPairPenalty :=
    if request.previousSourceSide = some result.sourceSide ∧
      request.previousTargetSide = some result.targetSide then 0 else 1
  sourceSideRank := sideRank result.sourceSide
  targetSideRank := sideRank result.targetSide

/-- The order of scores, best first. -/
def compareRoutePairScore (first second : RoutePairScore K) : Ordering :=
  (Scalar.totalCmp first.outwardPenalty second.outwardPenalty).then <|
    (Scalar.totalCmp first.distance second.distance).then <|
      (compare first.bends second.bends).then <|
        (Scalar.totalCmp first.overlapDistance second.overlapDistance).then <|
          (compare first.previousPairPenalty second.previousPairPenalty).then <|
            (compare first.sourceSideRank second.sourceSideRank).then
              (compare first.targetSideRank second.targetSideRank)

/-- The first of the best results. -/
def bestResult (request : ObstacleRouteRequest K) (results : List (ObstacleRouteResult K)) :
    Option (ObstacleRouteResult K) :=
  minBy? (fun first second =>
    compareRoutePairScore (routePairScore request first) (routePairScore request second)) results

/-- The routes found for some pairs. -/
def routedPairs (request : ObstacleRouteRequest K) (pairs : List (CandidatePair K)) :
    List (ObstacleRouteResult K) :=
  pairs.filterMap fun pair => (routeCandidatePair request pair).toOption

/-- Three points in front of an end form a short staircase. -/
def terminalStaircase (points : List (Point K)) (gridSize : K) : Bool :=
  match points with
  | first :: second :: third :: fourth :: _ =>
    match orientation first second, orientation second third, orientation third fourth with
    | some firstDirection, some middle, some last =>
      firstDirection == last && firstDirection != middle &&
        decide (manhattan second third ≤ max gridSize defaultRoutingGrid * Scalar.lit 2)
    | _, _, _ => false
  | _ => false

/-- A path starts or ends with a short staircase. -/
def hasShortTerminalStaircase (points : List (Point K)) (gridSize : K) : Bool :=
  terminalStaircase points gridSize || terminalStaircase points.reverse gridSize

/-- Another attachment saves points and does not overlap more. -/
def attachmentRouteIsBetter (request : ObstacleRouteRequest K)
    (current candidate : ObstacleRouteResult K) : Bool :=
  decide (candidate.route.points.length < current.route.points.length) &&
    decide (reservedOverlapDistance candidate.route.points request ≤
      reservedOverlapDistance current.route.points request)

/-- The pairs of candidates from the center of the sides outwards. -/
def progressiveCandidatePairs (sources targets : List (RouteEndpointCandidate K)) :
    List (CandidatePair K) :=
  let count := max sources.length targets.length
  let indexes := (0, 0) :: (List.range (count - 1)).flatMap fun index =>
    [(index + 1, 0), (0, index + 1), (index + 1, index + 1)]
  let inRange := indexes.filter fun pair =>
    pair.1 < sources.length ∧ pair.2 < targets.length
  let distinct := inRange.foldl (fun seen pair => if pair ∈ seen then seen else seen ++ [pair]) []
  distinct.filterMap fun pair => do
    let source ← sources[pair.1]?
    let target ← targets[pair.2]?
    return (source, target)

/-- All pairs of candidates. -/
def allPairs (sources targets : List (RouteEndpointCandidate K)) : List (CandidatePair K) :=
  sources.flatMap fun source => targets.map fun target => (source, target)

/-! ## Around the perimeter -/

/-- The point of the bounds that a side looks at. -/
def perimeterPoint (point : Point K) (side : Side) (bounds : SearchBounds K) : Point K :=
  match side with
  | .top => ⟨point.x, bounds.top⟩
  | .right => ⟨bounds.right, point.y⟩
  | .bottom => ⟨point.x, bounds.bottom⟩
  | .left => ⟨bounds.left, point.y⟩

/-- The corner after a side, clockwise. -/
def clockwiseCorner (side : Side) (bounds : SearchBounds K) : Point K :=
  match side with
  | .top => ⟨bounds.right, bounds.top⟩
  | .right => ⟨bounds.right, bounds.bottom⟩
  | .bottom => ⟨bounds.left, bounds.bottom⟩
  | .left => ⟨bounds.left, bounds.top⟩

/-- The corner after a side, counterclockwise. -/
def counterclockwiseCorner (side : Side) (bounds : SearchBounds K) : Point K :=
  match side with
  | .top => ⟨bounds.left, bounds.top⟩
  | .left => ⟨bounds.left, bounds.bottom⟩
  | .bottom => ⟨bounds.right, bounds.bottom⟩
  | .right => ⟨bounds.right, bounds.top⟩

/-- The next side, clockwise. -/
def clockwiseSide : Side → Side
  | .top => .right
  | .right => .bottom
  | .bottom => .left
  | .left => .top

/-- The next side, counterclockwise. -/
def counterclockwiseSide : Side → Side
  | .top => .left
  | .left => .bottom
  | .bottom => .right
  | .right => .top

/-- The corners from one side to another; three turns reach every side. -/
def cornersBetween (corner : Side → Point K) (next : Side → Side) (targetSide : Side) :
    ℕ → Side → List (Point K)
  | 0, _ => []
  | turns + 1, side =>
    if side = targetSide then []
    else corner side :: cornersBetween corner next targetSide turns (next side)

/-- The two ways along the perimeter. -/
def perimeterPaths (source : Point K) (sourceSide : Side) (target : Point K) (targetSide : Side)
    (bounds : SearchBounds K) : List (List (Point K)) :=
  [[source] ++ cornersBetween (clockwiseCorner · bounds) clockwiseSide targetSide 3 sourceSide ++
      [target],
    [source] ++ cornersBetween (counterclockwiseCorner · bounds) counterclockwiseSide targetSide 3
      sourceSide ++ [target]]

/-- The routes of one pair along the perimeter. -/
def perimeterResults (request : ObstacleRouteRequest K) (routingObstacles : List (RouteObstacle K))
    (bounds : SearchBounds K) (pair : CandidatePair K) : List (ObstacleRouteResult K) :=
  let (source, target) := pair
  let paired := pairRequest request source target
  let obstacleOf := fun itemId => routingObstacles.find? fun obstacle => obstacle.itemId == itemId
  let sourceExit := obstaclePortal source.point source.side (obstacleOf request.sourceItemId) paired
    routingObstacles
  let targetEntry := obstaclePortal target.point target.side (obstacleOf request.targetItemId)
    paired routingObstacles
  let sourceBoundary := perimeterPoint sourceExit source.side bounds
  let targetBoundary := perimeterPoint targetEntry target.side bounds
  if !segmentClear sourceExit sourceBoundary routingObstacles ||
    !segmentClear targetEntry targetBoundary routingObstacles then []
  else
    let paths := (perimeterPaths sourceBoundary source.side targetBoundary target.side bounds).map
      fun perimeter => simplifyUnprotected
        ([source.point, sourceExit] ++ perimeter ++ [targetEntry, target.point])
    (paths.filter fun points => routeClear points paired routingObstacles).map fun points =>
      { plainResult paired.definition points [] with
        usedFallback := true
        warning := some .searchExhausted }

/-- The best route around everything, for cables without manual bends. -/
def perimeterFallbackRoute (request : ObstacleRouteRequest K) (pairs : List (CandidatePair K)) :
    Option (ObstacleRouteResult K) :=
  if !request.definition.manualBends.isEmpty then none
  else
    let routingObstacles := expandedRoutingObstacles request.obstacles
    let routeCoordinates := (pairs.flatMap fun pair => [pair.1.point, pair.2.point]) ++
      obstacleCorners routingObstacles
    let margin := max minRoutingMargin (request.definition.laneOffset * Scalar.lit 3)
    let bounds := SearchBounds.withMargin routeCoordinates margin
    bestResult request (pairs.flatMap (perimeterResults request routingObstacles bounds))

/-! ## Routing a request -/

/-- Route with both sides fixed: the centers first, and other attachments only to
avoid a short staircase or when the centers cannot be joined. -/
def routeConstrained (request : ObstacleRouteRequest K) (pairs : List (CandidatePair K)) :
    Except RoutingError (ObstacleRouteResult K) :=
  match pairs.head?.bind fun pair => (routeCandidatePair request pair).toOption with
  | some center =>
    if !hasShortTerminalStaircase center.route.points request.gridSize then .ok center
    else
      .ok ((routedPairs request (pairs.drop 1)).foldl
        (fun best candidate =>
          if attachmentRouteIsBetter request best candidate then candidate else best) center)
  | none =>
    match (routedPairs request (pairs.drop 1)).head? with
    | some result => .ok result
    | none =>
      match perimeterFallbackRoute request pairs with
      | some result => .ok result
      | none => .error .noRoute

/-- The pairs by outward penalty, distance and sides. -/
def sortedPairs (request : ObstacleRouteRequest K) (pairs : List (CandidatePair K)) :
    List (K × CandidatePair K) :=
  sortBy
    (fun first second =>
      (Scalar.totalCmp first.1 second.1).then <|
        (Scalar.totalCmp (manhattan first.2.1.point first.2.2.point)
          (manhattan second.2.1.point second.2.2.point)).then <|
          (compare (sideRank first.2.1.side) (sideRank second.2.1.side)).then
            (compare (sideRank first.2.2.side) (sideRank second.2.2.side)))
    (pairs.map fun pair => (endpointPairOutwardPenalty request pair.1.side pair.2.side, pair))

/-- The best route of the first group of pairs with equal penalty that has one. -/
def routeGroups (request : ObstacleRouteRequest K) :
    ℕ → List (K × CandidatePair K) → Option (ObstacleRouteResult K)
  | 0, _ => none
  | _ + 1, [] => none
  | groups + 1, pairs@((penalty, _) :: _) =>
    let inGroup := fun entry : K × CandidatePair K => (Scalar.totalCmp entry.1 penalty).isEq
    let group := pairs.takeWhile inGroup
    match bestResult request (routedPairs request (group.map (·.2))) with
    | some result => some result
    | none => routeGroups request groups (pairs.dropWhile inGroup)

/-- Route with a free side: every pair, best penalty first. -/
def routeUnconstrained (request : ObstacleRouteRequest K) (pairs : List (CandidatePair K)) :
    Except RoutingError (ObstacleRouteResult K) :=
  match routeGroups request pairs.length (sortedPairs request pairs) with
  | some result => .ok result
  | none =>
    match perimeterFallbackRoute request pairs with
    | some result => .ok result
    | none => .error .noRoute

/-- Route one cable around the obstacles. -/
def routeAroundObstacles (request : ObstacleRouteRequest K) :
    Except RoutingError (ObstacleRouteResult K) := do
  validateObstacleRequest request
  failIf (request.sources.isEmpty || request.targets.isEmpty) .invalidEndpointCandidates
  if request.sourceSideConstraint.isSome && request.targetSideConstraint.isSome then
    routeConstrained request (progressiveCandidatePairs request.sources request.targets)
  else routeUnconstrained request (allPairs request.sources request.targets)

/-- The definition with the candidates that a result starts and ends at. -/
def selectedDefinition (request : ObstacleRouteRequest K) (result : ObstacleRouteResult K) :
    Option (RouteDefinition K) := do
  let sourcePoint ← result.route.points.head?
  let targetPoint ← result.route.points.getLast?
  let source ← request.sources.find? fun candidate =>
    candidate.side == result.sourceSide && pointsEqual candidate.point sourcePoint
  let target ← request.targets.find? fun candidate =>
    candidate.side == result.targetSide && pointsEqual candidate.point targetPoint
  return { request.definition with
    sourceSide := source.side
    targetSide := target.side
    source := source.point
    target := target.point }

/-- A result is acceptable for a request, at the end points it selected. -/
def routeSafeForResult (result : ObstacleRouteResult K) (request : ObstacleRouteRequest K) : Bool :=
  match selectedDefinition request result with
  | none => false
  | some definition => routeSafeForRequest result.route { request with definition := definition }

end HomelabInventory
