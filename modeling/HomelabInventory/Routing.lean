import HomelabInventory.ExceptLoop
import HomelabInventory.Geometry

/-!
# Cable routes

The course of a cable: its definition by end points, sides and manual bends, the
path that is drawn for it, and the edits of its bends.
-/

namespace HomelabInventory

/-- Why a route is rejected. -/
inductive RoutingError where
  | geometry (error : GeometryError)
  | invalidConnectionId
  | invalidSegmentIndex
  | invalidBendIndex
  | invalidLaneOffset
  | invalidSnapGrid
  | invalidSnapThreshold
  | anchorOnEndpoint
  | emptyItemId
  | duplicateObstacleId
  | invalidEndpointCandidates
  | noRoute
  deriving DecidableEq

/-- The message of a routing error. -/
def RoutingError.display : RoutingError → String
  | .geometry error => error.display
  | .invalidConnectionId => "Connection ID must be positive."
  | .invalidSegmentIndex => "Route segment does not exist."
  | .invalidBendIndex => "Manual bend does not exist."
  | .invalidLaneOffset => "Route lane offset must be finite and non-negative."
  | .invalidSnapGrid => "Route snap grid must be finite and positive."
  | .invalidSnapThreshold => "Endpoint snap threshold must be finite and non-negative."
  | .anchorOnEndpoint => "A manual bend cannot replace a route endpoint."
  | .emptyItemId => "Route item IDs must not be empty."
  | .duplicateObstacleId => "Route obstacle item IDs must be unique."
  | .invalidEndpointCandidates => "Route endpoint candidates must contain unique valid points."
  | .noRoute => "No bounded orthogonal route was found."

/-- A geometry error seen as a routing error. -/
def liftGeometry {α : Type} : Except GeometryError α → Except RoutingError α
  | .ok a => .ok a
  | .error error => .error (.geometry error)

section Values

variable (K : Type)

/-- The ends, sides and manual bends of a cable. -/
structure RouteDefinition where
  connectionId : ℕ
  source : Point K
  target : Point K
  sourceSide : Side
  targetSide : Side
  laneOffset : K
  manualBends : List (Point K) := []
  deriving BEq, ReflBEq, LawfulBEq, DecidableEq

/-- A point where a cable may leave an item. -/
structure RouteEndpointCandidate where
  point : Point K
  side : Side
  deriving BEq, ReflBEq, LawfulBEq, DecidableEq

/-- A drawn path, with the places of the manual bends on it. -/
structure RoutedPath where
  connectionId : ℕ
  points : List (Point K)
  manualAnchorPointIndexes : List ℕ := []
  deriving BEq, ReflBEq, LawfulBEq, DecidableEq

/-- New bends for a cable. -/
structure RoutePatch where
  connectionId : ℕ
  bendPoints : List (Point K)
  deriving BEq, ReflBEq, LawfulBEq, DecidableEq

/-- An edit of the bends of a cable, with its inverse. -/
structure RouteEdit where
  route : RoutedPath K
  forward : RoutePatch K
  inverse : RoutePatch K
  deriving BEq, ReflBEq, LawfulBEq, DecidableEq

/-- An item in the way of cables. -/
structure RouteObstacle where
  itemId : String
  bounds : Rect K
  deriving BEq, ReflBEq, LawfulBEq, DecidableEq

/-- A stretch of canvas another cable occupies. -/
structure ReservedSegment where
  start : Point K
  stop : Point K
  deriving BEq, ReflBEq, LawfulBEq, DecidableEq

/-- A request to route one cable. -/
structure ObstacleRouteRequest where
  definition : RouteDefinition K
  sourceCandidates : List (RouteEndpointCandidate K) := []
  targetCandidates : List (RouteEndpointCandidate K) := []
  sourceSideConstraint : Option Side := none
  targetSideConstraint : Option Side := none
  previousSourceSide : Option Side := none
  previousTargetSide : Option Side := none
  sourceItemId : String
  targetItemId : String
  obstacles : List (RouteObstacle K) := []
  reservedSegments : List (ReservedSegment K) := []
  snapToGrid : Bool
  gridSize : K
  previousValidRoute : Option (RoutedPath K) := none
  deriving BEq, ReflBEq, LawfulBEq, DecidableEq

/-- A warning about a route. -/
inductive RouteWarning where
  | searchExhausted
  deriving BEq, ReflBEq, LawfulBEq, DecidableEq

/-- Why the bends of a route were repaired. -/
inductive RouteRepairReason where
  | terminalOverlap
  deriving BEq, ReflBEq, LawfulBEq, DecidableEq

/-- The route found for a request. -/
structure ObstacleRouteResult where
  route : RoutedPath K
  sourceSide : Side
  targetSide : Side
  usedFallback : Bool
  warning : Option RouteWarning := none
  repairedBendPoints : Option (List (Point K)) := none
  repairReason : Option RouteRepairReason := none
  deriving BEq, ReflBEq, LawfulBEq, DecidableEq

end Values

/-- `DEFAULT_ROUTING_GRID` -/
def defaultRoutingGrid {K : Type} [Scalar K] : K := Scalar.lit 12

/-- `MIN_LANE_OFFSET` -/
def minLaneOffset {K : Type} [Scalar K] : K := Scalar.lit 0

/-- The direction of a stretch of a path. -/
inductive Orientation where
  | horizontal
  | vertical
  deriving BEq, ReflBEq, LawfulBEq, DecidableEq

section Paths

variable {K : Type} [Scalar K]

/-- The points coincide. -/
def pointsEqual (first second : Point K) : Bool := first.x == second.x && first.y == second.y

/-- The direction from one point to another on a common axis. -/
def orientation (first second : Point K) : Option Orientation :=
  if first.y == second.y && first.x != second.x then some .horizontal
  else if first.x == second.x && first.y != second.y then some .vertical
  else none

/-- The middle point lies in the rectangle spanned by the outer ones. -/
def pointBetween (first middle last : Point K) : Bool :=
  decide (min first.x last.x ≤ middle.x) && decide (middle.x ≤ max first.x last.x) &&
    decide (min first.y last.y ≤ middle.y) && decide (middle.y ≤ max first.y last.y)

/-- The point at a distance from a side. -/
def sideOffset (point : Point K) (side : Side) (distance : K) : Point K :=
  match side with
  | .left => { point with x := point.x - distance }
  | .right => { point with x := point.x + distance }
  | .top => { point with y := point.y - distance }
  | .bottom => { point with y := point.y + distance }

/-- The value clamped to a range. -/
def clamp (value low high : K) : K :=
  if value < low then low else if high < value then high else value

/-- The nearest multiple of the grid. -/
def snapValue (value grid : K) : K := Scalar.round (value / grid) * grid

/-- The nearest grid point. -/
def snapPoint (point : Point K) (grid : K) : Point K where
  x := snapValue point.x grid
  y := snapValue point.y grid

/-- The nearest point with whole coordinates. -/
def roundPoint (point : Point K) : Point K where
  x := Scalar.round point.x
  y := Scalar.round point.y

/-- A lane offset is finite and not negative. -/
def validateLaneOffset (value : K) : Except RoutingError Unit :=
  failIf (!Scalar.isFinite value ∨ value < minLaneOffset) .invalidLaneOffset

/-- A grid, when there is one, is finite and positive. -/
def validateOptionalGrid (value : Option K) : Except RoutingError Unit :=
  failIf (value.any fun grid => !Scalar.isFinite grid || decide (grid ≤ Scalar.lit 0))
    .invalidSnapGrid

/-- A snap threshold is finite and not negative. -/
def validateSnapThreshold (value : K) : Except RoutingError Unit :=
  failIf (!Scalar.isFinite value ∨ value < Scalar.lit 0) .invalidSnapThreshold

/-- A definition has a positive identifier, valid points and no bend on an end. -/
def RouteDefinition.validate (definition : RouteDefinition K) : Except RoutingError Unit := do
  failIf (definition.connectionId = 0) .invalidConnectionId
  liftGeometry definition.source.validate
  liftGeometry definition.target.validate
  validateLaneOffset definition.laneOffset
  definition.manualBends.forM fun bend => do
    liftGeometry bend.validate
    failIf (pointsEqual bend definition.source || pointsEqual bend definition.target)
      .anchorOnEndpoint

/-- One point more on a simplified path: repeated points and the middle of
three points on a line are dropped. The path is kept last point first. -/
def simplifyPush (result : List (Point K)) (point : Point K) : List (Point K) :=
  match result with
  | [] => [point]
  | previous :: rest =>
    if pointsEqual previous point then result
    else
      match rest with
      | [] => point :: result
      | before :: _ =>
        if orientation before previous == orientation previous point &&
          pointBetween before previous point then point :: rest
        else point :: result

/-- Drop repeated points and the middle of three points on a line. -/
def simplifyUnprotected (points : List (Point K)) : List (Point K) :=
  (points.foldl simplifyPush []).reverse

/-- Go on to a point, with a corner when it is off both axes. -/
def appendOrthogonal (points : List (Point K)) (point : Point K) : List (Point K) :=
  match points.getLast? with
  | none => [point]
  | some previous =>
    if pointsEqual previous point then points
    else if (orientation previous point).isNone then
      points ++ [{ x := previous.x, y := point.y }, point]
    else points ++ [point]

/-! ## Drawing a route without obstacles -/

/-- A side that cables leave horizontally. -/
def Side.isHorizontal : Side → Bool
  | .left | .right => true
  | .top | .bottom => false

/-- How far a route without obstacles goes around. -/
def fallbackDetour (definition : RouteDefinition K) : K :=
  max definition.laneOffset defaultRoutingGrid

/-- The exits of two opposite sides leave room for a single corridor between them. -/
def endpointSidesFaceEachOther (sourceSide targetSide : Side)
    (sourceExit targetEntry : Point K) : Bool :=
  match sourceSide, targetSide with
  | .left, .right => decide (targetEntry.x ≤ sourceExit.x)
  | .right, .left => decide (sourceExit.x ≤ targetEntry.x)
  | .top, .bottom => decide (targetEntry.y ≤ sourceExit.y)
  | .bottom, .top => decide (sourceExit.y ≤ targetEntry.y)
  | _, _ => false

/-- The corners between the exit and the entry of an automatic route. -/
def automaticCorners (definition : RouteDefinition K) (sourceExit targetEntry : Point K) :
    List (Point K) :=
  let detour := fallbackDetour definition
  let throughColumn := fun x : K => [⟨x, sourceExit.y⟩, ⟨x, targetEntry.y⟩]
  let throughRow := fun y : K => [⟨sourceExit.x, y⟩, ⟨targetEntry.x, y⟩]
  if definition.sourceSide.isHorizontal != definition.targetSide.isHorizontal ||
    endpointSidesFaceEachOther definition.sourceSide definition.targetSide sourceExit targetEntry
  then
    [if definition.sourceSide.isHorizontal then ⟨sourceExit.x, targetEntry.y⟩
    else ⟨targetEntry.x, sourceExit.y⟩]
  else if definition.sourceSide = definition.targetSide then
    match definition.sourceSide with
    | .left => throughColumn (min sourceExit.x targetEntry.x - detour)
    | .right => throughColumn (max sourceExit.x targetEntry.x + detour)
    | .top => throughRow (min sourceExit.y targetEntry.y - detour)
    | .bottom => throughRow (max sourceExit.y targetEntry.y + detour)
  else if definition.sourceSide.isHorizontal then
    throughRow (min sourceExit.y targetEntry.y - detour)
  else throughColumn (min sourceExit.x targetEntry.x - detour)

/-- Draw through the manual bends, noting where they end up. -/
def drawBends (points : List (Point K)) (indexes : List ℕ) :
    List (Point K) → List (Point K) × List ℕ
  | [] => (points, indexes)
  | bend :: bends =>
    let points := appendOrthogonal points bend
    drawBends points (indexes ++ [(points.length - 1) % 65536]) bends

/-- Draw a route without regard to obstacles. -/
def buildRoute (definition : RouteDefinition K) : Except RoutingError (RoutedPath K) := do
  definition.validate
  if definition.manualBends.isEmpty then
    let sourceExit := sideOffset definition.source definition.sourceSide definition.laneOffset
    let targetEntry := sideOffset definition.target definition.targetSide definition.laneOffset
    return {
      connectionId := definition.connectionId
      points := simplifyUnprotected
        ([definition.source, sourceExit] ++ automaticCorners definition sourceExit targetEntry ++
          [targetEntry, definition.target]) }
  else
    let (points, indexes) := drawBends [definition.source] [] definition.manualBends
    return {
      connectionId := definition.connectionId
      points := appendOrthogonal points definition.target
      manualAnchorPointIndexes := indexes }

/-! ## Valid geometry -/

/-- The stretches of a path. -/
def stretches (points : List (Point K)) : List (Point K × Point K) := points.zip points.tail

/-- Two ranges share more than a point. -/
def rangesOverlapBeyondPoint (firstStart firstEnd secondStart secondEnd : K) : Bool :=
  decide (max (min firstStart firstEnd) (min secondStart secondEnd) <
    min (max firstStart firstEnd) (max secondStart secondEnd))

/-- Two stretches in one direction share more than a point. -/
def stretchesOverlap (direction : Orientation) (first second : Point K × Point K) : Bool :=
  orientation second.1 second.2 == some direction &&
    match direction with
    | .horizontal =>
      first.1.y == second.1.y &&
        rangesOverlapBeyondPoint first.1.x first.2.x second.1.x second.2.x
    | .vertical =>
      first.1.x == second.1.x &&
        rangesOverlapBeyondPoint first.1.y first.2.y second.1.y second.2.y

/-- Somewhere a path turns back on itself. -/
def turnsBack : List (Point K) → Bool
  | first :: middle :: last :: rest =>
    (orientation first middle == orientation middle last && !pointBetween first middle last) ||
      turnsBack (middle :: last :: rest)
  | _ => false

/-- Every stretch is axis-aligned and apart from those after the next one. -/
def stretchesApart : List (Point K × Point K) → Bool
  | [] => true
  | first :: rest =>
    (match orientation first.1 first.2 with
      | none => false
      | some direction => (rest.drop 1).all fun second => !stretchesOverlap direction first second) &&
      stretchesApart rest

/-- A path of axis-aligned stretches that neither turns back nor runs over itself. -/
def routeGeometryValid (points : List (Point K)) : Bool :=
  !turnsBack points && stretchesApart (stretches points)

/-! ## Edits -/

/-- The edit from a definition to another one. -/
def routeEdit (previous next : RouteDefinition K) : Except RoutingError (RouteEdit K) := do
  let route ← buildRoute next
  failIf (!routeGeometryValid route.points) .noRoute
  return {
    route := route
    forward := { connectionId := previous.connectionId, bendPoints := next.manualBends }
    inverse := { connectionId := previous.connectionId, bendPoints := previous.manualBends } }

/-- A stretch of a drawn path and its direction. -/
def routeSegment (route : RoutedPath K) (segmentIndex : ℕ) :
    Except RoutingError (Point K × Point K × Orientation) :=
  match route.points[segmentIndex]?, route.points[segmentIndex + 1]? with
  | some start, some stop =>
    match orientation start stop with
    | some direction => .ok (start, stop, direction)
    | none => .error .invalidSegmentIndex
  | _, _ => .error .invalidSegmentIndex

/-- Insert a manual bend on a stretch of a drawn path. -/
def previewInsertRoutedBend (definition : RouteDefinition K) (route : RoutedPath K)
    (segmentIndex : ℕ) (pointer : Point K) (snapGrid : Option K) :
    Except RoutingError (RouteEdit K) := do
  liftGeometry pointer.validate
  validateOptionalGrid snapGrid
  let (start, stop, direction) ← routeSegment route segmentIndex
  let onSegment : Point K :=
    match direction with
    | .horizontal => ⟨clamp pointer.x (min start.x stop.x) (max start.x stop.x), start.y⟩
    | .vertical => ⟨start.x, clamp pointer.y (min start.y stop.y) (max start.y stop.y)⟩
  let anchor := match snapGrid with
    | some grid => snapPoint onSegment grid
    | none => roundPoint onSegment
  failIf (pointsEqual anchor start || pointsEqual anchor stop ||
    definition.manualBends.any (pointsEqual · anchor)) .anchorOnEndpoint
  let insertionIndex :=
    (route.manualAnchorPointIndexes.filter fun index => index ≤ segmentIndex).length
  routeEdit definition
    { definition with manualBends := definition.manualBends.insertIdx insertionIndex anchor }

/-- Insert a manual bend. -/
def previewInsertManualBend (definition : RouteDefinition K) (segmentIndex : ℕ)
    (pointer : Point K) (snapGrid : Option K) : Except RoutingError (RouteEdit K) := do
  let route ← buildRoute definition
  previewInsertRoutedBend definition route segmentIndex pointer snapGrid

/-- Remove a manual bend. -/
def previewRemoveManualBend (definition : RouteDefinition K) (bendIndex : ℕ) :
    Except RoutingError (RouteEdit K) := do
  failIf (definition.manualBends.length ≤ bendIndex) .invalidBendIndex
  routeEdit definition
    { definition with manualBends := definition.manualBends.eraseIdx bendIndex }

/-- Drop all manual bends. -/
def previewResetRoute (definition : RouteDefinition K) : Except RoutingError (RouteEdit K) :=
  routeEdit definition { definition with manualBends := [] }

/-- The nearest of two values within a threshold, or the value itself. -/
def nearestSnapValue (value : K) (candidates : List K) (threshold : K) : K :=
  let near := (candidates.map fun candidate => (candidate, Scalar.abs (value - candidate))).filter
    fun entry => decide (entry.2 ≤ threshold)
  match minBy? (fun first second => (Scalar.totalCmp first.2 second.2).then
    (Scalar.totalCmp first.1 second.1)) near with
  | some entry => entry.1
  | none => value

/-- The point moved onto the axis of a stretch. -/
def alignToAxis (direction : Orientation) (axis : K) (point : Point K) : Point K :=
  match direction with
  | .horizontal => { point with y := axis }
  | .vertical => { point with x := axis }

/-- Move a stretch onto an axis. The ends of the path stay where they are, so
moving the first or the last stretch adds a corner. -/
def moveSegmentPoints (points : List (Point K)) (index : ℕ) (direction : Orientation) (axis : K) :
    List (Point K) :=
  let align := alignToAxis direction axis
  let last := points.length - 1
  let first? := (points.head?.map align).toList
  let last? := (points.getLast?.map align).toList
  if index = 0 ∧ index + 1 = last then points.take 1 ++ first? ++ last? ++ points.drop 1
  else if index = 0 then (points.take 1 ++ first? ++ points.drop 1).modify 2 align
  else if index + 1 = last then
    (points.take (index + 1)).modify index align ++ last? ++ points.drop (index + 1)
  else (points.modify index align).modify (index + 1) align

/-- Move a stretch of a drawn path. -/
def previewMoveRoutedSegment (definition : RouteDefinition K) (route : RoutedPath K)
    (segmentIndex : ℕ) (coordinate : K) (snapGrid : Option K) (endpointSnapThreshold : K) :
    Except RoutingError (RouteEdit K) := do
  definition.validate
  failIf (!Scalar.isFinite coordinate) (.geometry (.nonFinite "route segment coordinate"))
  validateOptionalGrid snapGrid
  validateSnapThreshold endpointSnapThreshold
  let (_, _, direction) ← routeSegment route segmentIndex
  let snapped := match snapGrid with
    | some grid => snapValue coordinate grid
    | none => Scalar.round coordinate
  let ends := match direction with
    | .horizontal => [definition.source.y, definition.target.y]
    | .vertical => [definition.source.x, definition.target.x]
  let axis := nearestSnapValue snapped ends endpointSnapThreshold
  let points := simplifyUnprotected (moveSegmentPoints route.points segmentIndex direction axis)
  routeEdit definition { definition with manualBends := (points.drop 1).dropLast }

/-- Move a stretch of a route. -/
def previewMoveSegment (definition : RouteDefinition K) (segmentIndex : ℕ) (coordinate : K)
    (snapGrid : Option K) (endpointSnapThreshold : K) : Except RoutingError (RouteEdit K) := do
  let route ← buildRoute definition
  previewMoveRoutedSegment definition route segmentIndex coordinate snapGrid endpointSnapThreshold

end Paths

end HomelabInventory
