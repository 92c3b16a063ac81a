import HomelabInventory.OrderedMap
import HomelabInventory.Scalar
import HomelabInventory.Text

/-!
# Geometry

Points, rectangles and segments of the canvas, the spatial index over placed
rectangles, and the placement searches built on it: nearest free placement,
grid alignment with cascading moves, and column arrangement.
-/

namespace HomelabInventory

/-- Why a geometric value is rejected; the text names the offending field. -/
inductive GeometryError where
  | nonFinite (field : String)
  | outOfRange (field : String)
  | negativeDimension (field : String)
  | nonPositive (field : String)
  | emptyIdentifier (field : String)
  | unknownIdentifier (field : String)
  | duplicateIdentifier (field : String)
  | placementSearchExhausted
  | diagonalSegment
  deriving DecidableEq

/-- The message of a geometry error. -/
def GeometryError.display : GeometryError → String
  | .nonFinite field => field ++ " must be finite."
  | .outOfRange field => field ++ " exceeds canvas bounds."
  | .negativeDimension field => field ++ " must not be negative."
  | .nonPositive field => field ++ " must be positive."
  | .emptyIdentifier field => field ++ " must not be empty."
  | .unknownIdentifier field => field ++ " does not exist."
  | .duplicateIdentifier field => field ++ " must be unique."
  | .placementSearchExhausted => "No collision-free grid placement was found."
  | .diagonalSegment => "Segments must be horizontal or vertical."

section Values

variable {K : Type}

/-- A point of the canvas. -/
structure Point (K : Type) where
  x : K
  y : K
  deriving BEq, ReflBEq, LawfulBEq, DecidableEq

/-- An axis-aligned rectangle given by its top left corner and its size. -/
structure Rect (K : Type) where
  x : K
  y : K
  width : K
  height : K
  deriving BEq, ReflBEq, LawfulBEq, DecidableEq

/-- A side of a rectangle. -/
inductive Side where
  | left
  | right
  | top
  | bottom
  deriving BEq, ReflBEq, LawfulBEq, DecidableEq

/-- A segment between two points. -/
structure Segment (K : Type) where
  start : Point K
  stop : Point K
  deriving BEq, ReflBEq, LawfulBEq, DecidableEq

/-- A placed item. -/
structure GeometryNode (K : Type) where
  itemId : String
  bounds : Rect K
  deriving BEq, ReflBEq, LawfulBEq, DecidableEq

/-- A connection handle on a placed item. -/
structure GeometryHandle (K : Type) where
  key : String
  itemId : String
  point : Point K
  side : Side
  deriving BEq, ReflBEq, LawfulBEq, DecidableEq

/-- An item to arrange in columns. -/
structure ArrangementItem (K : Type) where
  itemId : String
  name : String
  column : ℤ
  width : K
  height : K
  deriving BEq, ReflBEq, LawfulBEq, DecidableEq

end Values

variable {K : Type} [Scalar K]

/-- `MAX_CANVAS_COORDINATE` -/
def maxCanvasCoordinate : K := Scalar.lit 16777216

/-- `SPATIAL_BUCKET_SIZE` -/
def spatialBucketSize : K := Scalar.lit 192

/-! ## Validation -/

/-- A coordinate is finite and within the canvas. -/
def validateCoordinate (value : K) (field : String) : Except GeometryError Unit :=
  if !Scalar.isFinite value then .error (.nonFinite field)
  else if maxCanvasCoordinate < Scalar.abs value then .error (.outOfRange field)
  else .ok ()

/-- Both coordinates of a point are valid. -/
def Point.validate (p : Point K) : Except GeometryError Unit := do
  validateCoordinate p.x "point.x"
  validateCoordinate p.y "point.y"

namespace Rect

/-- The right edge. -/
def right (r : Rect K) : K := r.x + r.width

/-- The bottom edge. -/
def bottom (r : Rect K) : K := r.y + r.height

/-- Every coordinate and edge is within the canvas and the size is not negative. -/
def validate (r : Rect K) : Except GeometryError Unit := do
  validateCoordinate r.x "rect.x"
  validateCoordinate r.y "rect.y"
  validateCoordinate r.width "rect.width"
  validateCoordinate r.height "rect.height"
  if r.width < Scalar.lit 0 then throw (.negativeDimension "rect.width")
  if r.height < Scalar.lit 0 then throw (.negativeDimension "rect.height")
  validateCoordinate r.right "rect.right"
  validateCoordinate r.bottom "rect.bottom"

/-- The interiors intersect. -/
def overlaps (r other : Rect K) : Bool :=
  decide (r.x < other.right) && decide (other.x < r.right) &&
    decide (r.y < other.bottom) && decide (other.y < r.bottom)

/-- The rectangle grown by a clearance on every side. -/
def inflate (r : Rect K) (clearance : K) : Rect K where
  x := r.x - clearance
  y := r.y - clearance
  width := r.width + clearance * Scalar.lit 2
  height := r.height + clearance * Scalar.lit 2

end Rect

/-- The two directions of a segment. -/
inductive SegmentOrientation where
  | horizontal
  | vertical
  deriving DecidableEq

/-- The direction of a segment; a point counts as horizontal. -/
def Segment.orientation (s : Segment K) : Except GeometryError SegmentOrientation :=
  if s.start.y == s.stop.y then .ok .horizontal
  else if s.start.x == s.stop.x then .ok .vertical
  else .error .diagonalSegment

/-- Both ends are valid points and the segment is axis-aligned. -/
def Segment.validate (s : Segment K) : Except GeometryError Unit := do
  s.start.validate
  s.stop.validate
  let _ ← s.orientation

/-- A node has an identifier and a valid rectangle. -/
def GeometryNode.validate (node : GeometryNode K) : Except GeometryError Unit := do
  if isBlank node.itemId then throw (.emptyIdentifier "geometry node item_id")
  node.bounds.validate

/-- A handle has a key, an owner and a valid point. -/
def GeometryHandle.validate (handle : GeometryHandle K) : Except GeometryError Unit := do
  if isBlank handle.key then throw (.emptyIdentifier "geometry handle key")
  if isBlank handle.itemId then throw (.emptyIdentifier "geometry handle item_id")
  handle.point.validate

/-- A clearance is a valid coordinate and not negative. -/
def validateClearance (value : K) : Except GeometryError Unit := do
  validateCoordinate value "clearance"
  if value < Scalar.lit 0 then throw (.negativeDimension "clearance")

/-- A step is a valid coordinate and positive. -/
def validateStep (value : K) : Except GeometryError Unit := do
  validateCoordinate value "step"
  if value ≤ Scalar.lit 0 then throw (.nonPositive "step")

/-- A dimension is a valid coordinate and positive. -/
def validateDimension (value : K) (field : String) : Except GeometryError Unit := do
  validateCoordinate value field
  if value ≤ Scalar.lit 0 then throw (.nonPositive field)

/-- An item to arrange has an identifier and a positive size. -/
def ArrangementItem.validate (item : ArrangementItem K) : Except GeometryError Unit := do
  if isBlank item.itemId then throw (.emptyIdentifier "arrangement item_id")
  validateDimension item.width "arrangement width"
  validateDimension item.height "arrangement height"

/-! ## The spatial index -/

/-- A bucket of the spatial index. -/
structure BucketKey where
  x : ℤ
  y : ℤ
  deriving DecidableEq

namespace BucketKey

instance : Ord BucketKey := ⟨compareLex (compareOn BucketKey.x) (compareOn BucketKey.y)⟩

instance : Std.TransOrd BucketKey :=
  inferInstanceAs (Std.TransCmp (compareLex (compareOn BucketKey.x) (compareOn BucketKey.y)))

instance : Std.LawfulEqOrd BucketKey := lawfulEqCmp_compareLex (by
  rintro ⟨x, y⟩ ⟨x', y'⟩ hx hy
  simp only [compareOn, Std.LawfulEqOrd.compare_eq_iff_eq] at hx hy
  rw [hx, hy])

end BucketKey

/-- The whole numbers from `low` to `high`. -/
def intRange (low high : ℤ) : List ℤ :=
  (List.range (high - low + 1).toNat).map fun i : ℕ => low + i

/-- The buckets a rectangle touches, column by column. -/
def bucketKeys (rect : Rect K) : List BucketKey :=
  let left := Scalar.toI32 (Scalar.floor (rect.x / spatialBucketSize))
  let right := Scalar.toI32 (Scalar.floor (rect.right / spatialBucketSize))
  let top := Scalar.toI32 (Scalar.floor (rect.y / spatialBucketSize))
  let bottom := Scalar.toI32 (Scalar.floor (rect.bottom / spatialBucketSize))
  (intRange left right).flatMap fun x => (intRange top bottom).map fun y => ⟨x, y⟩

/-- Placed rectangles with the buckets they are filed under. -/
structure SpatialIndex (K : Type) where
  rects : BTreeMap String (Rect K) := ∅
  buckets : BTreeMap BucketKey (BTreeSet String) := ∅
  memberships : BTreeMap String (List BucketKey) := ∅

namespace SpatialIndex

/-- Take an item out of one bucket, dropping the bucket when it gets empty. -/
def leaveBucket (itemId : String) (buckets : BTreeMap BucketKey (BTreeSet String))
    (key : BucketKey) : BTreeMap BucketKey (BTreeSet String) :=
  match buckets[key]? with
  | none => buckets
  | some bucket =>
    let bucket := bucket.erase itemId
    if bucket.isEmpty then buckets.erase key else buckets.insert key bucket

/-- File an item in one bucket, creating the bucket when it is missing. -/
def enterBucket (itemId : String) (buckets : BTreeMap BucketKey (BTreeSet String))
    (key : BucketKey) : BTreeMap BucketKey (BTreeSet String) :=
  buckets.insert key ((buckets[key]?.getD ∅).insert itemId)

/-- Remove an item from the index. -/
def remove (index : SpatialIndex K) (itemId : String) : SpatialIndex K :=
  { index with
    rects := index.rects.erase itemId
    buckets := (index.memberships[itemId]?.getD []).foldl (leaveBucket itemId) index.buckets
    memberships := index.memberships.erase itemId }

/-- Add an item or replace its rectangle. -/
def upsert (index : SpatialIndex K) (node : GeometryNode K) :
    Except GeometryError (SpatialIndex K) := do
  node.validate
  let index := index.remove node.itemId
  let memberships := bucketKeys node.bounds
  return { index with
    rects := index.rects.insert node.itemId node.bounds
    buckets := memberships.foldl (enterBucket node.itemId) index.buckets
    memberships := index.memberships.insert node.itemId memberships }

/-- Fill an index with nodes of distinct identifiers. -/
def replaceFrom (index : SpatialIndex K) :
    List (GeometryNode K) → Except GeometryError (SpatialIndex K)
  | [] => .ok index
  | node :: nodes =>
    if index.rects.contains node.itemId then
      .error (.duplicateIdentifier "geometry node item_id")
    else do
      let index ← index.upsert node
      index.replaceFrom nodes

/-- The index of a list of nodes, built from nothing. -/
def replace (nodes : List (GeometryNode K)) : Except GeometryError (SpatialIndex K) :=
  ({} : SpatialIndex K).replaceFrom nodes

/-- The rectangle of an item. -/
def rect (index : SpatialIndex K) (itemId : String) : Option (Rect K) := index.rects[itemId]?

/-- The items, outside the excluded ones, whose rectangle overlaps the given one. -/
def overlappingIds (index : SpatialIndex K) (bounds : Rect K) (excluded : BTreeSet String) :
    List String :=
  let candidates : BTreeSet String :=
    (bucketKeys bounds).foldl
      (fun found key => ((index.buckets[key]?.getD ∅).toList).foldl (fun s id => s.insert id) found)
      ∅
  (candidates.toList.filter fun itemId => !excluded.contains itemId).filter fun itemId =>
    match index.rects[itemId]? with
    | some rect => rect.overlaps bounds
    | none => false

/-- The collisions of a group of moved nodes, among themselves and with the rest. -/
def groupCollisions (index : SpatialIndex K) (movedIds : BTreeSet String) :
    List (GeometryNode K) → BTreeSet String → BTreeSet String
  | [], collisions => collisions
  | node :: others, collisions =>
    let collisions := (index.overlappingIds node.bounds movedIds).foldl
      (fun s id => s.insert id) collisions
    let collisions := others.foldl
      (fun s other =>
        if node.bounds.overlaps other.bounds then (s.insert node.itemId).insert other.itemId
        else s)
      collisions
    index.groupCollisions movedIds others collisions

/-- The items a group move collides with. -/
def checkGroup (index : SpatialIndex K) (nodes : List (GeometryNode K)) :
    Except GeometryError (List String) := do
  let movedIds := collectSet (nodes.map (·.itemId))
  if movedIds.size != nodes.length then throw (.duplicateIdentifier "group item_id")
  nodes.forM GeometryNode.validate
  return (index.groupCollisions movedIds nodes ∅).toList

end SpatialIndex

/-- A rectangle moved by an offset. -/
def translated (rect : Rect K) (x y : K) : Rect K := { rect with x := rect.x + x, y := rect.y + y }

/-- The offsets of one ring around the origin, nearest first. The squares are added up as
machine integers, which wrap around from ring 32768 on. -/
def ringOffsets (ringSteps : ℤ) : List (ℤ × ℤ) :=
  let columns := (intRange (-ringSteps) ringSteps).flatMap fun x =>
    [-ringSteps, ringSteps].map fun y => (x, y)
  let rows := (intRange (-ringSteps + 1) (ringSteps - 1)).flatMap fun y =>
    [-ringSteps, ringSteps].map fun x => (x, y)
  sortBy
    (compareLex (compareOn fun o : ℤ × ℤ => (o.1 * o.1 + o.2 * o.2).bmod (2 ^ 32))
      (compareLex (compareOn fun o => o.2) (compareOn fun o => o.1)))
    (columns ++ rows)

namespace SpatialIndex

/-- The first candidate among the translations of a rectangle that is valid. -/
def firstValid (valid : Rect K → Bool) (preferred : Rect K) (step : K) :
    List (ℤ × ℤ) → Except GeometryError (Option (Rect K))
  | [] => .ok none
  | (xStep, yStep) :: offsets => do
    let candidate :=
      translated preferred (Scalar.ofInt xStep * step) (Scalar.ofInt yStep * step)
    candidate.validate
    if valid candidate then return some candidate
    firstValid valid preferred step offsets

/-- Search ring after ring. -/
def searchRings (valid : Rect K → Bool) (preferred : Rect K) (step : K) :
    List ℕ → Except GeometryError (Option (Rect K))
  | [] => .ok none
  | ring :: rings => do
    match ← firstValid valid preferred step (ringOffsets ring) with
    | some candidate => return some candidate
    | none => searchRings valid preferred step rings

/-- The nearest placement that keeps the clearance from every other item. -/
def nearestValid (index : SpatialIndex K) (itemId : String) (preferred : Rect K)
    (clearance step : K) (maxRings : ℕ) : Except GeometryError (Option (Rect K)) := do
  preferred.validate
  validateClearance clearance
  validateStep step
  let excluded : BTreeSet String := (∅ : BTreeSet String).insert itemId
  let valid := fun rect : Rect K =>
    let query := if clearance == Scalar.lit 0 then rect else rect.inflate clearance
    (index.overlappingIds query excluded).isEmpty
  if valid preferred then return some preferred
  searchRings valid preferred step ((List.range maxRings).map (· + 1))

end SpatialIndex

/-! ## Grid alignment -/

/-- The nearest grid line. -/
def snapToGrid (value gridSize : K) : K := Scalar.round (value / gridSize) * gridSize

/-- The next grid line. -/
def snapCeiling (value gridSize : K) : K := Scalar.ceil (value / gridSize) * gridSize

/-- The rectangles of a grid alignment in progress and the items already placed. -/
structure CascadingPlacementState (K : Type) where
  bounds : BTreeMap String (Rect K)
  finalized : BTreeSet String := ∅

namespace CascadingPlacementState

/-- Items by position, then by identifier. -/
def comparePosition (first second : String × Rect K) : Ordering :=
  (Scalar.totalCmp first.2.y second.2.y).then
    ((Scalar.totalCmp first.2.x second.2.x).then (compare first.1 second.1))

/-- The first item in the way of a candidate. -/
def blocker? (state : CascadingPlacementState K) (candidate : Rect K) : Option String :=
  (minBy? comparePosition
    (state.bounds.toList.filter fun entry => entry.2.overlaps candidate)).map (·.1)

/-- Move the items in the way of a candidate one after the other, with `place`.
The answer is `none` when one of them cannot move. -/
def clearBlockers
    (place : String → CascadingPlacementState K →
      Except GeometryError (CascadingPlacementState K))
    (candidate : Rect K) :
    ℕ → CascadingPlacementState K → Except GeometryError (Option (CascadingPlacementState K))
  | 0, _ => .ok none
  | fuel + 1, state =>
    match state.blocker? candidate with
    | none => .ok (some state)
    | some blockerId =>
      if state.finalized.contains blockerId then .ok none
      else
        match place blockerId state with
        | .ok state => clearBlockers place candidate fuel state
        | .error .placementSearchExhausted => .ok none
        | .error error => .error error

/-- Try candidates in turn; the state is restored before each of them. -/
def tryCandidates
    (place : List (Rect K) → String → CascadingPlacementState K →
      Except GeometryError (CascadingPlacementState K))
    (itemId : String) (reserved : List (Rect K)) (state : CascadingPlacementState K) :
    List (Rect K) → Except GeometryError (CascadingPlacementState K)
  | [] => .error .placementSearchExhausted
  | candidate :: candidates => do
    candidate.validate
    if reserved.any (·.overlaps candidate) then tryCandidates place itemId reserved state candidates
    else
      match ← clearBlockers (place (reserved ++ [candidate])) candidate (state.bounds.size + 1)
        state with
      | none => tryCandidates place itemId reserved state candidates
      | some cleared =>
        if cleared.bounds.values.any (·.overlaps candidate) then
          tryCandidates place itemId reserved state candidates
        else
          return { bounds := cleared.bounds.insert itemId candidate
                   finalized := cleared.finalized.insert itemId }

end CascadingPlacementState

/-- The candidate offsets of grid alignment: down and to the right, ring after ring. -/
def cascadeOffsets (maxRings : ℕ) : List (ℕ × ℕ) :=
  (List.range (maxRings + 1)).flatMap fun ring =>
    (List.range (ring + 1)).reverse.map fun xSteps => (xSteps, ring - xSteps)

/-- Place one item on the grid, moving the items in its way first. The fuel
bounds the nesting: every nested call works on one item less. -/
def placeCascadingItem (gridSize : K) (maxRings : ℕ) :
    ℕ → List (Rect K) → String → CascadingPlacementState K →
      Except GeometryError (CascadingPlacementState K)
  | 0, _, _, _ => .error .placementSearchExhausted
  | fuel + 1, reserved, itemId, state =>
    if state.finalized.contains itemId then .ok state
    else
      match state.bounds[itemId]? with
      | none => .error (.unknownIdentifier "grid placement item_id")
      | some original =>
        let state := { state with bounds := state.bounds.erase itemId }
        let preferred : Rect K :=
          { original with x := snapToGrid original.x gridSize, y := snapToGrid original.y gridSize }
        let candidates := (cascadeOffsets maxRings).map fun offset =>
          translated preferred (Scalar.ofInt offset.1 * gridSize) (Scalar.ofInt offset.2 * gridSize)
        CascadingPlacementState.tryCandidates (placeCascadingItem gridSize maxRings fuel)
          itemId reserved state candidates

/-- Collect the bounds of nodes with distinct identifiers. -/
def collectBounds (bounds : BTreeMap String (Rect K)) :
    List (GeometryNode K) → Except GeometryError (BTreeMap String (Rect K))
  | [] => .ok bounds
  | node :: nodes => do
    node.validate
    if bounds.contains node.itemId then throw (.duplicateIdentifier "geometry node item_id")
    collectBounds (bounds.insert node.itemId node.bounds) nodes

/-- Align nodes to the grid without collisions, in reading order. -/
def snapNodesToGrid (nodes : List (GeometryNode K)) (gridSize : K) (maxRings : ℕ) :
    Except GeometryError (List (GeometryNode K)) := do
  validateStep gridSize
  if maxRings == 0 then throw (.nonPositive "max_rings")
  let bounds ← collectBounds ∅ nodes
  let ordered := sortBy CascadingPlacementState.comparePosition
    (nodes.map fun node => (node.itemId, node.bounds))
  let state ← ordered.foldlM
    (fun state entry => placeCascadingItem gridSize maxRings (nodes.length + 1) [] entry.1 state)
    { bounds : CascadingPlacementState K }
  return ordered.map fun entry => ⟨entry.1, state.bounds[entry.1]?.getD entry.2⟩

/-! ## Column arrangement -/

/-- The column widths of a list of distinct items. -/
def columnWidths (seen : BTreeSet String) (widths : BTreeMap ℤ K) :
    List (ArrangementItem K) → Except GeometryError (BTreeMap ℤ K)
  | [] => .ok widths
  | item :: items => do
    item.validate
    if seen.contains item.itemId then throw (.duplicateIdentifier "arrangement item_id")
    let width := match widths[item.column]? with
      | some width => max width item.width
      | none => item.width
    columnWidths (seen.insert item.itemId) (widths.insert item.column width) items

/-- Stack the sorted items of each column. -/
def stackColumns (columnX : BTreeMap ℤ K) (gridSize itemGap : K) :
    BTreeMap ℤ K → List (ArrangementItem K) → Except GeometryError (List (GeometryNode K))
  | _, [] => .ok []
  | columnY, item :: items => do
    let y := columnY[item.column]?.getD (Scalar.lit 0)
    let bounds : Rect K :=
      { x := snapToGrid (columnX[item.column]?.getD (Scalar.lit 0)) gridSize
        y := snapToGrid y gridSize
        width := item.width
        height := item.height }
    bounds.validate
    let columnY := columnY.insert item.column (snapCeiling (y + item.height + itemGap) gridSize)
    return ⟨item.itemId, bounds⟩ :: (← stackColumns columnX gridSize itemGap columnY items)

/-- Arrange items in columns from left to right. -/
def arrangeItems (items : List (ArrangementItem K)) (gridSize columnGap itemGap : K) :
    Except GeometryError (List (GeometryNode K)) := do
  validateStep gridSize
  validateClearance columnGap
  validateClearance itemGap
  let widths ← columnWidths ∅ ∅ items
  let columnX := (widths.toList.foldl
    (fun (acc : BTreeMap ℤ K × K) entry =>
      (acc.1.insert entry.1 acc.2, acc.2 + (entry.2 + columnGap)))
    (∅, Scalar.lit 0)).1
  let sorted := sortBy
    (compareLex (compareOn fun item : ArrangementItem K => item.column)
      (compareLex (compareOn fun item => item.name) (compareOn fun item => item.itemId)))
    items
  stackColumns columnX gridSize itemGap ∅ sorted

end HomelabInventory
