import HomelabInventory.NearestPlacement

/-!
# Machine integers of the geometry engine

The buckets of a rectangle and the offsets of a search are counted in 32 bits, and listed in vectors
whose bytes are counted in 32 bits too. A checked run is one that stops where such a computation
leaves its range. The coordinates of the buckets, and their columns and rows, fit for every
rectangle that is accepted, however far it is inflated; the bytes of their keys do not fit for
rectangles that are large in both directions, and the squares of the offsets do not fit from ring
32768 on.
-/

namespace HomelabInventory

open Option

/-- A number within the range of `i32`. -/
def InI32 (n : ℤ) : Prop := -2147483648 ≤ n ∧ n ≤ 2147483647

instance (n : ℤ) : Decidable (InI32 n) := inferInstanceAs (Decidable (_ ∧ _))

/-- The result of a computation in `i32`; there is none when it leaves the range. -/
def checkedI32 (n : ℤ) : Option ℤ := if InI32 n then some n else none

theorem checkedI32_eq_some {n m : ℤ} : checkedI32 n = some m ↔ InI32 n ∧ m = n := by
  rw [checkedI32]
  split
  · rename_i h
    simp [h, eq_comm]
  · rename_i h
    simp [h]

/-- The bytes of a vector of so many pairs of `i32`, as `Vec::with_capacity` computes them: it panics
when they are more than `isize::MAX`, and the engine runs on `wasm32`, where that is 2³¹ - 1. -/
def checkedCapacity (count : ℤ) : Option ℤ := checkedI32 (count * 8)

/-! ## Checked buckets -/

/-- The buckets of a rectangle, with every computation checked. The capacity is computed before
the keys are listed. -/
def checkedBucketKeys (rect : Rect ℚ) : Option (List BucketKey) := do
  let left ← checkedI32 (Scalar.toI32 (Scalar.floor (rect.x / spatialBucketSize)))
  let right ← checkedI32 (Scalar.toI32 (Scalar.floor (rect.right / spatialBucketSize)))
  let top ← checkedI32 (Scalar.toI32 (Scalar.floor (rect.y / spatialBucketSize)))
  let bottom ← checkedI32 (Scalar.toI32 (Scalar.floor (rect.bottom / spatialBucketSize)))
  let width ← checkedI32 (right - left)
  let columns ← checkedI32 (width + 1)
  let height ← checkedI32 (bottom - top)
  let rows ← checkedI32 (height + 1)
  let count ← checkedI32 (columns * rows)
  let _ ← checkedCapacity count
  return (intRange left right).flatMap fun x => (intRange top bottom).map fun y => ⟨x, y⟩

/-- How many columns of buckets a span touches. -/
def touchedBuckets (low high : ℚ) : ℤ := ⌊high / 192⌋ - ⌊low / 192⌋ + 1

/-- How many buckets a rectangle touches. -/
def Rect.bucketCount (rect : Rect ℚ) : ℤ :=
  touchedBuckets rect.x rect.right * touchedBuckets rect.y rect.bottom

/-- A span that is no further out than two canvases. -/
structure SpanFits (low high : ℚ) : Prop where
  ordered : low ≤ high
  low_le : |low| ≤ 33554432
  high_le : |high| ≤ 33554432

/-- The bucket of a coordinate that is no further out than two canvases. -/
theorem floor_inI32 {value : ℚ} (h : |value| ≤ 33554432) :
    -174763 ≤ ⌊value / 192⌋ ∧ ⌊value / 192⌋ ≤ 174763 := by
  obtain ⟨hlow, hhigh⟩ := abs_le.mp h
  constructor
  · rw [Int.le_floor, le_div_iff₀ (by norm_num)]
    push_cast
    linarith
  · rw [← Int.lt_add_one_iff, Int.floor_lt, div_lt_iff₀ (by norm_num)]
    push_cast
    linarith

variable {clearance high low : ℚ}

/-- A span touches at least one column of buckets, and no more than fit. -/
theorem SpanFits.touchedBuckets (h : SpanFits low high) :
    1 ≤ touchedBuckets low high ∧ touchedBuckets low high ≤ 349527 := by
  have hlow := floor_inI32 h.low_le
  have hhigh := floor_inI32 h.high_le
  have hmono : ⌊low / 192⌋ ≤ ⌊high / 192⌋ :=
    Int.floor_le_floor (div_le_div_of_nonneg_right h.ordered (by norm_num))
  rw [HomelabInventory.touchedBuckets]
  omega

theorem touchedBuckets_mono {low high low' high' : ℚ} (hlow : low' ≤ low) (hhigh : high ≤ high') :
    touchedBuckets low high ≤ touchedBuckets low' high' := by
  have hleft : ⌊low' / 192⌋ ≤ ⌊low / 192⌋ :=
    Int.floor_le_floor (div_le_div_of_nonneg_right hlow (by norm_num))
  have hright : ⌊high / 192⌋ ≤ ⌊high' / 192⌋ :=
    Int.floor_le_floor (div_le_div_of_nonneg_right hhigh (by norm_num))
  rw [touchedBuckets, touchedBuckets]
  omega

/-- A span of some widths of a bucket touches one column more than that, at most. -/
theorem touchedBuckets_le {n : ℤ} (h : high - low ≤ n * 192) : touchedBuckets low high ≤ n + 1 := by
  have hfloor : ⌊high / 192⌋ ≤ ⌊low / 192 + n⌋ := by
    refine Int.floor_le_floor ?_
    rw [div_add' _ _ _ (by norm_num)]
    exact div_le_div_of_nonneg_right (by linarith) (by norm_num)
  rw [Int.floor_add_intCast] at hfloor
  rw [touchedBuckets]
  omega

variable {rect : Rect ℚ}

/-- **The buckets of a rectangle can be listed exactly when the bytes of their keys fit.** -/
theorem checkedBucketKeys_eq (hx : SpanFits rect.x rect.right) (hy : SpanFits rect.y rect.bottom) :
    checkedBucketKeys rect = if rect.bucketCount * 8 ≤ 2147483647 then some (bucketKeys rect)
      else none := by
  have hsize : (spatialBucketSize : ℚ) = 192 := rfl
  have hcoordinate : ∀ {value : ℚ}, |value| ≤ 33554432 →
      checkedI32 ⌊value / 192⌋ = some ⌊value / 192⌋ := by
    intro value h
    have hbound := floor_inI32 h
    exact checkedI32_eq_some.mpr ⟨⟨by omega, by omega⟩, rfl⟩
  have hspan : ∀ {low high : ℚ}, SpanFits low high →
      checkedI32 (⌊high / 192⌋ - ⌊low / 192⌋) = some (⌊high / 192⌋ - ⌊low / 192⌋) ∧
        checkedI32 (⌊high / 192⌋ - ⌊low / 192⌋ + 1) = some (touchedBuckets low high) := by
    intro low high h
    have hcount := h.touchedBuckets
    rw [touchedBuckets] at hcount
    exact ⟨checkedI32_eq_some.mpr ⟨⟨by omega, by omega⟩, rfl⟩,
      checkedI32_eq_some.mpr ⟨⟨by omega, by omega⟩, rfl⟩⟩
  -- the number of buckets is positive, so it only leaves the range at its upper end
  have hpositive : 1 ≤ rect.bucketCount := by
    rw [Rect.bucketCount]
    nlinarith [hx.touchedBuckets.1, hy.touchedBuckets.1]
  simp only [checkedBucketKeys, toI32_floor, hsize, hcoordinate hx.low_le, hcoordinate hx.high_le,
    hcoordinate hy.low_le, hcoordinate hy.high_le, hspan hx, hspan hy, bind_eq_bind,
    bind_some]
  rw [← Rect.bucketCount]
  by_cases hfits : rect.bucketCount * 8 ≤ 2147483647
  · have hcount : checkedI32 rect.bucketCount = some rect.bucketCount :=
      checkedI32_eq_some.mpr ⟨⟨by omega, by omega⟩, rfl⟩
    have hcapacity : checkedCapacity rect.bucketCount = some (rect.bucketCount * 8) :=
      checkedI32_eq_some.mpr ⟨⟨by omega, hfits⟩, rfl⟩
    simp only [hcount, hcapacity, if_pos hfits, bind_some, bucketKeys, toI32_floor, hsize]
    rfl
  · have hcapacity : checkedCapacity rect.bucketCount = none := if_neg fun h => hfits h.2
    rw [if_neg hfits, checkedI32]
    split
    · rw [bind_some, hcapacity]
      rfl
    · rfl

/-- An inflated rectangle is no further out than two canvases. -/
theorem Rect.InBounds.inflate_fits (h : rect.InBounds) (hpos : 0 ≤ clearance)
    (hle : clearance ≤ 16777216) :
    SpanFits (rect.inflate clearance).x (rect.inflate clearance).right ∧
      SpanFits (rect.inflate clearance).y (rect.inflate clearance).bottom := by
  have htwo : (Scalar.lit 2 : ℚ) = 2 := rfl
  obtain ⟨hx, hx'⟩ := abs_le.mp h.x
  obtain ⟨hy, hy'⟩ := abs_le.mp h.y
  obtain ⟨hr, hr'⟩ := abs_le.mp h.right
  obtain ⟨hb, hb'⟩ := abs_le.mp h.bottom
  have hwidth := h.width_nonneg
  have hheight := h.height_nonneg
  simp only [Rect.right, Rect.bottom] at hr hr' hb hb'
  simp only [Rect.inflate, Rect.right, Rect.bottom, htwo]
  refine ⟨⟨?_, abs_le.mpr ⟨?_, ?_⟩, abs_le.mpr ⟨?_, ?_⟩⟩,
    ⟨?_, abs_le.mpr ⟨?_, ?_⟩, abs_le.mpr ⟨?_, ?_⟩⟩⟩
  all_goals linarith

/-- Inflating a rectangle keeps all the buckets that it touches. -/
theorem Rect.InBounds.bucketCount_inflate (h : rect.InBounds) (hpos : 0 ≤ clearance) :
    rect.bucketCount ≤ (rect.inflate clearance).bucketCount := by
  have htwo : (Scalar.lit 2 : ℚ) = 2 := rfl
  have hsame : rect.inflate 0 = rect := by
    simp [Rect.inflate]
  obtain ⟨hx, hy⟩ := h.inflate_fits le_rfl (by norm_num : (0 : ℚ) ≤ 16777216)
  rw [hsame] at hx hy
  have hcolumns : touchedBuckets rect.x rect.right ≤
      touchedBuckets (rect.inflate clearance).x (rect.inflate clearance).right := by
    apply touchedBuckets_mono
    · simp only [Rect.inflate]
      linarith
    · simp only [Rect.inflate, Rect.right, htwo]
      linarith
  have hrows : touchedBuckets rect.y rect.bottom ≤
      touchedBuckets (rect.inflate clearance).y (rect.inflate clearance).bottom := by
    apply touchedBuckets_mono
    · simp only [Rect.inflate]
      linarith
    · simp only [Rect.inflate, Rect.bottom, htwo]
      linarith
  rw [Rect.bucketCount, Rect.bucketCount]
  have hcolumn := hx.touchedBuckets.1
  have hrow := hy.touchedBuckets.1
  exact mul_le_mul hcolumns hrows (by omega) (by omega)

/-! ## Checked rings -/

/-- The squared distance of an offset, with every computation checked. -/
def checkedDistance (offset : ℤ × ℤ) : Option ℤ := do
  let x ← checkedI32 (offset.1 * offset.1)
  let y ← checkedI32 (offset.2 * offset.2)
  checkedI32 (x + y)

/-- The offsets of a ring, with the capacity and all distances checked. -/
def checkedRingOffsets (ring : ℕ) : Option (List (ℤ × ℤ)) := do
  let count ← checkedI32 ((ring : ℤ) * 8)
  let _ ← checkedCapacity count
  if (ringOffsets ring).all fun offset => (checkedDistance offset).isSome then
    return ringOffsets ring
  else none

/-- **The offsets of a ring can be sorted exactly when the ring is below 32768.** -/
theorem checkedRingOffsets_eq {ring : ℕ} (hpos : 0 < ring) (hring : ring ≤ 65535) :
    checkedRingOffsets ring = if ring ≤ 32767 then some (ringOffsets ring) else none := by
  have hcount : checkedI32 ((ring : ℤ) * 8) = some ((ring : ℤ) * 8) :=
    checkedI32_eq_some.mpr ⟨⟨by omega, by omega⟩, rfl⟩
  have hcapacity : checkedCapacity ((ring : ℤ) * 8) = some ((ring : ℤ) * 8 * 8) :=
    checkedI32_eq_some.mpr ⟨⟨by omega, by omega⟩, rfl⟩
  have hall : ((ringOffsets ring).all fun offset => (checkedDistance offset).isSome) = true ↔
      ring ≤ 32767 := by
    rw [List.all_eq_true]
    constructor
    · -- a corner of the ring is the first to leave the range
      intro h
      have hcorner := h ((ring : ℤ), (ring : ℤ)) ((mem_ringOffsets hpos).mpr (by simp [offsetRing]))
      obtain ⟨distance, hdistance⟩ := isSome_iff_exists.mp hcorner
      obtain ⟨x, hx, hdistance⟩ := bind_eq_some_iff.mp hdistance
      obtain ⟨y, hy, hdistance⟩ := bind_eq_some_iff.mp hdistance
      obtain ⟨-, rfl⟩ := checkedI32_eq_some.mp hx
      obtain ⟨-, rfl⟩ := checkedI32_eq_some.mp hy
      obtain ⟨⟨-, hle⟩, -⟩ := checkedI32_eq_some.mp hdistance
      dsimp only at hle
      by_contra hlarge
      have hlarge : (32768 : ℤ) ≤ ring := by omega
      nlinarith
    · intro hle offset hoffset
      have hsize := (mem_ringOffsets hpos).mp hoffset
      obtain ⟨x, y⟩ := offset
      simp only [offsetRing] at hsize
      have hsquare : ∀ {n : ℤ}, n.natAbs ≤ 32767 → 0 ≤ n * n ∧ n * n ≤ 1073676289 := by
        intro n hn
        have hlow : -32767 ≤ n := by omega
        have hhigh : n ≤ 32767 := by omega
        exact ⟨mul_self_nonneg n, by nlinarith⟩
      have hx := hsquare (n := x) (by omega)
      have hy := hsquare (n := y) (by omega)
      have hchecked : checkedDistance (x, y) = some (x * x + y * y) := by
        simp only [checkedDistance, bind_eq_bind]
        rw [checkedI32_eq_some.mpr ⟨⟨by omega, by omega⟩, rfl⟩, bind_some,
          checkedI32_eq_some.mpr ⟨⟨by omega, by omega⟩, rfl⟩, bind_some]
        exact checkedI32_eq_some.mpr ⟨⟨by omega, by omega⟩, rfl⟩
      rw [hchecked]
      rfl
  simp only [checkedRingOffsets, hcount, hcapacity, bind_eq_bind, bind_some]
  exact if_congr hall rfl rfl

/-! ## Checked requests -/

namespace SpatialIndex

/-- The items that overlap a rectangle, with the buckets checked. -/
def checkedOverlappingIds (index : SpatialIndex ℚ) (bounds : Rect ℚ) (excluded : BTreeSet String) :
    Option (List String) := do
  let _ ← checkedBucketKeys bounds
  return index.overlappingIds bounds excluded

/-- Go on after a check that has passed; one that fails is the answer. -/
def afterCheck {α : Type} (check : Except GeometryError Unit)
    (next : Option (Except GeometryError α)) : Option (Except GeometryError α) :=
  match check with
  | .error error => some (.error error)
  | .ok _ => next

/-- The first valid candidate, with the buckets of every query checked. -/
def checkedFirstValid (valid : Rect ℚ → Option Bool) (preferred : Rect ℚ) (step : ℚ) :
    List (ℤ × ℤ) → Option (Except GeometryError (Option (Rect ℚ)))
  | [] => some (.ok none)
  | (xStep, yStep) :: offsets =>
    let candidate := translated preferred (Scalar.ofInt xStep * step) (Scalar.ofInt yStep * step)
    afterCheck candidate.validate <| (valid candidate).bind fun free =>
      if free then some (.ok (some candidate))
      else checkedFirstValid valid preferred step offsets

/-- The search ring after ring, with the offsets of every ring checked. -/
def checkedSearchRings (valid : Rect ℚ → Option Bool) (preferred : Rect ℚ) (step : ℚ) :
    List ℕ → Option (Except GeometryError (Option (Rect ℚ)))
  | [] => some (.ok none)
  | ring :: rings => do
    let offsets ← checkedRingOffsets ring
    match ← checkedFirstValid valid preferred step offsets with
    | .error error => return .error error
    | .ok (some candidate) => return .ok (some candidate)
    | .ok none => checkedSearchRings valid preferred step rings

/-- The test of a placement, with the buckets of its query checked. -/
def checkedIsFree (index : SpatialIndex ℚ) (itemId : String) (clearance : ℚ) (rect : Rect ℚ) :
    Option Bool :=
  let query := if clearance == Scalar.lit 0 then rect else rect.inflate clearance
  (index.checkedOverlappingIds query ((∅ : BTreeSet String).insert itemId)).map List.isEmpty

/-- The nearest placement, with every computation checked. -/
def checkedNearestValid (index : SpatialIndex ℚ) (itemId : String) (preferred : Rect ℚ)
    (clearance step : ℚ) (maxRings : ℕ) : Option (Except GeometryError (Option (Rect ℚ))) :=
  afterCheck preferred.validate <| afterCheck (validateClearance clearance) <|
    afterCheck (validateStep step) <| (index.checkedIsFree itemId clearance preferred).bind fun free =>
      if free then some (.ok (some preferred))
      else checkedSearchRings (index.checkedIsFree itemId clearance) preferred step
        ((List.range maxRings).map (· + 1))

section Requests

variable {index : SpatialIndex ℚ} {preferred : Rect ℚ} {clearance step : ℚ}

/-- Every rectangle of the size of the preferred one, inflated, touches no more buckets than can be
listed. -/
def TranslatesFit (preferred : Rect ℚ) (clearance : ℚ) : Prop :=
  ∀ rect : Rect ℚ, rect.InBounds → rect.width = preferred.width → rect.height = preferred.height →
    (rect.inflate clearance).bucketCount * 8 ≤ 2147483647

/-- Rectangles of a size fit wherever they are, when the columns and rows of that size do. -/
theorem translatesFit_of_size (columns rows : ℤ) (hpos : 0 ≤ clearance)
    (hle : clearance ≤ 16777216) (hwidth : preferred.width + clearance * 2 ≤ columns * 192)
    (hheight : preferred.height + clearance * 2 ≤ rows * 192)
    (hcount : (columns + 1) * (rows + 1) * 8 ≤ 2147483647) : TranslatesFit preferred clearance := by
  intro rect hrect hsameWidth hsameHeight
  have htwo : (Scalar.lit 2 : ℚ) = 2 := rfl
  obtain ⟨hx, hy⟩ := hrect.inflate_fits hpos hle
  have hcolumns : touchedBuckets (rect.inflate clearance).x (rect.inflate clearance).right ≤
      columns + 1 := by
    refine touchedBuckets_le ?_
    simp only [Rect.inflate, Rect.right, htwo]
    linarith
  have hrows : touchedBuckets (rect.inflate clearance).y (rect.inflate clearance).bottom ≤
      rows + 1 := by
    refine touchedBuckets_le ?_
    simp only [Rect.inflate, Rect.bottom, htwo]
    linarith
  have hcolumn := hx.touchedBuckets.1
  have hrow := hy.touchedBuckets.1
  have hall := mul_le_mul hcolumns hrows (by omega) (by omega)
  rw [← Rect.bucketCount] at hall
  omega

/-- A query whose buckets can be listed answers as the index does. -/
theorem checkedOverlappingIds_eq {bounds : Rect ℚ} (hx : SpanFits bounds.x bounds.right)
    (hy : SpanFits bounds.y bounds.bottom) (h : bounds.bucketCount * 8 ≤ 2147483647)
    (excluded : BTreeSet String) :
    index.checkedOverlappingIds bounds excluded = some (index.overlappingIds bounds excluded) := by
  rw [checkedOverlappingIds, checkedBucketKeys_eq hx hy, if_pos h]
  rfl

/-- When every query can be counted, so can the search along some offsets. -/
theorem checkedFirstValid_eq {checked : Rect ℚ → Option Bool} {valid : Rect ℚ → Bool}
    (hchecked : ∀ rect : Rect ℚ, rect.validate = .ok () → rect.width = preferred.width →
      rect.height = preferred.height → checked rect = some (valid rect)) (offsets : List (ℤ × ℤ)) :
    checkedFirstValid checked preferred step offsets =
      some (firstValid valid preferred step offsets) := by
  induction offsets with
  | nil => rfl
  | cons offset offsets ih =>
    obtain ⟨xStep, yStep⟩ := offset
    rw [checkedFirstValid, firstValid]
    cases hvalidate : (translated preferred (Scalar.ofInt xStep * step)
        (Scalar.ofInt yStep * step)).validate with
    | error error => rfl
    | ok u =>
      -- a translation has the size of the rectangle
      have hquery := hchecked (translated preferred (Scalar.ofInt xStep * step)
        (Scalar.ofInt yStep * step)) hvalidate rfl rfl
      simp only [afterCheck, hquery, bind_ok, bind_some]
      split
      · rfl
      · exact ih

/-- When every query and every ring can be counted, so can the search. -/
theorem checkedSearchRings_eq {checked : Rect ℚ → Option Bool} {valid : Rect ℚ → Bool}
    (hchecked : ∀ rect : Rect ℚ, rect.validate = .ok () → rect.width = preferred.width →
      rect.height = preferred.height → checked rect = some (valid rect)) {rings : List ℕ}
    (hrings : ∀ ring ∈ rings, 0 < ring ∧ ring ≤ 32767) :
    checkedSearchRings checked preferred step rings =
      some (searchRings valid preferred step rings) := by
  induction rings with
  | nil => rfl
  | cons ring rings ih =>
    obtain ⟨⟨hpos, hle⟩, hrings⟩ := List.forall_mem_cons.mp hrings
    rw [checkedSearchRings, searchRings, checkedRingOffsets_eq hpos (by omega), if_pos hle]
    simp only [bind_eq_bind, bind_some, checkedFirstValid_eq hchecked]
    cases firstValid valid preferred step (ringOffsets ring) with
    | error error => rfl
    | ok found =>
      cases found with
      | none => exact ih hrings
      | some candidate => rfl

/-- An accepted clearance is not negative and within the canvas. -/
theorem clearance_of_validate {u : Unit} (h : validateClearance clearance = .ok u) :
    0 ≤ clearance ∧ clearance ≤ 16777216 := by
  have hpos : 0 ≤ clearance := by
    obtain ⟨_, -, h⟩ := bind_eq_ok.mp h
    split at h
    · cases h
    · rename_i hneg
      exact not_lt.mp hneg
  exact ⟨hpos, (validateClearance_eq_ok hpos).mp h⟩

/-- The test of a placement is answered as without machine integers, for every rectangle of the
size of the preferred one. -/
theorem checkedIsFree_eq (index : SpatialIndex ℚ) (itemId : String)
    (hfit : TranslatesFit preferred clearance) (hpos : 0 ≤ clearance)
    (hle : clearance ≤ 16777216) (rect : Rect ℚ)
    (hrect : rect.validate = .ok ()) (hwidth : rect.width = preferred.width)
    (hheight : rect.height = preferred.height) :
    index.checkedIsFree itemId clearance rect = some (index.isFree itemId clearance rect) := by
  have hbounds := Rect.validate_eq_ok.mp hrect
  have hcount := hfit rect hbounds hwidth hheight
  rw [checkedIsFree, isFree]
  by_cases hzero : (clearance == Scalar.lit 0) = true
  · have hsame : rect.inflate 0 = rect := by
      simp [Rect.inflate]
    obtain ⟨hx, hy⟩ := hbounds.inflate_fits le_rfl (by norm_num : (0 : ℚ) ≤ 16777216)
    rw [hsame] at hx hy
    simp only [hzero, if_true]
    have hmore := hbounds.bucketCount_inflate hpos
    rw [checkedOverlappingIds_eq hx hy (by omega)]
    rfl
  · obtain ⟨hx, hy⟩ := hbounds.inflate_fits hpos hle
    simp only [hzero, Bool.false_eq_true, if_false]
    rw [checkedOverlappingIds_eq hx hy hcount]
    rfl

/-- An accepted request tests the preferred rectangle and then searches. -/
theorem nearestValid_search {itemId : String} {maxRings : ℕ} (hpreferred : preferred.validate = .ok ())
    (hclearance : validateClearance clearance = .ok ()) (hstep : validateStep step = .ok ()) :
    index.nearestValid itemId preferred clearance step maxRings =
      if index.isFree itemId clearance preferred then .ok (some preferred)
      else searchRings (index.isFree itemId clearance) preferred step
        ((List.range maxRings).map (· + 1)) := by
  rw [nearestValid, hpreferred, hclearance, hstep, bind_ok, bind_ok, bind_ok]
  rfl

/-- **A request that fits is answered as without machine integers.** -/
theorem checkedNearestValid_eq (itemId : String) {maxRings : ℕ}
    (hfit : TranslatesFit preferred clearance) (hrings : maxRings ≤ 32767) :
    index.checkedNearestValid itemId preferred clearance step maxRings =
      some (index.nearestValid itemId preferred clearance step maxRings) := by
  rw [checkedNearestValid]
  cases hpreferred : preferred.validate with
  | error error =>
    rw [nearestValid, hpreferred]
    rfl
  | ok _ =>
  cases hclearance : validateClearance clearance with
  | error error =>
    rw [nearestValid, hpreferred, hclearance]
    rfl
  | ok _ =>
  cases hstep : validateStep step with
  | error error =>
    rw [nearestValid, hpreferred, hclearance, hstep]
    rfl
  | ok _ =>
  obtain ⟨hpos, hle⟩ := clearance_of_validate hclearance
  have hquery := checkedIsFree_eq index itemId hfit hpos hle
  have hrange : ∀ ring ∈ (List.range maxRings).map (· + 1), 0 < ring ∧ ring ≤ 32767 := by
    intro ring hring
    obtain ⟨n, hn, rfl⟩ := List.mem_map.mp hring
    have hn := List.mem_range.mp hn
    omega
  rw [nearestValid_search hpreferred hclearance hstep]
  simp only [afterCheck, hquery preferred hpreferred rfl rfl, bind_some,
    checkedSearchRings_eq hquery hrange]
  cases index.isFree itemId clearance preferred with
  | true => rfl
  | false => rfl

end Requests

/-! ## When the computations stay in range -/

/-- The computations that a request with a preferred rectangle, a clearance and a number of rings
may need stay in range: the buckets of the rectangle, alone and inflated, and the offsets of the
rings. -/
structure StaysInRange (preferred : Rect ℚ) (clearance : ℚ) (maxRings : ℕ) : Prop where
  buckets : (checkedBucketKeys preferred).isSome = true
  inflated : (checkedBucketKeys (preferred.inflate clearance)).isSome = true
  rings : ∀ ring, 0 < ring → ring ≤ maxRings → (checkedRingOffsets ring).isSome = true

/-- A rack of two buckets by one. -/
def rackPlace : Rect ℚ := { x := 0, y := 0, width := 200, height := 100 }

/-- The whole positive quarter of the canvas. -/
def quarterCanvas : Rect ℚ := { x := 0, y := 0, width := 16777216, height := 16777216 }

/-- A smaller part of it, of 16385 buckets by 16385. -/
def canvasPart : Rect ℚ := { x := 0, y := 0, width := 3145728, height := 3145728 }

end SpatialIndex

end HomelabInventory
