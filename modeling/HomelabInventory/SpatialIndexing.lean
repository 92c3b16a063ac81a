import HomelabInventory.ExceptLoop
import HomelabInventory.Geometry

/-!
# The spatial index

The index files every rectangle under the buckets it touches, through any
mutations, and two rectangles that overlap touch a common bucket. A query of
the index therefore answers what a scan of all rectangles answers.
-/

namespace HomelabInventory

open List

/-! ## Valid rectangles -/

theorem toI32_floor (x : ℚ) : Scalar.toI32 (Scalar.floor x) = ⌊x⌋ := by
  show (if (0 : ℚ) ≤ (⌊x⌋ : ℚ) then ⌊((⌊x⌋ : ℤ) : ℚ)⌋ else ⌈((⌊x⌋ : ℤ) : ℚ)⌉) = ⌊x⌋
  rw [Int.floor_intCast, Int.ceil_intCast, ite_self]

theorem validateCoordinate_eq_ok {value : ℚ} {field : String} :
    validateCoordinate value field = .ok () ↔ |value| ≤ 16777216 := by
  have hfinite : Scalar.isFinite value = true := rfl
  have hlimit : (maxCanvasCoordinate < Scalar.abs value) ↔ ¬|value| ≤ 16777216 := not_le.symm
  rw [validateCoordinate, hfinite, if_neg (by simp), if_congr hlimit rfl rfl]
  by_cases h : |value| ≤ 16777216 <;> simp [h]

/-- A valid rectangle lies within the canvas and has no negative size. -/
structure Rect.InBounds (r : Rect ℚ) : Prop where
  x : |r.x| ≤ 16777216
  y : |r.y| ≤ 16777216
  width : |r.width| ≤ 16777216
  height : |r.height| ≤ 16777216
  width_nonneg : 0 ≤ r.width
  height_nonneg : 0 ≤ r.height
  right : |r.right| ≤ 16777216
  bottom : |r.bottom| ≤ 16777216

variable {other r : Rect ℚ}

/-- The checks of a rectangle, one after the other. -/
theorem Rect.validate_eq_ok : r.validate = .ok () ↔ r.InBounds := by
  have hunit : ∀ {x : Except GeometryError Unit} {u : Unit}, x = .ok u ↔ x = .ok () := Iff.rfl
  constructor
  · intro h
    obtain ⟨_, hx, h⟩ := bind_eq_ok.mp h
    obtain ⟨_, hy, h⟩ := bind_eq_ok.mp h
    obtain ⟨_, hw, h⟩ := bind_eq_ok.mp h
    obtain ⟨_, hh, h⟩ := bind_eq_ok.mp h
    have hwidth : ¬r.width < Scalar.lit 0 := by
      intro hneg
      simp only [if_pos hneg] at h
      exact nomatch h
    have hheight : ¬r.height < Scalar.lit 0 := by
      intro hneg
      simp only [if_neg hwidth, if_pos hneg] at h
      exact nomatch h
    simp only [if_neg hwidth, if_neg hheight] at h
    obtain ⟨_, hr, hb⟩ := bind_eq_ok.mp h
    rw [hunit, validateCoordinate_eq_ok] at hx hy hw hh hr hb
    exact ⟨hx, hy, hw, hh, not_lt.mp hwidth, not_lt.mp hheight, hr, hb⟩
  · intro h
    have hwidth : ¬r.width < Scalar.lit 0 := not_lt.mpr h.width_nonneg
    have hheight : ¬r.height < Scalar.lit 0 := not_lt.mpr h.height_nonneg
    simp only [Rect.validate, validateCoordinate_eq_ok.mpr h.x, validateCoordinate_eq_ok.mpr h.y,
      validateCoordinate_eq_ok.mpr h.width, validateCoordinate_eq_ok.mpr h.height, bind_ok,
      if_neg hwidth, if_neg hheight, validateCoordinate_eq_ok.mpr h.right,
      validateCoordinate_eq_ok.mpr h.bottom]

/-- A rectangle that does not end before it begins, though it may have no extent. -/
structure Rect.Ordered (r : Rect ℚ) : Prop where
  x_le_right : r.x ≤ r.right
  y_le_bottom : r.y ≤ r.bottom

theorem Rect.InBounds.ordered (h : r.InBounds) : r.Ordered where
  x_le_right := by
    have hwidth := h.width_nonneg
    rw [Rect.right]
    linarith
  y_le_bottom := by
    have hheight := h.height_nonneg
    rw [Rect.bottom]
    linarith

/-- The interiors of two rectangles intersect when both spans do. -/
theorem Rect.overlaps_iff : r.overlaps other = true ↔
    r.x < other.right ∧ other.x < r.right ∧ r.y < other.bottom ∧ other.y < r.bottom := by
  simp [Rect.overlaps, and_assoc]

theorem Rect.overlaps_comm : r.overlaps other = other.overlaps r := by
  rw [Bool.eq_iff_iff, Rect.overlaps_iff, Rect.overlaps_iff]
  constructor
  · rintro ⟨h₁, h₂, h₃, h₄⟩
    exact ⟨h₂, h₁, h₄, h₃⟩
  · rintro ⟨h₁, h₂, h₃, h₄⟩
    exact ⟨h₂, h₁, h₄, h₃⟩

/-! ## Buckets -/

theorem mem_intRange {low high n : ℤ} : n ∈ intRange low high ↔ low ≤ n ∧ n ≤ high := by
  simp only [intRange, mem_map, mem_range]
  constructor
  · rintro ⟨i, hi, rfl⟩
    omega
  · rintro ⟨hlow, hhigh⟩
    exact ⟨(n - low).toNat, by omega, by omega⟩

theorem mem_bucketKeys {key : BucketKey} : key ∈ bucketKeys r ↔
    (⌊r.x / 192⌋ ≤ key.x ∧ key.x ≤ ⌊r.right / 192⌋) ∧
      (⌊r.y / 192⌋ ≤ key.y ∧ key.y ≤ ⌊r.bottom / 192⌋) := by
  have hsize : (spatialBucketSize : ℚ) = 192 := rfl
  simp only [bucketKeys, toI32_floor, hsize, mem_flatMap, mem_map, mem_intRange]
  constructor
  · rintro ⟨x, hx, y, hy, rfl⟩
    exact ⟨hx, hy⟩
  · rintro ⟨hx, hy⟩
    exact ⟨key.x, hx, key.y, hy, rfl⟩

/-- Two spans that overlap, neither of which ends before it begins, have a point of their
common part in a bucket of both. -/
theorem exists_common_bucket {low high low' high' : ℚ} (h : low ≤ high) (h' : low' ≤ high')
    (hlow : low < high') (hlow' : low' < high) : ∃ n : ℤ,
      (⌊low / 192⌋ ≤ n ∧ n ≤ ⌊high / 192⌋) ∧ (⌊low' / 192⌋ ≤ n ∧ n ≤ ⌊high' / 192⌋) := by
  have hmono : ∀ {a b : ℚ}, a ≤ b → ⌊a / 192⌋ ≤ ⌊b / 192⌋ := by
    intro a b hab
    exact Int.floor_le_floor (div_le_div_of_nonneg_right hab (by norm_num))
  refine ⟨⌊max low low' / 192⌋, ⟨hmono (le_max_left _ _), hmono (max_le h hlow'.le)⟩,
    hmono (le_max_right _ _), hmono (max_le hlow.le h')⟩

/-- **Overlapping rectangles share a bucket.** -/
theorem exists_shared_bucket (hr : r.Ordered) (hother : other.Ordered)
    (h : r.overlaps other = true) : ∃ key ∈ bucketKeys r, key ∈ bucketKeys other := by
  obtain ⟨h₁, h₂, h₃, h₄⟩ := Rect.overlaps_iff.mp h
  obtain ⟨x, hx, hx'⟩ := exists_common_bucket hr.x_le_right hother.x_le_right h₁ h₂
  obtain ⟨y, hy, hy'⟩ := exists_common_bucket hr.y_le_bottom hother.y_le_bottom h₃ h₄
  exact ⟨⟨x, y⟩, mem_bucketKeys.mpr ⟨hx, hy⟩, mem_bucketKeys.mpr ⟨hx', hy'⟩⟩

namespace SpatialIndex

/-! ## Filing -/

section Filing

variable {itemId id : String} {buckets : BTreeMap BucketKey (BTreeSet String)}
  {key key' : BucketKey}

/-- An item is filed under a bucket. -/
def Files (buckets : BTreeMap BucketKey (BTreeSet String)) (key : BucketKey) (itemId : String) :
    Prop :=
  ∃ bucket, buckets[key]? = some bucket ∧ itemId ∈ bucket

/-- No bucket is empty. -/
def NoneEmpty (buckets : BTreeMap BucketKey (BTreeSet String)) : Prop :=
  ∀ (key : BucketKey) (bucket : BTreeSet String), buckets[key]? = some bucket → bucket ≠ ∅

theorem mem_erase_id {bucket : BTreeSet String} :
    id ∈ bucket.erase itemId ↔ id ≠ itemId ∧ id ∈ bucket := by
  rw [Std.ExtTreeSet.mem_erase, Ne, Std.LawfulEqOrd.compare_eq_iff_eq, eq_comm]

theorem mem_insert_id {bucket : BTreeSet String} :
    id ∈ bucket.insert itemId ↔ id = itemId ∨ id ∈ bucket := by
  rw [Std.ExtTreeSet.mem_insert, Std.LawfulEqOrd.compare_eq_iff_eq, eq_comm]

/-- Leaving a bucket keeps what is left of it, unless nothing is. -/
theorem getElem?_leaveBucket : (leaveBucket itemId buckets key)[key']? =
    if key' = key then (buckets[key]?.map (·.erase itemId)).filter fun bucket => !bucket.isEmpty
    else buckets[key']? := by
  rw [leaveBucket]
  cases hbucket : buckets[key]? with
  | none =>
    by_cases hkey : key' = key
    · simp [hkey, hbucket]
    · simp [hkey]
  | some bucket =>
    simp only [Option.map_some, Option.filter_some]
    cases hempty : (bucket.erase itemId).isEmpty with
    | true => simp only [if_true, getElem?_erase_ite, Bool.not_true, Bool.false_eq_true, if_false]
    | false => simp only [Bool.false_eq_true, if_false, getElem?_insert_ite, Bool.not_false, if_true]

/-- Leaving a bucket takes one item out of it. -/
theorem files_leaveBucket : Files (leaveBucket itemId buckets key) key' id ↔
    Files buckets key' id ∧ ¬(key' = key ∧ id = itemId) := by
  rw [Files, getElem?_leaveBucket]
  by_cases hkey : key' = key
  · subst hkey
    simp only [if_true, Option.filter_eq_some_iff, Option.map_eq_some_iff, true_and, Files]
    constructor
    · rintro ⟨_, ⟨⟨bucket, hbucket, rfl⟩, -⟩, hmem⟩
      obtain ⟨hne, hmem⟩ := mem_erase_id.mp hmem
      exact ⟨⟨bucket, hbucket, hmem⟩, hne⟩
    · rintro ⟨⟨bucket, hbucket, hmem⟩, hne⟩
      have hleft : id ∈ bucket.erase itemId := mem_erase_id.mpr ⟨hne, hmem⟩
      refine ⟨_, ⟨⟨bucket, hbucket, rfl⟩, ?_⟩, hleft⟩
      rw [Bool.not_eq_true', Bool.eq_false_iff, Ne, Std.ExtTreeSet.isEmpty_iff]
      intro hempty
      rw [hempty] at hleft
      exact Std.ExtTreeSet.not_mem_empty hleft
  · simp [hkey, Files]

theorem noneEmpty_leaveBucket (h : NoneEmpty buckets) :
    NoneEmpty (leaveBucket itemId buckets key) := by
  intro key' bucket hget
  rw [getElem?_leaveBucket] at hget
  split at hget
  · have hleft := (Option.filter_eq_some_iff.mp hget).2
    intro hempty
    rw [hempty] at hleft
    cases hleft
  · exact h key' bucket hget

theorem files_enterBucket : Files (enterBucket itemId buckets key) key' id ↔
    Files buckets key' id ∨ (key' = key ∧ id = itemId) := by
  by_cases hkey : key' = key
  · subst hkey
    have hbefore : Files buckets key' id ↔ id ∈ buckets[key']?.getD ∅ := by
      cases hbucket : buckets[key']? with
      | none => simp [Files, hbucket]
      | some bucket => simp [Files, hbucket]
    simp only [Files, enterBucket, getElem?_insert_ite, if_true, Option.some.injEq,
      exists_eq_left', mem_insert_id, true_and] at hbefore ⊢
    rw [hbefore, or_comm]
  · simp [Files, enterBucket, getElem?_insert_ite, hkey]

theorem noneEmpty_enterBucket (h : NoneEmpty buckets) : NoneEmpty (enterBucket itemId buckets key) := by
  intro key' bucket' hget
  rw [enterBucket, getElem?_insert_ite] at hget
  split at hget
  · obtain rfl := Option.some.inj hget
    intro hempty
    have hmem : itemId ∈ (buckets[key]?.getD ∅).insert itemId := mem_insert_id.mpr (.inl rfl)
    rw [hempty] at hmem
    exact Std.ExtTreeSet.not_mem_empty hmem
  · exact h key' bucket' hget

variable {keys : List BucketKey}

theorem files_foldl_leaveBucket :
    Files (keys.foldl (leaveBucket itemId) buckets) key id ↔
      Files buckets key id ∧ ¬(key ∈ keys ∧ id = itemId) := by
  induction keys generalizing buckets with
  | nil => simp
  | cons first keys ih =>
    rw [foldl_cons, ih, files_leaveBucket, mem_cons]
    tauto

theorem files_foldl_enterBucket :
    Files (keys.foldl (enterBucket itemId) buckets) key id ↔
      Files buckets key id ∨ (key ∈ keys ∧ id = itemId) := by
  induction keys generalizing buckets with
  | nil => simp
  | cons first keys ih =>
    rw [foldl_cons, ih, files_enterBucket, mem_cons]
    tauto

theorem noneEmpty_foldl {step : BTreeMap BucketKey (BTreeSet String) → BucketKey →
      BTreeMap BucketKey (BTreeSet String)}
    (hstep : ∀ buckets key, NoneEmpty buckets → NoneEmpty (step buckets key))
    (h : NoneEmpty buckets) : NoneEmpty (keys.foldl step buckets) :=
  foldlRecOn keys step h fun _ hbuckets key _ => hstep _ key hbuckets

end Filing

/-! ## The invariant of the index -/

/-- Every stored rectangle is valid and filed under exactly the buckets it touches, and no
bucket is empty. -/
structure WellFiled (index : SpatialIndex ℚ) : Prop where
  memberships : ∀ id : String, index.memberships[id]? = index.rects[id]?.map bucketKeys
  filed : ∀ (key : BucketKey) (id : String), Files index.buckets key id ↔
    ∃ keys, index.memberships[id]? = some keys ∧ key ∈ keys
  noneEmpty : NoneEmpty index.buckets
  valid : ∀ (id : String) (rect : Rect ℚ), index.rects[id]? = some rect → rect.InBounds

theorem WellFiled.empty : WellFiled {} where
  memberships id := by simp
  filed key id := by simp [Files]
  noneEmpty key bucket h := by simp at h
  valid id rect h := by simp at h

variable {index next : SpatialIndex ℚ}

theorem rects_remove (index : SpatialIndex ℚ) (itemId id : String) :
    (index.remove itemId).rects[id]? = if id = itemId then none else index.rects[id]? := by
  simp only [SpatialIndex.remove, getElem?_erase_ite]

/-- **Removing an item keeps the index well filed.** -/
theorem WellFiled.remove (h : index.WellFiled) (itemId : String) :
    (index.remove itemId).WellFiled where
  memberships id := by
    simp only [SpatialIndex.remove, getElem?_erase_ite]
    split
    · rfl
    · exact h.memberships id
  filed key id := by
    simp only [SpatialIndex.remove, getElem?_erase_ite, files_foldl_leaveBucket, h.filed]
    by_cases hid : id = itemId
    · -- the item has left all the buckets it was filed under
      subst hid
      cases hkeys : index.memberships[id]? with
      | none => simp
      | some keys => simp
    · simp [hid]
  noneEmpty := noneEmpty_foldl (fun _ _ => noneEmpty_leaveBucket) h.noneEmpty
  valid id rect hrect := by
    rw [rects_remove] at hrect
    split at hrect
    · cases hrect
    · exact h.valid id rect hrect

theorem rects_upsert {node : GeometryNode ℚ} (h : index.upsert node = .ok next) (id : String) :
    next.rects[id]? = if id = node.itemId then some node.bounds else index.rects[id]? := by
  obtain ⟨_, -, h⟩ := bind_eq_ok.mp h
  obtain rfl := pure_eq_ok.mp h
  rw [getElem?_insert_ite, rects_remove]
  split_ifs <;> rfl

/-- A node that is accepted has a valid rectangle. -/
theorem inBounds_of_validate {node : GeometryNode ℚ} {u : Unit} (h : node.validate = .ok u) :
    node.bounds.InBounds := by
  rw [GeometryNode.validate] at h
  by_cases hblank : isBlank node.itemId = true
  · simp only [if_pos hblank] at h
    exact nomatch h
  · simp only [if_neg hblank] at h
    exact Rect.validate_eq_ok.mp h

/-- **Adding an item or moving it keeps the index well filed.** -/
theorem WellFiled.upsert (h : index.WellFiled) {node : GeometryNode ℚ}
    (hnext : index.upsert node = .ok next) : next.WellFiled := by
  obtain ⟨_, hvalid, hnext⟩ := bind_eq_ok.mp hnext
  obtain rfl := pure_eq_ok.mp hnext
  have hremoved := h.remove node.itemId
  have habsent : (index.remove node.itemId).memberships[node.itemId]? = none := by
    simp [SpatialIndex.remove]
  refine ⟨?_, ?_, noneEmpty_foldl (fun _ _ => noneEmpty_enterBucket) hremoved.noneEmpty, ?_⟩
  · intro id
    simp only [getElem?_insert_ite, hremoved.memberships]
    split <;> rfl
  · intro key id
    simp only [getElem?_insert_ite, files_foldl_enterBucket, hremoved.filed]
    by_cases hid : id = node.itemId
    · subst hid
      simp [habsent]
    · simp [hid]
  · intro id rect hrect
    simp only [getElem?_insert_ite] at hrect
    split at hrect
    · obtain rfl := Option.some.inj hrect
      exact inBounds_of_validate hvalid
    · exact hremoved.valid id rect hrect

theorem WellFiled.replaceFrom (h : index.WellFiled) {nodes : List (GeometryNode ℚ)}
    (hnext : index.replaceFrom nodes = .ok next) : next.WellFiled := by
  induction nodes generalizing index with
  | nil =>
    rw [SpatialIndex.replaceFrom] at hnext
    cases hnext
    exact h
  | cons node nodes ih =>
    rw [SpatialIndex.replaceFrom] at hnext
    split at hnext
    · cases hnext
    · obtain ⟨filled, hfilled, hrest⟩ := bind_eq_ok.mp hnext
      exact ih (h.upsert hfilled) hrest

/-! ## Queries -/

/-- The items that a query looks at are those filed under its buckets. -/
theorem mem_candidates {buckets : BTreeMap BucketKey (BTreeSet String)} {id : String}
    {keys : List BucketKey} {found : BTreeSet String} :
    id ∈ keys.foldl (fun found key =>
        ((buckets[key]?.getD ∅).toList).foldl (fun s id => s.insert id) found) found ↔
      id ∈ found ∨ ∃ key ∈ keys, Files buckets key id := by
  have hinserted : ∀ {ids : List String} {found : BTreeSet String},
      id ∈ ids.foldl (fun s id => s.insert id) found ↔ id ∈ found ∨ id ∈ ids := by
    intro ids
    induction ids with
    | nil => simp
    | cons first ids ih =>
      intro found
      rw [foldl_cons, ih, mem_insert_id, mem_cons]
      tauto
  have hbucket : ∀ key, id ∈ (buckets[key]?.getD ∅).toList ↔ Files buckets key id := by
    intro key
    rw [Std.ExtTreeSet.mem_toList]
    cases hkey : buckets[key]? with
    | none => simp [Files, hkey]
    | some bucket => simp [Files, hkey]
  induction keys generalizing found with
  | nil => simp
  | cons first keys ih =>
    simp only [foldl_cons, ih, hinserted, hbucket, mem_cons, exists_eq_or_imp, or_assoc]

/-- What a scan of all rectangles finds: the stored rectangles outside the excluded ones that
overlap the query, in the order of their ids. -/
def scan (index : SpatialIndex ℚ) (bounds : Rect ℚ) (excluded : BTreeSet String) : List String :=
  (index.rects.toList.filter fun entry =>
    !excluded.contains entry.1 && entry.2.overlaps bounds).map (·.1)

/-- The scan lists its ids in ascending order, each once. -/
theorem pairwise_scan (index : SpatialIndex ℚ) (bounds : Rect ℚ) (excluded : BTreeSet String) :
    (index.scan bounds excluded).Pairwise fun a b => compare a b = .lt :=
  pairwise_map.mpr (Std.ExtTreeMap.ordered_keys_toList.filter _)

theorem mem_scan {bounds : Rect ℚ} {excluded : BTreeSet String} {id : String} :
    id ∈ index.scan bounds excluded ↔
      id ∉ excluded ∧ ∃ rect, index.rects[id]? = some rect ∧ rect.overlaps bounds = true := by
  simp only [scan, mem_map, mem_filter, Prod.exists, exists_and_right, exists_eq_right,
    Std.ExtTreeMap.mem_toList_iff_getElem?_eq_some, Bool.and_eq_true, Bool.not_eq_true',
    ← Bool.not_eq_true, Std.ExtTreeSet.contains_iff_mem]
  constructor
  · rintro ⟨rect, hrect, hexcluded, hoverlaps⟩
    exact ⟨hexcluded, rect, hrect, hoverlaps⟩
  · rintro ⟨hexcluded, rect, hrect, hoverlaps⟩
    exact ⟨rect, hrect, hexcluded, hoverlaps⟩

/-- **A query of a well filed index is a scan**, for every rectangle that does not end before
it begins. -/
theorem WellFiled.overlappingIds (h : index.WellFiled) {bounds : Rect ℚ} (hbounds : bounds.Ordered)
    (excluded : BTreeSet String) :
    index.overlappingIds bounds excluded = index.scan bounds excluded := by
  have hmem : ∀ id, id ∈ index.overlappingIds bounds excluded ↔ id ∈ index.scan bounds excluded := by
    intro id
    rw [mem_scan, SpatialIndex.overlappingIds, mem_filter, mem_filter,
      Std.ExtTreeSet.mem_toList, mem_candidates, Bool.not_eq_true', Bool.eq_false_iff, Ne,
      Std.ExtTreeSet.contains_iff_mem]
    constructor
    · rintro ⟨⟨-, hexcluded⟩, hfound⟩
      refine ⟨hexcluded, ?_⟩
      cases hrect : index.rects[id]? with
      | none => simp [hrect] at hfound
      | some rect => exact ⟨rect, rfl, by simpa [hrect] using hfound⟩
    · rintro ⟨hexcluded, rect, hrect, hoverlaps⟩
      -- the rectangle is filed under a bucket that it shares with the query
      obtain ⟨key, hkey, hshared⟩ :=
        exists_shared_bucket (h.valid id rect hrect).ordered hbounds hoverlaps
      have hfiles : Files index.buckets key id := by
        rw [h.filed, h.memberships, hrect]
        exact ⟨_, rfl, hkey⟩
      exact ⟨⟨.inr ⟨key, hshared, hfiles⟩, hexcluded⟩, by simpa [hrect] using hoverlaps⟩
  have hids : (index.overlappingIds bounds excluded).Pairwise fun a b => compare a b = .lt :=
    (Std.ExtTreeSet.ordered_toList.filter _).filter _
  have hscan := pairwise_scan index bounds excluded
  have : Std.Irrefl fun a b : String => compare a b = .lt := ⟨by simp⟩
  have : Std.Antisymm fun a b : String => compare a b = .lt := by
    refine ⟨fun a b hab hba => ?_⟩
    rw [← Std.OrientedCmp.gt_iff_lt] at hba
    simp [hab] at hba
  exact hids.eq_of_mem_iff hscan hmem

/-! ## Runs of mutations -/

/-- A mutation of the index. -/
inductive Update where
  | upsert (node : GeometryNode ℚ)
  | remove (itemId : String)
  | replace (nodes : List (GeometryNode ℚ))

/-- Apply a mutation; one that fails leaves the index as it is. -/
def update (index : SpatialIndex ℚ) : Update → SpatialIndex ℚ
  | .upsert node =>
    match index.upsert node with
    | .ok next => next
    | .error _ => index
  | .remove itemId => index.remove itemId
  | .replace nodes =>
    match SpatialIndex.replace nodes with
    | .ok next => next
    | .error _ => index

theorem rects_replaceFrom {nodes : List (GeometryNode ℚ)} (h : index.replaceFrom nodes = .ok next)
    (id : String) : next.rects[id]? =
      index.rects[id]?.or ((nodes.find? (·.itemId = id)).map (·.bounds)) := by
  induction nodes generalizing index with
  | nil =>
    rw [replaceFrom] at h
    cases h
    simp
  | cons node nodes ih =>
    rw [replaceFrom] at h
    split at h
    · cases h
    · rename_i hnew
      obtain ⟨filled, hfilled, hrest⟩ := bind_eq_ok.mp h
      rw [ih hrest, rects_upsert hfilled]
      by_cases hid : id = node.itemId
      · subst hid
        rw [Std.ExtTreeMap.getElem?_eq_none (mt Std.ExtTreeMap.mem_iff_contains.mp hnew)]
        simp
      · simp [hid, Ne.symm hid]

/-- **The rectangles are those of the calls.** A node that is accepted has its rectangle stored, an
item that is removed has none, a list that is accepted replaces everything, and all else stays. -/
theorem rects_update (index : SpatialIndex ℚ) (mutation : Update) (id : String) :
    (index.update mutation).rects[id]? =
      match mutation with
      | .upsert node =>
        if (index.upsert node).isOk ∧ id = node.itemId then some node.bounds else index.rects[id]?
      | .remove itemId => if id = itemId then none else index.rects[id]?
      | .replace nodes =>
        if (replace nodes).isOk then (nodes.find? (·.itemId = id)).map (·.bounds)
        else index.rects[id]? := by
  cases mutation with
  | upsert node =>
    simp only [update]
    cases hnext : index.upsert node with
    | ok next => simp [rects_upsert hnext, Except.isOk, Except.toBool]
    | error error => simp [Except.isOk, Except.toBool]
  | remove itemId => exact rects_remove index itemId id
  | replace nodes =>
    simp only [update]
    cases hnext : replace nodes with
    | ok next => simp [rects_replaceFrom hnext, Except.isOk, Except.toBool]
    | error error => simp [Except.isOk, Except.toBool]

/-- Every mutation keeps the index well filed. -/
theorem WellFiled.update (h : index.WellFiled) (mutation : Update) :
    (index.update mutation).WellFiled := by
  cases mutation with
  | upsert node =>
    rw [SpatialIndex.update]
    split
    · rename_i next hnext
      exact h.upsert hnext
    · exact h
  | remove itemId => exact h.remove itemId
  | replace nodes =>
    rw [SpatialIndex.update]
    split
    · rename_i next hnext
      exact WellFiled.empty.replaceFrom hnext
    · exact h

/-- The index after a sequence of mutations of the empty index. -/
def updates (mutations : List Update) : SpatialIndex ℚ := mutations.foldl update {}

theorem wellFiled_updates (mutations : List Update) : (updates mutations).WellFiled :=
  foldlRecOn mutations update WellFiled.empty fun _ h mutation _ => h.update mutation

/-- **The spatial index agrees with a scan.** After any mutations, failing ones included, each
stored item is filed under exactly the buckets of its rectangle and no bucket is empty. A
query with a valid rectangle answers what a scan of the stored rectangles answers: the ids
outside the excluded ones whose rectangles overlap it, in ascending order and each once. -/
theorem index_agrees_with_scan (mutations : List Update) :
    (∀ id : String, (updates mutations).memberships[id]? =
      (updates mutations).rects[id]?.map bucketKeys) ∧
    (∀ (key : BucketKey) (id : String),
      (∃ bucket, (updates mutations).buckets[key]? = some bucket ∧ id ∈ bucket) ↔
        ∃ keys, (updates mutations).memberships[id]? = some keys ∧ key ∈ keys) ∧
    (∀ (key : BucketKey) (bucket : BTreeSet String),
      (updates mutations).buckets[key]? = some bucket → bucket ≠ ∅) ∧
    ∀ (bounds : Rect ℚ) (excluded : BTreeSet String), bounds.validate = .ok () →
      (updates mutations).overlappingIds bounds excluded =
        (updates mutations).scan bounds excluded ∧
      ((updates mutations).overlappingIds bounds excluded).Pairwise (fun a b => compare a b = .lt) ∧
      ∀ id : String, id ∈ (updates mutations).overlappingIds bounds excluded ↔
        id ∉ excluded ∧ ∃ rect, (updates mutations).rects[id]? = some rect ∧
          rect.overlaps bounds = true := by
  have h := wellFiled_updates mutations
  refine ⟨h.memberships, h.filed, h.noneEmpty, ?_⟩
  intro bounds excluded hbounds
  have hscan := h.overlappingIds (Rect.validate_eq_ok.mp hbounds).ordered excluded
  rw [hscan]
  exact ⟨rfl, pairwise_scan _ bounds excluded, fun id => mem_scan⟩

/-- A square that is stored is found by a query that touches its corner. -/
theorem index_agrees_with_scan_square :
    ({ x := -1, y := -1, width := 2, height := 2 } : Rect ℚ).validate = .ok () ∧
    (updates [.upsert ⟨"square", { x := 0, y := 0, width := 1, height := 1 }⟩]).overlappingIds
        { x := -1, y := -1, width := 2, height := 2 } ∅ = ["square"] := by
  have hvalid : ({ x := -1, y := -1, width := 2, height := 2 } : Rect ℚ).validate = .ok () := by
    rw [Rect.validate_eq_ok]
    constructor <;> norm_num [Rect.right, Rect.bottom]
  exact ⟨hvalid, ((index_agrees_with_scan _).2.2.2 _ _ hvalid).1.trans (by decide +kernel)⟩

/-! ## The rectangles determine the index -/

/-- Buckets of which none is empty are known from what is filed in them. -/
theorem NoneEmpty.ext {buckets buckets' : BTreeMap BucketKey (BTreeSet String)}
    (h : NoneEmpty buckets) (h' : NoneEmpty buckets')
    (hfiles : ∀ key id, Files buckets key id ↔ Files buckets' key id) : buckets = buckets' := by
  refine Std.ExtTreeMap.ext_getElem? fun {key} => ?_
  have hfiled : ∀ buckets : BTreeMap BucketKey (BTreeSet String), ∀ id,
      id ∈ buckets[key]?.getD ∅ ↔ Files buckets key id := by
    intro buckets id
    cases hbucket : buckets[key]? <;> simp [Files, hbucket]
  have hsame : buckets[key]?.getD ∅ = buckets'[key]?.getD ∅ := by
    ext id
    rw [hfiled, hfiled, hfiles]
  cases hbucket : buckets[key]? <;> cases hbucket' : buckets'[key]? <;>
    simp only [hbucket, hbucket', Option.getD_none, Option.getD_some] at hsame
  · rfl
  · exact absurd hsame.symm (h' key _ hbucket')
  · exact absurd hsame (h key _ hbucket)
  · rw [hsame]

/-- **The index depends on its rectangles only**, whatever mutations led to them: items that came and
went leave nothing behind in the buckets. -/
theorem updates_eq_iff (mutations mutations' : List Update) :
    updates mutations = updates mutations' ↔
      (updates mutations).rects = (updates mutations').rects := by
  refine ⟨congrArg rects, fun hrects => ?_⟩
  have h := wellFiled_updates mutations
  have h' := wellFiled_updates mutations'
  generalize updates mutations = index at h hrects
  generalize updates mutations' = index' at h' hrects
  have hmemberships : index.memberships = index'.memberships :=
    Std.ExtTreeMap.ext_getElem? fun {id} => by rw [h.memberships, h'.memberships, hrects]
  have hbuckets : index.buckets = index'.buckets :=
    h.noneEmpty.ext h'.noneEmpty fun key id => by rw [h.filed, h'.filed, hmemberships]
  cases index
  cases index'
  simp_all only

end SpatialIndex

end HomelabInventory
