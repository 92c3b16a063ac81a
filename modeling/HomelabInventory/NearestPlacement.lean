import HomelabInventory.SpatialIndexing
import HomelabInventory.StableSorting

/-!
# The search for the nearest placement

The search tries the translations of a rectangle ring by ring and takes the first one that
keeps its distance from the stored items. It stops with an error at the first translation that
leaves the canvas, so it finds the nearest placement exactly when no such translation comes
before it.
-/

namespace HomelabInventory

open List

/-! ## Orders of offsets -/

/-- The ring of an offset. -/
def offsetRing (o : ℤ × ℤ) : ℕ := max o.1.natAbs o.2.natAbs

/-- Offsets by their ring, then by a distance, then by their coordinates. -/
def offsetOrder (distance : ℤ × ℤ → ℤ) : ℤ × ℤ → ℤ × ℤ → Ordering :=
  compareLex (compareOn offsetRing)
    (compareLex (compareOn distance) (compareLex (compareOn fun o => o.2) (compareOn fun o => o.1)))

/-- The square of the distance of an offset. -/
def squaredDistance (o : ℤ × ℤ) : ℤ := o.1 * o.1 + o.2 * o.2

/-- The square of the distance as the search adds it up. -/
def wrappedDistance (o : ℤ × ℤ) : ℤ := (squaredDistance o).bmod (2 ^ 32)

section Orders

variable {distance : ℤ × ℤ → ℤ} {o o' : ℤ × ℤ}

instance : Std.TransCmp (offsetOrder distance) :=
  inferInstanceAs (Std.TransCmp (compareLex _ _))

/-- The order tells all offsets apart. -/
theorem offsetOrder_eq_eq : offsetOrder distance o o' = .eq ↔ o = o' := by
  constructor
  · intro h
    simp only [offsetOrder, compareLex, Ordering.then_eq_eq, compareOn,
      Std.LawfulEqOrd.compare_eq_iff_eq] at h
    exact Prod.ext h.2.2.2 h.2.2.1
  · rintro rfl
    exact Std.ReflCmp.compare_self

/-- An offset that does not come after another one comes before it. -/
theorem offsetOrder_lt (h : (offsetOrder distance o o').isLE = true) (hne : o' ≠ o) :
    offsetOrder distance o o' = .lt := by
  cases horder : offsetOrder distance o o' with
  | lt => rfl
  | eq => exact absurd (offsetOrder_eq_eq.mp horder).symm hne
  | gt => simp [horder] at h

/-- The first element of a sorted list with a property comes before all others with it. -/
theorem find?_of_pairwise {α : Type} {le : α → α → Prop} (hrefl : ∀ a, le a a) {l : List α}
    (hsorted : l.Pairwise le) {p : α → Bool} {a : α} (h : l.find? p = some a) :
    ∀ b ∈ l, p b = true → le a b := by
  induction l with
  | nil => cases h
  | cons first rest ih =>
    rw [pairwise_cons] at hsorted
    rw [find?_cons] at h
    intro b hb hpb
    cases hp : p first with
    | true =>
      rw [hp] at h
      obtain rfl := Option.some.inj h
      obtain rfl | hb := mem_cons.mp hb
      · exact hrefl b
      · exact hsorted.1 b hb
    | false =>
      rw [hp] at h
      obtain rfl | hb := mem_cons.mp hb
      · rw [hp] at hpb
        cases hpb
      · exact ih hsorted.2 h b hb hpb

end Orders

/-! ## The offsets of the search -/

/-- A ring has exactly the offsets at its distance. -/
theorem mem_ringOffsets {ring : ℕ} (hring : 0 < ring) {o : ℤ × ℤ} :
    o ∈ ringOffsets ring ↔ offsetRing o = ring := by
  obtain ⟨x, y⟩ := o
  simp only [ringOffsets, mem_sortBy, mem_append, mem_flatMap, mem_intRange, map_cons,
    map_nil, mem_cons, not_mem_nil, or_false, Prod.mk.injEq, offsetRing]
  constructor
  · rintro (⟨x', hx', ⟨rfl, rfl⟩ | ⟨rfl, rfl⟩⟩ | ⟨y', hy', ⟨rfl, rfl⟩ | ⟨rfl, rfl⟩⟩) <;> omega
  · intro h
    by_cases hy : y = -(ring : ℤ) ∨ y = ring
    · exact .inl ⟨x, by omega, hy.imp (fun h => ⟨rfl, h⟩) fun h => ⟨rfl, h⟩⟩
    · have hx : x = -(ring : ℤ) ∨ x = ring := by omega
      exact .inr ⟨y, by omega, hx.imp (fun h => ⟨h, rfl⟩) fun h => ⟨h, rfl⟩⟩

/-- The offsets in the order in which the search tries them. -/
def searchOffsets (maxRings : ℕ) : List (ℤ × ℤ) :=
  (0, 0) :: ((List.range maxRings).map (· + 1)).flatMap fun ring => ringOffsets (ring : ℕ)

/-- The search tries the offsets of all rings up to the last one. -/
theorem mem_searchOffsets {maxRings : ℕ} {o : ℤ × ℤ} :
    o ∈ searchOffsets maxRings ↔ offsetRing o ≤ maxRings := by
  simp only [searchOffsets, mem_cons, mem_flatMap, mem_map, mem_range]
  constructor
  · rintro (rfl | ⟨_, ⟨ring, hring, rfl⟩, ho⟩)
    · simp [offsetRing]
    · rw [mem_ringOffsets (Nat.succ_pos ring)] at ho
      omega
  · intro h
    by_cases hzero : offsetRing o = 0
    · left
      obtain ⟨x, y⟩ := o
      simp only [offsetRing, Prod.mk.injEq] at hzero ⊢
      omega
    · refine .inr ⟨offsetRing o, ⟨offsetRing o - 1, by omega, by omega⟩, ?_⟩
      exact (mem_ringOffsets (Nat.pos_of_ne_zero hzero)).mpr rfl

/-- An offset of a nearer ring comes first. -/
theorem offsetOrder_of_ring_lt {distance : ℤ × ℤ → ℤ} {o o' : ℤ × ℤ}
    (h : offsetRing o < offsetRing o') : (offsetOrder distance o o').isLE = true := by
  have hring : compareOn offsetRing o o' = .lt := Nat.compare_eq_lt.mpr h
  simp [offsetOrder, compareLex, hring]

/-- The search tries the offsets in the order of their wrapped distances, ring by ring. -/
theorem pairwise_searchOffsets (maxRings : ℕ) : (searchOffsets maxRings).Pairwise fun o o' =>
    (offsetOrder wrappedDistance o o').isLE = true := by
  rw [searchOffsets, pairwise_cons]
  constructor
  · intro o ho
    simp only [mem_flatMap, mem_map, mem_range] at ho
    obtain ⟨_, ⟨ring, -, rfl⟩, ho⟩ := ho
    rw [mem_ringOffsets (Nat.succ_pos ring)] at ho
    apply offsetOrder_of_ring_lt
    rw [ho]
    exact Nat.succ_pos ring
  · rw [pairwise_flatMap]
    constructor
    · intro ring hring
      obtain ⟨ring, -, rfl⟩ := mem_map.mp hring
      -- within a ring the offsets are sorted by what is left of the order
      refine (pairwise_isLE_sortBy _ _).imp_of_mem ?_
      intro o o' ho ho' hle
      have hsame : compareOn offsetRing o o' = .eq := by
        rw [compareOn, (mem_ringOffsets (Nat.succ_pos ring)).mp ho,
          (mem_ringOffsets (Nat.succ_pos ring)).mp ho']
        exact Std.ReflCmp.compare_self
      rw [offsetOrder, compareLex, hsame]
      exact hle
    · rw [pairwise_map]
      refine pairwise_lt_range.imp ?_
      intro ring ring' hlt o ho o' ho'
      rw [mem_ringOffsets (Nat.succ_pos _)] at ho ho'
      exact offsetOrder_of_ring_lt (by omega)

namespace SpatialIndex

/-! ## What the search finds -/

/-- The translation of the preferred rectangle by some steps. -/
def candidate (preferred : Rect ℚ) (step : ℚ) (o : ℤ × ℤ) : Rect ℚ :=
  translated preferred ((o.1 : ℚ) * step) ((o.2 : ℚ) * step)

/-- The rectangle keeps the clearance from every stored item besides the one that moves. -/
def KeepsClearance (index : SpatialIndex ℚ) (itemId : String) (clearance : ℚ) (rect : Rect ℚ) :
    Prop :=
  ∀ (id : String) (other : Rect ℚ), index.rects[id]? = some other → id ≠ itemId →
    other.overlaps (rect.inflate clearance) = false

section Search

variable {valid : Rect ℚ → Bool} {preferred : Rect ℚ} {step : ℚ}

/-- The search stops at an offset whose translation is invalid or free. -/
def stopsAt (valid : Rect ℚ → Bool) (preferred : Rect ℚ) (step : ℚ) (o : ℤ × ℤ) : Bool :=
  match (candidate preferred step o).validate with
  | .ok () => valid (candidate preferred step o)
  | .error _ => true

/-- Trying offsets finds the first at which the search stops, and fails when it is invalid. -/
theorem firstValid_eq (offsets : List (ℤ × ℤ)) :
    firstValid valid preferred step offsets =
      match offsets.find? (stopsAt valid preferred step) with
      | none => .ok none
      | some o => (candidate preferred step o).validate >>= fun _ =>
          .ok (some (candidate preferred step o)) := by
  induction offsets with
  | nil => rfl
  | cons o offsets ih =>
    obtain ⟨x, y⟩ := o
    have hcandidate : translated preferred (Scalar.ofInt x * step) (Scalar.ofInt y * step) =
        candidate preferred step (x, y) := rfl
    rw [firstValid, find?_cons, stopsAt, hcandidate]
    cases hvalidate : (candidate preferred step (x, y)).validate with
    | error error => simp [hvalidate]
    | ok u =>
      cases hvalid : valid (candidate preferred step (x, y)) with
      | true => simp [hvalidate, Pure.pure, Except.pure]
      | false =>
        simp only [bind_ok, Bool.false_eq_true, if_false]
        exact ih

/-- Searching ring after ring tries the offsets of the rings in turn. -/
theorem searchRings_eq (rings : List ℕ) :
    searchRings valid preferred step rings =
      firstValid valid preferred step (rings.flatMap fun ring => ringOffsets (ring : ℕ)) := by
  induction rings with
  | nil => rfl
  | cons ring rings ih =>
    rw [searchRings, flatMap_cons, firstValid_eq, firstValid_eq, find?_append, ih,
      firstValid_eq]
    cases (ringOffsets (ring : ℤ)).find? (stopsAt valid preferred step) with
    | none => rfl
    | some o =>
      cases hvalidate : (candidate preferred step o).validate with
      | error error => simp [hvalidate]
      | ok u => simp [hvalidate, Pure.pure, Except.pure]

end Search

section Nearest

variable {index : SpatialIndex ℚ} {itemId : String} {preferred : Rect ℚ} {clearance step : ℚ}

/-- The test of a placement in the search. -/
def isFree (index : SpatialIndex ℚ) (itemId : String) (clearance : ℚ) (rect : Rect ℚ) : Bool :=
  let query := if clearance == Scalar.lit 0 then rect else rect.inflate clearance
  (index.overlappingIds query ((∅ : BTreeSet String).insert itemId)).isEmpty

/-- The test finds out whether a valid rectangle keeps the clearance. -/
theorem isFree_iff (h : index.WellFiled) (hclearance : 0 ≤ clearance) {rect : Rect ℚ}
    (hrect : rect.InBounds) :
    index.isFree itemId clearance rect = true ↔ index.KeepsClearance itemId clearance rect := by
  -- without a clearance nothing is inflated
  have hquery : (if clearance == Scalar.lit 0 then rect else rect.inflate clearance) =
      rect.inflate clearance := by
    split
    · rename_i hzero
      rw [show clearance = 0 from beq_iff_eq.mp hzero]
      simp [Rect.inflate]
    · rfl
  have hordered : (rect.inflate clearance).Ordered := by
    have hx := hrect.ordered.x_le_right
    have hy := hrect.ordered.y_le_bottom
    have htwo : (Scalar.lit 2 : ℚ) = 2 := rfl
    rw [Rect.right] at hx
    rw [Rect.bottom] at hy
    constructor
    · simp only [Rect.inflate, Rect.right, htwo]
      linarith
    · simp only [Rect.inflate, Rect.bottom, htwo]
      linarith
  simp only [isFree, hquery, h.overlappingIds hordered, List.isEmpty_iff,
    eq_nil_iff_forall_not_mem, mem_scan, mem_insert_id, Std.ExtTreeSet.not_mem_empty, or_false,
    KeepsClearance]
  constructor
  · intro hnone id other hother hne
    rw [← Bool.not_eq_true]
    exact fun hoverlaps => hnone id ⟨hne, other, hother, hoverlaps⟩
  · rintro hkeeps id ⟨hne, other, hother, hoverlaps⟩
    rw [hkeeps id other hother hne] at hoverlaps
    cases hoverlaps

/-- A clearance within the canvas is accepted, a larger one is not. -/
theorem validateClearance_eq_ok (hclearance : 0 ≤ clearance) :
    validateClearance clearance = .ok () ↔ clearance ≤ 16777216 := by
  have hneg : ¬clearance < Scalar.lit 0 := not_lt.mpr hclearance
  have hcoordinate : validateCoordinate clearance "clearance" = .ok () ↔ |clearance| ≤ 16777216 :=
    validateCoordinate_eq_ok
  rw [abs_of_nonneg hclearance] at hcoordinate
  rw [← hcoordinate, validateClearance, bind_eq_ok]
  simp only [hneg, if_false, pure_eq_ok, and_true]
  exact ⟨fun h => h.choose_spec, fun h => ⟨(), h⟩⟩

/-- A positive step within the canvas is accepted, a larger one is not. -/
theorem validateStep_eq_ok (hstep : 0 < step) : validateStep step = .ok () ↔ step ≤ 16777216 := by
  have hpos : ¬step ≤ Scalar.lit 0 := not_le.mpr hstep
  have hcoordinate : validateCoordinate step "step" = .ok () ↔ |step| ≤ 16777216 :=
    validateCoordinate_eq_ok
  rw [abs_of_nonneg hstep.le] at hcoordinate
  rw [← hcoordinate, validateStep, bind_eq_ok]
  simp only [hpos, if_false, pure_eq_ok, and_true]
  exact ⟨fun h => h.choose_spec, fun h => ⟨(), h⟩⟩

/-- The search tries the offsets one after the other, starting with the preferred rectangle. -/
theorem nearestValid_eq (hpreferred : preferred.validate = .ok ())
    (hclearance : validateClearance clearance = .ok ()) (hstep : validateStep step = .ok ())
    (maxRings : ℕ) :
    index.nearestValid itemId preferred clearance step maxRings =
      firstValid (index.isFree itemId clearance) preferred step (searchOffsets maxRings) := by
  have hzero : translated preferred (Scalar.ofInt 0 * step) (Scalar.ofInt 0 * step) = preferred := by
    have hofInt : (Scalar.ofInt 0 : ℚ) = 0 := rfl
    simp [translated, hofInt]
  rw [searchOffsets, firstValid, hzero, nearestValid, hpreferred, hclearance, hstep, bind_ok, bind_ok,
    bind_ok, bind_ok, ← searchRings_eq]
  rfl

/-! ## When the search finds the nearest placement -/

/-- A translation within the rings that is valid and keeps the clearance. -/
def Keeping (index : SpatialIndex ℚ) (itemId : String) (preferred : Rect ℚ) (clearance step : ℚ)
    (maxRings : ℕ) (o : ℤ × ℤ) : Prop :=
  offsetRing o ≤ maxRings ∧ (candidate preferred step o).validate = .ok () ∧
    index.KeepsClearance itemId clearance (candidate preferred step o)

/-- A translation within the rings that leaves the limits of the canvas. -/
def Leaving (preferred : Rect ℚ) (step : ℚ) (maxRings : ℕ) (o : ℤ × ℤ) : Prop :=
  offsetRing o ≤ maxRings ∧ (candidate preferred step o).validate ≠ .ok ()

/-- The first offset with a property. -/
def FirstBy (order : ℤ × ℤ → ℤ × ℤ → Ordering) (p : ℤ × ℤ → Prop) (o : ℤ × ℤ) : Prop :=
  p o ∧ ∀ o', p o' → o' ≠ o → order o o' = .lt

variable {o o' : ℤ × ℤ}

/-- There is only one first offset. -/
theorem FirstBy.unique {distance : ℤ × ℤ → ℤ} {p : ℤ × ℤ → Prop}
    (h : FirstBy (offsetOrder distance) p o) (h' : FirstBy (offsetOrder distance) p o') :
    o' = o := by
  by_contra hne
  have hlt := h.2 o' h'.1 hne
  have hgt := h'.2 o h.1 (Ne.symm hne)
  rw [← Std.OrientedCmp.gt_iff_lt, hlt] at hgt
  cases hgt

/-- What the search is for: the first translation, by its ring and its distance, that is valid
and keeps the clearance, or nothing when there is none. -/
def FindsNearest (index : SpatialIndex ℚ) (itemId : String) (preferred : Rect ℚ)
    (clearance step : ℚ) (maxRings : ℕ) : Prop :=
  (∀ o, FirstBy (offsetOrder squaredDistance)
      (Keeping index itemId preferred clearance step maxRings) o →
    index.nearestValid itemId preferred clearance step maxRings =
      .ok (some (candidate preferred step o))) ∧
  ((∀ o, ¬Keeping index itemId preferred clearance step maxRings o) →
    index.nearestValid itemId preferred clearance step maxRings = .ok none)

/-- Nothing gets in the way of the search: the clearance and the step are within the canvas,
and the translation it looks for is tried before every other one that keeps the clearance and
before every one that leaves the limits; or there are none of either kind. -/
def Unhindered (index : SpatialIndex ℚ) (itemId : String) (preferred : Rect ℚ)
    (clearance step : ℚ) (maxRings : ℕ) : Prop :=
  clearance ≤ 16777216 ∧ step ≤ 16777216 ∧
    ((∀ o, ¬Keeping index itemId preferred clearance step maxRings o ∧
        ¬Leaving preferred step maxRings o) ∨
      ∃ o, FirstBy (offsetOrder squaredDistance)
          (Keeping index itemId preferred clearance step maxRings) o ∧
        ∀ o', Keeping index itemId preferred clearance step maxRings o' ∨
            Leaving preferred step maxRings o' →
          o' ≠ o → offsetOrder wrappedDistance o o' = .lt)

variable {maxRings : ℕ}

/-- Some translation keeps the clearance first, or none does. -/
theorem exists_first {p : ℤ × ℤ → Prop} (hp : ∀ o, p o → offsetRing o ≤ maxRings) :
    (∃ o, FirstBy (offsetOrder squaredDistance) p o) ∨ ∀ o, ¬p o := by
  classical
  -- the first of the offsets of the search, sorted by their distance
  have hsorted := pairwise_isLE_sortBy (offsetOrder squaredDistance) (searchOffsets maxRings)
  have hmem : ∀ o, p o → o ∈ sortBy (offsetOrder squaredDistance) (searchOffsets maxRings) :=
    fun o ho => mem_sortBy.mpr (mem_searchOffsets.mpr (hp o ho))
  cases hfind : (sortBy (offsetOrder squaredDistance) (searchOffsets maxRings)).find?
      fun o => decide (p o) with
  | none =>
    rw [find?_eq_none] at hfind
    exact .inr fun o ho => hfind o (hmem o ho) (decide_eq_true ho)
  | some o =>
    have ho := find?_some hfind
    rw [decide_eq_true_iff] at ho
    refine .inl ⟨o, ho, ?_⟩
    intro o' ho' hne
    have hrefl : ∀ a, (offsetOrder squaredDistance a a).isLE = true := by
      intro a
      rw [offsetOrder_eq_eq.mpr rfl]
      rfl
    exact offsetOrder_lt (find?_of_pairwise hrefl hsorted hfind o' (hmem o' ho')
      (decide_eq_true ho')) hne

/-- A positive step tells the translations apart. -/
theorem candidate_injective (hstep : 0 < step)
    (h : candidate preferred step o = candidate preferred step o') : o = o' := by
  simp only [candidate, translated, Rect.mk.injEq, add_right_inj, and_true,
    mul_eq_mul_right_iff, Int.cast_inj, hstep.ne', or_false] at h
  exact Prod.ext h.1 h.2

/-- A translation that is found is the one of the offset at which the search stops. -/
theorem find?_of_firstValid (hstep : 0 < step) {valid : Rect ℚ → Bool} {offsets : List (ℤ × ℤ)}
    (h : firstValid valid preferred step offsets = .ok (some (candidate preferred step o))) :
    offsets.find? (stopsAt valid preferred step) = some o := by
  rw [firstValid_eq] at h
  cases hfind : offsets.find? (stopsAt valid preferred step) with
  | none =>
    rw [hfind] at h
    cases h
  | some found =>
    rw [hfind] at h
    obtain ⟨_, -, hsame⟩ := bind_eq_ok.mp h
    exact congrArg some (candidate_injective hstep (Option.some.inj (Except.ok.inj hsame)))

/-- The search stops at the offsets that keep the clearance and at those that leave the
limits. -/
theorem stopsAt_iff (h : index.WellFiled) (hclearance : 0 ≤ clearance)
    (ho : offsetRing o ≤ maxRings) :
    stopsAt (index.isFree itemId clearance) preferred step o = true ↔
      Keeping index itemId preferred clearance step maxRings o ∨ Leaving preferred step maxRings o := by
  rw [stopsAt]
  cases hvalidate : (candidate preferred step o).validate with
  | error error => simp [Keeping, Leaving, hvalidate, ho]
  | ok u =>
    have hfree : index.isFree itemId clearance (candidate preferred step o) = true ↔
        index.KeepsClearance itemId clearance (candidate preferred step o) :=
      isFree_iff h hclearance (Rect.validate_eq_ok.mp hvalidate)
    simp [Keeping, Leaving, hvalidate, ho, hfree]

/-- The search that finds an offset stops there before all others. -/
theorem offsetOrder_of_find? {stops : ℤ × ℤ → Bool}
    (hfind : (searchOffsets maxRings).find? stops = some o) (ho' : offsetRing o' ≤ maxRings)
    (hstops : stops o' = true) (hne : o' ≠ o) : offsetOrder wrappedDistance o o' = .lt := by
  have hrefl : ∀ a, (offsetOrder wrappedDistance a a).isLE = true := by
    intro a
    rw [offsetOrder_eq_eq.mpr rfl]
    rfl
  exact offsetOrder_lt (find?_of_pairwise hrefl (pairwise_searchOffsets maxRings) hfind o'
    (mem_searchOffsets.mpr ho') hstops) hne

/-- **The search finds the nearest placement exactly when nothing gets in its way**: it ends at the
first translation that is off the canvas, although a later one may be valid. -/
theorem findsNearest_iff (mutations : List Update) (itemId : String) (preferred : Rect ℚ)
    (clearance step : ℚ) (maxRings : ℕ) (hpreferred : preferred.validate = .ok ())
    (hclearance : 0 ≤ clearance) (hstep : 0 < step) :
    FindsNearest (updates mutations) itemId preferred clearance step maxRings ↔
      Unhindered (updates mutations) itemId preferred clearance step maxRings := by
  have hfiled := wellFiled_updates mutations
  have hfirst := exists_first (p := Keeping (updates mutations) itemId preferred clearance step
    maxRings) fun o ho => ho.1
  -- an answer comes only when the clearance and the step are accepted
  have haccepted : ∀ {answer}, (updates mutations).nearestValid itemId preferred clearance step
      maxRings = .ok answer → validateClearance clearance = .ok () ∧ validateStep step = .ok () := by
    intro answer h
    rw [nearestValid, hpreferred, bind_ok] at h
    obtain ⟨_, hc, h⟩ := bind_eq_ok.mp h
    obtain ⟨_, hs, -⟩ := bind_eq_ok.mp h
    exact ⟨hc, hs⟩
  constructor
  · rintro ⟨hsome, hnone⟩
    have hanswer : ∃ answer, (updates mutations).nearestValid itemId preferred clearance step
        maxRings = .ok answer := by
      obtain ⟨o, ho⟩ | hno := hfirst
      · exact ⟨_, hsome o ho⟩
      · exact ⟨_, hnone hno⟩
    obtain ⟨answer, hanswer⟩ := hanswer
    obtain ⟨hc, hs⟩ := haccepted hanswer
    refine ⟨(validateClearance_eq_ok hclearance).mp hc, (validateStep_eq_ok hstep).mp hs, ?_⟩
    rw [nearestValid_eq hpreferred hc hs] at hsome hnone
    obtain ⟨o, ho⟩ | hno := hfirst
    · -- the search stops at the offset that the answer is for, before all others
      have hfind := find?_of_firstValid hstep (hsome o ho)
      refine .inr ⟨o, ho, ?_⟩
      intro other hother hne
      have hring : offsetRing other ≤ maxRings := hother.elim (·.1) (·.1)
      exact offsetOrder_of_find? hfind hring ((stopsAt_iff hfiled hclearance hring).mpr hother) hne
    · -- an answer without a placement means that the search stops nowhere
      have hnowhere := hnone hno
      rw [firstValid_eq] at hnowhere
      cases hfind : (searchOffsets maxRings).find?
          (stopsAt ((updates mutations).isFree itemId clearance) preferred step) with
      | some o =>
        rw [hfind] at hnowhere
        obtain ⟨_, -, hsame⟩ := bind_eq_ok.mp hnowhere
        cases hsame
      | none =>
        rw [find?_eq_none] at hfind
        refine .inl fun o => ⟨hno o, fun hleaving => ?_⟩
        apply hfind o (mem_searchOffsets.mpr hleaving.1)
        exact (stopsAt_iff hfiled hclearance hleaving.1).mpr (.inr hleaving)
  · rintro ⟨hc, hs, hunhindered⟩
    rw [← validateClearance_eq_ok hclearance] at hc
    rw [← validateStep_eq_ok hstep] at hs
    rw [FindsNearest, nearestValid_eq hpreferred hc hs, firstValid_eq]
    obtain hnone | ⟨o, ho, hbefore⟩ := hunhindered
    · have hfind : (searchOffsets maxRings).find?
          (stopsAt ((updates mutations).isFree itemId clearance) preferred step) = none := by
        rw [find?_eq_none]
        intro o ho
        rw [stopsAt_iff hfiled hclearance (mem_searchOffsets.mp ho)]
        exact not_or.mpr (hnone o)
      rw [hfind]
      exact ⟨fun o ho => absurd ho.1 (hnone o).1, fun _ => rfl⟩
    · have hstops := (stopsAt_iff hfiled hclearance ho.1.1).mpr (.inl ho.1)
      obtain ⟨found, hfind⟩ : ∃ found, (searchOffsets maxRings).find?
          (stopsAt ((updates mutations).isFree itemId clearance) preferred step) = some found := by
        rw [← Option.isSome_iff_exists, find?_isSome]
        exact ⟨o, mem_searchOffsets.mpr ho.1.1, hstops⟩
      -- nothing else is tried before the translation that is looked for
      have hfound : found = o := by
        by_contra hne
        have hring := mem_searchOffsets.mp (mem_of_find?_eq_some hfind)
        have hlt := hbefore found ((stopsAt_iff hfiled hclearance hring).mp (find?_some hfind)) hne
        have hgt := offsetOrder_of_find? hfind ho.1.1 hstops (Ne.symm hne)
        rw [← Std.OrientedCmp.gt_iff_lt, hlt] at hgt
        cases hgt
      subst hfound
      rw [hfind]
      refine ⟨?_, fun hno => absurd ho.1 (hno found)⟩
      intro o' ho'
      obtain rfl := ho'.unique ho
      exact congrArg (· >>= fun _ => .ok (some (candidate preferred step found))) ho.1.2.1

end Nearest

/-! ## A search at the edge of the canvas -/

/-- A board that stands at the right edge of the canvas. -/
def edgeBoard : GeometryNode ℚ :=
  ⟨"board", { x := 16777213, y := -10, width := 3, height := 11 }⟩

/-- A place at the right edge of the canvas, on the board. -/
def edgePlace : Rect ℚ := { x := 16777215, y := 0, width := 1, height := 1 }

theorem validate_edgePlace : edgePlace.validate = .ok () := by
  rw [Rect.validate_eq_ok, edgePlace]
  constructor <;> norm_num [Rect.right, Rect.bottom]

/-- Only the board is stored. -/
theorem edgeBoard_rects {id : String} {rect : Rect ℚ} :
    (updates [.upsert edgeBoard]).rects[id]? = some rect ↔
      id = "board" ∧ rect = edgeBoard.bounds := by
  have hvalid : edgeBoard.bounds.validate = .ok () := by
    rw [Rect.validate_eq_ok, edgeBoard]
    constructor <;> norm_num [Rect.right, Rect.bottom]
  have hnode : edgeBoard.validate = .ok () := by
    rw [GeometryNode.validate, hvalid]
    rfl
  have hrects : (updates [.upsert edgeBoard]).rects =
      ((∅ : BTreeMap String (Rect ℚ)).erase "board").insert "board" edgeBoard.bounds := by
    simp only [updates, foldl_cons, foldl_nil, update, SpatialIndex.upsert, hnode, bind_ok]
    rfl
  rw [hrects, getElem?_insert_ite]
  by_cases hid : id = "board"
  · simp [hid, eq_comm]
  · simp [hid]

/-- The search at the edge stops at the translation to the right, which leaves the canvas,
although the translation below is free. -/
theorem not_findsNearest_edge :
    edgePlace.validate = .ok () ∧
      Keeping (updates [.upsert edgeBoard]) "switch" edgePlace 0 1 1 (0, 1) ∧
      ¬FindsNearest (updates [.upsert edgeBoard]) "switch" edgePlace 0 1 1 := by
  have hkeeping : ∀ o, Keeping (updates [.upsert edgeBoard]) "switch" edgePlace 0 1 1 o ↔
      offsetRing o ≤ 1 ∧ (candidate edgePlace 1 o).InBounds ∧
        edgeBoard.bounds.overlaps ((candidate edgePlace 1 o).inflate 0) = false := by
    intro o
    rw [Keeping, Rect.validate_eq_ok, KeepsClearance]
    refine and_congr_right fun _ => and_congr_right fun _ => ?_
    constructor
    · exact fun h => h "board" _ (edgeBoard_rects.mpr ⟨rfl, rfl⟩) (by decide)
    · rintro h id other hother -
      obtain ⟨-, rfl⟩ := edgeBoard_rects.mp hother
      exact h
  have hbelow : Keeping (updates [.upsert edgeBoard]) "switch" edgePlace 0 1 1 (0, 1) := by
    rw [hkeeping]
    refine ⟨by decide, ?_, by decide +kernel⟩
    constructor <;> norm_num [candidate, translated, edgePlace, Rect.right, Rect.bottom]
  refine ⟨validate_edgePlace, hbelow, ?_⟩
  rintro ⟨hsome, -⟩
  -- of the translations that keep the clearance, the one below is the first
  have hfirst : FirstBy (offsetOrder squaredDistance)
      (Keeping (updates [.upsert edgeBoard]) "switch" edgePlace 0 1 1) (0, 1) := by
    refine ⟨hbelow, ?_⟩
    rintro ⟨x, y⟩ ho hne
    obtain ⟨hring, hbounds, hoverlaps⟩ := (hkeeping _).mp ho
    have hx : x = -1 ∨ x = 0 ∨ x = 1 := by
      simp only [offsetRing] at hring
      omega
    have hy : y = -1 ∨ y = 0 ∨ y = 1 := by
      simp only [offsetRing] at hring
      omega
    rcases hx with rfl | rfl | rfl
    · rcases hy with rfl | rfl | rfl
      · exact absurd hoverlaps (by decide +kernel)
      · exact absurd hoverlaps (by decide +kernel)
      · decide +kernel
    · rcases hy with rfl | rfl | rfl
      · exact absurd hoverlaps (by decide +kernel)
      · exact absurd hoverlaps (by decide +kernel)
      · exact absurd rfl hne
    · -- to the right the canvas ends
      have := hbounds.right
      norm_num [candidate, translated, edgePlace, Rect.right] at this
  have hright : Leaving edgePlace 1 1 (1, 0) := by
    refine ⟨by decide, ?_⟩
    rw [ne_eq, Rect.validate_eq_ok]
    intro h
    have := h.right
    norm_num [candidate, translated, edgePlace, Rect.right] at this
  have hanswer := hsome _ hfirst
  have hclearance : validateClearance (0 : ℚ) = .ok () :=
    (validateClearance_eq_ok le_rfl).mpr (by norm_num)
  have hstep : validateStep (1 : ℚ) = .ok () := (validateStep_eq_ok one_pos).mpr (by norm_num)
  rw [nearestValid_eq validate_edgePlace hclearance hstep] at hanswer
  have hbefore := offsetOrder_of_find? (find?_of_firstValid one_pos hanswer) hright.1
    ((stopsAt_iff (wellFiled_updates _) le_rfl hright.1).mpr (.inr hright)) (by decide)
  exact absurd hbefore (by decide +kernel)

/-- The search at the edge finds the nearest placement exactly when nothing gets in its way. -/
theorem findsNearest_iff_edge :
    edgePlace.validate = .ok () ∧
      (FindsNearest (updates [.upsert edgeBoard]) "switch" edgePlace 0 1 1 ↔
        Unhindered (updates [.upsert edgeBoard]) "switch" edgePlace 0 1 1) :=
  ⟨validate_edgePlace,
    findsNearest_iff [.upsert edgeBoard] "switch" edgePlace 0 1 1 validate_edgePlace le_rfl one_pos⟩

end SpatialIndex

end HomelabInventory
