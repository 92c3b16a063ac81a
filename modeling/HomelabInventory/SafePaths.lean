import HomelabInventory.RouteAround

/-!
# Safe paths

What a safe route is, by the points of its stretches, and what the checks of the program on the
structure of a path and on the obstacles that it crosses say about it.
-/

namespace HomelabInventory

open List

/-! ## What a safe route is -/

/-- The point lies on the stretch. -/
def OnStretch (stretch : Point ℚ × Point ℚ) (point : Point ℚ) : Prop :=
  pointBetween stretch.1 point stretch.2 = true

/-- The path is made of distinct points with axis-aligned stretches that never turn back, and two
of them that are parallel and not neighbors share at most a point. -/
structure OrthogonalPath (points : List (Point ℚ)) : Prop where
  aligned : ∀ stretch ∈ stretches points,
    stretch.1 ≠ stretch.2 ∧ (stretch.1.x = stretch.2.x ∨ stretch.1.y = stretch.2.y)
  onward : ∀ first middle last, [first, middle, last] <:+: points →
    orientation first middle = orientation middle last → pointBetween first middle last = true
  apart : ∀ i j first second, i + 2 ≤ j → (stretches points)[i]? = some first →
    (stretches points)[j]? = some second →
    orientation first.1 first.2 = orientation second.1 second.2 →
    ∀ p q, OnStretch first p → OnStretch second p → OnStretch first q → OnStretch second q → p = q

/-- A point on the stretch of that number lies inside the obstacle with its clearance, although the
stretch is neither the one that leaves the source nor the one that arrives at the target there. -/
def CrossesEquipment (request : ObstacleRouteRequest ℚ) (points : List (Point ℚ)) (i : ℕ)
    (stretch : Point ℚ × Point ℚ) (obstacle : RouteObstacle ℚ) : Prop :=
  ¬(i = 0 ∧ obstacle.itemId = request.sourceItemId) ∧
    ¬(i + 2 = points.length ∧ obstacle.itemId = request.targetItemId) ∧
    ∃ p, OnStretch stretch p ∧
      pointInsideObstacle p (obstacle.bounds.inflate equipmentRouteClearance) = true

/-- The result runs between allowed candidates, leaves and reaches them on its sides, and crosses no
equipment. -/
structure SafeResult (request : ObstacleRouteRequest ℚ) (result : ObstacleRouteResult ℚ) :
    Prop where
  ends : ∃ source ∈ request.sources, ∃ target ∈ request.targets,
    result.route.points.head? = some source.point ∧
      result.route.points.getLast? = some target.point ∧
      source.side = result.sourceSide ∧ target.side = result.targetSide
  leaves : ∃ first, (stretches result.route.points).head? = some first ∧
    movesInSide first.1 first.2 result.sourceSide = true
  arrives : ∃ last, (stretches result.route.points).getLast? = some last ∧
    movesInSide last.2 last.1 result.targetSide = true
  path : OrthogonalPath result.route.points
  clear : ∀ i stretch, (stretches result.route.points)[i]? = some stretch →
    ∀ obstacle ∈ request.obstacles, ¬ CrossesEquipment request result.route.points i stretch obstacle

/-! ## Valid geometry -/

section

variable {points : List (Point ℚ)}

variable {first p second : Point ℚ}

theorem pointsEqual_iff : pointsEqual first second = true ↔
    first = second := by
  rw [pointsEqual, Bool.and_eq_true, beq_iff_eq, beq_iff_eq]
  exact ⟨fun h => by cases first; cases second; simp_all, fun h => by simp [h]⟩

variable {direction : Orientation}

/-- A stretch with a direction is axis-aligned and joins distinct points. -/
theorem orientation_eq_some :
    orientation first second = some direction ↔
      match direction with
      | .horizontal => first.y = second.y ∧ first.x ≠ second.x
      | .vertical => first.x = second.x ∧ first.y ≠ second.y := by
  unfold orientation
  cases direction <;> split <;> simp_all

/-- A stretch of a valid path has a direction. -/
theorem exists_orientation {l : List (Point ℚ × Point ℚ)} (h : stretchesApart l = true) :
    ∀ stretch ∈ l, ∃ direction, orientation stretch.1 stretch.2 = some direction := by
  induction l with
  | nil => simp
  | cons first rest ih =>
    rw [stretchesApart, Bool.and_eq_true] at h
    obtain ⟨hfirst, hrest⟩ := h
    intro stretch hstretch
    rcases List.mem_cons.mp hstretch with rfl | hstretch
    · cases horientation : orientation stretch.1 stretch.2 with
      | none => simp [horientation] at hfirst
      | some direction => exact ⟨direction, rfl⟩
    · exact ih hrest stretch hstretch

/-- Two stretches of a valid path that are not neighbors do not overlap. -/
theorem not_overlap_of_apart {l : List (Point ℚ × Point ℚ)} (h : stretchesApart l = true) {i j : ℕ}
    (hij : i + 2 ≤ j) {first second : Point ℚ × Point ℚ} (hfirst : l[i]? = some first)
    (hsecond : l[j]? = some second) (hdirection : orientation first.1 first.2 = some direction) :
    stretchesOverlap direction first second = false := by
  induction l generalizing i j with
  | nil => simp at hfirst
  | cons head rest ih =>
    rw [stretchesApart, Bool.and_eq_true] at h
    obtain ⟨hhead, hrest⟩ := h
    cases i with
    | zero =>
      rw [getElem?_cons_zero, Option.some.injEq] at hfirst
      subst hfirst
      rw [hdirection] at hhead
      obtain ⟨k, rfl⟩ := Nat.exists_eq_add_of_le hij
      have hmem : second ∈ rest.drop 1 := by
        refine mem_iff_getElem?.mpr ⟨k, ?_⟩
        rw [getElem?_drop, ← hsecond, show 0 + 2 + k = (1 + k) + 1 by omega,
          getElem?_cons_succ]
      simpa using all_eq_true.mp hhead second hmem
    | succ i =>
      obtain ⟨j, rfl⟩ : ∃ k, j = k + 1 := ⟨j - 1, by omega⟩
      rw [getElem?_cons_succ] at hfirst hsecond
      exact ih hrest (by omega) hfirst hsecond

/-- The value lies in the range between two others. -/
def InRange (first second value : ℚ) : Prop := min first second ≤ value ∧ value ≤ max first second

/-- Ranges that do not overlap share at most a value. -/
theorem eq_of_not_rangesOverlap {firstStart firstEnd secondStart secondEnd x y : ℚ}
    (h : rangesOverlapBeyondPoint firstStart firstEnd secondStart secondEnd = false)
    (hx : InRange firstStart firstEnd x) (hx' : InRange secondStart secondEnd x)
    (hy : InRange firstStart firstEnd y) (hy' : InRange secondStart secondEnd y) : x = y := by
  have hapart : min (max firstStart firstEnd) (max secondStart secondEnd) ≤
      max (min firstStart firstEnd) (min secondStart secondEnd) :=
    not_lt.mp (of_decide_eq_false h)
  refine le_antisymm ?_ ?_
  · calc x ≤ min (max firstStart firstEnd) (max secondStart secondEnd) := le_min hx.2 hx'.2
      _ ≤ max (min firstStart firstEnd) (min secondStart secondEnd) := hapart
      _ ≤ y := max_le hy.1 hy'.1
  · calc y ≤ min (max firstStart firstEnd) (max secondStart secondEnd) := le_min hy.2 hy'.2
      _ ≤ max (min firstStart firstEnd) (min secondStart secondEnd) := hapart
      _ ≤ x := max_le hx.1 hx'.1

/-- A point of a stretch lies in the range of the stretch along both axes. -/
theorem onStretch_iff {stretch : Point ℚ × Point ℚ} : OnStretch stretch p ↔
    InRange stretch.1.x stretch.2.x p.x ∧ InRange stretch.1.y stretch.2.y p.y := by
  simp only [OnStretch, InRange, pointBetween, Bool.and_eq_true, decide_eq_true_eq, and_assoc]

theorem InRange.eq {first value : ℚ} (h : InRange first first value) : value = first := by
  rw [InRange, min_self, max_self] at h
  exact le_antisymm h.2 h.1

/-- Parallel stretches that do not overlap share at most a point. -/
theorem eq_of_not_overlap {first second : Point ℚ × Point ℚ}
    (hfirst : orientation first.1 first.2 = some direction)
    (hsecond : orientation second.1 second.2 = some direction)
    (h : stretchesOverlap direction first second = false) {p q : Point ℚ} (hp : OnStretch first p)
    (hp' : OnStretch second p) (hq : OnStretch first q) (hq' : OnStretch second q) : p = q := by
  obtain ⟨hpx, hpy⟩ := onStretch_iff.mp hp
  obtain ⟨hpx', hpy'⟩ := onStretch_iff.mp hp'
  obtain ⟨hqx, hqy⟩ := onStretch_iff.mp hq
  obtain ⟨hqx', hqy'⟩ := onStretch_iff.mp hq'
  unfold stretchesOverlap at h
  rw [hsecond, beq_self_eq_true, Bool.true_and] at h
  have hdirection := orientation_eq_some.mp hfirst
  have hdirection' := orientation_eq_some.mp hsecond
  cases direction with
  | horizontal =>
    -- the points have the coordinate across the stretches in common
    rw [← hdirection.1] at hpy hqy
    rw [← hdirection'.1] at hpy'
    have hline : first.1.y = second.1.y := hpy.eq.symm.trans hpy'.eq
    simp only [hline, beq_self_eq_true, Bool.true_and] at h
    have hx : p.x = q.x := eq_of_not_rangesOverlap h hpx hpx' hqx hqx'
    have hy : p.y = q.y := hpy.eq.trans hqy.eq.symm
    cases p
    cases q
    exact congrArg₂ Point.mk hx hy
  | vertical =>
    rw [← hdirection.1] at hpx hqx
    rw [← hdirection'.1] at hpx'
    have hline : first.1.x = second.1.x := hpx.eq.symm.trans hpx'.eq
    simp only [hline, beq_self_eq_true, Bool.true_and] at h
    have hx : p.x = q.x := hpx.eq.trans hqx.eq.symm
    have hy : p.y = q.y := eq_of_not_rangesOverlap h hpy hpy' hqy hqy'
    cases p
    cases q
    exact congrArg₂ Point.mk hx hy

/-- A path that does not turn back goes on at every point. -/
theorem onward_of_not_turnsBack (h : turnsBack points = false) {first middle last : Point ℚ}
    (hpart : [first, middle, last] <:+: points)
    (hsame : orientation first middle = orientation middle last) :
    pointBetween first middle last = true := by
  induction points using turnsBack.induct with
  | case1 a b c rest ih =>
    rw [turnsBack, Bool.or_eq_false_iff] at h
    rcases infix_cons_iff.mp hpart with hprefix | hpart
    · obtain ⟨hfirst, hprefix⟩ := cons_prefix_cons.mp hprefix
      obtain ⟨hmiddle, hprefix⟩ := cons_prefix_cons.mp hprefix
      obtain ⟨hlast, -⟩ := cons_prefix_cons.mp hprefix
      have hhere := h.1
      rw [← hfirst, ← hmiddle, ← hlast, hsame, beq_self_eq_true, Bool.true_and,
        Bool.not_eq_false'] at hhere
      exact hhere
    · exact ih h.2 hpart
  | case2 l hshort =>
    obtain ⟨before, after, rfl⟩ := hpart
    match before, hshort with
    | [], hshort => exact absurd rfl (hshort first middle last after)
    | [x], hshort => exact absurd rfl (hshort x first middle (last :: after))
    | [x, y], hshort => exact absurd rfl (hshort x y first (middle :: last :: after))
    | x :: y :: z :: rest, hshort => exact absurd rfl (hshort x y z _)

/-- **Valid geometry.** -/
theorem OrthogonalPath.of_valid (h : routeGeometryValid points = true) : OrthogonalPath points := by
  rw [routeGeometryValid, Bool.and_eq_true, Bool.not_eq_true'] at h
  obtain ⟨hback, hapart⟩ := h
  refine ⟨fun stretch hstretch => ?_, fun _ _ _ => onward_of_not_turnsBack hback, ?_⟩
  · obtain ⟨direction, hdirection⟩ := exists_orientation hapart stretch hstretch
    have hends := orientation_eq_some.mp hdirection
    cases direction with
    | horizontal => exact ⟨fun h => hends.2 (congrArg Point.x h), Or.inr hends.1⟩
    | vertical => exact ⟨fun h => hends.2 (congrArg Point.y h), Or.inl hends.1⟩
  · intro i j first second hij hfirst hsecond hsame p q hp hp' hq hq'
    obtain ⟨direction, hdirection⟩ := exists_orientation hapart first (mem_of_getElem? hfirst)
    exact eq_of_not_overlap hdirection (hsame ▸ hdirection)
      (not_overlap_of_apart hapart hij hfirst hsecond hdirection) hp hp' hq hq'

theorem stretches_append (l : List (Point ℚ)) (a b : Point ℚ) :
    stretches (l ++ [a, b]) = stretches (l ++ [a]) ++ [(a, b)] := by
  induction l with
  | nil => rfl
  | cons first rest ih =>
    cases rest with
    | nil => rfl
    | cons second rest =>
      rw [cons_append, cons_append] at ih ⊢
      rw [stretches, tail_cons, cons_append, zip_cons_cons]
      exact congrArg ((first, second) :: ·) ih

/-- What the check of the structure of a path says. -/
theorem of_routeStructureValid {definition : RouteDefinition ℚ}
    (h : routeStructureValid points definition = true) :
    points.head? = some definition.source ∧ points.getLast? = some definition.target ∧
      (∃ first, (stretches points).head? = some first ∧
        movesInSide first.1 first.2 definition.sourceSide = true) ∧
      (∃ last, (stretches points).getLast? = some last ∧
        movesInSide last.2 last.1 definition.targetSide = true) ∧
      routeGeometryValid points = true := by
  unfold routeStructureValid at h
  split at h
  · rename_i first second rest last beforeLast initial hreverse
    simp only [Bool.and_eq_true, pointsEqual_iff] at h
    obtain ⟨⟨⟨⟨hsource, htarget⟩, hleaves⟩, harrives⟩, hvalid⟩ := h
    have hpoints : first :: second :: rest = initial.reverse ++ [beforeLast, last] := by
      have hreversed := congrArg List.reverse hreverse
      rw [reverse_reverse] at hreversed
      simpa using hreversed
    refine ⟨congrArg some hsource, ?_, ⟨(first, second), rfl, hleaves⟩,
      ⟨(beforeLast, last), ?_, harrives⟩, hvalid⟩
    · rw [hpoints, getLast?_append, ← htarget]
      rfl
    · rw [hpoints, stretches_append, getLast?_append]
      rfl
  · cases h

/-! ## Crossings -/

/-- An axis-aligned stretch with a point inside a rectangle crosses it. -/
theorem crosses_of_inside {stretch : Point ℚ × Point ℚ} {rect : Rect ℚ} (hp : OnStretch stretch p)
    (hinside : pointInsideObstacle p rect = true) :
    segmentCrossesObstacleInterior stretch.1 stretch.2 rect = true := by
  obtain ⟨hx, hy⟩ := onStretch_iff.mp hp
  simp only [pointInsideObstacle, Bool.and_eq_true, decide_eq_true_eq] at hinside
  obtain ⟨⟨⟨hleft, hright⟩, htop⟩, hbottom⟩ := hinside
  unfold segmentCrossesObstacleInterior
  split
  · rename_i hrow
    rw [← beq_iff_eq.mp hrow] at hy
    rw [hy.eq] at htop hbottom
    simp only [Bool.and_eq_true, decide_eq_true_eq]
    exact ⟨⟨⟨htop, hbottom⟩, hleft.trans_le hx.2⟩, hx.1.trans_lt hright⟩
  · split
    · rename_i hcolumn
      rw [← beq_iff_eq.mp hcolumn] at hx
      rw [hx.eq] at hleft hright
      simp only [Bool.and_eq_true, decide_eq_true_eq]
      exact ⟨⟨⟨hleft, hright⟩, htop.trans_le hy.2⟩, hy.1.trans_lt hbottom⟩
    · rfl

/-- Which stretches of a path may not cross which obstacles. -/
theorem routeIntersectsObstacles_eq_false {obstacles : List (RouteObstacle ℚ)}
    {sourceItemId targetItemId : String} :
    routeIntersectsObstacles points obstacles sourceItemId targetItemId = false ↔
      ∀ i stretch, (stretches points)[i]? = some stretch → ∀ obstacle ∈ obstacles,
        ¬(i = 0 ∧ obstacle.itemId = sourceItemId) →
        ¬(i + 2 = points.length ∧ obstacle.itemId = targetItemId) →
        segmentCrossesObstacleInterior stretch.1 stretch.2 obstacle.bounds = false := by
  have hlast : ∀ i stretch, (stretches points)[i]? = some stretch →
      (i = points.length - 2 ↔ i + 2 = points.length) := by
    intro i stretch hstretch
    obtain ⟨hlength, -⟩ := List.getElem?_eq_some_iff.mp hstretch
    rw [stretches, length_zip, length_tail] at hlength
    omega
  unfold routeIntersectsObstacles
  rw [any_eq_false]
  constructor
  · intro h i stretch hstretch obstacle hobstacle hsource htarget
    have hentry := h (stretch, i) (mk_mem_zipIdx_iff_getElem?.mpr hstretch)
    rw [Bool.not_eq_true, any_eq_false] at hentry
    have hcrosses := hentry obstacle hobstacle
    rw [if_neg hsource, if_neg fun h => htarget ⟨(hlast i stretch hstretch).mp h.1, h.2⟩] at hcrosses
    exact Bool.not_eq_true _ ▸ hcrosses
  · rintro h ⟨stretch, i⟩ hentry
    have hstretch := mk_mem_zipIdx_iff_getElem?.mp hentry
    rw [Bool.not_eq_true, any_eq_false]
    intro obstacle hobstacle
    rw [Bool.not_eq_true]
    split
    · rfl
    · rename_i hsource
      split
      · rfl
      · rename_i htarget
        exact h i stretch hstretch obstacle hobstacle hsource fun h =>
          htarget ⟨(hlast i stretch hstretch).mpr h.1, h.2⟩

/-- **What is safe for a pair of candidates is safe.** -/
theorem SafeResult.of_safe {request : ObstacleRouteRequest ℚ} {result : ObstacleRouteResult ℚ}
    {source target : RouteEndpointCandidate ℚ} (hsource : source ∈ request.sources)
    (htarget : target ∈ request.targets) (hsourceSide : source.side = result.sourceSide)
    (htargetSide : target.side = result.targetSide)
    (h : routeSafeForRequest result.route (pairRequest request source target) = true) :
    SafeResult request result := by
  rw [routeSafeForRequest, Bool.and_eq_true, Bool.not_eq_true'] at h
  obtain ⟨hstructure, hclear⟩ := h
  obtain ⟨hhead, hlast, hleaves, harrives, hvalid⟩ := of_routeStructureValid hstructure
  refine ⟨⟨source, hsource, target, htarget, hhead, hlast, hsourceSide, htargetSide⟩,
    hsourceSide ▸ hleaves, htargetSide ▸ harrives, OrthogonalPath.of_valid hvalid, ?_⟩
  rintro i stretch hstretch obstacle hobstacle ⟨hnotSource, hnotTarget, p, hp, hinside⟩
  have hcrosses := routeIntersectsObstacles_eq_false.mp hclear i stretch hstretch
    { obstacle with bounds := obstacle.bounds.inflate equipmentRouteClearance }
    (mem_map_of_mem hobstacle) hnotSource hnotTarget
  rw [crosses_of_inside hp hinside] at hcrosses
  cases hcrosses

end

end HomelabInventory
