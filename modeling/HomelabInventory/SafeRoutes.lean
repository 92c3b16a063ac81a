import HomelabInventory.SafePaths

/-!
# Every route around obstacles is safe

Whatever found it, a route runs between two candidate ends, leaves them on their sides, and crosses
no equipment with its clearance. The search only looks at the obstacles that touch its window; that
is enough, since it never leaves the window.
-/

namespace HomelabInventory

open List Option

section

variable {points : List (Point ℚ)}

/-! ## The window of the search -/

variable {bounds : SearchBounds ℚ}

/-- A stretch of the window only crosses obstacles that touch the window. -/
theorem intersects_of_crosses {first second : Point ℚ} {rect : Rect ℚ}
    (haligned : first.x = second.x ∨ first.y = second.y) (hfirst : bounds.contains first = true)
    (hsecond : bounds.contains second = true)
    (h : segmentCrossesObstacleInterior first second rect = true) :
    bounds.intersects rect = true := by
  simp only [SearchBounds.contains, Bool.and_eq_true, decide_eq_true_eq] at hfirst hsecond
  obtain ⟨⟨⟨hleft, hright⟩, htop⟩, hbottom⟩ := hfirst
  obtain ⟨⟨⟨hleft', hright'⟩, htop'⟩, hbottom'⟩ := hsecond
  simp only [SearchBounds.intersects, Bool.and_eq_true, decide_eq_true_eq]
  unfold segmentCrossesObstacleInterior at h
  split at h
  · simp only [Bool.and_eq_true, decide_eq_true_eq] at h
    obtain ⟨⟨⟨habove, hbelow⟩, hstart⟩, hend⟩ := h
    exact ⟨⟨⟨(le_min hleft hleft').trans hend.le, hstart.le.trans (max_le hright hright')⟩,
      htop.trans hbelow.le⟩, habove.le.trans hbottom⟩
  · rename_i hrow
    split at h
    · simp only [Bool.and_eq_true, decide_eq_true_eq] at h
      obtain ⟨⟨⟨hbefore, hbehind⟩, hstart⟩, hend⟩ := h
      exact ⟨⟨⟨hleft.trans hbehind.le, hbefore.le.trans hright⟩,
        (le_min htop htop').trans hend.le⟩, hstart.le.trans (max_le hbottom hbottom')⟩
    · rename_i hcolumn
      rcases haligned with hx | hy
      · exact absurd (beq_iff_eq.mpr hx) hcolumn
      · exact absurd (beq_iff_eq.mpr hy) hrow

variable {point : Point ℚ}
variable {anchors coordinates path : List (Point ℚ)}

/-- The points that a window is made of lie in it. -/
theorem contains_withMargin {margin : ℚ} (hmargin : 0 ≤ margin) (h : point ∈ coordinates) :
    (SearchBounds.withMargin coordinates margin).contains point = true := by
  have hmin : ∀ axis : Point ℚ → ℚ, (coordinates.map axis).min?.getD 0 - margin ≤ axis point := by
    intro axis
    have hmem := mem_map_of_mem (f := axis) h
    cases hmin : (coordinates.map axis).min? with
    | none =>
      rw [min?_eq_none_iff.mp hmin] at hmem
      cases hmem
    | some low =>
      have hle := (min?_eq_some_iff.mp hmin).2 _ hmem
      rw [getD_some]
      linarith
  have hmax : ∀ axis : Point ℚ → ℚ, axis point ≤ (coordinates.map axis).max?.getD 0 + margin := by
    intro axis
    have hmem := mem_map_of_mem (f := axis) h
    cases hmax : (coordinates.map axis).max? with
    | none =>
      rw [max?_eq_none_iff.mp hmax] at hmem
      cases hmem
    | some high =>
      have hle := (max?_eq_some_iff.mp hmax).2 _ hmem
      rw [getD_some]
      linarith
  simp only [SearchBounds.contains, Bool.and_eq_true, decide_eq_true_eq]
  exact ⟨⟨⟨hmin (·.x), hmax (·.x)⟩, hmin (·.y)⟩, hmax (·.y)⟩

/-- Every window of the search holds the points that it is made for. -/
theorem contains_adaptiveSearchBounds {laneOffset : ℚ} {obstacles : List (RouteObstacle ℚ)}
    (h : bounds ∈ adaptiveSearchBounds coordinates laneOffset obstacles)
    (hpoint : point ∈ coordinates) : bounds.contains point = true := by
  have hbase : (0 : ℚ) ≤ max minRoutingMargin (laneOffset * Scalar.lit 3) := by
    refine le_trans ?_ (le_max_left _ _)
    show (0 : ℚ) ≤ 96
    norm_num
  have htwice : (0 : ℚ) ≤ max minRoutingMargin (laneOffset * Scalar.lit 3) * Scalar.lit 2 :=
    mul_nonneg hbase (show (0 : ℚ) ≤ 2 by norm_num)
  have hfourfold : (0 : ℚ) ≤ max minRoutingMargin (laneOffset * Scalar.lit 3) * Scalar.lit 4 :=
    mul_nonneg hbase (show (0 : ℚ) ≤ 4 by norm_num)
  have hattempts : ∀ window ∈ [SearchBounds.withMargin coordinates
        (max minRoutingMargin (laneOffset * Scalar.lit 3)),
      SearchBounds.withMargin coordinates
        (max minRoutingMargin (laneOffset * Scalar.lit 3) * Scalar.lit 2),
      SearchBounds.withMargin coordinates
        (max minRoutingMargin (laneOffset * Scalar.lit 3) * Scalar.lit 4)],
      window.contains point = true := by
    simp only [mem_cons, not_mem_nil, or_false]
    rintro window (rfl | rfl | rfl)
    · exact contains_withMargin hbase hpoint
    · exact contains_withMargin htwice hpoint
    · exact contains_withMargin hfourfold hpoint
  unfold adaptiveSearchBounds at h
  dsimp only at h
  split at h
  · exact hattempts bounds h
  · rcases mem_append.mp h with h | h
    · exact hattempts bounds h
    · rw [mem_singleton.mp h]
      exact contains_withMargin hbase (mem_append_left _ hpoint)

/-- A path that is traced back goes through nodes of the graph. -/
theorem mem_tracePath {graph : VisibilityGraph ℚ} {previous : BTreeMap SearchKey SearchKey}
    {fuel : ℕ} {key : SearchKey} (h : point ∈ tracePath graph previous fuel key) :
    point ∈ graph.nodes := by
  have hnode : ∀ key : SearchKey, point ∈ graph.nodes[key.nodeId]?.toList → point ∈ graph.nodes :=
    fun key h => mem_of_getElem? (mem_toList.mp h)
  induction fuel generalizing key with
  | zero => exact hnode key h
  | succ fuel ih =>
    rw [tracePath] at h
    rcases mem_append.mp h with h | h
    · exact hnode key h
    · split at h
      · cases h
      · exact ih h

/-- The search stays in its window. -/
theorem contains_findVisibilityPath {start stop : Point ℚ}
    {obstacles : List (RouteObstacle ℚ)} {reservedSegments : List (ReservedSegment ℚ)}
    {request : ObstacleRouteRequest ℚ}
    (h : findVisibilityPath start stop anchors obstacles reservedSegments request bounds =
      some path) : ∀ point ∈ path, bounds.contains point = true := by
  unfold findVisibilityPath at h
  obtain ⟨startId, -, h⟩ := bind_eq_some_iff.mp h
  obtain ⟨stopId, -, h⟩ := bind_eq_some_iff.mp h
  obtain ⟨state, -, h⟩ := bind_eq_some_iff.mp h
  obtain ⟨⟨key, best⟩, -, h⟩ := bind_eq_some_iff.mp h
  obtain rfl := Option.some.inj h
  intro point hpoint
  have hnode := mem_tracePath (mem_reverse.mp hpoint)
  have hvisible := (mem_filter.mp hnode).2
  rw [Bool.and_eq_true] at hvisible
  exact hvisible.1

theorem chooseBoundedOverlapRoute_cases {shortestPath overlapAwarePath : Option (List (Point ℚ))}
    {gridSize : ℚ}
    (h : chooseBoundedOverlapRoute shortestPath overlapAwarePath gridSize = some path) :
    shortestPath = some path ∨ overlapAwarePath = some path := by
  unfold chooseBoundedOverlapRoute at h
  split at h
  · cases h
  · rename_i shortest hshortest
    rw [or_none] at hshortest
    exact Or.inl (hshortest.trans h)
  · rename_i shortest overlapAware hshortest
    dsimp only at h
    split at h
    · exact Or.inr h
    · rw [← h, ← hshortest]
      cases shortestPath with
      | none => exact Or.inr rfl
      | some path => exact Or.inl rfl

/-- Simplifying a path adds no point. -/
theorem mem_simplifyProtected (h : point ∈ simplifyProtected points anchors) : point ∈ points := by
  have hpush : ∀ isProtected : Point ℚ → Bool, ∀ rest result : List (Point ℚ),
      point ∈ rest.foldl (simplifyProtectedPush isProtected) result →
      point ∈ result ∨ point ∈ rest := by
    intro isProtected rest
    induction rest with
    | nil => exact fun result h => Or.inl h
    | cons next rest ih =>
      intro result h
      rcases ih _ h with h | h
      · have hstep : point = next ∨ point ∈ result := by
          unfold simplifyProtectedPush at h
          split at h
          · exact Or.inl (mem_singleton.mp h)
          · split at h
            · exact Or.inr h
            · split at h
              · exact mem_cons.mp h
              · split at h
                · rcases mem_cons.mp h with h | h
                  · exact Or.inl h
                  · exact Or.inr (mem_cons_of_mem _ h)
                · exact mem_cons.mp h
        rcases hstep with rfl | hstep
        · exact Or.inr mem_cons_self
        · exact Or.inl hstep
      · exact Or.inr (mem_cons_of_mem _ h)
  rcases hpush _ _ _ (mem_reverse.mp h) with h | h
  · cases h
  · exact h

/-- A path in the window that is clear of the obstacles that touch the window is clear of all. -/
theorem routeClear_of_window {request : ObstacleRouteRequest ℚ}
    {routingObstacles : List (RouteObstacle ℚ)}
    (hwindow : ∀ point ∈ points, bounds.contains point = true)
    (h : routeClear points request
      (routingObstacles.filter fun obstacle => bounds.intersects obstacle.bounds) = true) :
    routeClear points request routingObstacles = true := by
  rw [routeClear, Bool.and_eq_true, Bool.not_eq_true'] at h ⊢
  obtain ⟨hstructure, hclear⟩ := h
  refine ⟨hstructure, routeIntersectsObstacles_eq_false.mpr ?_⟩
  intro i stretch hstretch obstacle hobstacle hsource htarget
  have haligned := (OrthogonalPath.of_valid (of_routeStructureValid hstructure).2.2.2.2).aligned
    stretch (mem_of_getElem? hstretch)
  have hends := of_mem_zip (mem_of_getElem? hstretch)
  cases hcrosses : segmentCrossesObstacleInterior stretch.1 stretch.2 obstacle.bounds with
  | false => rfl
  | true =>
    -- the obstacle touches the window, so the path has been compared with it
    have htouches := intersects_of_crosses haligned.2 (hwindow _ hends.1)
      (hwindow _ (mem_of_mem_tail hends.2)) hcrosses
    rw [← hcrosses]
    exact routeIntersectsObstacles_eq_false.mp hclear i stretch hstretch obstacle
      (mem_filter.mpr ⟨hobstacle, htouches⟩) hsource htarget

end

/-! ## The routes between two ends -/

section

variable {request : ObstacleRouteRequest ℚ} {result : ObstacleRouteResult ℚ}

/-- The result is safe between the ends of the definition of its request. -/
structure SafePair (request : ObstacleRouteRequest ℚ) (result : ObstacleRouteResult ℚ) : Prop where
  safe : routeSafeForRequest result.route request = true
  sourceSide : result.sourceSide = request.definition.sourceSide
  targetSide : result.targetSide = request.definition.targetSide

theorem SafePair.plain {points : List (Point ℚ)} {indexes : List ℕ}
    (h : routeClear points request (expandedRoutingObstacles request.obstacles) = true) :
    SafePair request (plainResult request.definition points indexes) :=
  ⟨h, rfl, rfl⟩

/-- What the search in one window finds is safe. -/
theorem searchWithin_safe {sourceExit targetEntry : Point ℚ} {bounds : SearchBounds ℚ}
    (hsource : bounds.contains request.definition.source = true)
    (htarget : bounds.contains request.definition.target = true)
    (h : searchWithin request sourceExit targetEntry (expandedRoutingObstacles request.obstacles)
      bounds = .ok (some result)) : SafePair request result := by
  unfold searchWithin at h
  dsimp only at h
  split at h
  · cases h
  · rename_i graphPath hpath
    have hgraph : ∀ point ∈ graphPath, bounds.contains point = true := by
      rcases chooseBoundedOverlapRoute_cases hpath with hpath | hpath
      · exact contains_findVisibilityPath hpath
      · exact contains_findVisibilityPath hpath
    split at h
    · cases h
    · rename_i hclear
      rw [Bool.not_eq_true', Bool.not_eq_false] at hclear
      obtain ⟨indexes, -, h⟩ := bind_eq_ok.mp h
      cases indexes with
      | none => cases h
      | some indexes =>
        obtain rfl := Option.some.inj (pure_eq_ok.mp h).symm
        refine SafePair.plain (routeClear_of_window ?_ hclear)
        intro point hpoint
        rcases mem_append.mp (mem_simplifyProtected hpoint) with hpoint | hpoint
        · rcases mem_append.mp hpoint with hpoint | hpoint
          · rw [mem_singleton.mp hpoint]
            exact hsource
          · exact hgraph point hpoint
        · rw [mem_singleton.mp hpoint]
          exact htarget

/-- What the search in growing windows finds is safe. -/
theorem searchBounds_safe {sourceExit targetEntry : Point ℚ} {attempts : List (SearchBounds ℚ)}
    (hends : ∀ bounds ∈ attempts, bounds.contains request.definition.source = true ∧
      bounds.contains request.definition.target = true)
    (h : searchBounds request sourceExit targetEntry (expandedRoutingObstacles request.obstacles)
      attempts = .ok (some result)) : SafePair request result := by
  induction attempts with
  | nil => cases h
  | cons bounds attempts ih =>
    rw [searchBounds] at h
    obtain ⟨found, hfound, h⟩ := bind_eq_ok.mp h
    cases found with
    | none => exact ih (fun bounds hbounds => hends bounds (mem_cons_of_mem _ hbounds)) h
    | some found =>
      obtain rfl := Option.some.inj (pure_eq_ok.mp h).symm
      obtain ⟨hsource, htarget⟩ := hends bounds mem_cons_self
      exact searchWithin_safe hsource htarget hfound

/-- **Every route between two ends is safe.** -/
theorem routeSinglePair_safe (h : routeSinglePair request = .ok result) :
    SafePair request result := by
  unfold routeSinglePair at h
  dsimp only at h
  split at h
  · -- a corridor between facing items
    rename_i points hcorridor
    cases h
    unfold facingEndpointCorridorRoute at hcorridor
    obtain ⟨-, -, hcorridor⟩ := bind_eq_some_iff.mp hcorridor
    obtain ⟨sourceBounds, -, hcorridor⟩ := bind_eq_some_iff.mp hcorridor
    obtain ⟨targetBounds, -, hcorridor⟩ := bind_eq_some_iff.mp hcorridor
    obtain ⟨⟨gapStart, gapEnd, vertical⟩, -, hcorridor⟩ := bind_eq_some_iff.mp hcorridor
    have haccepted := find?_some hcorridor
    rw [Bool.and_eq_true] at haccepted
    exact SafePair.plain haccepted.1
  · split at h
    · -- one corner at most
      rename_i points hfast
      cases h
      split at hfast
      · have haccepted := (mem_filter.mp (mem_of_minBy? hfast)).2
        rw [Bool.and_eq_true] at haccepted
        exact SafePair.plain haccepted.1
      · cases hfast
    · obtain ⟨found, hfound, h⟩ := bind_eq_ok.mp h
      cases found with
      | some found =>
        obtain rfl := pure_eq_ok.mp h
        refine searchBounds_safe (fun bounds hbounds => ⟨?_, ?_⟩) hfound
        · exact contains_adaptiveSearchBounds hbounds (by simp)
        · exact contains_adaptiveSearchBounds hbounds (by simp)
      | none =>
        -- the route before this one, or the plain route
        change fallbackRoute request = .ok result at h
        unfold fallbackRoute at h
        dsimp only at h
        split at h
        · cases h
        · rename_i route hroute
          cases h
          refine ⟨?_, rfl, rfl⟩
          rcases or_eq_some_iff.mp hroute with hroute | ⟨-, hroute⟩
          · exact (filter_eq_some_iff.mp hroute).2
          · exact (filter_eq_some_iff.mp hroute).2

/-! ## The routes of pairs of candidates -/

/-- The result is a safe route for one of some pairs of candidates. -/
def SafeFor (request : ObstacleRouteRequest ℚ) (pairs : List (CandidatePair ℚ))
    (result : ObstacleRouteResult ℚ) : Prop :=
  ∃ pair ∈ pairs, pair.1.side = result.sourceSide ∧ pair.2.side = result.targetSide ∧
    routeSafeForRequest result.route (pairRequest request pair.1 pair.2) = true

theorem SafeFor.mono {pairs more : List (CandidatePair ℚ)} (h : SafeFor request pairs result)
    (hsub : pairs ⊆ more) : SafeFor request more result := by
  obtain ⟨pair, hpair, hsafe⟩ := h
  exact ⟨pair, hsub hpair, hsafe⟩

variable {pair : CandidatePair ℚ}

/-- The route of a pair of candidates is safe for it, also with repaired bends. -/
theorem routeCandidatePair_safe (h : routeCandidatePair request pair = .ok result) :
    SafeFor request [pair] result := by
  refine ⟨pair, mem_singleton_self _, ?_⟩
  unfold routeCandidatePair at h
  dsimp only at h
  split at h
  · have hsafe := routeSinglePair_safe h
    exact ⟨hsafe.sourceSide.symm, hsafe.targetSide.symm, hsafe.safe⟩
  · obtain ⟨found, hfound, h⟩ := bind_eq_ok.mp h
    obtain rfl := pure_eq_ok.mp h
    have hsafe := routeSinglePair_safe hfound
    exact ⟨hsafe.sourceSide.symm, hsafe.targetSide.symm, hsafe.safe⟩

variable {pairs : List (CandidatePair ℚ)}

/-- The routes found for some pairs are safe for them. -/
theorem routedPairs_safe (h : result ∈ routedPairs request pairs) :
    SafeFor request pairs result := by
  obtain ⟨pair, hpair, hresult⟩ := mem_filterMap.mp h
  exact (routeCandidatePair_safe (eq_ok_of_toOption hresult)).mono
    (cons_subset.mpr ⟨hpair, nil_subset _⟩)

/-- The routes around the perimeter are safe. -/
theorem perimeterFallbackRoute_safe (h : perimeterFallbackRoute request pairs = some result) :
    SafeFor request pairs result := by
  unfold perimeterFallbackRoute at h
  split at h
  · cases h
  · obtain ⟨⟨source, target⟩, hpair, hresult⟩ := mem_flatMap.mp (mem_of_minBy? h)
    refine ⟨(source, target), hpair, ?_⟩
    unfold perimeterResults at hresult
    dsimp only at hresult
    split at hresult
    · cases hresult
    · obtain ⟨points, hpoints, rfl⟩ := mem_map.mp hresult
      exact ⟨rfl, rfl, (mem_filter.mp hpoints).2⟩

/-- With both sides fixed the route is safe for one of the pairs. -/
theorem routeConstrained_safe (h : routeConstrained request pairs = .ok result) :
    SafeFor request pairs result := by
  have hdrop : pairs.drop 1 ⊆ pairs := drop_subset 1 pairs
  unfold routeConstrained at h
  split at h
  · rename_i center hcenter
    obtain ⟨pair, hhead, hpair⟩ := bind_eq_some_iff.mp hcenter
    have hsafe : SafeFor request pairs center := by
      exact (routeCandidatePair_safe (eq_ok_of_toOption hpair)).mono
        (cons_subset.mpr ⟨mem_of_mem_head? hhead, nil_subset _⟩)
    split at h
    · cases h
      exact hsafe
    · cases h
      -- the center gives way to better attachments only
      have hbest : ∀ (candidates : List (ObstacleRouteResult ℚ)) (best : ObstacleRouteResult ℚ),
          (∀ candidate ∈ candidates, SafeFor request pairs candidate) →
          SafeFor request pairs best →
          SafeFor request pairs (candidates.foldl (fun best candidate =>
            if attachmentRouteIsBetter request best candidate then candidate else best) best) := by
        intro candidates
        induction candidates with
        | nil => exact fun best _ hbest => hbest
        | cons candidate candidates ih =>
          intro best hcandidates hbest
          rw [foldl_cons]
          refine ih _ (fun other hother => hcandidates other (mem_cons_of_mem _ hother)) ?_
          split
          · exact hcandidates candidate mem_cons_self
          · exact hbest
      exact hbest _ center (fun candidate hcandidate => (routedPairs_safe hcandidate).mono hdrop)
        hsafe
  · split at h
    · rename_i first hfirst
      cases h
      exact (routedPairs_safe (mem_of_mem_head? hfirst)).mono hdrop
    · split at h
      · rename_i first hfirst
        cases h
        exact perimeterFallbackRoute_safe hfirst
      · cases h

/-- The best route of a group of pairs is safe for one of them. -/
theorem routeGroups_safe {groups : ℕ} {entries : List (ℚ × CandidatePair ℚ)}
    (h : routeGroups request groups entries = some result) :
    SafeFor request (entries.map (·.2)) result := by
  induction groups generalizing entries with
  | zero => cases h
  | succ groups ih =>
    cases entries with
    | nil => cases h
    | cons entry entries =>
      rw [routeGroups] at h
      split at h
      · rename_i found hfound
        cases h
        refine (routedPairs_safe (mem_of_minBy? hfound)).mono ?_
        exact map_subset _ (takeWhile_subset _)
      · refine (ih h).mono ?_
        exact map_subset _ (dropWhile_subset _)

/-- With a free side the route is safe for one of the pairs. -/
theorem routeUnconstrained_safe (h : routeUnconstrained request pairs = .ok result) :
    SafeFor request pairs result := by
  unfold routeUnconstrained at h
  split at h
  · rename_i found hfound
    cases h
    refine (routeGroups_safe hfound).mono ?_
    intro tried htried
    obtain ⟨entry, hentry, rfl⟩ := mem_map.mp htried
    rw [sortedPairs, mem_sortBy] at hentry
    obtain ⟨pair, hpair, rfl⟩ := mem_map.mp hentry
    exact hpair
  · split at h
    · rename_i found hfound
      cases h
      exact perimeterFallbackRoute_safe hfound
    · cases h

/-- The pairs that are tried are pairs of candidates. -/
theorem mem_of_mem_allPairs {sources targets : List (RouteEndpointCandidate ℚ)}
    (h : pair ∈ allPairs sources targets) : pair.1 ∈ sources ∧ pair.2 ∈ targets := by
  obtain ⟨source, hsource, h⟩ := mem_flatMap.mp h
  obtain ⟨target, htarget, rfl⟩ := mem_map.mp h
  exact ⟨hsource, htarget⟩

theorem mem_of_mem_progressiveCandidatePairs {sources targets : List (RouteEndpointCandidate ℚ)}
    (h : pair ∈ progressiveCandidatePairs sources targets) :
    pair.1 ∈ sources ∧ pair.2 ∈ targets := by
  obtain ⟨indexes, -, h⟩ := mem_filterMap.mp h
  obtain ⟨source, hsource, h⟩ := bind_eq_some_iff.mp h
  obtain ⟨target, htarget, h⟩ := bind_eq_some_iff.mp h
  obtain rfl := Option.some.inj h
  exact ⟨mem_of_getElem? hsource, mem_of_getElem? htarget⟩

/-- A route around obstacles is safe for one of the pairs of candidates. -/
theorem exists_safe_pair (h : routeAroundObstacles request = .ok result) :
    ∃ pair : CandidatePair ℚ, (pair.1 ∈ request.sources ∧ pair.2 ∈ request.targets) ∧
      pair.1.side = result.sourceSide ∧ pair.2.side = result.targetSide ∧
      routeSafeForRequest result.route (pairRequest request pair.1 pair.2) = true := by
  obtain ⟨_, -, h⟩ := bind_eq_ok.mp h
  obtain ⟨_, -, h⟩ := bind_eq_ok.mp h
  split at h
  · obtain ⟨pair, hpair, hsafe⟩ := routeConstrained_safe h
    exact ⟨pair, mem_of_mem_progressiveCandidatePairs hpair, hsafe⟩
  · obtain ⟨pair, hpair, hsafe⟩ := routeUnconstrained_safe h
    exact ⟨pair, mem_of_mem_allPairs hpair, hsafe⟩

/-- A candidate is found again by its side and its point. -/
theorem find?_candidate {candidates : List (RouteEndpointCandidate ℚ)}
    {candidate : RouteEndpointCandidate ℚ} (h : candidate ∈ candidates) :
    candidates.find? (fun other => other.side == candidate.side &&
      pointsEqual other.point candidate.point) = some candidate := by
  cases hfind : candidates.find? (fun other => other.side == candidate.side &&
      pointsEqual other.point candidate.point) with
  | none =>
    have hnone := find?_eq_none.mp hfind candidate h
    simp [pointsEqual] at hnone
  | some other =>
    have hsame := find?_some hfind
    rw [Bool.and_eq_true, beq_iff_eq, pointsEqual_iff] at hsame
    cases other
    cases candidate
    exact congrArg some (congrArg₂ RouteEndpointCandidate.mk hsame.2 hsame.1)

/-- The pair of candidates of a route around obstacles is found again from its result. -/
theorem routeSafeForResult_of_ok (h : routeAroundObstacles request = .ok result) :
    routeSafeForResult result request = true := by
  obtain ⟨pair, ⟨hsource, htarget⟩, hsourceSide, htargetSide, hsafe⟩ := exists_safe_pair h
  have hstructure := hsafe
  rw [routeSafeForRequest, Bool.and_eq_true] at hstructure
  obtain ⟨hhead, hlast, -⟩ := of_routeStructureValid hstructure.1
  have hselected : selectedDefinition request result =
      some (pairRequest request pair.1 pair.2).definition := by
    rw [selectedDefinition, hhead, hlast, ← hsourceSide, ← htargetSide]
    simp only [Option.pure_def, bind_eq_bind, bind_some, pairRequest,
      find?_candidate hsource, find?_candidate htarget]
  rw [routeSafeForResult, hselected]
  exact hsafe

/-- **Every route around obstacles is safe**, whichever way it was found: by the search for visible
paths, by the one that allows overlaps or around the perimeter. -/
theorem routeAroundObstacles_safe (request : ObstacleRouteRequest ℚ)
    (result : ObstacleRouteResult ℚ) (h : routeAroundObstacles request = .ok result) :
    SafeResult request result := by
  obtain ⟨pair, ⟨hsource, htarget⟩, hsourceSide, htargetSide, hsafe⟩ := exists_safe_pair h
  exact SafeResult.of_safe hsource htarget hsourceSide htargetSide hsafe

end

/-- A cable with one corner between two items, past a third one. -/
def cornerCable : ObstacleRouteRequest ℚ where
  definition :=
    { connectionId := 1, source := ⟨0, 0⟩, target := ⟨200, 100⟩, sourceSide := .right,
      targetSide := .top, laneOffset := 12 }
  sourceItemId := "a"
  targetItemId := "b"
  obstacles := [⟨"a", ⟨-40, -20, 40, 40⟩⟩, ⟨"b", ⟨180, 100, 40, 40⟩⟩, ⟨"c", ⟨80, 20, 40, 40⟩⟩]
  snapToGrid := false
  gridSize := 20

/-- The route of the cable with one corner. -/
theorem routeAroundObstacles_safe_corner :
    ∃ result, result.route.points = [⟨0, 0⟩, ⟨200, 0⟩, ⟨200, 100⟩] ∧
      SafeResult cornerCable result := by
  obtain ⟨result, hresult, hpoints⟩ : ∃ result, routeAroundObstacles cornerCable = .ok result ∧
      result.route.points = [⟨0, 0⟩, ⟨200, 0⟩, ⟨200, 100⟩] := exists_ok_of_any (by decide +kernel)
  exact ⟨result, hpoints, routeAroundObstacles_safe cornerCable result hresult⟩

end HomelabInventory
