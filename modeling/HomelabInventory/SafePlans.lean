import HomelabInventory.FailedPlans
import HomelabInventory.SafeRoutes

/-!
# Planned routes are safe as long as the snapshot keeps up

The planner compares the obstacles of a call with the obstacles of the last call that it has
finished. A cached route that no change comes near is kept. That is safe as long as the obstacles
that count as unchanged stood as they do when the route was written, and no seed enters a batch that
is pending.
-/

namespace HomelabInventory

open List

/-! ## Routes that are kept -/

/-- The result is safe for the entry among the obstacles, at the candidates that it selects. -/
def SafeAmong (entry : LaneRouteRequest ℚ) (result : ObstacleRouteResult ℚ)
    (obstacles : List (RouteObstacle ℚ)) : Prop :=
  routeSafeForResult result { entry.request with obstacles := obstacles } = true

/-- What safety says: the structure does not depend on the obstacles. -/
theorem safeAmong_iff {entry : LaneRouteRequest ℚ} {result : ObstacleRouteResult ℚ}
    {obstacles : List (RouteObstacle ℚ)} : SafeAmong entry result obstacles ↔
      (∃ definition, selectedDefinition entry.request result = some definition ∧
        routeStructureValid result.route.points definition = true) ∧
      routeIntersectsEquipmentClearance result.route.points obstacles entry.request.sourceItemId
        entry.request.targetItemId = false := by
  have hselected : selectedDefinition { entry.request with obstacles := obstacles } result =
      selectedDefinition entry.request result := rfl
  rw [SafeAmong, routeSafeForResult, hselected]
  cases selectedDefinition entry.request result with
  | none => simp
  | some definition =>
    dsimp only
    rw [routeSafeForRequest, Bool.and_eq_true, Bool.not_eq_true']
    simp

/-- An obstacle that is not among the changed ones was there before, as it is. -/
theorem mem_of_not_changed {previous next : List (RouteObstacle ℚ)} {obstacle : RouteObstacle ℚ}
    (hids : (next.map (·.itemId)).Nodup) (hmem : obstacle ∈ next)
    (h : (obstacle.itemId, obstacle.bounds) ∉ changedObstacleBounds previous next) :
    obstacle ∈ previous := by
  have hfun : ∀ id first second, (id, first) ∈ next.map (fun other => (other.itemId, other.bounds)) →
      (id, second) ∈ next.map (fun other => (other.itemId, other.bounds)) → first = second := by
    intro id first second hfirst hsecond
    obtain ⟨other, hother, hfirst⟩ := mem_map.mp hfirst
    obtain ⟨other', hother', hsecond⟩ := mem_map.mp hsecond
    obtain ⟨rfl, rfl⟩ := Prod.mk.inj hfirst
    obtain ⟨hid, rfl⟩ := Prod.mk.inj hsecond
    rw [inj_on_of_nodup_map hids hother' hother hid]
  have hnext : (boundsById next)[obstacle.itemId]? = some obstacle.bounds :=
    (getElem?_collectEntries hfun).mpr (mem_map_of_mem hmem)
  have hprevious : (boundsById previous)[obstacle.itemId]? = some obstacle.bounds := by
    by_contra hchanged
    refine h (mem_flatMap.mpr ⟨obstacle.itemId, ?_, ?_⟩)
    · rw [Std.ExtTreeSet.mem_toList, mem_collectSet]
      refine mem_append_right _ (Std.ExtTreeMap.mem_keys.mpr ?_)
      rw [Std.ExtTreeMap.mem_iff_isSome_getElem?, hnext]
      rfl
    · dsimp only
      rw [hnext, if_neg]
      · exact mem_map_of_mem (mem_append_right _ (mem_singleton_self _))
      · rw [beq_iff_eq]
        exact hchanged
  rcases getElem?_insertEntries ∅
      (previous.map fun other => (other.itemId, other.bounds)) obstacle.itemId with
    ⟨bounds, hbounds, hget⟩ | ⟨-, hget⟩
  · obtain ⟨other, hother, hsame⟩ := mem_map.mp hbounds
    obtain ⟨hid, rfl⟩ := Prod.mk.inj hsame
    have hsame : other.bounds = obstacle.bounds := Option.some.inj (hget.symm.trans hprevious)
    have heq : other = obstacle := by
      cases other
      cases obstacle
      exact congrArg₂ RouteObstacle.mk hid hsame
    exact heq ▸ hother
  · rw [boundsById, collectEntries, hget] at hprevious
    simp at hprevious

/-- What crosses an obstacle with its clearance comes near it. -/
theorem routeNearRect_of_crosses {points : List (Point ℚ)} {rect : Rect ℚ}
    {stretch : Point ℚ × Point ℚ} (hmem : stretch ∈ stretches points)
    (haligned : stretch.1.x = stretch.2.x ∨ stretch.1.y = stretch.2.y)
    (h : segmentCrossesObstacleInterior stretch.1 stretch.2
      (rect.inflate equipmentRouteClearance) = true) : routeNearRect points rect = true := by
  have hleft : rect.x - 12 ≤ (rect.inflate equipmentRouteClearance).x := by
    show rect.x - 12 ≤ rect.x - 6
    linarith
  have hright : (rect.inflate equipmentRouteClearance).right ≤ rect.right + 12 := by
    show rect.x - 6 + (rect.width + 6 * 2) ≤ rect.x + rect.width + 12
    linarith
  have htop : rect.y - 12 ≤ (rect.inflate equipmentRouteClearance).y := by
    show rect.y - 12 ≤ rect.y - 6
    linarith
  have hbottom : (rect.inflate equipmentRouteClearance).bottom ≤ rect.bottom + 12 := by
    show rect.y - 6 + (rect.height + 6 * 2) ≤ rect.y + rect.height + 12
    linarith
  refine any_eq_true.mpr ⟨stretch, hmem, ?_⟩
  simp only [Bool.and_eq_true, decide_eq_true_eq]
  unfold segmentCrossesObstacleInterior at h
  split at h
  · simp only [Bool.and_eq_true, decide_eq_true_eq] at h
    obtain ⟨⟨⟨habove, hbelow⟩, hstart⟩, hend⟩ := h
    exact ⟨⟨⟨hleft.trans hstart.le, hend.le.trans hright⟩,
      htop.trans (habove.le.trans (le_max_left _ _))⟩,
      (min_le_left _ _).trans (hbelow.le.trans hbottom)⟩
  · rename_i hrow
    split at h
    · simp only [Bool.and_eq_true, decide_eq_true_eq] at h
      obtain ⟨⟨⟨hbefore, hbehind⟩, hstart⟩, hend⟩ := h
      exact ⟨⟨⟨hleft.trans (hbefore.le.trans (le_max_left _ _)),
        (min_le_left _ _).trans (hbehind.le.trans hright)⟩, htop.trans hstart.le⟩,
        hend.le.trans hbottom⟩
    · rename_i hcolumn
      rcases haligned with hx | hy
      · exact absurd (beq_iff_eq.mpr hx) hcolumn
      · exact absurd (beq_iff_eq.mpr hy) hrow

/-- **A route that no change comes near stays safe**, when it was written with the obstacles that
have not changed: those of the snapshot that it comes near stood there. -/
theorem SafeAmong.of_not_near {entry : LaneRouteRequest ℚ} {result : ObstacleRouteResult ℚ}
    {written previous next : List (RouteObstacle ℚ)} (h : SafeAmong entry result written)
    (hids : (next.map (·.itemId)).Nodup)
    (hnear : ∀ changed ∈ changedObstacleBounds previous next,
      routeNearRect result.route.points changed.2 = false)
    (hstood : ∀ obstacle ∈ next, obstacle ∈ previous →
      routeNearRect result.route.points obstacle.bounds = true → obstacle ∈ written) :
    SafeAmong entry result next := by
  obtain ⟨⟨definition, hselected, hstructure⟩, hclear⟩ := safeAmong_iff.mp h
  refine safeAmong_iff.mpr ⟨⟨definition, hselected, hstructure⟩, ?_⟩
  refine routeIntersectsObstacles_eq_false.mpr ?_
  intro i stretch hstretch grown hgrown hsource htarget
  obtain ⟨obstacle, hobstacle, rfl⟩ := mem_map.mp hgrown
  have haligned := (OrthogonalPath.of_valid
    (of_routeStructureValid hstructure).2.2.2.2).aligned stretch (mem_of_getElem? hstretch)
  cases hcrosses : segmentCrossesObstacleInterior stretch.1 stretch.2
      (obstacle.bounds.inflate equipmentRouteClearance) with
  | false => rfl
  | true =>
    have hclose := routeNearRect_of_crosses (mem_of_getElem? hstretch) haligned.2 hcrosses
    by_cases hchanged : (obstacle.itemId, obstacle.bounds) ∈ changedObstacleBounds previous next
    · rw [hnear _ hchanged] at hclose
      cases hclose
    · have hwritten := hstood obstacle hobstacle (mem_of_not_changed hids hobstacle hchanged) hclose
      have hmissed := routeIntersectsObstacles_eq_false.mp hclear i stretch hstretch _
        (mem_map_of_mem hwritten) hsource htarget
      rw [hcrosses] at hmissed
      exact hmissed

/-! ## One call -/

namespace PlanContext

variable {context : PlanContext ℚ}

/-- The cached route of an entry is kept, as far as its input and the obstacles go; a continued call
keeps what is not pending. -/
def Stays (context : PlanContext ℚ) (entry : LaneRouteRequest ℚ)
    (previous : Option (CachedLaneRoute ℚ)) : Prop :=
  if context.continuing then entry.connectionId ∉ context.pendingConnectionIds
  else inputChanged entry previous = false ∧ context.obstacleChanged entry previous = false

variable {entry : LaneRouteRequest ℚ}

theorem stays_of_not_shouldRecalculate {progress : PlanProgress ℚ}
    {previous : Option (CachedLaneRoute ℚ)}
    (h : context.shouldRecalculate progress entry previous = false) :
    context.Stays entry previous := by
  unfold shouldRecalculate at h
  unfold Stays
  split at h
  · rw [if_pos ‹_›, Std.ExtTreeSet.mem_iff_contains, h]
    exact Bool.false_ne_true
  · rw [if_neg ‹_›]
    rw [Bool.or_eq_false_iff, Bool.or_eq_false_iff] at h
    exact h.1

/-- A recalculated route is safe among the obstacles of the call, also when it is the cached one. -/
theorem recalculate_safe {progress : PlanProgress ℚ} {previous : Option (CachedLaneRoute ℚ)}
    {result : ObstacleRouteResult ℚ} (hroute : context.route = routeAroundObstacles)
    (h : context.recalculate progress entry previous = .ok (some result)) :
    SafeAmong entry result context.obstacles := by
  have hsafe : routeSafeForResult result (context.routeRequest progress entry previous) = true := by
    unfold recalculate at h
    rw [hroute] at h
    dsimp only at h
    split at h
    · rename_i found hfound
      cases h
      exact routeSafeForResult_of_ok hfound
    · split at h
      · rename_i cached hcached
        cases h
        exact (Option.filter_eq_some_iff.mp hcached).2
      · cases h
    · cases h
  exact hsafe

/-- What a turn of the loop does to the cache: nothing, with the route kept or left for later, or it
takes the route away, or it writes a safe one. -/
inductive TurnEffect (context : PlanContext ℚ) (progress : PlanProgress ℚ)
    (entry : LaneRouteRequest ℚ) (next : PlanProgress ℚ) : Prop where
  | kept (hstays : context.Stays entry progress.cache[entry.connectionId]?)
      (hcache : next.cache = progress.cache) (hdeferred : next.deferred = progress.deferred)
  | deferred (hcache : next.cache = progress.cache)
      (hdeferred : next.deferred = progress.deferred ++ [entry.connectionId])
  | removed (hcache : next.cache = progress.cache.erase entry.connectionId)
      (hdeferred : next.deferred = progress.deferred)
  | written (result : ObstacleRouteResult ℚ) (hsafe : SafeAmong entry result context.obstacles)
      (hcache : next.cache =
        progress.cache.insert entry.connectionId { input := entry, result := result })
      (hdeferred : next.deferred = progress.deferred)

/-- **A turn of the loop.** -/
theorem planEntry_effect {progress next : PlanProgress ℚ}
    (hroute : context.route = routeAroundObstacles)
    (h : context.planEntry progress entry = .ok next) : TurnEffect context progress entry next := by
  unfold planEntry at h
  dsimp only at h
  split at h
  · rename_i hkept
    cases h
    rw [Bool.not_eq_true'] at hkept
    exact .kept (stays_of_not_shouldRecalculate hkept) rfl rfl
  · split at h
    · cases h
      exact .deferred rfl rfl
    · split at h
      · cases h
      · cases h
        exact .removed rfl rfl
      · rename_i result hresult
        cases h
        exact .written result (recalculate_safe hroute hresult) rfl rfl

/-- What the loop has made of the route of an entry: it is gone, or safe, or the route from before,
which stays or is left for later, or the loop has not come to it. -/
inductive Outcome (context : PlanContext ℚ) (before : Option (CachedLaneRoute ℚ))
    (entry : LaneRouteRequest ℚ) (progress : PlanProgress ℚ) (error : Option RoutingError) : Prop where
  | gone (h : progress.cache[entry.connectionId]? = none)
  | written (result : ObstacleRouteResult ℚ) (hsafe : SafeAmong entry result context.obstacles)
      (h : progress.cache[entry.connectionId]? = some { input := entry, result := result })
  | same (h : progress.cache[entry.connectionId]? = before)
      (hstays : context.Stays entry before ∨ entry.connectionId ∈ progress.deferred ∨ error.isSome)

/-- **The loop.** It leaves the routes of other cables as they are, and what it has deferred stays
deferred. -/
theorem planEntries_outcome (hroute : context.route = routeAroundObstacles)
    {entries : List (LaneRouteRequest ℚ)} (hids : (entries.map (·.connectionId)).Nodup)
    {progress final : PlanProgress ℚ} {error : Option RoutingError}
    (h : context.planEntries progress entries = (final, error)) :
    (∀ id, id ∉ entries.map (·.connectionId) → final.cache[id]? = progress.cache[id]?) ∧
      progress.deferred ⊆ final.deferred ∧
      (∀ entry ∈ entries, Outcome context progress.cache[entry.connectionId]? entry final error) := by
  induction entries generalizing progress with
  | nil =>
    rw [planEntries] at h
    obtain ⟨rfl, rfl⟩ := Prod.mk.inj h
    exact ⟨fun _ _ => rfl, List.Subset.refl _, by simp⟩
  | cons entry entries ih =>
    rw [map_cons, nodup_cons] at hids
    obtain ⟨hnew, hids⟩ := hids
    rw [planEntries] at h
    split at h
    · rename_i failure hfailure
      obtain ⟨rfl, rfl⟩ := Prod.mk.inj h
      exact ⟨fun _ _ => rfl, List.Subset.refl _, fun other _ => .same rfl (.inr (.inr rfl))⟩
    · rename_i next hnext
      have heffect := planEntry_effect hroute hnext
      obtain ⟨hothers, hdeferred, houtcomes⟩ := ih hids h
      have hcache : ∀ id, id ≠ entry.connectionId → next.cache[id]? = progress.cache[id]? := by
        intro id hid
        cases heffect with
        | kept _ hcache _ => rw [hcache]
        | deferred hcache _ => rw [hcache]
        | removed hcache _ => rw [hcache, getElem?_erase_ite, if_neg hid]
        | written _ _ hcache _ => rw [hcache, getElem?_insert_ite, if_neg hid]
      have hsub : progress.deferred ⊆ next.deferred := by
        cases heffect with
        | kept _ _ hdeferred => rw [hdeferred]; exact List.Subset.refl _
        | deferred _ hdeferred => rw [hdeferred]; exact subset_append_left _ _
        | removed _ hdeferred => rw [hdeferred]; exact List.Subset.refl _
        | written _ _ _ hdeferred => rw [hdeferred]; exact List.Subset.refl _
      have hown := hothers entry.connectionId hnew
      refine ⟨fun id hid => ?_, List.Subset.trans hsub hdeferred, fun other hother => ?_⟩
      · rw [map_cons, mem_cons, not_or] at hid
        rw [hothers id hid.2, hcache id hid.1]
      · rcases mem_cons.mp hother with rfl | hother
        · cases heffect with
          | kept hstays hsame _ =>
            exact .same (hown.trans (by rw [hsame])) (.inl hstays)
          | deferred hsame hlater =>
            refine .same (hown.trans (by rw [hsame])) (.inr (.inl (hdeferred ?_)))
            rw [hlater]
            exact mem_append_right _ (mem_singleton_self _)
          | removed hremoved _ =>
            refine .gone (hown.trans ?_)
            rw [hremoved, getElem?_erase_ite, if_pos rfl]
          | written result hsafe hwritten _ =>
            refine .written result hsafe (hown.trans ?_)
            rw [hwritten, getElem?_insert_ite, if_pos rfl]
        · have hne : other.connectionId ≠ entry.connectionId := fun heq =>
            hnew (heq ▸ mem_map_of_mem hother)
          rw [← hcache _ hne]
          exact houtcomes other hother

end PlanContext

namespace RoutePlanner

/-- The cached route of every entry that no change comes near is safe for it among the obstacles of
the request. -/
def KeepsSafe (planner : RoutePlanner ℚ) (request : CableRoutePlanRequest ℚ) : Prop :=
  ∀ entry ∈ sortedRequestInputs request, ∀ cached : CachedLaneRoute ℚ,
    planner.cache[entry.connectionId]? = some cached → cached.input = entry →
    (∀ changed ∈ changedObstacleBounds planner.obstacles request.obstacles,
      routeNearRect cached.result.route.points changed.2 = false) →
    SafeAmong entry cached.result request.obstacles

/-- The cached routes of some entries are theirs, and safe for them among the obstacles. -/
def SettledFor (planner : RoutePlanner ℚ) (entries : List (LaneRouteRequest ℚ))
    (obstacles : List (RouteObstacle ℚ)) : Prop :=
  ∀ entry ∈ entries, ∀ cached : CachedLaneRoute ℚ,
    planner.cache[entry.connectionId]? = some cached →
    cached.input = entry ∧ SafeAmong entry cached.result obstacles

/-- The entries of some requests that are not pending. -/
def notPending (planner : RoutePlanner ℚ) (entries : List (LaneRouteRequest ℚ)) :
    List (LaneRouteRequest ℚ) :=
  entries.filter fun entry => !planner.pendingConnectionIds.contains entry.connectionId

/-- What is not pending any more of a batch is settled. -/
def PendingSafe (planner : RoutePlanner ℚ) : Prop :=
  ∀ obstacles entries, planner.pendingObstacles = some obstacles →
    planner.pendingRequests = some entries →
    planner.SettledFor (planner.notPending entries) obstacles

/-- Every route of the answer is the cached one of an entry of the request, and safe for it among
the obstacles of the request. -/
def AnswersSafely (next : RoutePlanner ℚ) (request : CableRoutePlanRequest ℚ)
    (plan : CableRoutePlan ℚ) : Prop :=
  ∀ result ∈ plan.routes, ∃ entry ∈ request.requests, ∃ cached,
    next.cache[entry.connectionId]? = some cached ∧ cached.result = result ∧
    SafeAmong entry result request.obstacles

/-- What a call leaves behind. -/
structure CallEffect (planner next : RoutePlanner ℚ) (request : CableRoutePlanRequest ℚ)
    (answer : Except RoutingError (CableRoutePlan ℚ)) : Prop where
  pending : next.PendingSafe
  cached : ∀ (id : ℕ) (cached : CachedLaneRoute ℚ), next.cache[id]? = some cached →
    planner.cache[id]? = some cached ∨ SafeAmong cached.input cached.result request.obstacles
  snapshot : next.obstacles = planner.obstacles ∨
    ∃ plan, answer = .ok plan ∧ plan.deferredConnectionIds = []
  finished : ∀ plan, answer = .ok plan → plan.deferredConnectionIds = [] →
    next.AnswersSafely request plan ∧ ∀ (id : ℕ) (cached : CachedLaneRoute ℚ),
      next.cache[id]? = some cached → SafeAmong cached.input cached.result next.obstacles

/-- The entries of a call are its requests without what the planner fills in. -/
theorem exists_request_of_mem_sorted {request : CableRoutePlanRequest ℚ}
    {entry : LaneRouteRequest ℚ} (h : entry ∈ sortedRequestInputs request) :
    ∃ original ∈ request.requests, original.connectionId = entry.connectionId ∧
      ∀ result obstacles, SafeAmong entry result obstacles → SafeAmong original result obstacles := by
  obtain ⟨original, horiginal, rfl⟩ := mem_map.mp h
  rw [mem_sortByKey] at horiginal
  exact ⟨original, horiginal, rfl, fun _ _ h => h⟩

variable {planner : RoutePlanner ℚ} {request : CableRoutePlanRequest ℚ}

/-- What the loop of a call has made of the cache: it holds routes of entries only. Each is settled
among the obstacles of the call, or it is the route from before of an entry that was left for later
or that the loop has not come to. -/
structure LoopCached (planner : RoutePlanner ℚ) (request : CableRoutePlanRequest ℚ)
    (final : PlanProgress ℚ) (error : Option RoutingError) : Prop where
  entries : ∀ (id : ℕ) (cached : CachedLaneRoute ℚ), final.cache[id]? = some cached →
    ∃ entry ∈ sortedRequestInputs request, entry.connectionId = id
  routes : ∀ entry ∈ sortedRequestInputs request, ∀ cached : CachedLaneRoute ℚ,
    final.cache[entry.connectionId]? = some cached →
    (cached.input = entry ∧ SafeAmong entry cached.result request.obstacles) ∨
      planner.cache[entry.connectionId]? = some cached ∧
        (entry.connectionId ∈ final.deferred ∨ error.isSome = true)

/-- **The loop of a call.** -/
theorem loop_cached {ids : BTreeSet ℕ} {final : PlanProgress ℚ} {error : Option RoutingError}
    (hvalid : validateRequests (sortedRequestInputs request) = .ok ids)
    (hkeeps : planner.KeepsSafe request)
    {continuing : Bool} {limit : Option ℕ}
    (hpending : continuing = true →
      planner.SettledFor (planner.notPending (sortedRequestInputs request)) request.obstacles)
    (hloop : (planner.context routeAroundObstacles limit request.obstacles continuing).planEntries
      (planner.startProgress ids) (sortedRequestInputs request) = (final, error)) :
    LoopCached planner request final error := by
  obtain ⟨hnodup, rfl⟩ := validateRequests_eq_ok hvalid
  obtain ⟨hothers, -, houtcomes⟩ := PlanContext.planEntries_outcome rfl hnodup hloop
  have hstart : ∀ (id : ℕ) (cached : CachedLaneRoute ℚ),
      (planner.startProgress (desiredIds (sortedRequestInputs request))).cache[id]? = some cached →
      planner.cache[id]? = some cached ∧ id ∈ desiredIds (sortedRequestInputs request) := by
    intro id cached hget
    rw [startProgress, Std.ExtTreeMap.getElem?_filter'] at hget
    obtain ⟨hget, hdesired⟩ := Option.filter_eq_some_iff.mp hget
    exact ⟨hget, Std.ExtTreeSet.mem_iff_contains.mpr hdesired⟩
  constructor
  · intro id cached hget
    by_contra hnone
    have hid : id ∉ (sortedRequestInputs request).map (·.connectionId) := by
      intro hmem
      obtain ⟨entry, hentry, hid⟩ := mem_map.mp hmem
      exact hnone ⟨entry, hentry, hid⟩
    rw [hothers id hid] at hget
    exact hid (mem_collectSet.mp (hstart id cached hget).2)
  · intro entry hentry cached hget
    rcases houtcomes entry hentry with hgone | ⟨result, hsafe, hwritten⟩ | ⟨hsame, hstays⟩
    · rw [hgone] at hget
      cases hget
    · rw [hwritten] at hget
      obtain rfl := Option.some.inj hget
      exact .inl ⟨rfl, hsafe⟩
    · rw [hsame] at hget
      obtain ⟨hbefore, -⟩ := hstart _ _ hget
      rcases hstays with hstays | hleft
      · left
        unfold PlanContext.Stays at hstays
        split at hstays
        · rename_i hcontinuing
          refine hpending hcontinuing entry (mem_filter.mpr ⟨hentry, ?_⟩) cached hbefore
          rw [Bool.not_eq_true', Bool.eq_false_iff]
          exact fun hcontains => hstays (Std.ExtTreeSet.mem_iff_contains.mpr hcontains)
        · obtain ⟨hinput, hobstacle⟩ := hstays
          rw [hget] at hinput hobstacle
          have hsameInput : cached.input = entry := by
            simpa [PlanContext.inputChanged] using hinput
          subst hsameInput
          refine ⟨rfl, hkeeps _ hentry _ hbefore rfl fun changed hchanged => ?_⟩
          rw [PlanContext.obstacleChanged, Option.any_some, any_eq_false] at hobstacle
          have hfar := hobstacle changed hchanged
          simp only [Bool.or_eq_true, not_or, Bool.not_eq_true] at hfar
          exact hfar.2
      · exact .inr ⟨hbefore, hleft⟩

section

variable {next base : RoutePlanner ℚ} {final : PlanProgress ℚ} {error : Option RoutingError}

/-- After the loop every route is the one from before, or settled by the call. -/
theorem LoopCached.cached_or_safe (h : LoopCached base request final error)
    (hcache : next.cache = final.cache) (id : ℕ) (cached : CachedLaneRoute ℚ)
    (hget : next.cache[id]? = some cached) :
    base.cache[id]? = some cached ∨ SafeAmong cached.input cached.result request.obstacles := by
  rw [hcache] at hget
  obtain ⟨entry, hentry, rfl⟩ := h.entries id cached hget
  rcases h.routes entry hentry cached hget with ⟨rfl, hsafe⟩ | ⟨hbefore, -⟩
  · exact .inr hsafe
  · exact .inl hbefore

variable (h : LoopCached base request final none)
include h

/-- After a loop without errors the entries that were not left for later are settled. -/
theorem LoopCached.settledFor
    (hcache : next.cache = final.cache) {entries : List (LaneRouteRequest ℚ)}
    (hentries : ∀ entry ∈ entries, entry ∈ sortedRequestInputs request ∧
      entry.connectionId ∉ final.deferred) :
    next.SettledFor entries request.obstacles := by
  intro entry hentry cached hget
  obtain ⟨hmem, hnow⟩ := hentries entry hentry
  rw [hcache] at hget
  rcases h.routes entry hmem cached hget with hsettled | ⟨-, hlater | herror⟩
  · exact hsettled
  · exact absurd hlater hnow
  · cases herror

omit h in
theorem LoopCached.failed_effect {failure : RoutingError}
    (h : LoopCached base request final (some failure))
    (hpending : ∀ obstacles entries, base.pendingObstacles = some obstacles →
      base.pendingRequests = some entries →
      (obstacles = request.obstacles ∧ entries = sortedRequestInputs request) ∧
        base.SettledFor (base.notPending entries) obstacles) :
    CallEffect base { base with cache := final.cache } request (.error failure) := by
  refine ⟨?_, h.cached_or_safe rfl, .inl rfl, fun plan hplan => nomatch hplan⟩
  intro obstacles entries hpendingObstacles hpendingRequests
  obtain ⟨⟨rfl, rfl⟩, hsettled⟩ := hpending obstacles entries hpendingObstacles hpendingRequests
  intro entry hentry cached hget
  rcases h.routes entry (mem_filter.mp hentry).1 cached hget with hnow | ⟨hbefore, -⟩
  · exact hnow
  · exact hsettled entry hentry cached hbefore

theorem LoopCached.deferred_effect (hdeferred : final.deferred ≠ []) {ids : BTreeSet ℕ} :
    CallEffect base (base.finish request.obstacles (sortedRequestInputs request) final) request
      (.ok (answer ids final)) := by
  have hempty : final.deferred.isEmpty = false := by
    rw [Bool.eq_false_iff]
    exact fun hempty => hdeferred (List.isEmpty_iff.mp hempty)
  have hfinish : base.finish request.obstacles (sortedRequestInputs request) final =
      { base with
        cache := final.cache
        pendingObstacles := some request.obstacles
        pendingRequests := some (sortedRequestInputs request)
        pendingConnectionIds := collectSet final.deferred
        pendingReservationChanges := final.changedReservations } := by
    rw [finish, hempty]
    rfl
  rw [hfinish]
  refine ⟨?_, h.cached_or_safe rfl, .inl rfl, ?_⟩
  · intro obstacles entries hpendingObstacles hpendingRequests
    obtain rfl := Option.some.inj hpendingObstacles
    obtain rfl := Option.some.inj hpendingRequests
    refine h.settledFor rfl fun entry hentry => ?_
    obtain ⟨hmem, hnow⟩ := mem_filter.mp hentry
    refine ⟨hmem, fun hlater => ?_⟩
    rw [Bool.not_eq_true', Bool.eq_false_iff] at hnow
    exact hnow (Std.ExtTreeSet.mem_iff_contains.mp (mem_collectSet.mpr hlater))
  · intro plan hplan hnone
    obtain rfl := Except.ok.inj hplan
    exact absurd hnone hdeferred

theorem LoopCached.finished_effect (hdeferred : final.deferred = []) {ids : BTreeSet ℕ} :
    CallEffect base (base.finish request.obstacles (sortedRequestInputs request) final) request
      (.ok (answer ids final)) := by
  have hfinish : base.finish request.obstacles (sortedRequestInputs request) final =
      clearPending { base with cache := final.cache, obstacles := request.obstacles } := by
    rw [finish, hdeferred]
    rfl
  rw [hfinish]
  have hsettled : SettledFor
      (clearPending { base with cache := final.cache, obstacles := request.obstacles })
      (sortedRequestInputs request) request.obstacles := by
    refine h.settledFor rfl fun entry hentry => ⟨hentry, ?_⟩
    rw [hdeferred]
    exact not_mem_nil
  have hsafe : ∀ (id : ℕ) (cached : CachedLaneRoute ℚ), final.cache[id]? = some cached →
      SafeAmong cached.input cached.result request.obstacles := by
    intro id cached hget
    obtain ⟨entry, hentry, rfl⟩ := h.entries id cached hget
    obtain ⟨rfl, hsafe⟩ := hsettled entry hentry cached hget
    exact hsafe
  refine ⟨?_, fun id cached hget => .inr (hsafe id cached hget), .inr ⟨_, rfl, hdeferred⟩, ?_⟩
  · intro obstacles entries hpending
    cases hpending
  · intro plan hplan _
    obtain rfl := Except.ok.inj hplan
    refine ⟨?_, hsafe⟩
    intro result hresult
    obtain ⟨⟨id, cached⟩, hmem, rfl⟩ := mem_map.mp hresult
    have hget : final.cache[id]? = some cached :=
      Std.ExtTreeMap.mem_toList_iff_getElem?_eq_some.mp (mem_filter.mp hmem).1
    obtain ⟨entry, hentry, rfl⟩ := h.entries id cached hget
    obtain ⟨-, hsafe⟩ := hsettled entry hentry cached hget
    obtain ⟨original, horiginal, hid, hsame⟩ := exists_request_of_mem_sorted hentry
    exact ⟨original, horiginal, cached, hid ▸ hget, rfl, hsame _ _ hsafe⟩

end

/-- **What a call leaves behind**, once its seed was considered. -/
theorem planHydrated_effect (limit : Option ℕ)
    (hkeeps : (validateRequests (sortedRequestInputs request)).isOk = true →
      planner.KeepsSafe request)
    (hpending : (validateRequests (sortedRequestInputs request)).isOk = false ∨
      planner.isContinuing request.obstacles (sortedRequestInputs request) = true →
        planner.PendingSafe) :
    CallEffect planner (planner.planHydrated routeAroundObstacles limit request).1 request
      (planner.planHydrated routeAroundObstacles limit request).2 := by
  unfold planHydrated
  dsimp only
  split
  · rename_i failure hfailure
    exact ⟨hpending (.inl (by rw [hfailure]; rfl)), fun id cached hget => .inl hget, .inl rfl,
      fun plan hplan => nomatch hplan⟩
  · rename_i ids hids
    have hkeeps := hkeeps (by rw [hids]; rfl)
    by_cases hcontinuing :
        planner.isContinuing request.obstacles (sortedRequestInputs request) = true
    · -- the pending batch goes on
      have hsame := hcontinuing
      rw [isContinuing, Bool.and_eq_true, beq_iff_eq, beq_iff_eq] at hsame
      have hsettled := hpending (.inr hcontinuing) _ _ hsame.1 hsame.2
      rw [if_pos hcontinuing, hcontinuing]
      split
      · rename_i final failure hloop
        refine (loop_cached hids hkeeps (fun _ => hsettled) hloop).failed_effect ?_
        intro obstacles entries hpendingObstacles hpendingRequests
        obtain rfl := Option.some.inj (hpendingObstacles.symm.trans hsame.1)
        obtain rfl := Option.some.inj (hpendingRequests.symm.trans hsame.2)
        exact ⟨⟨rfl, rfl⟩, hsettled⟩
      · rename_i final hloop
        have hfinal := loop_cached hids hkeeps (fun _ => hsettled) hloop
        by_cases hdeferred : final.deferred = []
        · exact hfinal.finished_effect hdeferred
        · exact hfinal.deferred_effect hdeferred
    · -- a new batch, with nothing pending
      rw [Bool.not_eq_true] at hcontinuing
      rw [hcontinuing, if_neg Bool.false_ne_true]
      have heffect : ∀ {next answer}, CallEffect planner.clearPending next request answer →
          CallEffect planner next request answer :=
        fun h => ⟨h.pending, h.cached, h.snapshot, h.finished⟩
      split
      · rename_i final failure hloop
        have hfinal : LoopCached planner.clearPending request final (some failure) :=
          loop_cached hids hkeeps (fun h => absurd h Bool.false_ne_true) hloop
        refine heffect (hfinal.failed_effect ?_)
        intro obstacles entries hnone
        cases hnone
      · rename_i final hloop
        have hfinal : LoopCached planner.clearPending request final none :=
          loop_cached hids hkeeps (fun h => absurd h Bool.false_ne_true) hloop
        by_cases hdeferred : final.deferred = []
        · exact heffect (hfinal.finished_effect hdeferred)
        · exact heffect (hfinal.deferred_effect hdeferred)

end RoutePlanner

end HomelabInventory
