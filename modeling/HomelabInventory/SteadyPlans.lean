import HomelabInventory.SafePlans

/-!
# Runs of the planner

A planner takes an obstacle that stands as in its snapshot for one that has not changed. When each
such obstacle stood so, too, when the routes that come near it were written, and no seed gives a
route to a cable that a pending batch is done with, the planner answers safely in every run. When an
item is moved away during a batch and then moved back, it does not.
-/

namespace HomelabInventory

namespace RoutePlanner

variable {planner : RoutePlanner ℚ} {request : CableRoutePlanRequest ℚ}
  {ahead : ℕ → Option (List (RouteObstacle ℚ))}

/-! ## Seeds -/

/-- Every cached route of a seed is safe among its obstacles. -/
theorem seedCache_safe {seed : CableRouteCacheSeed ℚ} (id : ℕ) (cached : CachedLaneRoute ℚ)
    (h : (seedCache seed)[id]? = some cached) :
    SafeAmong cached.input cached.result seed.obstacles := by
  suffices hrun : ∀ (entries : List (CachedLaneRoute ℚ)) (cache : RouteCache ℚ),
      (∀ (id : ℕ) (cached : CachedLaneRoute ℚ), cache[id]? = some cached →
        SafeAmong cached.input cached.result seed.obstacles) →
      ∀ (id : ℕ) (cached : CachedLaneRoute ℚ),
        (entries.foldl (fun (cache : RouteCache ℚ) entry =>
          let input := entry.input.cleaned
          if !usableSeed seed input entry.result || cache.contains input.connectionId then cache
          else cache.insert input.connectionId { input := input, result := entry.result })
          cache)[id]? = some cached →
        SafeAmong cached.input cached.result seed.obstacles from
    hrun seed.entries ∅ (fun id cached h => by simp at h) id cached h
  intro entries
  induction entries with
  | nil => exact fun cache hcache => hcache
  | cons entry entries ih =>
    intro cache hcache
    refine ih _ ?_
    intro id cached hget
    dsimp only at hget
    split at hget
    · exact hcache id cached hget
    · rename_i husable
      rw [getElem?_insert_ite] at hget
      split at hget
      · obtain rfl := Option.some.inj hget
        rw [Bool.or_eq_true, not_or, Bool.not_eq_true', Bool.not_eq_false, usableSeed] at husable
        simp only [Bool.and_eq_true, Bool.not_eq_true'] at husable
        obtain ⟨⟨⟨-, hstructure⟩, hclear⟩, -⟩ := husable
        obtain ⟨definition, hselected, hvalid⟩ := (Option.any_eq_true _ _).mp hstructure
        exact safeAmong_iff.mpr ⟨⟨definition, hselected, hvalid⟩, hclear⟩
      · exact hcache id cached hget

theorem hydrateFrom_of_takesSeed (h : planner.TakesSeed request) :
    ∃ seed, request.seed = some seed ∧ planner.hydrateFrom request.seed =
      { planner with cache := seedCache seed, obstacles := seed.obstacles } := by
  obtain ⟨seed, hseed, hempty, hvalid, hcache⟩ := h
  refine ⟨seed, hseed, ?_⟩
  rw [hseed, hydrateFrom, if_pos hempty, hydrate, hvalid, Bool.not_true, if_neg Bool.false_ne_true]
  dsimp only
  rw [hcache, if_neg Bool.false_ne_true]

/-! ## Steady calls -/

/-- For each cable the obstacles of the call that has written its cached route, if that call came
after the snapshot was taken. A call that finishes takes a new snapshot, and so does one that takes
over a seed. -/
def aheadAfter (planner : RoutePlanner ℚ) (ahead : ℕ → Option (List (RouteObstacle ℚ)))
    (request : CableRoutePlanRequest ℚ) (id : ℕ) : Option (List (RouteObstacle ℚ)) :=
  let next := planner.plan request
  if next.2.toOption.any fun plan => plan.deferredConnectionIds.isEmpty then none
  else if next.1.cache[id]? == (planner.hydrateFrom request.seed).cache[id]? then
    planner.cache[id]?.bind fun _ => ahead id
  else some request.obstacles

/-- The obstacles among which the cached route of a cable was written: those of the snapshot, or
those of a call since. -/
def writtenAmong (planner : RoutePlanner ℚ) (ahead : ℕ → Option (List (RouteObstacle ℚ)))
    (id : ℕ) : List (RouteObstacle ℚ) :=
  (ahead id).getD planner.obstacles

/-- A call that may keep what it keeps. What it looks at is the request and the state before it: the
planner, and the obstacles of the calls that have written the cached routes. -/
structure Steady (planner : RoutePlanner ℚ) (ahead : ℕ → Option (List (RouteObstacle ℚ)))
    (request : CableRoutePlanRequest ℚ) : Prop where
  /-- each obstacle of an accepted request that stands as in the snapshot, and that the cached route
  of an entry comes near, stood so when the route was written -/
  obstacles : (validateObstacles request.obstacles).isOk = true →
    (validateRequests (sortedRequestInputs request)).isOk = true →
    ∀ entry ∈ sortedRequestInputs request, ∀ cached : CachedLaneRoute ℚ,
    planner.cache[entry.connectionId]? = some cached → cached.input = entry →
    ∀ obstacle ∈ request.obstacles, obstacle ∈ planner.obstacles →
      routeNearRect cached.result.route.points obstacle.bounds = true →
      obstacle ∈ planner.writtenAmong ahead entry.connectionId
  /-- a seed that is taken over comes with a new batch, or has no route for a cable that the pending
  batch is done with -/
  seed : (validateObstacles request.obstacles).isOk = true → planner.TakesSeed request →
    (validateRequests (sortedRequestInputs request)).isOk = true ∧
        planner.isContinuing request.obstacles (sortedRequestInputs request) = false ∨
      ∀ entries, planner.pendingRequests = some entries → ∀ entry ∈ planner.notPending entries,
        (planner.hydrateFrom request.seed).cache[entry.connectionId]? = none

/-- The cached routes are safe among the obstacles that they were written among, and what is not
pending of a batch is settled. -/
structure Sound (planner : RoutePlanner ℚ) (ahead : ℕ → Option (List (RouteObstacle ℚ))) : Prop where
  cached : ∀ (id : ℕ) (cached : CachedLaneRoute ℚ), planner.cache[id]? = some cached →
    SafeAmong cached.input cached.result (planner.writtenAmong ahead id)
  pending : planner.PendingSafe

/-- Before the loop every cached route is safe among the obstacles of the snapshot, which may be
those of a seed, or among those that it was written among since. -/
theorem Sound.hydrated (h : planner.Sound ahead) (id : ℕ) (cached : CachedLaneRoute ℚ)
    (hget : (planner.hydrateFrom request.seed).cache[id]? = some cached) :
    SafeAmong cached.input cached.result
      ((planner.cache[id]?.bind fun _ => ahead id).getD
        (planner.hydrateFrom request.seed).obstacles) := by
  by_cases htakes : planner.TakesSeed request
  · obtain ⟨seed, -, hhydrated⟩ := hydrateFrom_of_takesSeed htakes
    obtain ⟨-, -, hempty, -⟩ := htakes
    rw [hhydrated] at hget ⊢
    rw [Std.ExtTreeMap.isEmpty_iff.mp hempty, Std.ExtTreeMap.getElem?_empty]
    exact seedCache_safe id cached hget
  · rw [hydrateFrom_eq_self htakes] at hget ⊢
    rw [hget]
    exact h.cached id cached hget

/-- The routes that a steady call keeps are safe among its obstacles. -/
theorem Sound.keepsSafe (h : planner.Sound ahead) (hsteady : planner.Steady ahead request)
    (hids : (request.obstacles.map (·.itemId)).Nodup)
    (hobstacles : (validateObstacles request.obstacles).isOk = true)
    (hrequests : (validateRequests (sortedRequestInputs request)).isOk = true) :
    (planner.hydrateFrom request.seed).KeepsSafe request := by
  rintro entry hentry cached hget rfl hnear
  by_cases htakes : planner.TakesSeed request
  · obtain ⟨seed, -, hhydrated⟩ := hydrateFrom_of_takesSeed htakes
    rw [hhydrated] at hget hnear
    exact (seedCache_safe _ cached hget).of_not_near hids hnear fun _ _ hstood _ => hstood
  · rw [hydrateFrom_eq_self htakes] at hget hnear
    exact (h.cached _ cached hget).of_not_near hids hnear
      (hsteady.obstacles hobstacles hrequests _ hentry cached hget rfl)

/-- Taking over a seed leaves what is pending as it is. -/
theorem hydrateFrom_pending (seed : Option (CableRouteCacheSeed ℚ)) :
    (planner.hydrateFrom seed).pendingObstacles = planner.pendingObstacles ∧
      (planner.hydrateFrom seed).pendingRequests = planner.pendingRequests ∧
      (planner.hydrateFrom seed).pendingConnectionIds = planner.pendingConnectionIds := by
  unfold hydrateFrom hydrate
  split
  · split
    · split
      · exact ⟨rfl, rfl, rfl⟩
      · dsimp only
        split
        · exact ⟨rfl, rfl, rfl⟩
        · exact ⟨rfl, rfl, rfl⟩
    · exact ⟨rfl, rfl, rfl⟩
  · exact ⟨rfl, rfl, rfl⟩

theorem isContinuing_hydrateFrom (seed : Option (CableRouteCacheSeed ℚ))
    (obstacles : List (RouteObstacle ℚ)) (entries : List (LaneRouteRequest ℚ)) :
    (planner.hydrateFrom seed).isContinuing obstacles entries =
      planner.isContinuing obstacles entries := by
  rw [isContinuing, isContinuing, (hydrateFrom_pending seed).1, (hydrateFrom_pending seed).2.1]

/-- What is pending is still settled when a steady call looks at it. -/
theorem Sound.pending_hydrated (h : planner.Sound ahead) (hsteady : planner.Steady ahead request)
    (hobstacles : (validateObstacles request.obstacles).isOk = true)
    (hlook : (validateRequests (sortedRequestInputs request)).isOk = false ∨
      (planner.hydrateFrom request.seed).isContinuing request.obstacles
        (sortedRequestInputs request) = true) :
    (planner.hydrateFrom request.seed).PendingSafe := by
  by_cases htakes : planner.TakesSeed request
  · rw [isContinuing_hydrateFrom] at hlook
    rcases hsteady.seed hobstacles htakes with ⟨hvalid, hnew⟩ | hdone
    · rcases hlook with hinvalid | hcontinuing
      · rw [hvalid] at hinvalid
        cases hinvalid
      · rw [hnew] at hcontinuing
        cases hcontinuing
    · intro obstacles entries _ hentries entry hentry cached hget
      rw [(hydrateFrom_pending request.seed).2.1] at hentries
      rw [notPending, (hydrateFrom_pending request.seed).2.2] at hentry
      rw [hdone entries hentries entry hentry] at hget
      cases hget
  · rw [hydrateFrom_eq_self htakes]
    exact h.pending

/-- What is cached is still cached after a seed was considered. -/
theorem getElem?_hydrateFrom {id : ℕ} {cached : CachedLaneRoute ℚ}
    (h : planner.cache[id]? = some cached) :
    (planner.hydrateFrom request.seed).cache[id]? = some cached := by
  rw [hydrateFrom_eq_self ?_]
  · exact h
  · rintro ⟨-, -, hempty, -⟩
    rw [Std.ExtTreeMap.isEmpty_iff.mp hempty] at h
    simp at h

theorem nodup_of_validateObstacles {obstacles : List (RouteObstacle ℚ)} {u : Unit}
    (h : validateObstacles obstacles = .ok u) : (obstacles.map (·.itemId)).Nodup := by
  obtain ⟨_, hnodup, -⟩ := bind_eq_ok.mp h
  rw [failIf_eq_ok, not_not] at hnodup
  exact hnodup

/-- **A steady call answers safely, and leaves a sound planner.** -/
theorem Sound.plan (h : planner.Sound ahead) (hsteady : planner.Steady ahead request) :
    (planner.plan request).1.Sound (planner.aheadAfter ahead request) ∧
      ∀ plan, (planner.plan request).2 = .ok plan → plan.deferredConnectionIds = [] →
        (planner.plan request).1.AnswersSafely request plan := by
  cases hvalid : validateObstacles request.obstacles with
  | error failure =>
    have hplan : planner.plan request = (planner, .error failure) := by
      rw [RoutePlanner.plan, planWith, hvalid]
    refine ⟨⟨fun id cached hget => ?_, ?_⟩, fun plan hok => ?_⟩
    · rw [hplan] at hget ⊢
      have hahead : planner.aheadAfter ahead request id = ahead id := by
        unfold aheadAfter
        dsimp only
        rw [hplan, getElem?_hydrateFrom hget, hget, beq_self_eq_true]
        rfl
      rw [writtenAmong, hahead]
      exact h.cached id cached hget
    · rw [hplan]
      exact h.pending
    · rw [hplan] at hok
      cases hok
  | ok u =>
    have hobstacles : (validateObstacles request.obstacles).isOk = true := by
      rw [hvalid]
      rfl
    have hplan : planner.plan request =
        (planner.hydrateFrom request.seed).planHydrated routeAroundObstacles
          (some maxRouteRecalculationsPerPlan) request := by
      rw [RoutePlanner.plan, planWith, hvalid]
    have heffect := planHydrated_effect (some maxRouteRecalculationsPerPlan)
      (h.keepsSafe hsteady (nodup_of_validateObstacles hvalid) hobstacles)
      (h.pending_hydrated hsteady hobstacles)
    rw [← hplan] at heffect
    refine ⟨⟨fun id cached hget => ?_, heffect.pending⟩,
      fun plan hok hnone => (heffect.finished plan hok hnone).1⟩
    unfold writtenAmong aheadAfter
    dsimp only
    split
    · -- finished: the snapshot is that of this call
      rename_i hfinished
      obtain ⟨plan, hok, hnone⟩ := (Option.any_eq_true _ _).mp hfinished
      exact (heffect.finished plan (eq_ok_of_toOption hok) (List.isEmpty_iff.mp hnone)).2
        id cached hget
    · rename_i hunfinished
      split
      · -- the route is the one from before, and so is the snapshot
        rename_i hsame
        rw [beq_iff_eq] at hsame
        rcases heffect.snapshot with hsnapshot | ⟨plan, hok, hnone⟩
        · rw [hsnapshot]
          exact h.hydrated id cached (hsame.symm.trans hget)
        · rw [hok] at hunfinished
          exact absurd (List.isEmpty_iff.mpr hnone) hunfinished
      · rename_i hwritten
        rcases heffect.cached id cached hget with hbefore | hsafe
        · exact absurd (beq_iff_eq.mpr (hget.trans hbefore.symm)) hwritten
        · exact hsafe

/-! ## Runs -/

/-- The planners that steady calls lead to, with the obstacles that their routes were written among
since the snapshot. -/
inductive SteadyRun : RoutePlanner ℚ → (ℕ → Option (List (RouteObstacle ℚ))) → Prop
  | start : SteadyRun {} fun _ => none
  | call {planner : RoutePlanner ℚ} {ahead : ℕ → Option (List (RouteObstacle ℚ))}
    (request : CableRoutePlanRequest ℚ) :
    SteadyRun planner ahead → planner.Steady ahead request →
    SteadyRun (planner.plan request).1 (planner.aheadAfter ahead request)

theorem SteadyRun.sound (h : SteadyRun planner ahead) : planner.Sound ahead := by
  induction h with
  | start =>
    constructor
    · intro id cached hget
      simp at hget
    · intro obstacles entries hnone
      cases hnone
  | call request _ hsteady ih => exact (ih.plan hsteady).1

/-- **Answers of steady runs are safe.** Whenever a call of a steady run finishes, every route of
its answer is the cached one of an entry of the request and safe for it among the obstacles of that
request, also when it was not recalculated. -/
theorem steadyRun_answersSafely (planner : RoutePlanner ℚ)
    (ahead : ℕ → Option (List (RouteObstacle ℚ))) (hrun : SteadyRun planner ahead)
    (request : CableRoutePlanRequest ℚ) (hsteady : planner.Steady ahead request)
    (plan : CableRoutePlan ℚ) (hplan : (planner.plan request).2 = .ok plan)
    (hfinished : plan.deferredConnectionIds = []) :
    (planner.plan request).1.AnswersSafely request plan :=
  (hrun.sound.plan hsteady).2 plan hplan hfinished

/-! ## An item that is moved away and back -/

/-- A straight cable to the right, on a row of its own. -/
def rowCable (connectionId : ℕ) : LaneRouteRequest ℚ where
  avoidCableOverlap := false
  request :=
    { straightCable connectionId with
      definition := { (straightCable connectionId).definition with
        source := ⟨0, 100 * connectionId⟩
        target := ⟨200, 100 * connectionId⟩ } }

/-- An item on the row of the first cable. -/
def blockingItem : RouteObstacle ℚ := ⟨"x", ⟨80, 80, 40, 40⟩⟩

/-- The canvas with the item before there are cables. -/
def itemPlaced : CableRoutePlanRequest ℚ := { obstacles := [blockingItem], requests := [] }

/-- Five cables while the item is moved away; the fifth one is left for later. -/
def itemAway : CableRoutePlanRequest ℚ :=
  { obstacles := [], requests := [1, 2, 3, 4, 5].map rowCable }

/-- The five cables with the item back in its place. -/
def itemBack : CableRoutePlanRequest ℚ := { itemAway with obstacles := [blockingItem] }

/-- The planner after some calls. -/
def afterCalls (planner : RoutePlanner ℚ) (requests : List (CableRoutePlanRequest ℚ)) :
    RoutePlanner ℚ :=
  requests.foldl (fun planner request => (planner.plan request).1) planner

/-- An item that the first cable passes close by. -/
def passedItem : RouteObstacle ℚ := ⟨"x", ⟨80, 108, 40, 40⟩⟩

/-- An item below the cables. -/
def movedItem (x : ℚ) : RouteObstacle ℚ := ⟨"y", ⟨x, 600, 40, 40⟩⟩

/-- Some cables with the passed item in its place and the other one somewhere. -/
def itemMoved (x : ℚ) (requests : List (LaneRouteRequest ℚ)) : CableRoutePlanRequest ℚ :=
  { obstacles := [passedItem, movedItem x], requests := requests }

/-- Such a call is steady for a planner whose routes were written with the passed item, and whose
snapshot has the other one elsewhere. -/
theorem steady_itemMoved {x : ℚ} {requests : List (LaneRouteRequest ℚ)}
    (hmoved : movedItem x ∉ planner.obstacles)
    (hahead : ∀ id obstacles, ahead id = some obstacles → passedItem ∈ obstacles) :
    planner.Steady ahead (itemMoved x requests) where
  obstacles := by
    intro _ _ entry _ cached _ _ obstacle hobstacle hstands _
    rcases List.mem_cons.mp hobstacle with rfl | hmem
    · unfold writtenAmong
      cases hwritten : ahead entry.connectionId with
      | none => exact hstands
      | some obstacles => exact hahead _ _ hwritten
    · rw [List.mem_singleton.mp hmem] at hstands
      exact absurd hstands hmoved
  seed := by
    rintro - ⟨seed, hseed, -⟩
    cases hseed

/-- The passed item is in its place in every call. -/
theorem mem_aheadAfter_itemMoved {x : ℚ} {requests : List (LaneRouteRequest ℚ)}
    (hahead : ∀ id obstacles, ahead id = some obstacles → passedItem ∈ obstacles) (id : ℕ)
    (obstacles : List (RouteObstacle ℚ))
    (h : planner.aheadAfter ahead (itemMoved x requests) id = some obstacles) :
    passedItem ∈ obstacles := by
  unfold aheadAfter at h
  dsimp only at h
  split at h
  · cases h
  · split at h
    · obtain ⟨_, -, h⟩ := Option.bind_eq_some_iff.mp h
      exact hahead id obstacles h
    · cases h
      exact List.mem_cons_self

/-- The planner after a call without cables and one that leaves the fifth cable for later. -/
def movedPlanner : RoutePlanner ℚ :=
  ({} : RoutePlanner ℚ).afterCalls [itemMoved 0 [], itemMoved 100 itemAway.requests]

/-- The other item is moved during a batch, and again before the last cable gets its route: the first
cable, which passes close by the item that stays, and the next three are served as they are. -/
theorem steadyRun_answersSafely_moved :
    ∃ plan, (movedPlanner.plan (itemMoved 200 itemAway.requests)).2 = .ok plan ∧
      plan.recalculatedConnectionIds = [5] ∧ plan.routes.length = 5 ∧
      (movedPlanner.plan (itemMoved 200 itemAway.requests)).1.AnswersSafely
        (itemMoved 200 itemAway.requests) plan := by
  obtain ⟨plan, hok, hfinished, hrecalculated, hroutes⟩ : ∃ plan,
      (movedPlanner.plan (itemMoved 200 itemAway.requests)).2 = .ok plan ∧
      plan.deferredConnectionIds = [] ∧ plan.recalculatedConnectionIds = [5] ∧
      plan.routes.length = 5 := exists_ok_of_any (by decide +kernel)
  have hsnapshots : movedItem 200 ∉ movedPlanner.obstacles ∧
      movedItem 100 ∉ (({} : RoutePlanner ℚ).plan (itemMoved 0 [])).1.obstacles := by
    decide +kernel
  have hnone : ∀ (id : ℕ) (obstacles : List (RouteObstacle ℚ)),
      (none : Option (List (RouteObstacle ℚ))) = some obstacles → passedItem ∈ obstacles :=
    fun _ _ h => nomatch h
  have hrun := (SteadyRun.start.call (itemMoved 0 [])
    (steady_itemMoved List.not_mem_nil hnone)).call (itemMoved 100 itemAway.requests)
    (steady_itemMoved hsnapshots.2 (mem_aheadAfter_itemMoved hnone))
  exact ⟨plan, hok, hrecalculated, hroutes,
    steadyRun_answersSafely movedPlanner _ hrun (itemMoved 200 itemAway.requests)
      (steady_itemMoved hsnapshots.1 (mem_aheadAfter_itemMoved (mem_aheadAfter_itemMoved hnone)))
      plan hok hfinished⟩

/-- **Moved back.** The planner has never finished a call without the item, so it takes the routes
that it has written without the item for routes that were written with it. -/
theorem itemBack_unsafe :
    ¬ ∀ (requests : List (CableRoutePlanRequest ℚ)) (request : CableRoutePlanRequest ℚ)
      (plan : CableRoutePlan ℚ), ((({} : RoutePlanner ℚ).afterCalls requests).plan request).2 =
        .ok plan → plan.deferredConnectionIds = [] →
      ((({} : RoutePlanner ℚ).afterCalls requests).plan request).1.AnswersSafely request plan := by
  intro hclaim
  obtain ⟨plan, hok, hfinished, result, hresult, hcrosses⟩ : ∃ plan,
      ((({} : RoutePlanner ℚ).afterCalls [itemPlaced, itemAway]).plan itemBack).2 = .ok plan ∧
      plan.deferredConnectionIds = [] ∧ ∃ result ∈ plan.routes, ∀ entry ∈ itemBack.requests,
        routeSafeForResult result { entry.request with obstacles := itemBack.obstacles } = false :=
    exists_ok_of_any (by decide +kernel)
  obtain ⟨entry, hentry, -, -, -, hsafe⟩ := hclaim [itemPlaced, itemAway] itemBack plan hok
    hfinished result hresult
  have hcrossing := hcrosses entry hentry
  rw [hsafe] at hcrossing
  cases hcrossing

end RoutePlanner

end HomelabInventory
