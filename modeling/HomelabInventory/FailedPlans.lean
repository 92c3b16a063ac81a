import HomelabInventory.RoutePlanner

/-!
# Plans that fail

A call of the planner that fails has answered with nothing, but it may have written already: it
takes over a seed, drops what the last call has left, forgets cables that are gone and stores the
routes that it has recalculated before the one that fails. Only a call that fails before all of
this leaves the planner as it was: one whose entries before the failing one keep what is cached for
them, or find just that again.
-/

namespace HomelabInventory

variable {K : Type} [Scalar K]

namespace RoutePlanner

/-- The answers of a planner to some requests, one after the other. -/
def answers : RoutePlanner K → List (CableRoutePlanRequest K) →
    List (Except RoutingError (CableRoutePlan K))
  | _, [] => []
  | planner, request :: requests =>
    (planner.plan request).2 :: answers (planner.plan request).1 requests

/-! ## What a failing call may write -/

/-- A call takes over the seed of its request. -/
def TakesSeed (planner : RoutePlanner K) (request : CableRoutePlanRequest K) : Prop :=
  ∃ seed, request.seed = some seed ∧ planner.cache.isEmpty = true ∧
    (validateObstacles seed.obstacles).isOk = true ∧ (seedCache seed).isEmpty = false

/-- The last call has left nothing. -/
structure NothingPending (planner : RoutePlanner K) : Prop where
  obstacles : planner.pendingObstacles = none
  requests : planner.pendingRequests = none
  connectionIds : planner.pendingConnectionIds = ∅
  reservationChanges : planner.pendingReservationChanges = []

/-- The connections of some entries. -/
def desiredIds (entries : List (LaneRouteRequest K)) : BTreeSet ℕ :=
  collectSet (entries.map (·.connectionId))

/-- The lanes of the cached route of an entry. -/
def reservedLanes (planner : RoutePlanner K) (entry : LaneRouteRequest K) :
    List (ReservedSegment K) :=
  ((planner.cache[entry.connectionId]?).map CachedLaneRoute.reserved).getD []

/-- The context of a call of the planner. -/
def callContext (planner : RoutePlanner K) (request : CableRoutePlanRequest K) : PlanContext K :=
  planner.context routeAroundObstacles (some maxRouteRecalculationsPerPlan) request.obstacles
    (planner.isContinuing request.obstacles (sortedRequestInputs request))

/-- The progress of a call that has come by some entries and has changed none of their routes. -/
def passedProgress (planner : RoutePlanner K) (entries passed : List (LaneRouteRequest K)) :
    PlanProgress K :=
  { planner.startProgress (desiredIds entries) with
    reservations := passed.flatMap planner.reservedLanes }

/-- A call looks for another route for an entry, if it has changed no route before. -/
def looksFor (planner : RoutePlanner K) (request : CableRoutePlanRequest K)
    (entry : LaneRouteRequest K) : Bool :=
  (planner.callContext request).shouldRecalculate
    (planner.startProgress (desiredIds (sortedRequestInputs request))) entry
    planner.cache[entry.connectionId]?

/-- What the call finds for an entry after the passed ones, among the obstacles of the request and
the lanes of the cached routes. -/
def found (planner : RoutePlanner K) (request : CableRoutePlanRequest K)
    (passed : List (LaneRouteRequest K)) (entry : LaneRouteRequest K) :
    Except RoutingError (Option (ObstacleRouteResult K)) :=
  (planner.callContext request).recalculate
    (planner.passedProgress (sortedRequestInputs request) passed) entry
    planner.cache[entry.connectionId]?

/-- An entry finds again what is cached for it: the cached route, which was cached for this very
entry, or no route where none is cached. -/
structure FindsCached (planner : RoutePlanner K) (request : CableRoutePlanRequest K)
    (passed : List (LaneRouteRequest K)) (entry : LaneRouteRequest K) : Prop where
  result : planner.found request passed entry =
    .ok (planner.cache[entry.connectionId]?.map CachedLaneRoute.result)
  input : ∀ cached, planner.cache[entry.connectionId]? = some cached → cached.input = entry
  /-- the cached route does not count as another one, as one with a coordinate that is not a number
  would -/
  unchanged : ∀ cached, planner.cache[entry.connectionId]? = some cached →
    PlanContext.routeChanged (some cached) cached.result = false

/-- The call comes to an entry that finds nothing but an error, and has written nothing before.
The entries before it either keep their routes or find again what is cached for them, and there are
fewer than the bound of those that look for a route, since otherwise the failing one would be left
for the next call. -/
structure FailsFirst (planner : RoutePlanner K) (request : CableRoutePlanRequest K) : Prop where
  /-- the call goes on with what the last one has left, or that is nothing -/
  pending : planner.isContinuing request.obstacles (sortedRequestInputs request) = true ∨
    planner.NothingPending
  /-- no cable is gone -/
  cached : ∀ id ∈ planner.cache, id ∈ desiredIds (sortedRequestInputs request)
  /-- the cables before the failing one get no other routes -/
  first : ∃ passed entry rest, sortedRequestInputs request = passed ++ entry :: rest ∧
    (∀ before other after, passed = before ++ other :: after →
      planner.looksFor request other = true → planner.FindsCached request before other) ∧
    passed.countP (planner.looksFor request) < maxRouteRecalculationsPerPlan ∧
    planner.looksFor request entry = true ∧
    ∃ error, planner.found request passed entry = .error error

/-- A failing call fails before it writes anything: in a check of its request, with no seed taken
over, or on the first entry that does not keep, or find again, what is cached for it. -/
def FailsUnwritten (planner : RoutePlanner K) (request : CableRoutePlanRequest K) : Prop :=
  (validateObstacles request.obstacles).isOk = false ∨
    ¬planner.TakesSeed request ∧
      ((validateRequests (sortedRequestInputs request)).isOk = false ∨ planner.FailsFirst request)

/-! ## Before the first write -/

section Unwritten

variable {planner : RoutePlanner K} {request : CableRoutePlanRequest K}

/-- Without a seed to take over the planner stays as it is. -/
theorem hydrateFrom_eq_self (h : ¬planner.TakesSeed request) :
    planner.hydrateFrom request.seed = planner := by
  unfold hydrateFrom
  split
  · rename_i seed hseed
    split
    · rename_i hempty
      unfold hydrate
      split
      · rfl
      · rename_i hvalid
        dsimp only
        split
        · rfl
        · rename_i hcache
          exact absurd ⟨seed, hseed, hempty, by simpa using hvalid, by simpa using hcache⟩ h
    · rfl
  · rfl

omit [Scalar K] in
/-- A planner with nothing pending has nothing to drop. -/
theorem NothingPending.clearPending_eq (h : planner.NothingPending) :
    planner.clearPending = planner := by
  obtain ⟨cache, obstacles, pendingObstacles, pendingRequests, pendingIds, pendingChanges⟩ := planner
  obtain ⟨rfl, rfl, rfl, rfl⟩ := h
  rfl

/-- The entries that are accepted are for distinct connections, those of the call. -/
theorem validateRequests_eq_ok {entries : List (LaneRouteRequest K)} {ids : BTreeSet ℕ}
    (h : validateRequests entries = .ok ids) :
    (entries.map (·.connectionId)).Nodup ∧ ids = desiredIds entries := by
  -- the loop turns away a connection that it has seen
  have hrun := nodup_of_foldlM (·.connectionId) (fun (seen : BTreeSet ℕ) id => id ∈ seen) h ?_
  · obtain ⟨hnodup, -, hmem⟩ := hrun
    refine ⟨hnodup, Std.ExtTreeSet.ext_mem fun id => ?_⟩
    rw [hmem, desiredIds, mem_collectSet]
    simp [eq_comm]
  · intro seen entry next hstep
    obtain ⟨_, hnew, hstep⟩ := bind_eq_ok.mp hstep
    obtain ⟨_, -, hstep⟩ := bind_eq_ok.mp hstep
    obtain rfl := pure_eq_ok.mp hstep
    refine ⟨failIf_eq_ok.mp hnew, fun id => ?_⟩
    rw [Std.ExtTreeSet.mem_insert, Std.compare_eq_iff_eq, eq_comm, or_comm]

omit [Scalar K] in
/-- When no cable is gone the call starts with the whole cache. -/
theorem filter_cache_eq_self {ids : BTreeSet ℕ} (h : ∀ id ∈ planner.cache, id ∈ ids) :
    (planner.cache.filter fun id _ => ids.contains id) = planner.cache := by
  refine Std.ExtTreeMap.ext_getElem? fun id => ?_
  rw [Std.ExtTreeMap.getElem?_filter']
  cases hid : planner.cache[id]? with
  | none => rfl
  | some cached =>
    have hmem : id ∈ planner.cache := Std.ExtTreeMap.mem_iff_isSome_getElem?.mpr (by rw [hid]; rfl)
    simp [h id hmem]

/-! ## The loop up to the failing entry -/

/-- What a call has come to when it has written nothing for the entries before. -/
structure Passed (planner : RoutePlanner K) (request : CableRoutePlanRequest K)
    (passed : List (LaneRouteRequest K)) (progress : PlanProgress K) : Prop where
  cache : progress.cache = planner.cache
  changes : progress.changedReservations =
    (planner.startProgress (desiredIds (sortedRequestInputs request))).changedReservations
  reservations : progress.reservations = passed.flatMap planner.reservedLanes
  recalculated : progress.recalculated.length = passed.countP (planner.looksFor request)

variable {entry : LaneRouteRequest K} {rest passed : List (LaneRouteRequest K)}
  {progress : PlanProgress K}

namespace Passed

/-- Whether an entry looks for a route is decided as at the start of the call. -/
theorem shouldRecalculate_eq (h : planner.Passed request passed progress) :
    (planner.callContext request).shouldRecalculate progress entry
      progress.cache[entry.connectionId]? = planner.looksFor request entry := by
  unfold looksFor PlanContext.shouldRecalculate
  rw [h.cache, h.changes]

/-- What an entry finds depends on the progress only by the lanes. -/
theorem recalculate_eq (h : planner.Passed request passed progress) :
    (planner.callContext request).recalculate progress entry progress.cache[entry.connectionId]? =
      planner.found request passed entry := by
  unfold found PlanContext.recalculate PlanContext.routeRequest
  rw [h.cache, h.reservations]
  rfl

theorem exhausted_eq (h : planner.Passed request passed progress)
    (hcount : passed.countP (planner.looksFor request) < maxRouteRecalculationsPerPlan) :
    (planner.callContext request).exhausted progress = false := by
  show decide (maxRouteRecalculationsPerPlan ≤ progress.recalculated.length) = false
  rw [h.recalculated]
  exact decide_eq_false (by omega)

/-- **One entry that keeps or finds again what is cached for it** is passed without a write. -/
theorem planEntry (h : planner.Passed request passed progress)
    (hcount : passed.countP (planner.looksFor request) < maxRouteRecalculationsPerPlan)
    (hfinds : planner.looksFor request entry = true → planner.FindsCached request passed entry) :
    ∃ next, (planner.callContext request).planEntry progress entry = .ok next ∧
      planner.Passed request (passed ++ [entry]) next := by
  have hlanes : progress.reservations ++ planner.reservedLanes entry =
      (passed ++ [entry]).flatMap planner.reservedLanes := by
    rw [h.reservations, List.flatMap_append, List.flatMap_singleton]
  unfold PlanContext.planEntry
  dsimp only
  rw [h.shouldRecalculate_eq, h.recalculate_eq, h.exhausted_eq hcount, h.cache]
  -- an entry that looks for no route, or for one and finds none or the cached one
  cases hlooks : planner.looksFor request entry with
  | false =>
    refine ⟨_, rfl, rfl, h.changes, hlanes, ?_⟩
    rw [List.countP_append, List.countP_singleton, hlooks]
    exact h.recalculated
  | true =>
    have hone : (progress.recalculated ++ [entry.connectionId]).length =
        (passed ++ [entry]).countP (planner.looksFor request) := by
      rw [List.countP_append, List.countP_singleton, hlooks, List.length_append, h.recalculated]
      rfl
    rw [(hfinds hlooks).result]
    cases hcached : planner.cache[entry.connectionId]? with
    | none =>
      refine ⟨_, rfl, ?_, h.changes, ?_, hone⟩
      · refine Std.ExtTreeMap.ext_getElem? fun id => ?_
        rw [Std.ExtTreeMap.getElem?_erase]
        split
        · rename_i hid
          rw [← Std.LawfulEqCmp.eq_of_compare hid, hcached]
        · rfl
      · rw [← hlanes, reservedLanes, hcached]
        exact (List.append_nil _).symm
    | some cached =>
      have hinput := (hfinds hlooks).input cached hcached
      refine ⟨_, rfl, ?_, ?_, ?_, hone⟩
      · refine Std.ExtTreeMap.ext_getElem? fun id => ?_
        rw [Std.ExtTreeMap.getElem?_insert]
        split
        · rename_i hid
          rw [← Std.LawfulEqCmp.eq_of_compare hid, hcached, ← hinput]
        · rfl
      · -- the route is the cached one, so no lane has changed
        rw [(hfinds hlooks).unchanged cached hcached]
        exact (List.append_nil _).trans h.changes
      · rw [← hlanes, reservedLanes, hcached]
        rfl

/-- **The entries before the failing one** are passed one after the other. -/
theorem planEntries (rest : List (LaneRouteRequest K)) {mid : List (LaneRouteRequest K)}
    (h : planner.Passed request passed progress)
    (hfinds : ∀ before other after, mid = before ++ other :: after →
      planner.looksFor request other = true →
      planner.FindsCached request (passed ++ before) other)
    (hcount : (passed ++ mid).countP (planner.looksFor request) < maxRouteRecalculationsPerPlan) :
    ∃ next, (planner.callContext request).planEntries progress (mid ++ rest) =
        (planner.callContext request).planEntries next rest ∧
      planner.Passed request (passed ++ mid) next := by
  induction mid generalizing passed progress with
  | nil => exact ⟨progress, rfl, by simpa using h⟩
  | cons other mid ih =>
    have hsome : passed.countP (planner.looksFor request) < maxRouteRecalculationsPerPlan := by
      rw [List.countP_append] at hcount
      omega
    obtain ⟨step, hstep, hpassed⟩ := h.planEntry hsome fun hlooks => by
      simpa using hfinds [] other mid rfl hlooks
    obtain ⟨next, hnext, hpassed⟩ := ih hpassed
      (fun before entry after hmid hlooks => by
        simpa using hfinds (other :: before) entry after (by rw [hmid]; rfl) hlooks)
      (by simpa using hcount)
    refine ⟨next, ?_, by simpa using hpassed⟩
    rw [← hnext, List.cons_append, PlanContext.planEntries, hstep]

end Passed

/-- The planner that a call starts with is the planner itself, when nothing is dropped. -/
theorem FailsFirst.start_eq (h : planner.FailsFirst request) :
    (if planner.isContinuing request.obstacles (sortedRequestInputs request) then planner
      else planner.clearPending) = planner := by
  split
  · rfl
  · rename_i hcontinuing
    rcases h.pending with hpending | hpending
    · exact absurd hpending hcontinuing
    · exact hpending.clearPending_eq

/-- The loop of such a call stops at the failing entry, with the cache that it started with. -/
theorem FailsFirst.planEntries_eq (h : planner.FailsFirst request) :
    ∃ progress error, (planner.callContext request).planEntries
        (planner.startProgress (desiredIds (sortedRequestInputs request)))
        (sortedRequestInputs request) = (progress, some error) ∧
      progress.cache = planner.cache := by
  obtain ⟨passed, entry, rest, hsorted, hfinds, hcount, hlooks, error, herror⟩ := h.first
  have hstart : planner.Passed request []
      (planner.startProgress (desiredIds (sortedRequestInputs request))) :=
    ⟨filter_cache_eq_self h.cached, rfl, rfl, rfl⟩
  obtain ⟨progress, hrun, hpassed⟩ := hstart.planEntries (entry :: rest) hfinds hcount
  refine ⟨progress, error, ?_, hpassed.cache⟩
  rw [← hsorted] at hrun
  rw [hrun, PlanContext.planEntries, PlanContext.planEntry]
  dsimp only
  rw [hpassed.shouldRecalculate_eq, hpassed.recalculate_eq, hpassed.exhausted_eq hcount, hlooks]
  simp only [List.nil_append, herror, Bool.not_true, Bool.false_eq_true, if_false]

/-- **A call that fails before it finds another route writes nothing.** -/
theorem FailsFirst.planHydrated_eq (h : planner.FailsFirst request) :
    ∃ error, planner.planHydrated routeAroundObstacles (some maxRouteRecalculationsPerPlan)
      request = (planner, .error error) := by
  unfold planHydrated
  dsimp only
  split
  · rename_i invalid _
    exact ⟨invalid, rfl⟩
  · rename_i ids hids
    obtain ⟨-, rfl⟩ := validateRequests_eq_ok hids
    obtain ⟨progress, error, hloop, hcache⟩ := h.planEntries_eq
    rw [callContext] at hloop
    rw [h.start_eq, hloop]
    refine ⟨error, Prod.ext ?_ rfl⟩
    show { planner with cache := progress.cache } = planner
    rw [hcache]

/-- A call with requests that are not accepted writes nothing. -/
theorem planHydrated_of_invalid
    (h : (validateRequests (sortedRequestInputs request)).isOk = false) :
    ∃ error, planner.planHydrated routeAroundObstacles (some maxRouteRecalculationsPerPlan)
      request = (planner, .error error) := by
  unfold planHydrated
  dsimp only
  split
  · rename_i invalid _
    exact ⟨invalid, rfl⟩
  · rename_i ids hids
    rw [hids] at h
    cases h

/-- **A call that fails before its first write leaves the planner as it is.** -/
theorem plan_of_failsUnwritten (h : planner.FailsUnwritten request) :
    ∃ error, planner.plan request = (planner, .error error) := by
  unfold plan planWith
  split
  · rename_i invalid _
    exact ⟨invalid, rfl⟩
  · rename_i hvalid
    rcases h with hobstacles | ⟨hseed, hrequests | hfirst⟩
    · rw [hvalid] at hobstacles
      cases hobstacles
    · rw [hydrateFrom_eq_self hseed]
      exact planHydrated_of_invalid hrequests
    · rw [hydrateFrom_eq_self hseed]
      exact hfirst.planHydrated_eq

/-- **After a call that fails before its first write** the planner answers every later run of
requests as if the call had not been made. -/
theorem answers_after_unwritten (planner : RoutePlanner K) (request : CableRoutePlanRequest K)
    (h : planner.FailsUnwritten request) (requests : List (CableRoutePlanRequest K)) :
    (∃ error, (planner.plan request).2 = .error error) ∧
      (planner.plan request).1.answers requests = planner.answers requests := by
  obtain ⟨error, hplan⟩ := plan_of_failsUnwritten h
  rw [hplan]
  exact ⟨⟨error, rfl⟩, rfl⟩

end Unwritten

/-! ## A call that fails after it has written -/

/-- A cable of 200 units straight to the right. -/
def straightCable (connectionId : ℕ) : ObstacleRouteRequest ℚ where
  definition :=
    { connectionId := connectionId, source := ⟨0, 0⟩, target := ⟨200, 0⟩, sourceSide := .right,
      targetSide := .left, laneOffset := 0 }
  sourceItemId := "a"
  targetItemId := "b"
  snapToGrid := false
  gridSize := 20

/-- A request for the straight cable alone. -/
def straightRequest : CableRoutePlanRequest ℚ :=
  { obstacles := [], requests := [⟨false, straightCable 1⟩] }

/-- A cable that has no end at the side that it asks for. -/
def mismatchedEntry : LaneRouteRequest ℚ :=
  ⟨false, { straightCable 2 with sourceSideConstraint := some .top }⟩

/-- A request for the straight cable and the mismatched one. -/
def mismatchedRequest : CableRoutePlanRequest ℚ :=
  { obstacles := [], requests := [⟨false, straightCable 1⟩, mismatchedEntry] }

/-- A request for the straight cable and the mismatched one, where the first has no way out: an
obstacle stands over its start. -/
def blockedRequest : CableRoutePlanRequest ℚ :=
  { mismatchedRequest with obstacles := [⟨"c", ⟨-20, -20, 40, 40⟩⟩] }

/-- The blocked request fails unwritten: the straight cable finds no route, where none is cached,
and the mismatched one finds an error. -/
theorem answers_after_unwritten_mismatched :
    (∃ error, (({} : RoutePlanner ℚ).plan blockedRequest).2 = .error error) ∧
      (({} : RoutePlanner ℚ).plan blockedRequest).1.answers [straightRequest] =
        ({} : RoutePlanner ℚ).answers [straightRequest] := by
  have hruns : (sortedRequestInputs blockedRequest = [⟨false, straightCable 1⟩] ++
        mismatchedEntry :: [] ∧
      ({} : RoutePlanner ℚ).looksFor blockedRequest mismatchedEntry = true) ∧
      ({} : RoutePlanner ℚ).found blockedRequest [] ⟨false, straightCable 1⟩ = .ok none ∧
      ({} : RoutePlanner ℚ).found blockedRequest [⟨false, straightCable 1⟩] mismatchedEntry =
        .error .invalidEndpointCandidates := by
    decide +kernel
  obtain ⟨⟨hsorted, hlooks⟩, hblocked, hmismatched⟩ := hruns
  have hcached : ∀ cached, ({} : RoutePlanner ℚ).cache[1]? = some cached → False := by
    intro cached h
    cases h
  refine answers_after_unwritten {} blockedRequest (.inr ⟨?_, .inr ⟨.inr ⟨rfl, rfl, rfl, rfl⟩,
    fun id hid => absurd hid Std.ExtTreeMap.not_mem_empty, [⟨false, straightCable 1⟩],
    mismatchedEntry, [], hsorted, fun before other after hpassed _ => ?_, ?_, hlooks, _,
    hmismatched⟩⟩) [straightRequest]
  · rintro ⟨seed, hseed, -⟩
    cases hseed
  · cases before with
    | nil =>
      cases hpassed
      exact ⟨hblocked, fun cached h => (hcached cached h).elim,
        fun cached h => (hcached cached h).elim⟩
    | cons first before => simp at hpassed
  · exact lt_of_le_of_lt List.countP_le_length (by decide)

/-- The call with both cables fails, and the straight cable is not recalculated afterwards: its
route has been stored. -/
theorem mismatchedRequest_written :
    (∃ error, (({} : RoutePlanner ℚ).plan mismatchedRequest).2 = .error error) ∧
      ¬(({} : RoutePlanner ℚ).plan mismatchedRequest).1.answers [straightRequest] =
        ({} : RoutePlanner ℚ).answers [straightRequest] := by
  have hrun : ((({} : RoutePlanner ℚ).plan mismatchedRequest).2.toOption.isNone,
      ((({} : RoutePlanner ℚ).plan mismatchedRequest).1.answers [straightRequest]).map
        fun answer => answer.toOption.map (·.recalculatedConnectionIds),
      (({} : RoutePlanner ℚ).answers [straightRequest]).map
        fun answer => answer.toOption.map (·.recalculatedConnectionIds)) =
      (true, [some []], [some [1]]) := by
    decide +kernel
  obtain ⟨hfails, hafter, hbefore⟩ := Prod.mk.inj hrun |>.imp_right Prod.mk.inj
  constructor
  · cases hplan : (({} : RoutePlanner ℚ).plan mismatchedRequest).2 with
    | error error => exact ⟨error, rfl⟩
    | ok plan =>
      rw [hplan] at hfails
      cases hfails
  · intro hsame
    rw [hsame, hbefore] at hafter
    cases hafter

end RoutePlanner

end HomelabInventory
