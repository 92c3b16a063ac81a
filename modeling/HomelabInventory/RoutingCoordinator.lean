import HomelabInventory.RoutingRequests

/-!
# The cable routing coordinator

The coordinator publishes the routes of the requests that the canvas last asked
for. It has one planner call running at a time and one set of requests waiting
behind it, and it tells the calls apart by the revision they were made for.
-/

namespace HomelabInventory.CableRouting

/-! ## State -/

section State

variable (K : Type)

/-- Bends that the planner repaired, with the bends they replace. -/
structure CableRouteCanonicalRepair where
  connectionId : ℕ
  originalBendPoints : List (Point K)
  bendPoints : List (Point K)
  reason : RouteRepairReason

/-- What the canvas is told. -/
structure CableRoutingState where
  routes : List (ℕ × CableRouteResult K) := []
  pending : Bool := false
  error : Option String := none
  warnings : List (ℕ × String) := []
  repairs : List (ℕ × CableRouteCanonicalRepair K) := []

/-- Requests to be planned, and the revision they were asked for under. No two have one. -/
structure RoutingWork where
  revision : ℕ
  requests : List (CableLaneRouteRequest K)
  force : Bool

/-- The coordinator, and the calls of the planner that were not answered yet. -/
structure CableRoutingCoordinator where
  revision : ℕ := 0
  activeWork : Option (RoutingWork K) := none
  queuedWork : Option (RoutingWork K) := none
  desiredRequests : List (ℕ × CableLaneRouteRequest K) := []
  disposed : Bool := false
  cache : Option (CableRoutingCacheSnapshot K) := none
  state : CableRoutingState K := {}
  planning : List (RoutingWork K) := []

/-- Why a call of the planner failed. -/
inductive PlanError where
  | interrupted
  | failed (message : Option String)

end State

variable {K : Type}

/-! ## Published routes -/

/-- The calculated route of a connection, or else its current one. An equal current route is
kept. -/
def reconciledRoute [BEq K] (current calculated : List (ℕ × CableRouteResult K))
    (connectionId : ℕ) : Option (CableRouteResult K) :=
  let previous := InsertionMap.get? current connectionId
  match InsertionMap.get? calculated connectionId with
  | none => previous
  | some route =>
    some ((previous.filter fun previous => cableRouteResultsEqual previous route).getD route)

/-- The routes of the desired connections. The source keeps the current map itself when nothing
changes. -/
def reconcileRouteMap [BEq K] (current calculated : List (ℕ × CableRouteResult K))
    (desiredConnectionIds : List ℕ) : List (ℕ × CableRouteResult K) :=
  desiredConnectionIds.filterMap fun connectionId =>
    (reconciledRoute current calculated connectionId).map fun route => (connectionId, route)

def removeFailedRoutes (routes : List (ℕ × CableRouteResult K)) (failures : List (ℕ × String)) :
    List (ℕ × CableRouteResult K) :=
  routes.filter fun entry => (InsertionMap.get? failures entry.1).isNone

/-- The repairs of connections that were asked for. -/
def canonicalRepairs (requests : List (CableLaneRouteRequest K))
    (repairs : List (CableRouteRepair K)) : List (ℕ × CableRouteCanonicalRepair K) :=
  InsertionMap.ofEntries <| repairs.filterMap fun repair =>
    (requests.find? fun candidate => candidate.connectionId = repair.connectionId).map
      fun request => (repair.connectionId,
        ⟨repair.connectionId, request.request.manualBendPoints.getD [], repair.bendPoints,
          repair.reason⟩)

/-! ## Operations -/

namespace CableRoutingCoordinator

/-- The connections that are asked for. -/
def desiredIds (c : CableRoutingCoordinator K) : List ℕ :=
  InsertionMap.keys c.desiredRequests

/-- Start the work that waits, when none is active. -/
def dispatchNext (c : CableRoutingCoordinator K) : CableRoutingCoordinator K :=
  if c.disposed || c.activeWork.isSome then c
  else match c.queuedWork with
    | none => c
    | some work =>
      { c with activeWork := some work, queuedWork := none, planning := c.planning ++ [work] }

def finishPendingState (c : CableRoutingCoordinator K) : CableRoutingCoordinator K :=
  if c.activeWork.isNone && c.queuedWork.isNone && c.state.pending then
    { c with state := { c.state with pending := false } }
  else c

def hydrate (c : CableRoutingCoordinator K) (cache : CableRoutingCacheSnapshot K) :
    CableRoutingCoordinator K :=
  if c.disposed then c else { c with cache := some cache }

def clear (c : CableRoutingCoordinator K) : CableRoutingCoordinator K where
  revision :=
    if 0 < c.desiredRequests.length || c.activeWork.isSome || c.queuedWork.isSome
    then c.revision + 1 else c.revision
  activeWork := c.activeWork
  queuedWork := none
  desiredRequests := []
  disposed := c.disposed
  cache := c.cache
  state := { pending := c.activeWork.isSome }
  planning := c.planning

def dispose (c : CableRoutingCoordinator K) : CableRoutingCoordinator K :=
  { c with
    disposed := true
    revision := c.revision + 1
    activeWork := none
    queuedWork := none
    desiredRequests := [] }

/-- The work is the one that is active. -/
def isActive (c : CableRoutingCoordinator K) (work : RoutingWork K) : Bool :=
  c.activeWork.any fun active => active.revision == work.revision

section Requests

variable [Scalar K] (platform : Platform K)

/-- The cache, when it has an outcome for each of the requests. -/
def matchingCache (c : CableRoutingCoordinator K) (requests : List (CableLaneRouteRequest K)) :
    Except String (Option (CableRoutingCacheSnapshot K)) :=
  match c.cache with
  | none => .ok none
  | some cache => do
    let matching ← routingCacheMatchesRequests platform cache requests
    return if matching then some cache else none

/-- The cache, when its routes are of the geometry of the requests. -/
def geometryCache (c : CableRoutingCoordinator K) (requests : List (CableLaneRouteRequest K)) :
    Except String (Option (CableRoutingCacheSnapshot K)) := do
  let matching ← routingCacheGeometryMatchesRequests platform c.cache requests
  return if matching then c.cache else none

/-- Publish the routes of the cache. -/
def showCached (c : CableRoutingCoordinator K) (cache : CableRoutingCacheSnapshot K)
    (pending : Bool) : CableRoutingCoordinator K :=
  { c with
    state :=
      { routes := reconcileRouteMap c.state.routes (routesFromRoutingCache cache) c.desiredIds
        pending := pending
        error := none
        warnings := failuresFromRoutingCache cache
        repairs := [] } }

/-- The cache has all that is asked for: work that is under way becomes outdated. -/
def restore (c : CableRoutingCoordinator K) (cache : CableRoutingCacheSnapshot K) :
    CableRoutingCoordinator K :=
  { c with
    revision :=
      if c.activeWork.isSome || c.queuedWork.isSome then c.revision + 1 else c.revision
    queuedWork := none }.showCached cache c.activeWork.isSome

/-- Let the requests wait for the planner. -/
def enqueue (c : CableRoutingCoordinator K) (requests : List (CableLaneRouteRequest K))
    (force : Bool) : Except String ℕ × CableRoutingCoordinator K :=
  (.ok (c.revision + 1),
    { c with
      revision := c.revision + 1
      queuedWork := some ⟨c.revision + 1, requests, force⟩
      state := { c.state with pending := true, error := none } }.dispatchNext)

/-- Ask for the routes of the requests. The error is the exception that the source throws. -/
def request (c : CableRoutingCoordinator K) (requests : List (CableLaneRouteRequest K))
    (force : Bool) : Except String ℕ × CableRoutingCoordinator K :=
  let nextRequests := requestsById requests
  if !force && requestSetsEqual c.desiredRequests nextRequests then (.ok c.revision, c)
  else
    let desiring := { c with desiredRequests := nextRequests }
    match c.matchingCache platform requests with
    | .error message => (.error message, desiring)
    | .ok (some cache) =>
      if force then (desiring.showCached cache true).enqueue requests force
      else (.ok (desiring.restore cache).revision, desiring.restore cache)
    | .ok none =>
      if force then desiring.enqueue requests force
      else match c.geometryCache platform requests with
        | .error message => (.error message, desiring)
        | .ok (some cache) =>
          (desiring.showCached cache desiring.state.pending).enqueue requests force
        | .ok none => desiring.enqueue requests force

/-- The result has something to keep in the cache. -/
def hasCacheableOutcome (work : RoutingWork K) (result : CableRoutePlanResult K) : Bool :=
  0 < result.cache.entries.length || 0 < result.cache.failures.length || work.requests.isEmpty

/-- Publish what the plan of the latest requests came to. -/
def publish (c : CableRoutingCoordinator K) (work : RoutingWork K)
    (result : CableRoutePlanResult K) : CableRoutingCoordinator K :=
  { c with
    cache := if hasCacheableOutcome work result then some result.cache else c.cache
    state :=
      { routes := removeFailedRoutes
          (reconcileRouteMap c.state.routes result.routes c.desiredIds) result.failures
        pending := c.queuedWork.isSome
        error := none
        warnings := result.failures
        repairs := canonicalRepairs work.requests result.repairs } }

/-- A call of the planner was answered. -/
def complete (c : CableRoutingCoordinator K) (work : RoutingWork K)
    (result : CableRoutePlanResult K) : CableRoutingCoordinator K :=
  if c.disposed || !(c.isActive work) then c
  else
    let done := { c with activeWork := none }
    let published := if work.revision = c.revision then done.publish work result else done
    published.dispatchNext.finishPendingState

/-- The message of an error that is published. -/
def errorText : PlanError → Option String
  | .interrupted => none
  | .failed message => some (message.getD "Background cable routing failed.")

/-- A call of the planner failed. -/
def fail (c : CableRoutingCoordinator K) (work : RoutingWork K) (error : PlanError) :
    CableRoutingCoordinator K :=
  if c.disposed || !(c.isActive work) then c
  else
    let done := { c with activeWork := none }
    let published :=
      if work.revision = c.revision then
        { done with state :=
          { done.state with pending := done.queuedWork.isSome, error := errorText error } }
      else done
    published.dispatchNext.finishPendingState

end Requests

end CableRoutingCoordinator

/-! ## Steps -/

/-- What happens to the coordinator: the canvas calls it, or a call of the planner settles. -/
inductive Event (K : Type) where
  | request (requests : List (CableLaneRouteRequest K)) (force : Bool)
  | hydrate (cache : CableRoutingCacheSnapshot K)
  | clear
  | dispose
  | completed (revision : ℕ) (result : CableRoutePlanResult K)
  | failed (revision : ℕ) (error : PlanError)

namespace CableRoutingCoordinator

/-- The work of the call for the revision. -/
def call? (c : CableRoutingCoordinator K) (revision : ℕ) : Option (RoutingWork K) :=
  c.planning.find? fun work => work.revision = revision

/-- The call settles. -/
def settle (c : CableRoutingCoordinator K) (revision : ℕ) : CableRoutingCoordinator K :=
  { c with planning := c.planning.filter fun work => work.revision ≠ revision }

/-- One event. A call settles once. -/
def step [Scalar K] (platform : Platform K) (c : CableRoutingCoordinator K) :
    Event K → Option (CableRoutingCoordinator K)
  | .request requests force => some (c.request platform requests force).2
  | .hydrate cache => some (c.hydrate cache)
  | .clear => some c.clear
  | .dispose => some c.dispose
  | .completed revision result =>
    (c.call? revision).map fun work => (c.settle revision).complete work result
  | .failed revision error =>
    (c.call? revision).map fun work => (c.settle revision).fail work error

end CableRoutingCoordinator

end HomelabInventory.CableRouting
