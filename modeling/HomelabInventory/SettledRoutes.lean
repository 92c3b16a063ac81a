import HomelabInventory.RoutingCoordinator

/-!
# Settled routes

When the coordinator has nothing to do and reports no error, the routes that it
publishes are those planned or cached for the requests that were last asked for,
unless the planner was interrupted: an interruption keeps the earlier routes
without an error, and the requests are planned again only when they are forced.
-/

namespace HomelabInventory.CableRouting

open InsertionMap Option

variable {K : Type}

/-! ## What the canvas knows -/

section Ledger

variable (K)

/-- What became of the requests that were asked for. -/
inductive Outcome where
  | nothing
  | waiting (revision : ℕ)
  | planned (requests : List (CableLaneRouteRequest K)) (result : CableRoutePlanResult K)
      (retained : List (ℕ × CableRouteResult K))
  | restored (cache : CableRoutingCacheSnapshot K) (retained : List (ℕ × CableRouteResult K))
  | interrupted
  | failed (message : String)
  | rejected

/-- The requests most recently asked for, and what became of them. When they are the same as
before, the outcome is that of the earlier ones, `requests`. -/
structure Ledger where
  asked : List (CableLaneRouteRequest K) := []
  requests : List (CableLaneRouteRequest K) := []
  outcome : Outcome K := .nothing

end Ledger

section Observation

variable [Scalar K] (platform : Platform K)

/-- What becomes of requests that differ from those before, or are forced. -/
def Outcome.ofRequest (c : CableRoutingCoordinator K) (requests : List (CableLaneRouteRequest K))
    (force : Bool) : Outcome K :=
  match (c.request platform requests force).1 with
  | .error _ => .rejected
  | .ok revision =>
    match c.matchingCache platform requests with
    | .ok (some cache) => if force then .waiting revision else .restored cache c.state.routes
    | _ => .waiting revision

/-- What becomes of requests whose call settles. -/
def Outcome.ofError : PlanError → Outcome K
  | .interrupted => .interrupted
  | .failed message => .failed (message.getD "Background cable routing failed.")

/-- What the canvas learns from an event in the coordinator `c`: the revision that `request`
returns is the ticket for the call that answers it. -/
def Ledger.observe (c : CableRoutingCoordinator K) (ledger : Ledger K) : Event K → Ledger K
  | .request requests force =>
    if !force && requestSetsEqual (requestsById ledger.requests) (requestsById requests) then
      { ledger with asked := requests }
    else ⟨requests, requests, .ofRequest platform c requests force⟩
  | .hydrate _ | .dispose => ledger
  | .clear => {}
  | .completed revision result =>
    match ledger.outcome, c.call? revision with
    | .waiting ticket, some work =>
      if ticket = revision then
        { ledger with outcome := .planned work.requests result c.state.routes }
      else ledger
    | _, _ => ledger
  | .failed revision error =>
    match ledger.outcome with
    | .waiting ticket =>
      if ticket = revision then { ledger with outcome := .ofError error } else ledger
    | _ => ledger

/-- The coordinators that any interleaving leads to, with what the canvas knows. -/
inductive Reachable : CableRoutingCoordinator K → Ledger K → Prop
  | start : Reachable {} {}
  | step {c c' : CableRoutingCoordinator K} {ledger : Ledger K} (event : Event K) :
    Reachable c ledger → c.step platform event = some c' →
    Reachable c' (ledger.observe platform c event)

end Observation

/-! ## The invariant -/

/-- The routes and warnings are those of the outcome. -/
def Outcome.Shown [BEq K] (ids : List ℕ) (state : CableRoutingState K) : Outcome K → Prop
  | .nothing => state.routes = [] ∧ state.warnings = []
  | .planned _ result retained =>
    state.routes = removeFailedRoutes (reconcileRouteMap retained result.routes ids)
      result.failures ∧ state.warnings = result.failures
  | .restored cache retained =>
    state.routes = reconcileRouteMap retained (routesFromRoutingCache cache) ids ∧
      state.warnings = failuresFromRoutingCache cache
  | .failed message => state.error = some message
  | .waiting _ | .interrupted | .rejected => True

/-- The outcome is not to change any more. -/
def Outcome.IsFinal : Outcome K → Prop
  | .waiting _ | .rejected => False
  | _ => True

/-- The coordinator and the ledger go together. -/
structure Consistent [BEq K] (c : CableRoutingCoordinator K) (ledger : Ledger K) : Prop where
  desired : c.desiredRequests = requestsById ledger.requests
  same : ledger.asked = ledger.requests ∨
    requestSetsEqual (requestsById ledger.requests) (requestsById ledger.asked) = true
  planning : c.planning = c.activeWork.toList
  queued_behind : c.queuedWork.isSome → c.activeWork.isSome
  pending : c.state.pending = c.activeWork.isSome
  active_le : ∀ work, c.activeWork = some work → work.revision ≤ c.revision
  queued_last : ∀ work, c.queuedWork = some work → work.revision = c.revision ∧
    ∀ active, c.activeWork = some active → active.revision < c.revision
  waiting : ∀ revision, ledger.outcome = .waiting revision → revision = c.revision ∧
    ∃ work, (c.activeWork = some work ∨ c.queuedWork = some work) ∧
      work.revision = revision ∧ work.requests = ledger.requests
  final_outdated : ledger.outcome.IsFinal → c.queuedWork = none ∧
    ∀ work, c.activeWork = some work → work.revision < c.revision
  stopped : ledger.outcome = .interrupted ∨ (∃ message, ledger.outcome = .failed message) →
    c.activeWork = none
  planned_for : ∀ requests result retained,
    ledger.outcome = .planned requests result retained → requests = ledger.requests
  shown : ledger.outcome.Shown c.desiredIds c.state

theorem consistent_start [BEq K] : Consistent ({} : CableRoutingCoordinator K) {} where
  desired := rfl
  same := .inl rfl
  planning := rfl
  queued_behind := id
  pending := rfl
  active_le _ h := nomatch h
  queued_last _ h := nomatch h
  waiting _ h := nomatch h
  final_outdated _ := ⟨rfl, fun _ h => nomatch h⟩
  stopped _ := rfl
  planned_for _ _ _ h := nomatch h
  shown := ⟨rfl, rfl⟩

/-! ## Asking for routes -/

variable {c : CableRoutingCoordinator K}

/-- Requests that wait are planned at once when no work is active, or else after it. -/
theorem CableRoutingCoordinator.enqueue_eq (hlive : c.disposed = false)
    (hplanning : c.planning = c.activeWork.toList) (requests : List (CableLaneRouteRequest K))
    (force : Bool) :
    (c.enqueue requests force).1 = .ok (c.revision + 1) ∧
      (c.enqueue requests force).2 =
        { c with
          revision := c.revision + 1
          activeWork := some (c.activeWork.getD ⟨c.revision + 1, requests, force⟩)
          queuedWork := c.activeWork.map fun _ => ⟨c.revision + 1, requests, force⟩
          planning := [c.activeWork.getD ⟨c.revision + 1, requests, force⟩]
          state := { c.state with pending := true, error := none } } := by
  refine ⟨rfl, ?_⟩
  cases hactive : c.activeWork with
  | none => simp [enqueue, dispatchNext, hlive, hactive, hplanning]
  | some active => simp [enqueue, dispatchNext, hlive, hactive, hplanning]

section Requests

variable [Scalar K] {platform : Platform K}

/-- What a request does: nothing, when it is the same; or it throws, takes the cache, or waits for
the planner. -/
theorem CableRoutingCoordinator.request_cases (platform : Platform K)
    (c : CableRoutingCoordinator K) (requests : List (CableLaneRouteRequest K)) (force : Bool) :
    ((!force && requestSetsEqual c.desiredRequests (requestsById requests)) = true ∧
      c.request platform requests force = (.ok c.revision, c)) ∨
    ((!force && requestSetsEqual c.desiredRequests (requestsById requests)) = false ∧
      ((∃ message, c.request platform requests force =
          (.error message, { c with desiredRequests := requestsById requests })) ∨
        (∃ cache revision, force = false ∧ c.matchingCache platform requests = .ok (some cache) ∧
          c.request platform requests force =
            (.ok revision, { c with desiredRequests := requestsById requests }.restore cache)) ∨
        (∃ state, (force = true ∨ c.matchingCache platform requests = .ok none) ∧
          c.request platform requests force =
            { c with desiredRequests := requestsById requests, state := state }.enqueue
              requests force))) := by
  simp only [request]
  split
  · rename_i hsame
    exact .inl ⟨hsame, rfl⟩
  rename_i hsame
  refine .inr ⟨Bool.eq_false_iff.mpr hsame, ?_⟩
  split
  · rename_i message _
    exact .inl ⟨message, rfl⟩
  · rename_i cache hmatching
    split
    · rename_i hforce
      exact .inr (.inr ⟨_, .inl hforce, rfl⟩)
    · rename_i hforce
      exact .inr (.inl ⟨cache, _, Bool.eq_false_iff.mpr hforce, hmatching, rfl⟩)
  · rename_i hnone
    split
    · rename_i hforce
      exact .inr (.inr ⟨_, .inl hforce, rfl⟩)
    · split
      · rename_i message _
        exact .inl ⟨message, rfl⟩
      · exact .inr (.inr ⟨_, .inr hnone, rfl⟩)
      · exact .inr (.inr ⟨_, .inr hnone, rfl⟩)

variable {c : CableRoutingCoordinator K}

theorem Outcome.ofRequest_eq_waiting {requests : List (CableLaneRouteRequest K)} {force : Bool}
    {revision : ℕ} (hok : (c.request platform requests force).1 = .ok revision)
    (hwaits : force = true ∨ c.matchingCache platform requests = .ok none) :
    Outcome.ofRequest platform c requests force = .waiting revision := by
  simp only [ofRequest, hok]
  obtain rfl | hnone := hwaits
  · split <;> rfl
  · rw [hnone]

variable {ledger : Ledger K}

theorem Consistent.enqueue (h : Consistent c ledger) (hlive : c.disposed = false)
    (requests : List (CableLaneRouteRequest K)) (force : Bool) (state : CableRoutingState K) :
    Consistent ({ c with desiredRequests := requestsById requests, state := state }.enqueue
      requests force).2 ⟨requests, requests, .waiting (c.revision + 1)⟩ := by
  obtain ⟨-, heq⟩ := CableRoutingCoordinator.enqueue_eq
    (c := { c with desiredRequests := requestsById requests, state := state }) hlive h.planning
    requests force
  rw [heq]
  have hactive : ∀ work, some (c.activeWork.getD ⟨c.revision + 1, requests, force⟩) = some work →
      work.revision ≤ c.revision + 1 := by
    intro work hwork
    obtain rfl := Option.some.inj hwork
    cases hactive : c.activeWork with
    | none => exact Nat.le_refl _
    | some active => exact Nat.le_succ_of_le (h.active_le active hactive)
  refine ⟨rfl, .inl rfl, rfl, fun _ => rfl, rfl, hactive, ?_, ?_, nofun, ?_, nofun, trivial⟩
  · intro work hqueued
    obtain ⟨active, hactive, rfl⟩ := Option.map_eq_some_iff.mp hqueued
    refine ⟨rfl, fun other hother => ?_⟩
    obtain rfl := Option.some.inj hother
    rw [hactive]
    exact Nat.lt_succ_of_le (h.active_le active hactive)
  · intro revision hwaiting
    obtain rfl := Outcome.waiting.inj hwaiting
    refine ⟨rfl, ⟨c.revision + 1, requests, force⟩, ?_, rfl, rfl⟩
    cases hactive : c.activeWork with
    | none => exact .inl rfl
    | some active => exact .inr rfl
  · rintro (hfalse | ⟨message, hfalse⟩) <;> exact nomatch hfalse

theorem Consistent.restore (h : Consistent c ledger) (requests : List (CableLaneRouteRequest K))
    (cache : CableRoutingCacheSnapshot K) :
    Consistent ({ c with desiredRequests := requestsById requests }.restore cache)
      ⟨requests, requests, .restored cache c.state.routes⟩ := by
  have houtdated : ∀ work, c.activeWork = some work → work.revision <
      if c.activeWork.isSome || c.queuedWork.isSome then c.revision + 1 else c.revision := by
    intro work hactive
    rw [hactive]
    exact Nat.lt_succ_of_le (h.active_le work hactive)
  refine ⟨rfl, .inl rfl, h.planning, nofun, rfl, fun work hactive =>
    Nat.le_of_lt (houtdated work hactive), nofun, nofun, fun _ => ⟨rfl, houtdated⟩, ?_, nofun,
    rfl, rfl⟩
  rintro (hfalse | ⟨message, hfalse⟩) <;> exact nomatch hfalse

/-- A request that throws leaves the work as it is. -/
theorem Consistent.reject (h : Consistent c ledger) (requests : List (CableLaneRouteRequest K)) :
    Consistent { c with desiredRequests := requestsById requests }
      ⟨requests, requests, .rejected⟩ := by
  refine ⟨rfl, .inl rfl, h.planning, h.queued_behind, h.pending, h.active_le, h.queued_last,
    nofun, False.elim, ?_, nofun, trivial⟩
  rintro (hfalse | ⟨message, hfalse⟩) <;> exact nomatch hfalse

/-- Asking for routes keeps the coordinator and the ledger together. -/
theorem Consistent.request (h : Consistent c ledger) (hlive : c.disposed = false)
    (requests : List (CableLaneRouteRequest K)) (force : Bool) :
    Consistent (c.request platform requests force).2
      (ledger.observe platform c (.request requests force)) := by
  simp only [Ledger.observe, ← h.desired]
  obtain ⟨hsame, heq⟩ | ⟨hsame, hcases⟩ := c.request_cases platform requests force
  · rw [if_pos hsame, heq]
    refine { h with same := .inr ?_ }
    rw [← h.desired]
    exact (Bool.and_eq_true_iff.mp hsame).2
  · rw [if_neg (Bool.eq_false_iff.mp hsame)]
    obtain ⟨message, heq⟩ | ⟨cache, revision, rfl, hmatching, heq⟩ | ⟨state, hwaits, heq⟩ := hcases
    · have houtcome : Outcome.ofRequest platform c requests force = .rejected := by
        simp only [Outcome.ofRequest, heq]
      rw [houtcome, heq]
      exact h.reject requests
    · have houtcome : Outcome.ofRequest platform c requests false
          = .restored cache c.state.routes := by
        simp only [Outcome.ofRequest, heq, hmatching]
        rfl
      rw [houtcome, heq]
      exact h.restore requests cache
    · have hok : (c.request platform requests force).1 = .ok (c.revision + 1) := by
        rw [heq]
        rfl
      rw [Outcome.ofRequest_eq_waiting hok hwaits, heq]
      exact h.enqueue hlive requests force state

end Requests

/-! ## Answers of the planner -/

/-- The coordinator goes on with the work that waits. -/
theorem CableRoutingCoordinator.resume_eq (hlive : c.disposed = false)
    (hactive : c.activeWork = none) (hplanning : c.planning = []) :
    c.dispatchNext.finishPendingState =
      { c with
        activeWork := c.queuedWork
        queuedWork := none
        planning := c.queuedWork.toList
        state := { c.state with pending := c.queuedWork.isSome && c.state.pending } } := by
  obtain ⟨revision, _, queuedWork, desired, _, cache, ⟨routes, pending, error, warnings, repairs⟩,
    _⟩ := c
  obtain rfl : _ = false := hlive
  obtain rfl : _ = none := hactive
  obtain rfl : _ = [] := hplanning
  cases queuedWork with
  | none => cases pending <;> simp [dispatchNext, finishPendingState]
  | some queued => simp [dispatchNext, finishPendingState]

variable {ledger : Ledger K}
variable {id revision : ℕ}
variable {work : RoutingWork K}

/-- The call that settles is the active work. -/
theorem Consistent.call_eq [BEq K] (h : Consistent c ledger)
    (hcall : c.call? revision = some work) :
    c.activeWork = some work ∧ work.revision = revision ∧ (c.settle revision).planning = [] := by
  have hmem := List.mem_of_find?_eq_some hcall
  have hrevision : work.revision = revision := by simpa using List.find?_some hcall
  rw [h.planning, mem_toList] at hmem
  refine ⟨hmem, hrevision, ?_⟩
  rw [CableRoutingCoordinator.settle, h.planning, hmem]
  simp [hrevision]

/-- An outdated call settles: nothing of it is published. -/
theorem Consistent.drop [BEq K] (h : Consistent c ledger) (hactive : c.activeWork = some work)
    (houtdated : work.revision ≠ c.revision) :
    Consistent
      { c with
        activeWork := c.queuedWork
        queuedWork := none
        planning := c.queuedWork.toList
        state := { c.state with pending := c.queuedWork.isSome && c.state.pending } } ledger where
  desired := h.desired
  same := h.same
  planning := rfl
  queued_behind hqueued := absurd hqueued Bool.false_ne_true
  pending := by
    rw [h.pending, hactive]
    exact Bool.and_true _
  active_le queued hqueued := Nat.le_of_eq (h.queued_last queued hqueued).1
  queued_last _ hqueued := nomatch hqueued
  waiting revision hwaiting := by
    obtain ⟨rfl, waiter, hwaiter, hrevision, hrequests⟩ := h.waiting revision hwaiting
    refine ⟨rfl, waiter, .inl ?_, hrevision, hrequests⟩
    obtain hsame | hqueued := hwaiter
    · obtain rfl := Option.some.inj (hactive.symm.trans hsame)
      exact absurd hrevision houtdated
    · exact hqueued
  final_outdated hfinal := by
    obtain ⟨hqueued, -⟩ := h.final_outdated hfinal
    exact ⟨rfl, fun waiter hwaiter => nomatch hqueued.symm.trans hwaiter⟩
  stopped hstopped := nomatch hactive.symm.trans (h.stopped hstopped)
  planned_for := h.planned_for
  shown := by
    have hshown := h.shown
    cases houtcome : ledger.outcome with
    | _ =>
      rw [houtcome] at hshown
      exact hshown

theorem Consistent.finish [BEq K]
    (h : Consistent c ledger) {state : CableRoutingState K} (hpending : state.pending = false)
    (cache : Option (CableRoutingCacheSnapshot K)) {outcome : Outcome K}
    (hsettled : ∀ revision, outcome ≠ .waiting revision)
    (hplanned : ∀ requests result retained, outcome = .planned requests result retained →
      requests = ledger.requests) (hshown : outcome.Shown c.desiredIds state) :
    Consistent
      { c with
        activeWork := none
        queuedWork := none
        planning := []
        cache := cache
        state := state } { ledger with outcome := outcome } where
  desired := h.desired
  same := h.same
  planning := rfl
  queued_behind hqueued := absurd hqueued Bool.false_ne_true
  pending := hpending
  active_le _ hactive := nomatch hactive
  queued_last _ hqueued := nomatch hqueued
  waiting revision hwaiting := absurd hwaiting (hsettled revision)
  final_outdated _ := ⟨rfl, fun _ hactive => nomatch hactive⟩
  stopped _ := rfl
  planned_for := hplanned
  shown := hshown

/-- The requests of the latest work wait, unless asking for them threw. -/
theorem Consistent.latest [BEq K] (h : Consistent c ledger) (hactive : c.activeWork = some work)
    (hlatest : work.revision = c.revision) :
    c.queuedWork = none ∧ ((ledger.outcome = .waiting work.revision ∧
      work.requests = ledger.requests) ∨ ledger.outcome = .rejected) := by
  constructor
  · rw [eq_none_iff_forall_ne_some]
    intro queued hqueued
    exact Nat.ne_of_lt ((h.queued_last queued hqueued).2 work hactive) hlatest
  · have hopen : ¬ledger.outcome.IsFinal := fun hfinal =>
      Nat.ne_of_lt ((h.final_outdated hfinal).2 work hactive) hlatest
    cases houtcome : ledger.outcome with
    | waiting ticket =>
      obtain ⟨rfl, waiter, hwaiter, hrevision, hrequests⟩ := h.waiting ticket houtcome
      refine .inl ⟨hlatest ▸ rfl, ?_⟩
      obtain hsame | hqueued := hwaiter
      · obtain rfl := Option.some.inj (hactive.symm.trans hsame)
        exact hrequests
      · exact absurd hlatest (Nat.ne_of_lt ((h.queued_last waiter hqueued).2 work hactive))
    | rejected => exact .inr rfl
    | _ =>
      rw [houtcome] at hopen
      exact absurd trivial hopen

/-- A ticket is for the latest requests. -/
theorem Consistent.ticket_ne [BEq K] (h : Consistent c ledger) {ticket revision : ℕ}
    (hwaiting : ledger.outcome = .waiting ticket) (houtdated : revision ≠ c.revision) :
    ticket ≠ revision := fun hsame =>
  houtdated (hsame.symm.trans (h.waiting ticket hwaiting).1)

theorem Consistent.clear [BEq K] (h : Consistent c ledger) : Consistent c.clear {} := by
  have houtdated : ∀ work, c.activeWork = some work → work.revision < c.clear.revision := by
    intro work hactive
    simp only [CableRoutingCoordinator.clear, hactive, isSome_some, Bool.or_true,
      Bool.true_or, if_true]
    exact Nat.lt_succ_of_le (h.active_le work hactive)
  refine ⟨rfl, .inl rfl, h.planning, nofun, rfl, fun work hactive =>
    Nat.le_of_lt (houtdated work hactive), nofun, nofun, fun _ => ⟨rfl, houtdated⟩, ?_, nofun,
    rfl, rfl⟩
  rintro (hfalse | ⟨message, hfalse⟩) <;> exact nomatch hfalse

section Answers

variable [Scalar K] {platform : Platform K}

variable {c c' : CableRoutingCoordinator K}
variable {ledger : Ledger K}

/-- **A call of the planner settles.** The latest one is published, whatever comes of it, and an
outdated one only makes room for the work that waits. -/
theorem Consistent.finishCall (h : Consistent c ledger) (hlive : c.disposed = false) {revision : ℕ}
    {work : RoutingWork K} (hcall : c.call? revision = some work)
    {cache : Option (CableRoutingCacheSnapshot K)} {state : CableRoutingState K}
    {observed : Ledger K}
    (hwaited : ledger.outcome = .waiting revision → work.requests = ledger.requests →
      ∃ outcome : Outcome K, observed = { ledger with outcome := outcome } ∧
        (∀ ticket, outcome ≠ .waiting ticket) ∧
        (∀ requests result retained, outcome = .planned requests result retained →
          requests = ledger.requests) ∧ outcome.Shown c.desiredIds state)
    (hkept : ledger.outcome ≠ .waiting revision → observed = ledger) :
    Consistent
      (if (c.settle revision).disposed || !((c.settle revision).isActive work) then
        c.settle revision
      else
        let done := { c.settle revision with activeWork := none }
        let published :=
          if work.revision = (c.settle revision).revision then
            { done with cache := cache, state := state }
          else done
        published.dispatchNext.finishPendingState) observed := by
  obtain ⟨hactive, rfl, hplanning⟩ := h.call_eq hcall
  have hguard : ((c.settle work.revision).disposed || !((c.settle work.revision).isActive work))
      = false := by
    simp [CableRoutingCoordinator.settle, CableRoutingCoordinator.isActive, hlive, hactive]
  simp only [hguard, Bool.false_eq_true, if_false]
  by_cases hlatest : work.revision = (c.settle work.revision).revision
  · -- the work that waits is resumed, with no call under way
    rw [if_pos hlatest, CableRoutingCoordinator.resume_eq]
    rotate_left
    · exact hlive
    · rfl
    · exact hplanning
    obtain ⟨hqueued, houtcome⟩ := h.latest hactive hlatest
    have hqueued' : (c.settle work.revision).queuedWork = none := hqueued
    simp only [hqueued']
    obtain ⟨hwaiting, hrequests⟩ | hrejected := houtcome
    · obtain ⟨outcome, rfl, hsettled, hplanned, hshown⟩ := hwaited hwaiting hrequests
      refine h.finish rfl _ hsettled hplanned ?_
      cases outcome <;> exact hshown
    · rw [hkept (by rw [hrejected]; exact nofun)]
      have hledger : ledger = { ledger with outcome := .rejected } := by rw [← hrejected]
      rw [hledger]
      exact h.finish rfl _ (fun _ hfalse => nomatch hfalse) (fun _ _ _ hfalse => nomatch hfalse)
        trivial
  · rw [if_neg hlatest, CableRoutingCoordinator.resume_eq]
    rotate_left
    · exact hlive
    · rfl
    · exact hplanning
    rw [hkept fun hwaiting => h.ticket_ne hwaiting hlatest rfl]
    exact h.drop hactive hlatest

theorem Consistent.completed (h : Consistent c ledger) (hlive : c.disposed = false) {revision : ℕ}
    {result : CableRoutePlanResult K}
    (hstep : c.step platform (.completed revision result) = some c') :
    Consistent c' (ledger.observe platform c (.completed revision result)) := by
  obtain ⟨work, hcall, rfl⟩ := Option.map_eq_some_iff.mp hstep
  refine h.finishCall hlive hcall (fun hwaiting hrequests => ?_) fun hother => ?_
  · refine ⟨.planned work.requests result c.state.routes, ?_, nofun, ?_, ⟨rfl, rfl⟩⟩
    · simp only [Ledger.observe, hwaiting, hcall, if_true]
    · intro requests _ _ hplanned
      exact (Outcome.planned.inj hplanned).1 ▸ hrequests
  · simp only [Ledger.observe]
    split
    · rename_i hwaiting _
      refine if_neg fun hsame => hother ?_
      rw [hwaiting, hsame]
    · rfl

theorem Consistent.failed (h : Consistent c ledger) (hlive : c.disposed = false) {revision : ℕ}
    {error : PlanError} (hstep : c.step platform (.failed revision error) = some c') :
    Consistent c' (ledger.observe platform c (.failed revision error)) := by
  obtain ⟨work, hcall, rfl⟩ := Option.map_eq_some_iff.mp hstep
  refine h.finishCall hlive hcall (fun hwaiting hrequests => ?_) fun hother => ?_
  · refine ⟨.ofError error, by simp only [Ledger.observe, hwaiting, if_true], ?_⟩
    cases error with
    | interrupted => exact ⟨nofun, nofun, trivial⟩
    | failed message => exact ⟨nofun, nofun, rfl⟩
  · simp only [Ledger.observe]
    split
    · rename_i hwaiting
      refine if_neg fun hsame => hother ?_
      rw [hwaiting, hsame]
    · rfl

/-- **Every event keeps the coordinator and the ledger together**, until it is disposed. -/
theorem Consistent.step (h : Consistent c ledger) {event : Event K} (hlive : c'.disposed = false)
    (hbefore : c.disposed = false) (hstep : c.step platform event = some c') :
    Consistent c' (ledger.observe platform c event) := by
  cases event with
  | request requests force =>
    obtain rfl := Option.some.inj hstep
    exact h.request hbefore requests force
  | hydrate cache =>
    obtain rfl := Option.some.inj hstep
    rw [CableRoutingCoordinator.hydrate, if_neg (by rw [hbefore]; exact Bool.false_ne_true)]
    exact { h with }
  | clear =>
    obtain rfl := Option.some.inj hstep
    exact h.clear
  | dispose =>
    obtain rfl := Option.some.inj hstep
    exact nomatch hlive
  | completed revision result => exact h.completed hbefore hstep
  | failed revision error => exact h.failed hbefore hstep

end Answers

/-! ## Routes of the latest requests -/

/-- The published route of a connection is that of a plan or cache, or the one it had when that
has none. Nothing is said of a route that is known to fail. -/
def PublishedAs [BEq K] (retained calculated : List (ℕ × CableRouteResult K))
    (failures : List (ℕ × String)) (id : ℕ) (published : Option (CableRouteResult K)) : Prop :=
  get? failures id = none →
    match get? calculated id with
    | some route => ∃ shown, published = some shown ∧
        (shown = route ∨ cableRouteResultsEqual shown route = true)
    | none => published = get? retained id

/-- The routes and warnings are those of the plan completed, or of the cache entry found, for the
requests most recently asked for. -/
def ShownFor [BEq K] (ledger : Ledger K) (state : CableRoutingState K) : Prop :=
  match ledger.outcome with
  | .nothing => state.routes = [] ∧ state.warnings = []
  | .planned requests result retained => requests = ledger.requests ∧
      state.warnings = result.failures ∧
      ∀ request ∈ ledger.asked,
        PublishedAs retained result.routes result.failures request.connectionId
          (get? state.routes request.connectionId) ∧
        ((get? result.failures request.connectionId).isSome →
          get? state.routes request.connectionId = none)
  | .restored cache retained => state.warnings = failuresFromRoutingCache cache ∧
      ∀ request ∈ ledger.asked,
        PublishedAs retained (routesFromRoutingCache cache) (failuresFromRoutingCache cache)
          request.connectionId (get? state.routes request.connectionId)
  | .waiting _ | .interrupted | .failed _ | .rejected => False

/-- The coordinator settled on the requests most recently asked for, up to sameness. -/
structure SettledOn [BEq K] (ledger : Ledger K) (state : CableRoutingState K) : Prop where
  same : ledger.asked = ledger.requests ∨
    requestSetsEqual (requestsById ledger.requests) (requestsById ledger.asked) = true
  desired : ∀ id route, get? state.routes id = some route →
    ∃ request ∈ ledger.asked, request.connectionId = id
  shown : ShownFor ledger state

theorem mem_requestsById {requests : List (CableLaneRouteRequest K)} :
    id ∈ keys (requestsById requests) ↔
      ∃ request ∈ requests, request.connectionId = id := by
  rw [requestsById, (keys_ofEntries _).2, keys, List.map_map]
  exact List.mem_map

/-- Request sets that are the same are of the same connections. -/
theorem keys_perm_of_requestSetsEqual [BEq K] {requests others : List (CableLaneRouteRequest K)}
    (h : requestSetsEqual (requestsById requests) (requestsById others) = true) :
    (keys (requestsById requests)).Perm (keys (requestsById others)) := by
  obtain ⟨hlength, hall⟩ := Bool.and_eq_true_iff.mp h
  have hsubset : keys (requestsById requests) ⊆ keys (requestsById others) := by
    intro id hid
    obtain ⟨entry, hentry, rfl⟩ := List.mem_map.mp hid
    have hany := List.all_eq_true.mp hall entry hentry
    obtain ⟨candidate, hcandidate, -⟩ := (Option.any_eq_true _ _).mp hany
    exact List.mem_map.mpr ⟨_, mem_of_get?_eq_some hcandidate, rfl⟩
  refine (List.subperm_of_subset (keys_ofEntries _).1 hsubset).perm_of_length_le ?_
  rw [keys, keys, List.length_map, List.length_map]
  exact Nat.le_of_eq (eq_of_beq hlength).symm

/-- The connections asked for are those of the requests that the outcome is about. -/
theorem Consistent.mem_desiredIds [BEq K] (h : Consistent c ledger) :
    id ∈ c.desiredIds ↔ ∃ request ∈ ledger.asked, request.connectionId = id := by
  rw [CableRoutingCoordinator.desiredIds, h.desired, ← mem_requestsById]
  obtain hsame | hsame := h.same
  · rw [hsame]
  · exact (keys_perm_of_requestSetsEqual hsame).mem_iff

theorem get?_reconcileRouteMap [BEq K] (current calculated : List (ℕ × CableRouteResult K))
    (ids : List ℕ) (id : ℕ) :
    get? (reconcileRouteMap current calculated ids) id =
      if id ∈ ids then reconciledRoute current calculated id else none :=
  get?_filterMap_keys ids (reconciledRoute current calculated) id

theorem get?_removeFailedRoutes (routes : List (ℕ × CableRouteResult K))
    (failures : List (ℕ × String)) (id : ℕ) :
    get? (removeFailedRoutes routes failures) id =
      if (get? failures id).isNone then get? routes id else none :=
  get?_filter_key routes (fun id => (get? failures id).isNone) id

/-- A reconciled route is the calculated one, up to equality, or else the current one. -/
theorem publishedAs_reconciledRoute [BEq K] (retained calculated : List (ℕ × CableRouteResult K))
    (failures : List (ℕ × String)) (id : ℕ) :
    PublishedAs retained calculated failures id (reconciledRoute retained calculated id) := by
  intro _
  cases hcalculated : get? calculated id with
  | none => simp only [reconciledRoute, hcalculated]
  | some route =>
    simp only [reconciledRoute, hcalculated]
    refine ⟨_, rfl, ?_⟩
    cases hkept : (get? retained id).filter
        fun previous => cableRouteResultsEqual previous route with
    | none => exact .inl rfl
    | some previous => exact .inr (filter_eq_some_iff.mp hkept).2

/-- The routes that are shown are those of the requests most recently asked for. -/
theorem Consistent.settledOn [BEq K] (h : Consistent c ledger) (hactive : c.activeWork = none)
    (hqueued : c.queuedWork = none) (herror : c.state.error = none)
    (hinterrupted : ledger.outcome ≠ .interrupted) (hrejected : ledger.outcome ≠ .rejected) :
    SettledOn ledger c.state := by
  have hshown := h.shown
  refine ⟨h.same, fun id route hroute => ?_, ?_⟩
  · rw [← h.mem_desiredIds]
    by_contra hmissing
    cases houtcome : ledger.outcome with
    | nothing =>
      rw [houtcome] at hshown
      rw [hshown.1] at hroute
      exact nomatch hroute
    | waiting revision =>
      obtain ⟨-, work, hwork | hwork, -⟩ := h.waiting revision houtcome
      · exact nomatch hactive.symm.trans hwork
      · exact nomatch hqueued.symm.trans hwork
    | planned requests result retained =>
      rw [houtcome] at hshown
      rw [hshown.1, get?_removeFailedRoutes, get?_reconcileRouteMap, if_neg hmissing, ite_self]
        at hroute
      exact nomatch hroute
    | restored cache retained =>
      rw [houtcome] at hshown
      rw [hshown.1, get?_reconcileRouteMap, if_neg hmissing] at hroute
      exact nomatch hroute
    | interrupted => exact hinterrupted houtcome
    | failed message =>
      rw [houtcome] at hshown
      exact nomatch herror.symm.trans hshown
    | rejected => exact hrejected houtcome
  · cases houtcome : ledger.outcome with
    | nothing =>
      rw [houtcome] at hshown
      simp only [ShownFor, houtcome]
      exact hshown
    | waiting revision =>
      obtain ⟨-, work, hwork | hwork, -⟩ := h.waiting revision houtcome
      · exact nomatch hactive.symm.trans hwork
      · exact nomatch hqueued.symm.trans hwork
    | planned requests result retained =>
      rw [houtcome] at hshown
      simp only [ShownFor, houtcome]
      refine ⟨h.planned_for _ _ _ houtcome, hshown.2, fun request hrequest => ?_⟩
      have hdesired := h.mem_desiredIds.mpr ⟨request, hrequest, rfl⟩
      rw [hshown.1, get?_removeFailedRoutes, get?_reconcileRouteMap, if_pos hdesired]
      constructor
      · intro hkept
        rw [hkept, isNone_none, if_pos rfl]
        exact publishedAs_reconciledRoute _ _ _ _ hkept
      · intro hfailed
        rw [if_neg]
        rw [isNone_iff_eq_none]
        exact isSome_iff_ne_none.mp hfailed
    | restored cache retained =>
      rw [houtcome] at hshown
      simp only [ShownFor, houtcome]
      refine ⟨hshown.2, fun request hrequest => ?_⟩
      have hdesired := h.mem_desiredIds.mpr ⟨request, hrequest, rfl⟩
      rw [hshown.1, get?_reconcileRouteMap, if_pos hdesired]
      exact publishedAs_reconciledRoute _ _ _ _
    | interrupted => exact absurd houtcome hinterrupted
    | failed message =>
      rw [houtcome] at hshown
      exact nomatch herror.symm.trans hshown
    | rejected => exact absurd houtcome hrejected

/-! ## Any interleaving -/

section Interleavings

variable [Scalar K] {platform : Platform K}

variable {c c' : CableRoutingCoordinator K}

theorem CableRoutingCoordinator.disposed_of_step (hdisposed : c.disposed = true) {event : Event K}
    (hstep : c.step platform event = some c') : c'.disposed = true := by
  cases event with
  | request requests force =>
    obtain rfl := Option.some.inj hstep
    obtain ⟨-, heq⟩ | ⟨-, ⟨message, heq⟩ | ⟨cache, revision, -, -, heq⟩ | ⟨state, -, heq⟩⟩ :=
      c.request_cases platform requests force
    all_goals rw [heq]
    · exact hdisposed
    · exact hdisposed
    · exact hdisposed
    · simp [enqueue, dispatchNext, hdisposed]
  | hydrate cache =>
    obtain rfl := Option.some.inj hstep
    simp [hydrate, hdisposed]
  | clear =>
    obtain rfl := Option.some.inj hstep
    exact hdisposed
  | dispose =>
    obtain rfl := Option.some.inj hstep
    rfl
  | completed revision result =>
    obtain ⟨work, -, rfl⟩ := Option.map_eq_some_iff.mp hstep
    simp [complete, settle, hdisposed]
  | failed revision error =>
    obtain ⟨work, -, rfl⟩ := Option.map_eq_some_iff.mp hstep
    simp [fail, settle, hdisposed]

/-- Until it is disposed, the coordinator goes together with what the canvas knows. -/
theorem Reachable.consistent {ledger : Ledger K} (h : Reachable platform c ledger)
    (hlive : c.disposed = false) : Consistent c ledger := by
  induction h with
  | start => exact consistent_start
  | step event hreached hstep ih =>
    have hbefore := mt (fun hdisposed => CableRoutingCoordinator.disposed_of_step hdisposed hstep)
      (Bool.eq_false_iff.mp hlive)
    exact (ih (Bool.eq_false_iff.mpr hbefore)).step hlive (Bool.eq_false_iff.mpr hbefore) hstep

/-- An answer that the canvas does not wait for changes nothing of what is published or cached. -/
theorem Consistent.ignores {ledger : Ledger K}
    (h : Consistent c ledger) (hlive : c.disposed = false) {revision : ℕ}
    (houtdated : ledger.outcome ≠ .waiting revision) (hrejected : ledger.outcome ≠ .rejected)
    {event : Event K}
    (hanswer : (∃ result, event = .completed revision result) ∨
      ∃ error, event = .failed revision error)
    (hstep : c.step platform event = some c') :
    { c'.state with pending := false } = { c.state with pending := false } ∧ c'.cache = c.cache := by
  obtain ⟨work, hcall, hresumed⟩ : ∃ work, c.call? revision = some work ∧
      (work.revision ≠ c.revision →
        c' = { c.settle revision with activeWork := none }.dispatchNext.finishPendingState) := by
    obtain ⟨result, rfl⟩ | ⟨error, rfl⟩ := hanswer
    all_goals
      obtain ⟨work, hcall, rfl⟩ := Option.map_eq_some_iff.mp hstep
      obtain ⟨hactive, rfl, -⟩ := h.call_eq hcall
      refine ⟨work, hcall, fun hne => ?_⟩
      have hguard : ((c.settle work.revision).disposed ||
          !((c.settle work.revision).isActive work)) = false := by
        simp [CableRoutingCoordinator.settle, CableRoutingCoordinator.isActive, hlive, hactive]
      have hne' : ¬work.revision = (c.settle work.revision).revision := hne
      simp only [CableRoutingCoordinator.complete, CableRoutingCoordinator.fail, hguard,
        Bool.false_eq_true, if_false, if_neg hne']
  obtain ⟨hactive, rfl, hplanning⟩ := h.call_eq hcall
  have hne : work.revision ≠ c.revision := by
    intro hlatest
    obtain ⟨-, ⟨hwaiting, -⟩ | hthrew⟩ := h.latest hactive hlatest
    · exact houtdated hwaiting
    · exact hrejected hthrew
  rw [hresumed hne, CableRoutingCoordinator.resume_eq]
  · exact ⟨rfl, rfl⟩
  · exact hlive
  · rfl
  · exact hplanning

/-- **What the coordinator settles on.** In any interleaving, until it is disposed: when it has
nothing to do and reports no error, and the requests most recently asked for were neither
interrupted nor threw, the routes and warnings are those of these requests; answers that are
outdated change nothing; requests that were interrupted or failed are planned again when they are
forced, and the same requests unforced change nothing. -/
theorem settles {c : CableRoutingCoordinator K} {ledger : Ledger K}
    (h : Reachable platform c ledger) (hlive : c.disposed = false) :
    (c.activeWork = none → c.queuedWork = none → c.state.pending = false →
      c.state.error = none → ledger.outcome ≠ .interrupted → ledger.outcome ≠ .rejected →
        SettledOn ledger c.state) ∧
    (∀ revision event c', ((∃ result, event = .completed revision result) ∨
        ∃ error, event = .failed revision error) → c.step platform event = some c' →
      ledger.outcome ≠ .waiting revision → ledger.outcome ≠ .rejected →
        { c'.state with pending := false } = { c.state with pending := false } ∧
          c'.cache = c.cache) ∧
    ((ledger.outcome = .interrupted ∨ ∃ message, ledger.outcome = .failed message) →
      ∀ requests,
        (∀ revision, (c.request platform requests true).1 = .ok revision →
          (c.request platform requests true).2.activeWork = some ⟨revision, requests, true⟩ ∧
          (c.request platform requests true).2.planning = [⟨revision, requests, true⟩]) ∧
        (requestSetsEqual (requestsById ledger.requests) (requestsById requests) = true →
          c.request platform requests false = (.ok c.revision, c))) := by
  have hconsistent := h.consistent hlive
  refine ⟨fun hactive hqueued _ herror hinterrupted hrejected =>
    hconsistent.settledOn hactive hqueued herror hinterrupted hrejected,
    fun revision event c' hanswer hstep houtdated hrejected =>
      hconsistent.ignores hlive houtdated hrejected hanswer hstep,
    fun hstopped requests => ⟨fun revision hok => ?_, fun hsame => ?_⟩⟩
  · have hactive := hconsistent.stopped hstopped
    obtain ⟨hunforced, -⟩ | ⟨-, ⟨message, heq⟩ | ⟨cache, other, hunforced, -, -⟩ |
      ⟨state, -, heq⟩⟩ := c.request_cases platform requests true
    · exact nomatch hunforced
    · rw [heq] at hok
      exact nomatch hok
    · exact nomatch hunforced
    · obtain ⟨hrevision, hstate⟩ := CableRoutingCoordinator.enqueue_eq
        (c := { c with desiredRequests := requestsById requests, state := state }) hlive
        hconsistent.planning requests true
      rw [heq] at hok ⊢
      obtain rfl := Except.ok.inj (hrevision.symm.trans hok)
      rw [hstate]
      simp [hactive]
  · simp only [CableRoutingCoordinator.request, hconsistent.desired, hsame, Bool.not_false,
      Bool.and_self, if_true]

end Interleavings

/-! ## An interrupted plan -/

section Examples

variable (platform : Platform ℚ)

/-- A cable straight to the right. -/
def straightCable (connectionId : ℕ) (y : ℚ) : CableLaneRouteRequest ℚ where
  connectionId := connectionId
  avoidCableOverlap := false
  request :=
    { source := ⟨0, y⟩
      target := ⟨240, y⟩
      sourceSide := some .right
      targetSide := some .left
      sourceCandidates := [⟨⟨0, y⟩, .right⟩]
      targetCandidates := [⟨⟨240, y⟩, .left⟩]
      laneOffset := 24
      obstacles := []
      sourceItemId := "server:1"
      targetItemId := "switch:1"
      snapToGrid := false }

/-- The route of a straight cable. -/
def straightRoute (connectionId : ℕ) (y : ℚ) : ObstacleRouteResult ℚ where
  route := ⟨connectionId, [⟨0, y⟩, ⟨240, y⟩], []⟩
  sourceSide := .right
  targetSide := .left
  usedFallback := false

/-- The plan of a straight cable. -/
def straightPlan (connectionId : ℕ) (y : ℚ) : CableRoutePlanResult ℚ where
  routes := [(connectionId, fromEngineResult (straightRoute connectionId y))]
  recalculatedConnectionIds := [connectionId]
  failures := []
  repairs := []
  cache :=
    { version := routingCacheFormatVersion
      plannerVersion := routingPlannerVersion
      geometryFingerprint :=
        (cableRoutingGeometryFingerprint platform [straightCable connectionId y]).toOption
      entries := [⟨connectionId, straightRoute connectionId y⟩]
      failures := [] }

/-- The input of the planner for a straight cable. -/
def straightInput (connectionId : ℕ) (y : ℚ) : LaneRouteRequest ℚ where
  avoidCableOverlap := false
  request :=
    { definition := ⟨connectionId, ⟨0, y⟩, ⟨240, y⟩, .right, .left, 24, []⟩
      sourceCandidates := [⟨⟨0, y⟩, .right⟩]
      targetCandidates := [⟨⟨240, y⟩, .left⟩]
      sourceSideConstraint := some .right
      targetSideConstraint := some .left
      sourceItemId := "server:1"
      targetItemId := "switch:1"
      snapToGrid := false
      gridSize := 12 }

theorem engineRequests_straightCable (connectionId : ℕ) (y : ℚ) :
    engineRequests [straightCable connectionId y] = .ok [straightInput connectionId y] := by
  have hsorted : sortByKey (·.connectionId) [straightCable connectionId y]
      = [straightCable connectionId y] := by
    simp [sortByKey, sortBy]
  rw [engineRequests, hsorted]
  rfl

/-- The plan of one cable is no cache for another one. -/
theorem matchingCache_straightPlan {c : CableRoutingCoordinator ℚ} {connectionId other : ℕ}
    {y z : ℚ} (hcache : c.cache = some (straightPlan platform connectionId y).cache)
    (hother : seedEntries [(other, straightInput other z)]
      (straightPlan platform connectionId y).cache.entries [] [] = none) :
    c.matchingCache platform [straightCable other z] = .ok none ∧
      c.geometryCache platform [straightCable other z] = .ok none := by
  have hseed : reconstructRoutingSeed platform
      (some (straightPlan platform connectionId y).cache) [straightCable other z] = .ok none := by
    simp only [reconstructRoutingSeed, straightPlan, cableRoutingGeometryFingerprint,
      engineRequests_straightCable]
    rw [if_neg (by simp)]
    simp only [bind, Except.bind, pure, Except.pure]
    refine ite_eq_left_iff.mpr fun _ => ?_
    have hinputs : ofEntries
        ([straightInput other z].map fun input => (input.request.definition.connectionId, input))
        = [(other, straightInput other z)] := rfl
    simp only [straightPlan] at hother
    rw [hinputs, if_neg (by simp), hother]
  constructor
  · simp only [CableRoutingCoordinator.matchingCache, hcache, routingCacheMatchesRequests, hseed]
    rfl
  · simp only [CableRoutingCoordinator.geometryCache, routingCacheGeometryMatchesRequests, hcache,
      hseed]
    rfl

/-- The coordinator after the plan of the first cable. -/
def afterPlan : CableRoutingCoordinator ℚ where
  revision := 1
  desiredRequests := [(1, straightCable 1 0)]
  cache := some (straightPlan platform 1 0).cache
  state := { routes := [(1, fromEngineResult (straightRoute 1 0))] }

theorem reachable_afterPlan :
    Reachable platform (afterPlan platform)
      ⟨[straightCable 1 0], [straightCable 1 0],
        .planned [straightCable 1 0] (straightPlan platform 1 0) []⟩ := by
  have hstart : Reachable platform {} {} := .start
  have hasked := hstart.step (.request [straightCable 1 0] false) rfl
  exact Reachable.step (.completed 1 (straightPlan platform 1 0)) hasked rfl

/-- Requests that differ from those before and are not cached wait for the planner. -/
theorem Reachable.enqueue {platform : Platform ℚ} {c : CableRoutingCoordinator ℚ}
    {ledger : Ledger ℚ} (h : Reachable platform c ledger) (hlive : c.disposed = false)
    {requests : List (CableLaneRouteRequest ℚ)}
    (hdiffers : requestSetsEqual c.desiredRequests (requestsById requests) = false)
    (huncached : c.matchingCache platform requests = .ok none ∧
      c.geometryCache platform requests = .ok none) :
    Reachable platform
      ({ c with desiredRequests := requestsById requests }.enqueue requests false).2
      ⟨requests, requests, .waiting (c.revision + 1)⟩ := by
  have hrequest : c.request platform requests false =
      { c with desiredRequests := requestsById requests }.enqueue requests false := by
    simp only [CableRoutingCoordinator.request, hdiffers, Bool.not_false, Bool.and_false,
      Bool.false_eq_true, if_false, huncached]
  have hstep : c.step platform (.request requests false) =
      some ({ c with desiredRequests := requestsById requests }.enqueue requests false).2 := by
    rw [CableRoutingCoordinator.step, hrequest]
  have hok : (c.request platform requests false).1 = .ok (c.revision + 1) := by
    rw [hrequest]
    rfl
  have hreached := h.step (.request requests false) hstep
  simp only [Ledger.observe, ← (h.consistent hlive).desired, hdiffers, Bool.and_false,
    Bool.false_eq_true, if_false, Outcome.ofRequest_eq_waiting hok (.inr huncached.1)] at hreached
  exact hreached

/-- Another cable is asked for after the first one was planned, and the planner is interrupted: the
coordinator has nothing to do and goes on publishing the route of the first cable. -/
theorem reachable_interrupted : ∃ c,
    Reachable platform c ⟨[straightCable 2 24], [straightCable 2 24], .interrupted⟩ ∧
      c.activeWork = none ∧ c.queuedWork = none ∧ c.state.pending = false ∧
      c.state.error = none ∧ c.disposed = false ∧
      c.state.routes = [(1, fromEngineResult (straightRoute 1 0))] ∧
      c.request platform [straightCable 2 24] false = (.ok c.revision, c) := by
  have huncached : (afterPlan platform).matchingCache platform [straightCable 2 24] = .ok none ∧
      (afterPlan platform).geometryCache platform [straightCable 2 24] = .ok none :=
    matchingCache_straightPlan platform rfl rfl
  have hasked := (reachable_afterPlan platform).enqueue rfl rfl huncached
  refine ⟨_, Reachable.step (.failed 2 .interrupted) hasked rfl, rfl, rfl, rfl, rfl, rfl, rfl, ?_⟩
  rfl

/-- The plan of a cable that was moved omits it. -/
def omittingPlan : CableRoutePlanResult ℚ :=
  { straightPlan platform 1 24 with
    routes := []
    cache := { (straightPlan platform 1 24).cache with entries := [] } }

/-- A plan that omits a desired connection leaves it the route it had. -/
theorem reachable_omitted : ∃ c,
    Reachable platform c ⟨[straightCable 1 24], [straightCable 1 24],
      .planned [straightCable 1 24] (omittingPlan platform) (afterPlan platform).state.routes⟩ ∧
      c.activeWork = none ∧ c.queuedWork = none ∧ c.state.pending = false ∧
      c.state.error = none ∧ c.disposed = false ∧
      c.state.routes = [(1, fromEngineResult (straightRoute 1 0))] := by
  have huncached : (afterPlan platform).matchingCache platform [straightCable 1 24] = .ok none ∧
      (afterPlan platform).geometryCache platform [straightCable 1 24] = .ok none :=
    matchingCache_straightPlan platform rfl rfl
  have hasked := (reachable_afterPlan platform).enqueue rfl rfl huncached
  exact ⟨_, Reachable.step (.completed 2 (omittingPlan platform)) hasked rfl, rfl, rfl, rfl, rfl,
    rfl, rfl⟩

end Examples

/-- Texts in the order of their characters, and a text that says nothing of the geometry. -/
def plainPlatform : Platform ℚ := ⟨compare, fun _ _ => ""⟩

/-- What the coordinator settles on when the first cable was planned. -/
theorem settles_afterPlan : ∃ (c : CableRoutingCoordinator ℚ) (ledger : Ledger ℚ),
    get? c.state.routes 1 = some (fromEngineResult (straightRoute 1 0)) ∧
      SettledOn ledger c.state := by
  have hsettled := (settles (reachable_afterPlan plainPlatform) rfl).1 rfl rfl rfl rfl nofun nofun
  exact ⟨afterPlan plainPlatform, _, rfl, hsettled⟩

/-- On no platform does the coordinator settle on the latest requests alone: after an interruption
it may have nothing to do and yet publish the route of a connection that is not asked for; asking
again plans nothing; and a plan that omits a connection does not take its route away. -/
theorem stale_routes_stay :
    (¬∃ platform : Platform ℚ, ∀ (c : CableRoutingCoordinator ℚ) (ledger : Ledger ℚ),
      Reachable platform c ledger → c.disposed = false → c.activeWork = none →
        c.queuedWork = none → c.state.pending = false → c.state.error = none →
          ∀ id route, get? c.state.routes id = some route →
            ∃ request ∈ ledger.asked, request.connectionId = id) ∧
    (¬∃ platform : Platform ℚ, ∀ (c : CableRoutingCoordinator ℚ) (ledger : Ledger ℚ),
      Reachable platform c ledger → c.disposed = false → ledger.outcome = .interrupted →
        (c.request platform ledger.asked false).2.activeWork ≠ none) ∧
    (¬∃ platform : Platform ℚ, ∀ (c : CableRoutingCoordinator ℚ) (ledger : Ledger ℚ),
      Reachable platform c ledger → c.disposed = false → c.activeWork = none →
        c.queuedWork = none → c.state.pending = false → c.state.error = none →
          ∀ requests result retained, ledger.outcome = .planned requests result retained →
            ∀ id route, get? c.state.routes id = some route →
              get? result.routes id ≠ none) := by
  refine ⟨?_, ?_, ?_⟩
  · rintro ⟨platform, hdesired⟩
    obtain ⟨c, hreached, hactive, hqueued, hpending, herror, hlive, hroutes, -⟩ :=
      reachable_interrupted platform
    obtain ⟨request, hrequest, hid⟩ := hdesired c _ hreached hlive hactive hqueued hpending herror
      1 _ (by rw [hroutes]; rfl)
    obtain rfl := List.mem_singleton.mp hrequest
    exact absurd hid (by decide)
  · rintro ⟨platform, hplanned⟩
    obtain ⟨c, hreached, hactive, -, -, -, hlive, -, hagain⟩ := reachable_interrupted platform
    refine hplanned c _ hreached hlive rfl ?_
    rw [hagain]
    exact hactive
  · rintro ⟨platform, hgiven⟩
    obtain ⟨c, hreached, hactive, hqueued, hpending, herror, hlive, hroutes⟩ :=
      reachable_omitted platform
    exact hgiven c _ hreached hlive hactive hqueued hpending herror _ _ _ rfl 1 _
      (by rw [hroutes]; rfl) rfl

end HomelabInventory.CableRouting
