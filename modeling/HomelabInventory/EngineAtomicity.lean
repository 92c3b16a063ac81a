import HomelabInventory.Engine

/-!
# Commands are atomic

What a request can do to an engine, said once: it keeps the state, advances the
project by one revision, or advances the geometry or the routes by one revision.
That a request which is turned down changes nothing is read off this list.
-/

namespace HomelabInventory

/-- The patches of an answer. -/
def ResponseBody.patches? {K : Type} : ResponseBody K → Option (CommandPatchSet K)
  | .patch patches => some patches
  | _ => none

/-- The error of an answer. -/
def ResponseBody.error? {K : Type} : ResponseBody K → Option EngineError
  | .error failure => some failure
  | _ => none

/-- The answers that come with a change of state. -/
def ResponseBody.isCommit {K : Type} : ResponseBody K → Bool
  | .patch _ | .geometryUpdated _ | .routesUpdated _ | .routeEdited _ _ => true
  | _ => false

variable {K : Type} [Scalar K]

omit [Scalar K] in
@[simp] theorem ResponseBody.patches?_eq_some {body : ResponseBody K} {patches : CommandPatchSet K} :
    body.patches? = some patches ↔ body = .patch patches := by
  cases body <;> simp [patches?]

omit [Scalar K] in
theorem ResponseBody.error?_eq_some {body : ResponseBody K} {failure : EngineError} :
    body.error? = some failure ↔ body = .error failure := by
  cases body <;> simp [error?]

/-- What a request can do. -/
inductive StepOutcome (engine : Engine K) : Engine K × ResponseBody K → Prop
  /-- the state is kept -/
  | kept (body : ResponseBody K) (hbody : body.isCommit = false) : StepOutcome engine (engine, body)
  /-- the project advances -/
  | advanced (projectName : String) (nextConnectionId : Option ℕ) (topology : TopologyIndex K)
      (forward inverse : ProjectPatch K) :
      StepOutcome engine
        ({ engine with
            projectName := projectName
            nextConnectionId := nextConnectionId
            topology := topology
            revision := engine.revision + 1 },
          .patch { revision := engine.revision + 1, forward := forward, inverse := inverse })
  /-- the geometry advances -/
  | measured (geometry : SpatialIndex K) (handles : BTreeMap String (GeometryHandle K)) :
      StepOutcome engine
        ({ engine with
            geometry := geometry
            handles := handles
            geometryRevision := engine.geometryRevision + 1 },
          .geometryUpdated (engine.geometryRevision + 1))
  /-- the routes are replaced -/
  | rerouted (routes : BTreeMap ℕ (RouteDefinition K)) :
      StepOutcome engine
        ({ engine with routes := routes, routingRevision := engine.routingRevision + 1 },
          .routesUpdated (engine.routingRevision + 1))
  /-- a route is edited -/
  | edited (routes : BTreeMap ℕ (RouteDefinition K)) (edit : RouteEdit K) :
      StepOutcome engine
        ({ engine with routes := routes, routingRevision := engine.routingRevision + 1 },
          .routeEdited (engine.routingRevision + 1) edit)

theorem checkedSucc_eq_some {n m : ℕ} : checkedSucc n = some m ↔ n < u32Max ∧ m = n + 1 := by
  unfold checkedSucc
  by_cases hn : n < u32Max
  · simp [hn, eq_comm]
  · simp [hn]

namespace StepOutcome

variable {engine : Engine K}

/-- A request that is turned down keeps the state. -/
theorem rejected (error : EngineError) : StepOutcome engine (engine, .error error) := .kept _ rfl

theorem install (change : TopologyChange K) : StepOutcome engine (engine.install change) := by
  unfold Engine.install
  cases TopologyIndex.build change.snapshot with
  | error error => exact rejected _
  | ok topology => exact .advanced _ _ topology _ _

theorem commitTopology (change : TopologyChange K) :
    StepOutcome engine (engine.commitTopology change) := by
  unfold Engine.commitTopology
  by_cases hrevision : engine.revision = u32Max
  · rw [if_pos hrevision]
    exact rejected _
  · rw [if_neg hrevision]
    exact install change

theorem commitPrepared (prepared : Except EngineError (TopologyChange K)) :
    StepOutcome engine (engine.commitPrepared prepared) := by
  cases prepared with
  | error error => exact rejected _
  | ok change => exact commitTopology change

theorem updateProjectMetadata (name : String) :
    StepOutcome engine (engine.updateProjectMetadata name) := by
  unfold Engine.updateProjectMetadata
  dsimp only
  split
  · exact rejected _
  · split
    · exact rejected _
    · exact .advanced _ _ _ _ _

theorem updateAssignments (changes : List AssignmentChange) :
    StepOutcome engine (engine.updateAssignments changes) := by
  unfold Engine.updateAssignments
  split
  · exact rejected _
  · split
    · exact rejected _
    · cases prepareAssignments engine.topology.snapshot changes with
      | error error => exact rejected _
      | ok change => exact install change

theorem updatePlacements (changes : List (PlacementChange K)) :
    StepOutcome engine (engine.updatePlacements changes) := by
  unfold Engine.updatePlacements
  split
  · exact rejected _
  · split
    · exact rejected _
    · cases planPlacements engine.topology.snapshot changes with
      | error error => exact rejected _
      | ok plan =>
        dsimp only
        split
        · exact install _
        · exact .advanced _ _ _ _ _

theorem snapPlacementsToGrid (nodes : List (GeometryNode K)) (gridSize : K) (maxRings : ℕ) :
    StepOutcome engine (engine.snapPlacementsToGrid nodes gridSize maxRings) := by
  unfold Engine.snapPlacementsToGrid
  cases snapChanges engine.topology.snapshot nodes gridSize maxRings with
  | error error => exact rejected _
  | ok changes => exact updatePlacements changes

theorem reserveConnectionId (connectionId : ℕ) {answer : Engine K × ResponseBody K}
    (h : StepOutcome engine answer) :
    StepOutcome engine (Engine.reserveConnectionId connectionId answer) := by
  cases h with
  | kept body hbody =>
    cases body with
    | patch patches => cases hbody
    | _ => exact .kept _ hbody
  | advanced projectName nextConnectionId topology forward inverse =>
    exact .advanced projectName (checkedSucc connectionId) topology forward inverse
  | measured geometry handles => exact .measured geometry handles
  | rerouted routes => exact .rerouted routes
  | edited routes edit => exact .edited routes edit

theorem createConnection (source target : EndpointRef) (createdAt : String) :
    StepOutcome engine (engine.createConnection source target createdAt) := by
  unfold Engine.createConnection
  cases prepareCreation engine.topology engine.nextConnectionId source target createdAt with
  | error error => exact rejected _
  | ok prepared => exact reserveConnectionId prepared.1 (commitTopology prepared.2)

theorem replaceGeometry (nodes : List (GeometryNode K)) (handles : List (GeometryHandle K)) :
    StepOutcome engine (engine.replaceGeometry nodes handles) := by
  unfold Engine.replaceGeometry
  dsimp only
  split
  · exact rejected _
  · exact rejected _
  · rename_i hrevision
    obtain ⟨-, rfl⟩ := checkedSucc_eq_some.mp hrevision
    exact .measured _ _

theorem updateGeometry (upsertNodes : List (GeometryNode K)) (removeNodeIds : List String)
    (upsertHandles : List (GeometryHandle K)) (removeHandleKeys : List String) :
    StepOutcome engine
      (engine.updateGeometry upsertNodes removeNodeIds upsertHandles removeHandleKeys) := by
  unfold Engine.updateGeometry
  split
  · exact rejected _
  · exact rejected _
  · rename_i hrevision
    obtain ⟨-, rfl⟩ := checkedSucc_eq_some.mp hrevision
    exact .measured _ _

theorem replaceRoutes (routes : List (RouteDefinition K)) :
    StepOutcome engine (engine.replaceRoutes routes) := by
  unfold Engine.replaceRoutes
  dsimp only
  split
  · exact rejected _
  · exact rejected _
  · rename_i hrevision
    obtain ⟨-, rfl⟩ := checkedSucc_eq_some.mp hrevision
    exact .rerouted _

theorem commitRouteEdit (edit : Except RoutingError (RouteEdit K)) :
    StepOutcome engine (engine.commitRouteEdit edit) := by
  cases edit with
  | error error => exact rejected _
  | ok edit =>
    unfold Engine.commitRouteEdit
    cases hrevision : checkedSucc engine.routingRevision with
    | none => exact rejected _
    | some revision =>
      obtain ⟨-, rfl⟩ := checkedSucc_eq_some.mp hrevision
      dsimp only
      cases engine.routes[edit.forward.connectionId]? with
      | none => exact rejected _
      | some route => exact .edited _ edit

end StepOutcome

/-- A query keeps the state, whatever it answers. -/
theorem Engine.perform_of_isQuery (engine : Engine K) {operation : Operation K}
    (hquery : operation.isQuery = true) :
    (engine.perform operation).1 = engine ∧
      (engine.perform operation).2.isCommit = false := by
  have hgeometry : ∀ {α : Type} {answer : α → ResponseBody K},
      (∀ a, (answer a).isCommit = false) → ∀ result : Except GeometryError α,
      (Engine.geometryAnswer answer result).isCommit = false := by
    intro α answer hanswer result
    cases result with
    | error error => rfl
    | ok a => exact hanswer a
  have hrouting : ∀ {α : Type} {answer : α → ResponseBody K},
      (∀ a, (answer a).isCommit = false) → ∀ result : Except RoutingError α,
      (Engine.routingAnswer answer result).isCommit = false := by
    intro α answer hanswer result
    cases result with
    | error error => rfl
    | ok a => exact hanswer a
  cases operation <;> first
    | exact absurd hquery Bool.false_ne_true
    | exact ⟨rfl, hgeometry (fun _ => rfl) _⟩
    | exact ⟨rfl, hrouting (fun _ => rfl) _⟩
    | exact ⟨rfl, rfl⟩

/-- **One step.** Every operation but the planning of cables has one of the
listed outcomes. -/
theorem Engine.perform_outcome (engine : Engine K) {operation : Operation K}
    (hplan : operation.isPlanCableRoutes = false) :
    StepOutcome engine (engine.perform operation) := by
  by_cases hquery : operation.isQuery = true
  · obtain ⟨hstate, hbody⟩ := engine.perform_of_isQuery hquery
    cases hperform : engine.perform operation with
    | mk next body =>
      rw [hperform] at hstate hbody
      obtain rfl : next = engine := hstate
      exact .kept body hbody
  · cases operation with
    | createConnection source target createdAt => exact .createConnection source target createdAt
    | removeConnection connectionId => exact .commitPrepared _
    | updateConnectionLabel connectionId label => exact .commitPrepared _
    | updateConnectionRoute connectionId route => exact .commitPrepared _
    | resolveConnectionRouteSides changes => exact .commitPrepared _
    | canonicalizeConnectionRoutes changes => exact .commitPrepared _
    | resetAllConnectionBends => exact .commitPrepared _
    | restoreAutomaticConnectionRoutes => exact .commitPrepared _
    | updateProjectMetadata name => exact .updateProjectMetadata name
    | updateAssignments changes => exact .updateAssignments changes
    | updatePlacements changes => exact .updatePlacements changes
    | snapPlacementsToGrid nodes gridSize maxRings =>
      exact .snapPlacementsToGrid nodes gridSize maxRings
    | replaceGeometry nodes handles => exact .replaceGeometry nodes handles
    | updateGeometry upsertNodes removeNodeIds upsertHandles removeHandleKeys =>
      exact .updateGeometry upsertNodes removeNodeIds upsertHandles removeHandleKeys
    | replaceRoutes routes => exact .replaceRoutes routes
    | insertManualBend connectionId segmentIndex point snapGrid => exact .commitRouteEdit _
    | removeManualBend connectionId bendIndex => exact .commitRouteEdit _
    | moveRouteSegment connectionId segmentIndex coordinate snapGrid threshold =>
      exact .commitRouteEdit _
    | resetRoute connectionId => exact .commitRouteEdit _
    | planCableRoutes plan => cases hplan
    | _ => exact absurd rfl hquery

/-- Every request but the planning of cables has one of the listed outcomes. -/
theorem Engine.handle_outcome (engine : Engine K) {request : EngineRequest K}
    (hplan : request.operation.isPlanCableRoutes = false) :
    StepOutcome engine (engine.handle request) := by
  unfold Engine.handle
  split
  · exact .rejected _
  · split
    · exact .rejected _
    · exact engine.perform_outcome hplan

/-- A request about a query keeps the state, whatever it answers. -/
theorem Engine.handle_of_isQuery (engine : Engine K) {request : EngineRequest K}
    (hquery : request.operation.isQuery = true) : (engine.handle request).1 = engine := by
  unfold Engine.handle
  split
  · rfl
  · split
    · rfl
    · exact (engine.perform_of_isQuery hquery).1

/-- **Commands are atomic.** An error keeps the whole state, and so does a query.
A patch advances the project revision by one and touches neither geometry nor
routes; a change of geometry or routes advances its own revision by one and
touches nothing of the project. -/
theorem Engine.dispatch_atomic (engine : Engine K) (request : EngineRequest K)
    (hplan : request.operation.isPlanCableRoutes = false) :
    let next := (engine.dispatch request).1
    let result := (engine.dispatch request).2.result
    (∀ error, result = .error error → next = engine) ∧
    (request.operation.isQuery = true → next = engine) ∧
    (∀ patches, result = .patch patches →
      next.revision = engine.revision + 1 ∧ patches.revision = next.revision ∧
      next.geometry = engine.geometry ∧ next.handles = engine.handles ∧
      next.geometryRevision = engine.geometryRevision ∧ next.routes = engine.routes ∧
      next.routingRevision = engine.routingRevision ∧ next.routePlanner = engine.routePlanner) ∧
    (∀ revision, result = .geometryUpdated revision →
      revision = engine.geometryRevision + 1 ∧
      next = { engine with
        geometry := next.geometry
        handles := next.handles
        geometryRevision := revision }) ∧
    (∀ revision, result = .routesUpdated revision ∨ (∃ edit, result = .routeEdited revision edit) →
      revision = engine.routingRevision + 1 ∧
      next = { engine with routes := next.routes, routingRevision := revision }) := by
  intro next result
  have houtcome := engine.handle_outcome hplan
  have hquery : request.operation.isQuery = true → next = engine := engine.handle_of_isQuery
  have hnext : next = (engine.handle request).1 := rfl
  have hresult : result = (engine.handle request).2 := rfl
  clear_value next result
  cases hhandle : engine.handle request with
  | mk next' body =>
    rw [hhandle] at houtcome hnext hresult
    dsimp only at hnext hresult
    subst hnext hresult
    refine ⟨?_, hquery, ?_, ?_, ?_⟩
    · rintro error rfl
      cases houtcome with
      | kept => rfl
    · rintro patches rfl
      cases houtcome with
      | kept body hbody => cases hbody
      | advanced => exact ⟨rfl, rfl, rfl, rfl, rfl, rfl, rfl, rfl⟩
    · rintro revision rfl
      cases houtcome with
      | kept body hbody => cases hbody
      | measured => exact ⟨rfl, rfl⟩
    · rintro revision (rfl | ⟨edit, rfl⟩)
      · cases houtcome with
        | kept body hbody => cases hbody
        | rerouted => exact ⟨rfl, rfl⟩
      · cases houtcome with
        | kept body hbody => cases hbody
        | edited => exact ⟨rfl, rfl⟩

/-- The engine of a project that was just opened. -/
def openedEngine (nextConnectionId : ℕ) (topology : TopologyIndex ℚ) : Engine ℚ where
  revision := 0
  projectName := "Desk"
  nextConnectionId := some nextConnectionId
  topology := topology

/-- Connect the switch through the patch panel. -/
def connectSwitch : EngineRequest ℚ where
  protocolVersion := 1
  requestId := 7
  baseRevision := 0
  operation := .createConnection { item := ⟨"switch", 3⟩, portId := 1 }
    { item := ⟨"patchPanel", 2⟩, portId := 1, endpointId := some 2 } "today"

/-- Sides are saved for a cable, but not when the same request names a cable that there is not. -/
theorem Engine.dispatch_atomic_batch :
    let request : List ConnectionRouteSideResolution → EngineRequest ℚ := fun changes =>
      { protocolVersion := 1
        requestId := 7
        baseRevision := 0
        operation := .resolveConnectionRouteSides changes }
    ∃ (engine : Engine ℚ) (error : EngineError), engine.topology.snapshot = patchedServer ∧
      (engine.dispatch (request [⟨1, .right, .left⟩])).2.result.patches?.isSome = true ∧
      (engine.dispatch (request [⟨1, .right, .left⟩, ⟨9, .right, .left⟩])).2.result = .error error ∧
      (engine.dispatch (request [⟨1, .right, .left⟩, ⟨9, .right, .left⟩])).1 = engine := by
  intro request
  obtain ⟨topology, hbuild, hfirst, hboth⟩ : ∃ topology,
      TopologyIndex.build patchedServer = .ok topology ∧
      ((openedEngine 3 topology).dispatch
        (request [⟨1, .right, .left⟩])).2.result.patches?.isSome = true ∧
      ((openedEngine 3 topology).dispatch (request
        [⟨1, .right, .left⟩, ⟨9, .right, .left⟩])).2.result.error?.isSome = true :=
    exists_ok_of_any (by decide +kernel)
  obtain ⟨error, herror⟩ := Option.isSome_iff_exists.mp hboth
  have herror := ResponseBody.error?_eq_some.mp herror
  exact ⟨openedEngine 3 topology, error, TopologyIndex.build_eq_ok.mp hbuild, hfirst, herror,
    (Engine.dispatch_atomic _ _ rfl).1 error herror⟩

end HomelabInventory
