import HomelabInventory.EngineAtomicity
import HomelabInventory.Lookup
import HomelabInventory.TopologyValidity

/-!
# Commits

The inversion of the commands that answer with a patch: what was prepared, and
what the engine is after the commit. The later developments about patches and
wiring read a command off these lemmas and never unfold it.
-/

namespace HomelabInventory

variable {K : Type} [Scalar K]

omit [Scalar K] in
theorem find?_id_eq_lookup (connections : List (TopologyConnection K)) (connectionId : ℕ) :
    connections.find? (·.id == connectionId) =
      lookup TopologyConnection.id connections connectionId := by
  unfold lookup
  congr 1

namespace Engine

/-- The engine after a change of the topology, and its answer. -/
structure CommitOf (engine : Engine K) (change : TopologyChange K) (next : Engine K)
    (patches : CommandPatchSet K) : Prop where
  /-- the revision could be advanced -/
  available : engine.revision ≠ u32Max
  /-- the new state -/
  state : ∃ topology : TopologyIndex K, topology.snapshot = change.snapshot ∧
    next = { engine with topology := topology, revision := engine.revision + 1 }
  /-- the answer -/
  answer : patches =
    { revision := engine.revision + 1, forward := change.forward, inverse := change.inverse }

variable {engine next : Engine K} {patches : CommandPatchSet K}

variable {change change' : TopologyChange K}

theorem CommitOf.snapshot_eq (h : engine.CommitOf change next patches) :
    next.topology.snapshot = change.snapshot := by
  obtain ⟨topology, hsnapshot, rfl⟩ := h.state
  exact hsnapshot

theorem CommitOf.projectName_eq (h : engine.CommitOf change next patches) :
    next.projectName = engine.projectName := by
  obtain ⟨topology, -, rfl⟩ := h.state
  rfl

/-- Another change to the same snapshot commits to the same state. -/
theorem CommitOf.of_snapshot (h : engine.CommitOf change next patches)
    (hsnapshot : change'.snapshot = change.snapshot) :
    engine.CommitOf change' next
      { revision := engine.revision + 1, forward := change'.forward, inverse := change'.inverse } :=
  ⟨h.available, hsnapshot ▸ h.state, rfl⟩

theorem install_eq_patch (havailable : engine.revision ≠ u32Max) :
    engine.install change = (next, .patch patches) ↔ engine.CommitOf change next patches := by
  unfold install
  cases hbuild : TopologyIndex.build change.snapshot with
  | error error =>
    simp only [Prod.mk.injEq, reduceCtorEq, and_false, false_iff]
    intro h
    obtain ⟨topology, hsnapshot, -⟩ := h.state
    rw [TopologyIndex.build_eq_ok.mpr hsnapshot] at hbuild
    cases hbuild
  | ok topology =>
    have hsnapshot := TopologyIndex.build_eq_ok.mp hbuild
    simp only [advance, Prod.mk.injEq, ResponseBody.patch.injEq]
    constructor
    · rintro ⟨rfl, rfl⟩
      exact ⟨havailable, ⟨topology, hsnapshot, rfl⟩, rfl⟩
    · intro h
      obtain ⟨topology', hsnapshot', rfl⟩ := h.state
      obtain rfl := TopologyIndex.ext_snapshot (hsnapshot.trans hsnapshot'.symm)
      exact ⟨rfl, h.answer.symm⟩

theorem commitTopology_eq_patch :
    engine.commitTopology change = (next, .patch patches) ↔
      engine.CommitOf change next patches := by
  unfold commitTopology
  by_cases havailable : engine.revision = u32Max
  · rw [if_pos havailable]
    simp only [Prod.mk.injEq, reduceCtorEq, and_false, false_iff]
    exact fun h => h.available havailable
  · rw [if_neg havailable]
    exact install_eq_patch havailable

theorem commitPrepared_eq_patch {prepared : Except EngineError (TopologyChange K)} :
    engine.commitPrepared prepared = (next, .patch patches) ↔
      ∃ change, prepared = .ok change ∧ engine.CommitOf change next patches := by
  cases prepared with
  | error error => simp [commitPrepared]
  | ok change => simp [commitPrepared, commitTopology_eq_patch]

/-- Preparing another change to the same snapshot commits to the same state. -/
theorem CommitOf.commitPrepared {prepared : Except EngineError (TopologyChange K)}
    (h : engine.CommitOf change next patches) (hprepared : prepared = .ok change')
    (hsnapshot : change'.snapshot = change.snapshot) :
    ∃ patches', engine.commitPrepared prepared = (next, .patch patches') :=
  ⟨_, commitPrepared_eq_patch.mpr ⟨change', hprepared, h.of_snapshot hsnapshot⟩⟩

theorem updateProjectMetadata_eq_patch {name : String} :
    engine.updateProjectMetadata name = (next, .patch patches) ↔
      (trim name).isEmpty = false ∧ engine.revision ≠ u32Max ∧
      next = { engine with projectName := trim name, revision := engine.revision + 1 } ∧
      patches =
        { revision := engine.revision + 1
          forward := .setProjectName (trim name)
          inverse := .setProjectName engine.projectName } := by
  unfold updateProjectMetadata
  by_cases hempty : (trim name).isEmpty = true
  · simp [hempty]
  · by_cases havailable : engine.revision = u32Max
    · simp [hempty, havailable]
    · simp only [Bool.not_eq_true] at hempty
      simp only [hempty, Bool.false_eq_true, if_false, havailable, Prod.mk.injEq,
        ResponseBody.patch.injEq, ne_eq, not_false_eq_true, true_and]
      simp only [eq_comm]

theorem updateAssignments_eq_patch {changes : List AssignmentChange} :
    engine.updateAssignments changes = (next, .patch patches) ↔
      changes ≠ [] ∧ ∃ change, prepareAssignments engine.topology.snapshot changes = .ok change ∧
        engine.CommitOf change next patches := by
  unfold updateAssignments
  by_cases hempty : changes = []
  · simp [hempty]
  · by_cases havailable : engine.revision = u32Max
    · simp only [List.isEmpty_iff, hempty, if_false, havailable, if_true, Prod.mk.injEq,
        reduceCtorEq, and_false, ne_eq, not_false_eq_true, true_and, false_iff]
      rintro ⟨change, -, h⟩
      exact h.available havailable
    · simp only [List.isEmpty_iff, hempty, if_false, havailable, ne_eq, not_false_eq_true, true_and]
      cases hprepare : prepareAssignments engine.topology.snapshot changes with
      | error error => simp
      | ok change => simp [install_eq_patch havailable]

theorem reserveConnectionId_eq_patch {connectionId : ℕ} {answer : Engine K × ResponseBody K} :
    reserveConnectionId connectionId answer = (next, .patch patches) ↔
      ∃ committed, answer = (committed, .patch patches) ∧
        next = { committed with nextConnectionId := checkedSucc connectionId } := by
  obtain ⟨committed, body⟩ := answer
  cases body with
  | patch patches' =>
    simp only [reserveConnectionId, Prod.mk.injEq, ResponseBody.patch.injEq]
    constructor
    · rintro ⟨rfl, rfl⟩
      exact ⟨committed, ⟨rfl, rfl⟩, rfl⟩
    · rintro ⟨_, ⟨rfl, rfl⟩, rfl⟩
      exact ⟨rfl, rfl⟩
  | _ => simp [reserveConnectionId]

theorem createConnection_eq_patch {source target : EndpointRef} {createdAt : String} :
    engine.createConnection source target createdAt = (next, .patch patches) ↔
      ∃ connectionId change committed,
        prepareCreation engine.topology engine.nextConnectionId source target createdAt =
          .ok (connectionId, change) ∧
        engine.CommitOf change committed patches ∧
        next = { committed with nextConnectionId := checkedSucc connectionId } := by
  unfold createConnection
  cases hprepare : prepareCreation engine.topology engine.nextConnectionId source target createdAt with
  | error error => simp
  | ok prepared =>
    obtain ⟨connectionId, change⟩ := prepared
    simp only [reserveConnectionId_eq_patch, commitTopology_eq_patch, Except.ok.injEq,
      Prod.mk.injEq]
    constructor
    · rintro ⟨committed, hcommit, rfl⟩
      exact ⟨connectionId, change, committed, ⟨rfl, rfl⟩, hcommit, rfl⟩
    · rintro ⟨_, _, committed, ⟨rfl, rfl⟩, hcommit, rfl⟩
      exact ⟨committed, hcommit, rfl⟩

/-- The outcome of a change of placements: the placed items are exactly those of
the plan, and nothing else of the project changes. -/
theorem updatePlacements_eq_patch {changes : List (PlacementChange K)}
    (h : engine.updatePlacements changes = (next, .patch patches)) :
    changes ≠ [] ∧ engine.revision ≠ u32Max ∧
      ∃ plan placements, planPlacements engine.topology.snapshot changes = .ok plan ∧
        (placements = engine.topology.snapshot.placements ∧
            plan.placedItems.toList = (collectSet placements).toList ∨
          placements = plan.placedItems.toList ∧
            placements ≠ (collectSet engine.topology.snapshot.placements).toList) ∧
        engine.CommitOf
          { snapshot := { engine.topology.snapshot with placements := placements }
            forward := .patchPlacements plan.lists.forwardUpsert plan.lists.forwardRemove
            inverse := .patchPlacements plan.lists.inverseUpsert plan.lists.inverseRemove }
          next patches := by
  unfold updatePlacements at h
  split at h
  · cases h
  · rename_i hempty
    split at h
    · cases h
    · rename_i havailable
      refine ⟨by simpa using hempty, havailable, ?_⟩
      cases hplan : planPlacements engine.topology.snapshot changes with
      | error error =>
        rw [hplan] at h
        cases h
      | ok plan =>
        rw [hplan] at h
        dsimp only at h
        split at h
        · rename_i hchanged
          rw [install_eq_patch havailable] at h
          exact ⟨plan, plan.placedItems.toList, rfl, Or.inr ⟨rfl, hchanged⟩, h⟩
        · rename_i hsame
          refine ⟨plan, engine.topology.snapshot.placements, rfl,
            Or.inl ⟨rfl, not_not.mp hsame⟩, havailable, ⟨engine.topology, rfl, ?_⟩, ?_⟩
          · exact ((Prod.mk.inj h).1).symm
          · exact (ResponseBody.patch.inj (Prod.mk.inj h).2).symm

theorem snapPlacementsToGrid_eq_patch {nodes : List (GeometryNode K)} {gridSize : K}
    {maxRings : ℕ} :
    engine.snapPlacementsToGrid nodes gridSize maxRings = (next, .patch patches) ↔
      ∃ changes, snapChanges engine.topology.snapshot nodes gridSize maxRings = .ok changes ∧
        engine.updatePlacements changes = (next, .patch patches) := by
  unfold snapPlacementsToGrid
  cases snapChanges engine.topology.snapshot nodes gridSize maxRings with
  | error error => simp
  | ok changes => simp

/-! ## The commands that answer with a patch -/

/-- The body of an answer is a patch. -/
def isPatch : ResponseBody K → Bool
  | .patch _ => true
  | _ => false

omit [Scalar K] in
theorem isPatch_of_isCommit {body : ResponseBody K} (h : body.isCommit = false) :
    isPatch body = false := by
  cases body <;> first | rfl | cases h

theorem isPatch_replaceGeometry (nodes : List (GeometryNode K))
    (handles : List (GeometryHandle K)) :
    isPatch (engine.replaceGeometry nodes handles).2 = false := by
  unfold replaceGeometry
  dsimp only
  split <;> rfl

theorem isPatch_updateGeometry (upsertNodes : List (GeometryNode K)) (removeNodeIds : List String)
    (upsertHandles : List (GeometryHandle K)) (removeHandleKeys : List String) :
    isPatch (engine.updateGeometry upsertNodes removeNodeIds upsertHandles removeHandleKeys).2 =
      false := by
  unfold updateGeometry
  split <;> rfl

theorem isPatch_replaceRoutes (routes : List (RouteDefinition K)) :
    isPatch (engine.replaceRoutes routes).2 = false := by
  unfold replaceRoutes
  dsimp only
  split <;> rfl

theorem isPatch_commitRouteEdit (edit : Except RoutingError (RouteEdit K)) :
    isPatch (engine.commitRouteEdit edit).2 = false := by
  unfold commitRouteEdit
  split
  · rfl
  · split
    · rfl
    · split <;> rfl

/-- Only commands on the project answer with a patch. -/
theorem isPatch_perform (engine : Engine K) {operation : Operation K} (h : operation.isCommand = false) :
    isPatch (engine.perform operation).2 = false := by
  by_cases hquery : operation.isQuery = true
  · exact isPatch_of_isCommit (engine.perform_of_isQuery hquery).2
  · cases operation with
    | planCableRoutes plan =>
      simp only [perform, planCableRoutes]
      cases (engine.routePlanner.plan plan).2 <;> rfl
    | replaceGeometry => exact isPatch_replaceGeometry _ _
    | updateGeometry => exact isPatch_updateGeometry _ _ _ _
    | replaceRoutes => exact isPatch_replaceRoutes _
    | insertManualBend => exact isPatch_commitRouteEdit _
    | removeManualBend => exact isPatch_commitRouteEdit _
    | moveRouteSegment => exact isPatch_commitRouteEdit _
    | resetRoute => exact isPatch_commitRouteEdit _
    | _ => first | exact absurd rfl hquery | cases h

theorem isCommand_of_perform_eq_patch {operation : Operation K}
    (h : engine.perform operation = (next, .patch patches)) : operation.isCommand = true := by
  by_contra hcommand
  have hbody := engine.isPatch_perform (Bool.not_eq_true _ ▸ hcommand)
  rw [h] at hbody
  cases hbody

/-- A request that is answered with a patch has carried out its operation. -/
theorem dispatch_eq_patch {request : EngineRequest K}
    (h : (engine.dispatch request).2.result = .patch patches) :
    request.protocolVersion = HomelabInventory.protocolVersion ∧
      request.baseRevision = engine.revision ∧
      engine.perform request.operation = ((engine.dispatch request).1, .patch patches) := by
  have hresult : (engine.handle request).2 = .patch patches := h
  have hnext : (engine.dispatch request).1 = (engine.handle request).1 := rfl
  rw [hnext]
  unfold handle at hresult ⊢
  split at hresult
  · cases hresult
  · split at hresult
    · cases hresult
    · rename_i hversion hrevision
      rw [if_neg hversion, if_neg hrevision]
      exact ⟨not_not.mp hversion, not_not.mp hrevision, Prod.ext rfl hresult⟩

end Engine

/-! ## Preparation of changes -/

variable {before topology : TopologySnapshot K}
variable {change : TopologyChange K}

omit [Scalar K] in
theorem prepareAssignments_eq_ok {changes : List AssignmentChange} :
    prepareAssignments topology changes = .ok change ↔
    ∃ plan, changes.foldlM planAssignment
        { assignments := collectEntries (topology.assignments.map fun assignment =>
            (assignment.id, assignment)) } = .ok plan ∧
      plan.lists.isEmpty = false ∧
      change =
        { snapshot := { topology with assignments := plan.assignments.values }
          forward := .patchAssignments (sortByKey (·.id) plan.lists.forwardUpsert)
            (sortBy compare plan.lists.forwardRemove)
          inverse := .patchAssignments (sortByKey (·.id) plan.lists.inverseUpsert)
            (sortBy compare plan.lists.inverseRemove) } := by
  simp only [prepareAssignments, bind_eq_ok, failIf_eq_ok, pure_eq_ok, Bool.not_eq_true]
  constructor
  · rintro ⟨plan, hplan, -, hchanged, rfl⟩
    exact ⟨plan, hplan, hchanged, rfl⟩
  · rintro ⟨plan, hplan, hchanged, rfl⟩
    exact ⟨plan, hplan, (), hchanged, rfl⟩

/-- The key of a change is that of both its sides. -/
theorem changeKey_eq_ok {α κ : Type} [DecidableEq κ] {key : α → κ} {replaced missing : EngineError}
    {previous next : Option α} {k : κ} :
    changeKey key replaced missing previous next = .ok k ↔
      (∀ a, previous = some a → key a = k) ∧ (∀ a, next = some a → key a = k) ∧
        (previous.isSome ∨ next.isSome) := by
  cases previous with
  | none =>
    cases next with
    | none => simp [changeKey]
    | some next => simp [changeKey]
  | some previous =>
    cases next with
    | none => simp [changeKey]
    | some next =>
      by_cases hkey : key previous = key next
      · simp [changeKey, hkey]
      · simp only [changeKey, hkey, if_false, reduceCtorEq, Option.some.injEq, forall_eq',
          false_iff, not_and]
        intro hprevious hnext
        exact absurd (hprevious.trans hnext.symm) hkey

/-- One assignment change: it names one fresh, positive identifier and its current
assignment; then it writes the next one, or changes nothing. -/
theorem planAssignment_eq_ok {plan plan' : AssignmentPlan} {change : AssignmentChange} :
    planAssignment plan change = .ok plan' ↔
    ∃ id, ((∀ a, change.previous = some a → a.id = id) ∧ (∀ a, change.next = some a → a.id = id) ∧
        (change.previous.isSome ∨ change.next.isSome)) ∧
      (id ≠ 0 ∧ id ∉ plan.seen) ∧ plan.assignments[id]? = change.previous ∧
      plan' =
        if change.previous = change.next then { plan with seen := plan.seen.insert id }
        else
          { assignments := setEntry plan.assignments id change.next
            seen := plan.seen.insert id
            lists := plan.lists.record id change.previous change.next } := by
  simp only [planAssignment, bind_eq_ok, failIf_eq_ok, changeKey_eq_ok, not_or, not_not]
  constructor
  · rintro ⟨id, hkey, -, hid, -, hcurrent, h⟩
    refine ⟨id, hkey, hid, hcurrent, ?_⟩
    split at h <;> rename_i hsame
    · rw [if_pos hsame]
      exact (pure_eq_ok.mp h).symm
    · rw [if_neg hsame]
      exact (pure_eq_ok.mp h).symm
  · rintro ⟨id, hkey, hid, hcurrent, rfl⟩
    refine ⟨id, hkey, (), hid, (), hcurrent, ?_⟩
    split <;> rfl

/-- Storing the derived states: every connection gets the state that the index
of the snapshot computes for it, and nothing else changes. -/
theorem normalizeConnectionDerived_eq_ok {snapshot normalized : TopologySnapshot K}
    (h : normalizeConnectionDerived snapshot = .ok normalized) :
    ∃ index : TopologyIndex K, index.snapshot = snapshot ∧
      normalized = { snapshot with
        connections := snapshot.connections.map fun connection =>
          connection.withDerived (index.connectionDerivedState connection) } := by
  simp only [normalizeConnectionDerived, bind_eq_ok, pure_eq_ok] at h
  obtain ⟨index, hindex, rfl⟩ := h
  obtain rfl := TopologyIndex.build_eq_ok.mp hindex
  refine ⟨index, rfl, ?_⟩
  have hnodup : (index.connectionDerivedStates.map (·.connectionId)).Nodup := by
    rw [TopologyIndex.connectionDerivedStates_eq_map, List.map_map]
    exact index.valid.connections_nodup
  congr 1
  apply List.map_congr_left
  intro connection hconnection
  have hstate : lookup ConnectionDerivedState.connectionId index.connectionDerivedStates
      connection.id = some (index.connectionDerivedState connection) :=
    lookup_of_mem hnodup (x := index.connectionDerivedState connection)
      (List.mem_map_of_mem hconnection)
  rw [getElem?_collectEntries_map hnodup, hstate]

/-- Restating the derived states restates them in every lookup. -/
theorem lookup_restated (index : TopologyIndex K) (connections : List (TopologyConnection K))
    (id : ℕ) :
    lookup TopologyConnection.id
        (connections.map fun connection =>
          connection.withDerived (index.connectionDerivedState connection)) id =
      (lookup TopologyConnection.id connections id).map fun connection =>
        connection.withDerived (index.connectionDerivedState connection) :=
  lookup_map (fun _ => rfl) connections id

omit [Scalar K] in
theorem lookup_snoc_of_fresh {connections : List (TopologyConnection K)}
    {connection : TopologyConnection K}
    (hfresh : ∀ other ∈ connections, other.id ≠ connection.id) (id : ℕ) :
    lookup TopologyConnection.id (connections ++ [connection]) id =
      if id = connection.id then some connection
      else lookup TopologyConnection.id connections id := by
  rw [lookup_append, lookup_cons, lookup_nil]
  by_cases hid : id = connection.id
  · subst hid
    rw [lookup_eq_none.mpr hfresh]
    simp
  · have hne : ¬connection.id = id := fun h => hid h.symm
    simp [hid, hne]

/-- Adding a connection with a fresh identifier: every connection gets the
derived state that the index with the new connection computes for it. -/
theorem prepareAddition_eq_ok {connection : TopologyConnection K}
    (hfresh : ∀ other ∈ before.connections, other.id ≠ connection.id)
    (h : prepareAddition before connection = .ok change) :
    ∃ (index : TopologyIndex K) (snapshot : TopologySnapshot K),
      index.snapshot =
        { before with connections := sortByKey (·.id) (before.connections ++ [connection]) } ∧
      snapshot = { index.snapshot with
        connections := index.snapshot.connections.map fun connection =>
          connection.withDerived (index.connectionDerivedState connection) } ∧
      change =
        { snapshot := snapshot
          forward := batchPatch
            (.addConnection (connection.withDerived (index.connectionDerivedState connection)) ::
              derivedPatch ((connectionDerivedChanges before snapshot).map (·.1)))
          inverse := batchPatch
            (derivedPatch ((connectionDerivedChanges before snapshot).map (·.2)) ++
              [.removeConnection
                (connection.withDerived (index.connectionDerivedState connection))]) } := by
  simp only [prepareAddition, bind_eq_ok, mapError_eq_ok, pure_eq_ok] at h
  obtain ⟨snapshot, hsnapshot, rfl⟩ := h
  obtain ⟨index, hindex, rfl⟩ := normalizeConnectionDerived_eq_ok hsnapshot
  refine ⟨index, _, hindex, by rw [hindex], ?_⟩
  have hadded : lookup TopologyConnection.id ((sortByKey (·.id)
      (before.connections ++ [connection])).map fun connection =>
        connection.withDerived (index.connectionDerivedState connection)) connection.id =
      some (connection.withDerived (index.connectionDerivedState connection)) := by
    rw [lookup_restated, lookup_sortByKey, lookup_snoc_of_fresh hfresh, if_pos rfl]
    rfl
  rw [find?_id_eq_lookup, hadded]
  rfl

theorem prepareRemoval_eq_ok {connectionId : ℕ}
    (h : prepareRemoval before connectionId = .ok change) :
    ∃ connection snapshot,
      lookup TopologyConnection.id before.connections connectionId = some connection ∧
      normalizeConnectionDerived
        { before with connections := before.connections.filter (·.id != connectionId) } =
          .ok snapshot ∧
      change =
        { snapshot := snapshot
          forward := batchPatch (.removeConnection connection ::
            derivedPatch ((connectionDerivedChanges before snapshot).map (·.1)))
          inverse := batchPatch
            (derivedPatch ((connectionDerivedChanges before snapshot).map (·.2)) ++
              [.addConnection connection]) } := by
  unfold prepareRemoval at h
  split at h
  · cases h
  · rename_i connection hfind
    simp only [bind_eq_ok, mapError_eq_ok, pure_eq_ok] at h
    obtain ⟨snapshot, hsnapshot, rfl⟩ := h
    exact ⟨connection, snapshot, hfind, hsnapshot, rfl⟩

omit [Scalar K] in
/-- A new identifier is larger than those of all connections. -/
theorem allocateConnectionId_eq_ok {nextConnectionId : Option ℕ}
    {connections : List (TopologyConnection K)} {id : ℕ}
    (h : allocateConnectionId nextConnectionId connections = .ok id) :
    ∀ connection ∈ connections, connection.id < id := by
  unfold allocateConnectionId at h
  split at h
  · cases h
  · rename_i localId hlocal
    cases h
    intro connection hconnection
    unfold checkedSucc at hlocal
    split at hlocal
    · cases hlocal
      have hle : connection.id ≤ (connections.map (·.id)).max?.getD 0 :=
        List.le_max?_getD_of_mem (List.mem_map.mpr ⟨connection, hconnection, rfl⟩)
      exact lt_of_lt_of_le (Nat.lt_succ_of_le hle) (le_max_right _ _)
    · cases hlocal

/-- A cable is created between two valid ends that the index knows; it gets a
fresh identifier. -/
theorem prepareCreation_eq_ok {topology : TopologyIndex K} {nextConnectionId : Option ℕ}
    {source target : EndpointRef} {createdAt : String} {id : ℕ} :
    prepareCreation topology nextConnectionId source target createdAt = .ok (id, change) ↔
    ∃ sourceDescriptor targetDescriptor, (topology.validateConnection source target).ok = true ∧
      topology.endpoint source = some sourceDescriptor ∧
      topology.endpoint target = some targetDescriptor ∧
      allocateConnectionId nextConnectionId topology.snapshot.connections = .ok id ∧
      isBlank createdAt = false ∧
      prepareAddition topology.snapshot
        { id := id
          source := (orientConnection source target sourceDescriptor targetDescriptor).1
          target := (orientConnection source target sourceDescriptor targetDescriptor).2.1
          connectionType := (orientConnection source target sourceDescriptor targetDescriptor).2.2
          createdAt := createdAt } = .ok change := by
  unfold prepareCreation
  dsimp only
  constructor
  · intro h
    split at h
    · cases h
    · rename_i hvalid
      split at h
      · rename_i sourceDescriptor targetDescriptor hsource htarget
        simp only [bind_eq_ok, failIf_eq_ok, pure_eq_ok, Prod.mk.injEq] at h
        obtain ⟨id', hid, _, hcreated, change', hchange, rfl, rfl⟩ := h
        exact ⟨sourceDescriptor, targetDescriptor, by simpa using hvalid, hsource, htarget, hid,
          by simpa using hcreated, hchange⟩
      · cases h
  · rintro ⟨sourceDescriptor, targetDescriptor, hvalid, hsource, htarget, hid, hcreated, hchange⟩
    rw [if_neg (by simp [hvalid]), hsource, htarget]
    simp only [bind_eq_ok, failIf_eq_ok, pure_eq_ok, Prod.mk.injEq]
    exact ⟨id, hid, (), by simp [hcreated], change, hchange, rfl, rfl⟩

/-- A new cable keeps its ends in order, or is turned around so that it starts at
the outlet; turning it around once is enough. -/
theorem orientConnection_cases {source target : EndpointRef}
    {sourceDescriptor targetDescriptor : EndpointDescriptor}
    (hpair : (TopologyIndex.validatePortPair sourceDescriptor targetDescriptor).ok = true) :
    ((orientConnection source target sourceDescriptor targetDescriptor).1 = source ∧
      (orientConnection source target sourceDescriptor targetDescriptor).2.1 = target) ∨
    ((orientConnection source target sourceDescriptor targetDescriptor).1 = target ∧
      (orientConnection source target sourceDescriptor targetDescriptor).2.1 = source ∧
      orientConnection target source targetDescriptor sourceDescriptor =
        orientConnection source target sourceDescriptor targetDescriptor) := by
  unfold orientConnection
  rcases TopologyIndex.validatePortPair_ok.mp hpair with
    ⟨p, q, hp, hq, hdirection⟩ | ⟨hp, -, -⟩
  · rw [hp, hq]
    by_cases hinput : p.direction = "input"
    · have hother : ¬q.direction = "input" := fun h => hdirection (hinput.trans h.symm)
      simp [hinput, hother]
    · simp [hinput]
  · rw [hp]
    dsimp only
    split
    · exact Or.inl ⟨rfl, rfl⟩
    · split <;> exact Or.inl ⟨rfl, rfl⟩

theorem planPlacements_eq_ok {changes : List (PlacementChange K)} {plan : PlacementPlan K} :
    planPlacements topology changes = .ok plan ↔
      changes.foldlM (planPlacement (collectSet (topology.items.map (·.item))))
          { placedItems := collectSet topology.placements } = .ok plan ∧
        plan.lists.isEmpty = false := by
  simp only [planPlacements, bind_eq_ok, failIf_eq_ok, pure_eq_ok, Bool.not_eq_true]
  constructor
  · rintro ⟨_, hplan, -, hchanged, rfl⟩
    exact ⟨hplan, hchanged⟩
  · rintro ⟨hplan, hchanged⟩
    exact ⟨plan, hplan, (), hchanged, rfl⟩

/-- One placement change: it names one fresh, known item with finite coordinates;
then it is recorded, or changes nothing. -/
theorem planPlacement_eq_ok {knownItems : BTreeSet ItemRef} {plan plan' : PlacementPlan K}
    {change : PlacementChange K} :
    planPlacement knownItems plan change = .ok plan' ↔
    ∃ item, ((∀ a, change.previous = some a → a.item = item) ∧
        (∀ a, change.next = some a → a.item = item) ∧
        (change.previous.isSome ∨ change.next.isSome)) ∧
      (item.validate.isOk = true ∧ item ∈ knownItems ∧ item ∉ plan.seen) ∧
      (change.previous.any (!validCanvasPlacement ·) = false ∧
        change.next.any (!validCanvasPlacement ·) = false) ∧
      plan' =
        if change.previous == change.next then { plan with seen := plan.seen.insert item }
        else
          { placedItems := if change.next.isSome then plan.placedItems.insert item
              else plan.placedItems.erase item
            seen := plan.seen.insert item
            lists := plan.lists.record item change.previous change.next } := by
  simp only [planPlacement, bind_eq_ok, failIf_eq_ok, changeKey_eq_ok, not_or, Bool.not_eq_true,
    Bool.not_eq_false', not_not]
  constructor
  · rintro ⟨item, hkey, -, hitem, -, hcoordinates, h⟩
    refine ⟨item, hkey, hitem, hcoordinates, ?_⟩
    split at h <;> rename_i hsame
    · rw [if_pos hsame]
      exact (pure_eq_ok.mp h).symm
    · rw [if_neg hsame]
      exact (pure_eq_ok.mp h).symm
  · rintro ⟨item, hkey, hitem, hcoordinates, rfl⟩
    refine ⟨item, hkey, (), hitem, (), hcoordinates, ?_⟩
    split <;> rfl

end HomelabInventory
