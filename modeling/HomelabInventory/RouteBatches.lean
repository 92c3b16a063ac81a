import HomelabInventory.EngineCommits

/-!
# Batches of routes

Several commands set the routes of many connections at once. Whatever decides
about the new routes, what is recorded is a list of connections with their new
routes, set one after the other.
-/

namespace HomelabInventory

open List

variable {K : Type}

/-! ## Setting one route after the other -/

theorem lookup_modifyConnection {f : TopologyConnection K → TopologyConnection K}
    (hf : ∀ connection, (f connection).id = connection.id) (connectionId : ℕ)
    (connections : List (TopologyConnection K)) (id : ℕ) :
    lookup TopologyConnection.id (modifyConnection connectionId f connections) id =
      if id = connectionId then (lookup TopologyConnection.id connections id).map f
      else lookup TopologyConnection.id connections id := by
  induction connections with
  | nil => simp [modifyConnection]
  | cons connection rest ih =>
    rw [modifyConnection]
    by_cases hfirst : connection.id = connectionId
    · rw [if_pos hfirst, lookup_cons, lookup_cons, hf]
      by_cases hid : id = connectionId
      · simp [hid, hfirst]
      · have hne : ¬connection.id = id := fun h => hid (h.symm.trans hfirst)
        simp [hid, hne]
    · rw [if_neg hfirst, lookup_cons, lookup_cons, ih]
      by_cases hid : id = connectionId
      · have hne : ¬connection.id = id := fun h => hfirst (h.trans hid)
        simp [hid, hfirst]
      · simp [hid]

/-- Set the routes of some connections. -/
def setRoutes (connections : List (TopologyConnection K)) :
    List (TopologyConnection K × Option (ConnectionRoute K)) → List (TopologyConnection K)
  | [] => connections
  | (connection, route) :: rest =>
    setRoutes (modifyConnection connection.id ({ · with route := route }) connections) rest

/-- Every connection is the one that has its identifier when its turn comes. -/
def RouteChain (connections : List (TopologyConnection K)) :
    List (TopologyConnection K × Option (ConnectionRoute K)) → Prop
  | [] => True
  | (connection, route) :: rest =>
    lookup TopologyConnection.id connections connection.id = some connection ∧
      RouteChain (modifyConnection connection.id ({ · with route := route }) connections) rest

/-- The patch that sets a route. -/
def forwardRoute (entry : TopologyConnection K × Option (ConnectionRoute K)) : ProjectPatch K :=
  .setConnectionRoute entry.1.id entry.2

/-- The patch that sets it back. -/
def inverseRoute (entry : TopologyConnection K × Option (ConnectionRoute K)) : ProjectPatch K :=
  .setConnectionRoute entry.1.id entry.1.route

/-- What a plan becomes when some routes are set. -/
def RoutePlan.extend (plan : RoutePlan K)
    (entries : List (TopologyConnection K × Option (ConnectionRoute K))) : RoutePlan K where
  connections := setRoutes plan.connections entries
  forward := plan.forward ++ entries.map forwardRoute
  inverse := plan.inverse ++ entries.map inverseRoute

theorem RoutePlan.extend_cons (plan : RoutePlan K) (connection : TopologyConnection K)
    (route : Option (ConnectionRoute K))
    (rest : List (TopologyConnection K × Option (ConnectionRoute K))) :
    plan.extend ((connection, route) :: rest) = (plan.setRoute connection route).extend rest := by
  simp [extend, setRoute, setRoutes, forwardRoute, inverseRoute]

/-- The entry changes the route; a route that compares equal is never set again. -/
def RouteDiffers [BEq K] (entry : TopologyConnection K × Option (ConnectionRoute K)) : Prop :=
  (entry.1.route == entry.2) = false

variable [Scalar K]

/-- A change of the topology that sets the routes of distinct connections. -/
structure RouteBatch (topology : TopologySnapshot K) (change : TopologyChange K)
    (entries : List (TopologyConnection K × Option (ConnectionRoute K))) : Prop where
  chain : RouteChain topology.connections entries
  nodup : (entries.map (·.1.id)).Nodup
  differs : ∀ entry ∈ entries, RouteDiffers entry
  nonempty : entries ≠ []
  change_eq : change =
    { snapshot := { topology with connections := setRoutes topology.connections entries }
      forward := batchPatch (entries.map forwardRoute)
      inverse := batchPatch (entries.map inverseRoute).reverse }

omit [Scalar K] in
/-- In a chain over distinct connections every connection is there from the start,
and ends up with its new route. -/
theorem RouteChain.lookups {connections : List (TopologyConnection K)}
    {entries : List (TopologyConnection K × Option (ConnectionRoute K))}
    (h : RouteChain connections entries) (hnodup : (entries.map (·.1.id)).Nodup) :
    (∀ entry ∈ entries, lookup TopologyConnection.id connections entry.1.id = some entry.1 ∧
      lookup TopologyConnection.id (setRoutes connections entries) entry.1.id =
        some { entry.1 with route := entry.2 }) ∧
      ∀ id, id ∉ entries.map (·.1.id) →
        lookup TopologyConnection.id (setRoutes connections entries) id =
          lookup TopologyConnection.id connections id := by
  induction entries generalizing connections with
  | nil => exact ⟨by simp, fun _ _ => rfl⟩
  | cons first rest ih =>
    obtain ⟨hlookup, hrest⟩ := h
    obtain ⟨hfresh, hnodup⟩ := nodup_cons.mp hnodup
    obtain ⟨hentries, hothers⟩ := ih hrest hnodup
    have hmodify := fun id => lookup_modifyConnection
      (f := fun connection : TopologyConnection K => { connection with route := first.2 })
      (fun _ => rfl) first.1.id connections id
    rw [setRoutes]
    refine ⟨?_, ?_⟩
    · intro entry hentry
      rcases mem_cons.mp hentry with rfl | hentry
      · refine ⟨hlookup, ?_⟩
        rw [hothers _ hfresh, hmodify, if_pos rfl, hlookup]
        rfl
      · obtain ⟨hstart, hend⟩ := hentries entry hentry
        have hne : entry.1.id ≠ first.1.id := fun heq =>
          hfresh (mem_map.mpr ⟨entry, hentry, heq⟩)
        rw [hmodify, if_neg hne] at hstart
        exact ⟨hstart, hend⟩
    · intro id hid
      rw [map_cons, mem_cons, not_or] at hid
      rw [hothers id hid.2, hmodify, if_neg hid.1]

theorem RouteBatch.of_change {topology : TopologySnapshot K} {unchanged : String}
    {entries : List (TopologyConnection K × Option (ConnectionRoute K))}
    {change : TopologyChange K}
    (h : RoutePlan.change (RoutePlan.extend { connections := topology.connections } entries)
      topology unchanged = .ok change)
    (hchain : RouteChain topology.connections entries) (hnodup : (entries.map (·.1.id)).Nodup)
    (hdiffers : ∀ entry ∈ entries, RouteDiffers entry) : RouteBatch topology change entries := by
  simp only [RoutePlan.change, bind_eq_ok, failIf_eq_ok, pure_eq_ok] at h
  obtain ⟨-, hchanged, rfl⟩ := h
  refine ⟨hchain, hnodup, hdiffers, ?_, ?_⟩
  · rintro rfl
    exact hchanged rfl
  · simp [RoutePlan.extend]

/-! ## Routes that are planned change by change -/

section Planned

variable {γ : Type} {connectionId : γ → ℕ} {missing : String}
  {next : γ → Option (ConnectionRoute K) → Except EngineError (Option (ConnectionRoute K))}

/-- A run of route changes sets the routes of some of the connections it names. -/
theorem foldlM_planRoute_eq_ok
    (hnext : ∀ change previous route, next change previous = .ok (some route) →
      (previous == some route) = false)
    {changes : List γ} {plan plan' : RoutePlan K}
    (h : changes.foldlM (planRoute connectionId missing next) plan = .ok plan') :
    ∃ entries, plan' = plan.extend entries ∧ RouteChain plan.connections entries ∧
      (entries.map (·.1.id)).Sublist (changes.map connectionId) ∧
      ∀ entry ∈ entries, RouteDiffers entry := by
  induction changes generalizing plan with
  | nil =>
    rw [foldlM_nil, pure_eq_ok] at h
    subst h
    exact ⟨[], by simp [RoutePlan.extend, setRoutes], trivial, List.Sublist.slnil, by simp⟩
  | cons change changes ih =>
    obtain ⟨mid, hmid, hrest⟩ := foldlM_cons_eq_ok.mp h
    obtain ⟨entries, rfl, hchain, hsublist, hdiffers⟩ := ih hrest
    unfold planRoute at hmid
    split at hmid
    · cases hmid
    · rename_i connection hfind
      rw [find?_id_eq_lookup] at hfind
      rw [bind_eq_ok] at hmid
      obtain ⟨route, hroute, hmid⟩ := hmid
      have hid := (lookup_eq_some hfind).2
      cases route with
      | none =>
        rw [pure_eq_ok] at hmid
        subst hmid
        exact ⟨entries, rfl, hchain, hsublist.cons _, hdiffers⟩
      | some route =>
        rw [pure_eq_ok] at hmid
        subst hmid
        refine ⟨(connection, some route) :: entries, ?_, ?_, ?_, ?_⟩
        · rw [RoutePlan.extend_cons]
        · exact ⟨hid ▸ hfind, hchain⟩
        · rw [map_cons, map_cons, hid]
          exact hsublist.cons_cons _
        · intro entry hentry
          rcases mem_cons.mp hentry with rfl | hentry
          · exact hnext change connection.route route hroute
          · exact hdiffers entry hentry

theorem changedRoute_eq_some {previous : Option (ConnectionRoute K)}
    {route route' : ConnectionRoute K} (h : changedRoute previous route = some route') :
    route' = route ∧ (previous == some route') = false := by
  unfold changedRoute at h
  split at h
  · cases h
  · rename_i hdiffers
    cases h
    exact ⟨rfl, Bool.not_eq_true _ ▸ hdiffers⟩

theorem prepareSides_eq_ok {topology : TopologySnapshot K}
    {changes : List ConnectionRouteSideResolution} {change : TopologyChange K}
    (h : prepareSides topology changes = .ok change) :
    ∃ entries, RouteBatch topology change entries := by
  simp only [prepareSides, bind_eq_ok, failIf_eq_ok, not_not] at h
  obtain ⟨-, -, -, hnodup, plan, hplan, hchange⟩ := h
  obtain ⟨entries, rfl, hchain, hsublist, hdiffers⟩ := foldlM_planRoute_eq_ok (by
    intro change previous route hroute
    exact (changedRoute_eq_some (Except.ok.inj hroute)).2) hplan
  exact ⟨entries, .of_change hchange hchain (hnodup.sublist hsublist) hdiffers⟩

theorem prepareCanonicalization_eq_ok {topology : TopologySnapshot K}
    {changes : List (ConnectionRouteCanonicalization K)} {change : TopologyChange K}
    (h : prepareCanonicalization topology changes = .ok change) :
    ∃ entries, RouteBatch topology change entries := by
  simp only [prepareCanonicalization, bind_eq_ok, failIf_eq_ok, not_or, not_not] at h
  obtain ⟨-, -, -, hvalid, plan, hplan, hchange⟩ := h
  obtain ⟨entries, rfl, hchain, hsublist, hdiffers⟩ := foldlM_planRoute_eq_ok (by
    intro change previous route hroute
    unfold canonicalizedRoute at hroute
    split at hroute
    · cases hroute
    · exact (changedRoute_eq_some (Except.ok.inj hroute)).2) hplan
  exact ⟨entries, .of_change hchange hchain (hvalid.1.sublist hsublist) hdiffers⟩

end Planned

/-! ## Routes that are swept over all connections -/

section Swept

variable {next : ConnectionRoute K → Option (Option (ConnectionRoute K))}

omit [Scalar K] in
/-- Routes that compare equal have the same sides, and both have bends or none has. -/
theorem sides_eq_of_beq [BEq K] {first second : ConnectionRoute K} (h : (first == second) = true) :
    first.sourceSide = second.sourceSide ∧ first.targetSide = second.targetSide ∧
      first.bendPoints.isEmpty = second.bendPoints.isEmpty := by
  obtain ⟨sourceSide, targetSide, bendPoints, avoidCableOverlap⟩ := first
  obtain ⟨sourceSide', targetSide', bendPoints', avoidCableOverlap'⟩ := second
  simp only [BEq.beq, instBEqConnectionRoute.beq, Bool.and_eq_true] at h
  obtain ⟨hsource, htarget, hbends, -⟩ := h
  refine ⟨eq_of_beq hsource, eq_of_beq htarget, ?_⟩
  cases bendPoints <;> cases bendPoints' <;> first | rfl | cases hbends

/-- The connections that a sweep changes, with their new routes. -/
def sweptEntries (next : ConnectionRoute K → Option (Option (ConnectionRoute K)))
    (connections : List (TopologyConnection K)) :
    List (TopologyConnection K × Option (ConnectionRoute K)) :=
  connections.filterMap fun connection =>
    (connection.route.bind next).map fun route => (connection, route)

omit [Scalar K] in
theorem map_id_sweptEntries_sublist (connections : List (TopologyConnection K)) :
    ((sweptEntries next connections).map (·.1.id)).Sublist (connections.map (·.id)) := by
  induction connections with
  | nil => exact List.Sublist.slnil
  | cons connection rest ih =>
    rw [sweptEntries, filterMap_cons]
    cases connection.route.bind next with
    | none => exact ih.cons _
    | some route => exact ih.cons_cons _

omit [Scalar K] in
/-- In a list of distinct connections, changing one leaves those before and after it. -/
theorem modifyConnection_append {f : TopologyConnection K → TopologyConnection K}
    {done rest : List (TopologyConnection K)} {connection : TopologyConnection K}
    (hfresh : ∀ other ∈ done, other.id ≠ connection.id) :
    modifyConnection connection.id f (done ++ connection :: rest) =
      done ++ f connection :: rest := by
  induction done with
  | nil => simp [modifyConnection]
  | cons other done ih =>
    rw [cons_append, modifyConnection, if_neg (hfresh other mem_cons_self),
      ih fun o ho => hfresh o (mem_cons_of_mem _ ho)]
    rfl

omit [Scalar K] in
/-- Sweeping the connections `rest` after `done` sets their routes one after the other. -/
theorem sweepRoutes_append (done rest : List (TopologyConnection K))
    (hnodup : ((done ++ rest).map (·.id)).Nodup) :
    setRoutes (done ++ rest) (sweptEntries next rest) =
        done ++ (sweepRoutes next rest).connections ∧
      RouteChain (done ++ rest) (sweptEntries next rest) := by
  induction rest generalizing done with
  | nil => exact ⟨by simp [sweptEntries, setRoutes, sweepRoutes], trivial⟩
  | cons connection rest ih =>
    have hfresh : ∀ other ∈ done, other.id ≠ connection.id := by
      intro other hother heq
      rw [map_append, nodup_append] at hnodup
      exact hnodup.2.2 _ (mem_map_of_mem hother) _ (by simp) heq
    cases hnext : connection.route.bind next with
    | none =>
      have hentries : sweptEntries next (connection :: rest) = sweptEntries next rest := by
        simp only [sweptEntries, filterMap_cons, hnext, Option.map_none]
      have hsweep : (sweepRoutes next (connection :: rest)).connections =
          connection :: (sweepRoutes next rest).connections := by
        simp only [sweepRoutes, map_cons, hnext, Option.map_none]
      obtain ⟨hset, hchain⟩ := ih (done ++ [connection]) (by simpa using hnodup)
      rw [append_assoc, singleton_append] at hset hchain
      rw [hentries, hsweep, hset]
      exact ⟨by simp, hchain⟩
    | some route =>
      have hentries : sweptEntries next (connection :: rest) =
          (connection, route) :: sweptEntries next rest := by
        simp only [sweptEntries, filterMap_cons, hnext, Option.map_some]
      have hsweep : (sweepRoutes next (connection :: rest)).connections =
          { connection with route := route } :: (sweepRoutes next rest).connections := by
        simp only [sweepRoutes, map_cons, hnext, Option.map_some]
      obtain ⟨hset, hchain⟩ := ih (done ++ [{ connection with route := route }])
        (by simpa using hnodup)
      rw [append_assoc, singleton_append] at hset hchain
      rw [hentries, hsweep, setRoutes, RouteChain, modifyConnection_append hfresh, hset]
      exact ⟨by simp, lookup_of_mem hnodup (mem_append_right _ mem_cons_self), hchain⟩

variable {topology : TopologySnapshot K}
variable {unchanged : String}
variable {change : TopologyChange K}

/-- A sweep over distinct connections is a batch of routes. -/
theorem RouteBatch.of_sweep
    (hnext : ∀ previous route, next previous = some (some route) → (previous == route) = false)
    (hnodup : (topology.connections.map (·.id)).Nodup)
    (h : (sweepRoutes next topology.connections).change topology unchanged = .ok change) :
    RouteBatch topology change (sweptEntries next topology.connections) := by
  obtain ⟨hset, hchain⟩ := @sweepRoutes_append _ next [] topology.connections hnodup
  rw [nil_append, nil_append] at hset
  have hextend : sweepRoutes next topology.connections =
      RoutePlan.extend { connections := topology.connections }
        (sweptEntries next topology.connections) := by
    simp only [RoutePlan.extend, hset]
    rfl
  rw [hextend] at h
  refine .of_change h hchain ?_ ?_
  · exact hnodup.sublist (map_id_sweptEntries_sublist topology.connections)
  · intro entry hentry
    simp only [sweptEntries, mem_filterMap, Option.map_eq_some_iff,
      Option.bind_eq_some_iff] at hentry
    obtain ⟨connection, -, route, ⟨previous, hprevious, hroute⟩, rfl⟩ := hentry
    rw [RouteDiffers, hprevious]
    cases route with
    | none => rfl
    | some route => exact hnext previous route hroute

theorem resetBends_eq_ok (hnodup : (topology.connections.map (·.id)).Nodup)
    (h : (sweepRoutes resetBends topology.connections).change topology unchanged = .ok change) :
    ∃ entries, RouteBatch topology change entries := by
  refine ⟨_, .of_sweep ?_ hnodup h⟩
  intro previous route hroute
  rw [← Bool.not_eq_true]
  intro hsame
  obtain ⟨-, -, hbends⟩ := sides_eq_of_beq hsame
  unfold resetBends at hroute
  split at hroute
  · cases hroute
  · rename_i hbent
    split at hroute
    · cases hroute
      exact hbent hbends
    · cases hroute

theorem restoreAutomatic_eq_ok (hnodup : (topology.connections.map (·.id)).Nodup)
    (h : (sweepRoutes restoreAutomatic topology.connections).change topology unchanged =
      .ok change) :
    ∃ entries, RouteBatch topology change entries := by
  refine ⟨_, .of_sweep ?_ hnodup h⟩
  intro previous route hroute
  rw [← Bool.not_eq_true]
  intro hsame
  obtain ⟨hsource, htarget, hbends⟩ := sides_eq_of_beq hsame
  unfold restoreAutomatic at hroute
  split at hroute
  · cases hroute
  · rename_i hmanual
    split at hroute
    · cases hroute
      apply hmanual
      rw [hsource, htarget, hbends]
      rfl
    · cases hroute

end Swept

/-! ## What commands commit -/

/-- What a command that is answered with a patch commits, by its operation. -/
inductive Engine.Commits (engine next : Engine K) (patches : CommandPatchSet K) :
    Operation K → Prop
  | created {source target : EndpointRef} {createdAt : String} {connectionId : ℕ}
      {change : TopologyChange K} {committed : Engine K} :
    prepareCreation engine.topology engine.nextConnectionId source target createdAt =
      .ok (connectionId, change) →
    engine.CommitOf change committed patches →
    next = { committed with nextConnectionId := checkedSucc connectionId } →
    Commits engine next patches (.createConnection source target createdAt)
  | removed {connectionId : ℕ} {change : TopologyChange K} :
    prepareRemoval engine.topology.snapshot connectionId = .ok change →
    engine.CommitOf change next patches →
    Commits engine next patches (.removeConnection connectionId)
  | labelled {connectionId : ℕ} {label : Option String} {change : TopologyChange K} :
    prepareLabel engine.topology.snapshot connectionId label = .ok change →
    engine.CommitOf change next patches →
    Commits engine next patches (.updateConnectionLabel connectionId label)
  | routed {connectionId : ℕ} {route : Option (ConnectionRoute K)} {change : TopologyChange K} :
    prepareRoute engine.topology.snapshot connectionId route = .ok change →
    engine.CommitOf change next patches →
    Commits engine next patches (.updateConnectionRoute connectionId route)
  | batch {operation : Operation K} {change : TopologyChange K}
      {entries : List (TopologyConnection K × Option (ConnectionRoute K))} :
    (∀ source target createdAt, operation ≠ .createConnection source target createdAt) →
    RouteBatch engine.topology.snapshot change entries →
    engine.CommitOf change next patches → Commits engine next patches operation
  | renamed {name : String} :
    engine.updateProjectMetadata name = (next, .patch patches) →
    Commits engine next patches (.updateProjectMetadata name)
  | assigned {changes : List AssignmentChange} {change : TopologyChange K} : changes ≠ [] →
    prepareAssignments engine.topology.snapshot changes = .ok change →
    engine.CommitOf change next patches →
    Commits engine next patches (.updateAssignments changes)
  | placed {operation : Operation K} {changes : List (PlacementChange K)} :
    (operation = .updatePlacements changes ∨ ∃ nodes gridSize maxRings,
      operation = .snapPlacementsToGrid nodes gridSize maxRings) →
    engine.updatePlacements changes = (next, .patch patches) →
    Commits engine next patches operation

/-- **A command that is answered with a patch commits one change.** -/
theorem Engine.perform_commits {engine next : Engine K} {patches : CommandPatchSet K}
    {operation : Operation K} (h : engine.perform operation = (next, .patch patches)) :
    engine.Commits next patches operation := by
  have hnodup := engine.topology.valid.connections_nodup
  have hcommand := isCommand_of_perform_eq_patch h
  cases operation with
  | createConnection source target createdAt =>
    obtain ⟨connectionId, change, committed, hprepare, hcommit, hnext⟩ :=
      createConnection_eq_patch.mp h
    exact .created hprepare hcommit hnext
  | removeConnection connectionId =>
    obtain ⟨change, hprepare, hcommit⟩ := commitPrepared_eq_patch.mp h
    exact .removed hprepare hcommit
  | updateConnectionLabel connectionId label =>
    obtain ⟨change, hprepare, hcommit⟩ := commitPrepared_eq_patch.mp h
    exact .labelled hprepare hcommit
  | updateConnectionRoute connectionId route =>
    obtain ⟨change, hprepare, hcommit⟩ := commitPrepared_eq_patch.mp h
    exact .routed hprepare hcommit
  | resolveConnectionRouteSides changes =>
    obtain ⟨change, hprepare, hcommit⟩ := commitPrepared_eq_patch.mp h
    obtain ⟨entries, hbatch⟩ := prepareSides_eq_ok hprepare
    exact .batch nofun hbatch hcommit
  | canonicalizeConnectionRoutes changes =>
    obtain ⟨change, hprepare, hcommit⟩ := commitPrepared_eq_patch.mp h
    obtain ⟨entries, hbatch⟩ := prepareCanonicalization_eq_ok hprepare
    exact .batch nofun hbatch hcommit
  | resetAllConnectionBends =>
    obtain ⟨change, hprepare, hcommit⟩ := commitPrepared_eq_patch.mp h
    obtain ⟨entries, hbatch⟩ := resetBends_eq_ok hnodup hprepare
    exact .batch nofun hbatch hcommit
  | restoreAutomaticConnectionRoutes =>
    obtain ⟨change, hprepare, hcommit⟩ := commitPrepared_eq_patch.mp h
    obtain ⟨entries, hbatch⟩ := restoreAutomatic_eq_ok hnodup hprepare
    exact .batch nofun hbatch hcommit
  | updateProjectMetadata name => exact .renamed h
  | updateAssignments changes =>
    obtain ⟨hne, change, hprepare, hcommit⟩ := updateAssignments_eq_patch.mp h
    exact .assigned hne hprepare hcommit
  | updatePlacements changes => exact .placed (.inl rfl) h
  | snapPlacementsToGrid nodes gridSize maxRings =>
    obtain ⟨changes, -, hchanges⟩ := snapPlacementsToGrid_eq_patch.mp h
    exact .placed (.inr ⟨nodes, gridSize, maxRings, rfl⟩) hchanges
  | _ => cases hcommand

end HomelabInventory
