import HomelabInventory.WellWired

/-!
# Wiring integrity over whole runs

Every command keeps a topology well wired: commands on labels, routes,
assignments and placements keep the cables and what they store, and the two that
add or remove a cable restate every derived state. A well-wired topology gives the
power topology nothing to report about a cable, so no run ever does.
-/

namespace HomelabInventory

open List

variable {K : Type}

/-! ## Changes of labels and routes -/

theorem map_wiring_modifyConnection {f : TopologyConnection K → TopologyConnection K}
    (hf : ∀ connection, (f connection).wiring = connection.wiring) (connectionId : ℕ)
    (connections : List (TopologyConnection K)) :
    (modifyConnection connectionId f connections).map (·.wiring) = connections.map (·.wiring) := by
  induction connections with
  | nil => rfl
  | cons connection rest ih =>
    unfold modifyConnection
    split
    · rw [map_cons, map_cons, hf]
    · rw [map_cons, map_cons, ih]

theorem map_wiring_setRoutes (connections : List (TopologyConnection K))
    (entries : List (TopologyConnection K × Option (ConnectionRoute K))) :
    (setRoutes connections entries).map (·.wiring) = connections.map (·.wiring) := by
  induction entries generalizing connections with
  | nil => rfl
  | cons entry entries ih =>
    obtain ⟨connection, route⟩ := entry
    rw [setRoutes, ih, map_wiring_modifyConnection]
    exact fun _ => rfl

variable [Scalar K]

/-- The cables and what they store stay the same, and so does the inventory. -/
def TopologyChange.KeepsWiring (change : TopologyChange K) (before : TopologySnapshot K) : Prop :=
  change.snapshot.items = before.items ∧
    change.snapshot.connections.map (·.wiring) = before.connections.map (·.wiring)

variable {change : TopologyChange K}
variable {before : TopologySnapshot K}
variable {connectionId : ℕ}

omit [Scalar K] in
theorem prepareLabel_keepsWiring {label : Option String}
    (h : prepareLabel before connectionId label = .ok change) : change.KeepsWiring before := by
  unfold prepareLabel at h
  dsimp only at h
  split at h
  · cases h
  · cases h
    refine ⟨rfl, map_wiring_modifyConnection ?_ _ _⟩
    exact fun _ => rfl

omit [Scalar K] in
theorem prepareRoute_keepsWiring {route : Option (ConnectionRoute K)}
    (h : prepareRoute before connectionId route = .ok change) : change.KeepsWiring before := by
  unfold prepareRoute at h
  split at h
  · cases h
  · cases h
    refine ⟨rfl, map_wiring_modifyConnection ?_ _ _⟩
    exact fun _ => rfl

theorem RouteBatch.keepsWiring {entries : List (TopologyConnection K × Option (ConnectionRoute K))}
    (h : RouteBatch before change entries) : change.KeepsWiring before := by
  rw [h.change_eq]
  exact ⟨rfl, map_wiring_setRoutes _ _⟩

omit [Scalar K] in
theorem prepareAssignments_keepsWiring {changes : List AssignmentChange}
    (h : prepareAssignments before changes = .ok change) : change.KeepsWiring before := by
  obtain ⟨plan, -, -, rfl⟩ := prepareAssignments_eq_ok.mp h
  exact ⟨rfl, rfl⟩

/-! ## Adding and removing cables -/

variable {index next : TopologyIndex K}

/-- Removing a cable keeps the topology well wired. -/
theorem prepareRemoval_wellWired (h : index.WellWired)
    (hprepare : prepareRemoval index.snapshot connectionId = .ok change)
    (hnext : next.snapshot = change.snapshot) : next.WellWired := by
  obtain ⟨connection, snapshot, -, hsnapshot, rfl⟩ := prepareRemoval_eq_ok hprepare
  obtain ⟨removed, hremoved, rfl⟩ := normalizeConnectionDerived_eq_ok hsnapshot
  have hwired : removed.Wired := h.toWired.of_cables (by rw [hremoved]) (by
    intro kept hkept
    rw [hremoved] at hkept
    exact ⟨kept, mem_of_mem_filter hkept, rfl⟩)
  exact hwired.wellWired_of_restated (by rw [hnext, hremoved])

/-- Adding a cable between free ends that fit keeps the topology well wired. -/
theorem prepareAddition_wellWired (h : index.WellWired) {connection : TopologyConnection K}
    (hfresh : ∀ other ∈ index.snapshot.connections, other.id ≠ connection.id)
    {source target : EndpointDescriptor} (hsource : index.endpoint connection.source = some source)
    (htarget : index.endpoint connection.target = some target) (hhost : source.host ≠ target.host)
    (hfit : EndsFit source target) (hfree : source.available = true)
    (hfree' : target.available = true)
    (hprepare : prepareAddition index.snapshot connection = .ok change)
    (hnext : next.snapshot = change.snapshot) : next.WellWired := by
  obtain ⟨added, snapshot, hadded, hsnapshot, rfl⟩ := prepareAddition_eq_ok hfresh hprepare
  have hconnections : ∀ other, other ∈ added.snapshot.connections ↔
      other ∈ index.snapshot.connections ∨ other = connection := by
    intro other
    rw [hadded, mem_sortByKey, mem_append, mem_singleton]
  have hwired : added.Wired := h.toWired.of_addition (by rw [hadded]) hconnections hsource htarget
    hhost hfit hfree hfree'
  exact hwired.wellWired_of_restated (hnext.trans hsnapshot)

theorem prepareCreation_wellWired (h : index.WellWired) {nextConnectionId : Option ℕ}
    {source target : EndpointRef} {createdAt : String} {id : ℕ}
    (hprepare : prepareCreation index nextConnectionId source target createdAt = .ok (id, change))
    (hnext : next.snapshot = change.snapshot) : next.WellWired := by
  obtain ⟨sourceDescriptor, targetDescriptor, hvalid, hsource, htarget, hid, -, hadd⟩ :=
    prepareCreation_eq_ok.mp hprepare
  obtain ⟨-, _, _, hsource', htarget', hhost, hpair, hfree, hfree'⟩ :=
    TopologyIndex.validateConnection_ok.mp hvalid
  obtain rfl := Option.some.inj (hsource.symm.trans hsource')
  obtain rfl := Option.some.inj (htarget.symm.trans htarget')
  have hfresh : ∀ other ∈ index.snapshot.connections, other.id ≠ id :=
    fun other hother => (allocateConnectionId_eq_ok hid other hother).ne
  rcases TopologyIndex.endsFit_orientConnection hsource htarget hpair with
    ⟨hfrom, hto, hfit⟩ | ⟨hfrom, hto, hfit⟩
  · rw [hfrom, hto] at hadd
    exact prepareAddition_wellWired h hfresh hsource htarget hhost hfit hfree hfree' hadd hnext
  · rw [hfrom, hto] at hadd
    exact prepareAddition_wellWired h hfresh htarget hsource hhost.symm hfit hfree' hfree hadd hnext

/-! ## Runs of the engine -/

namespace Engine

variable {engine next : Engine K} {patches : CommandPatchSet K}

theorem CommitOf.wellWired {change : TopologyChange K} (h : engine.CommitOf change next patches)
    (hwired : engine.topology.WellWired)
    (hkeeps : change.KeepsWiring engine.topology.snapshot) : next.topology.WellWired := by
  refine hwired.of_wiring ?_ ?_
  · rw [h.snapshot_eq]
    exact hkeeps.1
  · rw [h.snapshot_eq]
    exact hkeeps.2

/-- **A command that is answered with a patch keeps the topology well wired.** -/
theorem perform_wellWired {operation : Operation K}
    (h : engine.perform operation = (next, .patch patches)) (hwired : engine.topology.WellWired) :
    next.topology.WellWired := by
  cases perform_commits h with
  | created hprepare hcommit hnext =>
    obtain rfl := hnext
    exact prepareCreation_wellWired hwired hprepare hcommit.snapshot_eq
  | removed hprepare hcommit => exact prepareRemoval_wellWired hwired hprepare hcommit.snapshot_eq
  | labelled hprepare hcommit => exact hcommit.wellWired hwired (prepareLabel_keepsWiring hprepare)
  | routed hprepare hcommit => exact hcommit.wellWired hwired (prepareRoute_keepsWiring hprepare)
  | batch _ hbatch hcommit => exact hcommit.wellWired hwired hbatch.keepsWiring
  | renamed h =>
    obtain ⟨-, -, rfl, -⟩ := updateProjectMetadata_eq_patch.mp h
    exact hwired
  | assigned _ hprepare hcommit =>
    exact hcommit.wellWired hwired (prepareAssignments_keepsWiring hprepare)
  | placed _ h =>
    obtain ⟨-, -, plan, placements, -, -, hcommit⟩ := updatePlacements_eq_patch h
    exact hcommit.wellWired hwired ⟨rfl, rfl⟩

/-- Whatever is not answered with a patch keeps the topology and the remembered identifier. -/
theorem perform_same {operation : Operation K} (h : isPatch (engine.perform operation).2 = false) :
    (engine.perform operation).1.topology = engine.topology ∧
      (engine.perform operation).1.nextConnectionId = engine.nextConnectionId := by
  by_cases hplan : operation.isPlanCableRoutes = true
  · cases operation with
    | planCableRoutes plan => exact ⟨rfl, rfl⟩
    | _ => cases hplan
  · have houtcome := engine.perform_outcome (Bool.not_eq_true _ ▸ hplan)
    revert h houtcome
    generalize engine.perform operation = answer
    intro h houtcome
    cases houtcome with
    | kept => exact ⟨rfl, rfl⟩
    | advanced => cases h
    | measured => exact ⟨rfl, rfl⟩
    | rerouted => exact ⟨rfl, rfl⟩
    | edited => exact ⟨rfl, rfl⟩

/-- Every request keeps the topology well wired. -/
theorem dispatch_wellWired (request : EngineRequest K) (h : engine.topology.WellWired) :
    (engine.dispatch request).1.topology.WellWired := by
  have hstate : (engine.dispatch request).1 = (engine.handle request).1 := rfl
  rw [hstate]
  unfold handle
  split
  · exact h
  · split
    · exact h
    · cases hbody : (engine.perform request.operation).2 with
      | patch patches => exact perform_wellWired (Prod.ext rfl hbody) h
      | _ =>
        rw [(perform_same (by rw [hbody]; rfl)).1]
        exact h

/-- The engine after some requests. -/
def run (engine : Engine K) (requests : List (EngineRequest K)) : Engine K :=
  requests.foldl (fun engine request => (engine.dispatch request).1) engine

theorem run_topology_wellWired (engine : Engine K) (requests : List (EngineRequest K))
    (h : engine.topology.WellWired) : (engine.run requests).topology.WellWired := by
  induction requests generalizing engine with
  | nil => exact h
  | cons request requests ih => exact ih _ (dispatch_wellWired request h)

end Engine

/-! ## The findings about cables -/

section Findings

variable {index : TopologyIndex K}

/-- A finding about a cable. -/
def PowerTopologyFinding.isAboutCable (finding : PowerTopologyFinding) : Bool :=
  "power.connection.".toList.isPrefixOf finding.code.toList

/-- What a scan has filed: the power cables by their input and by their outlet. -/
structure PowerScan.Files (scan : PowerScan K) (connections : List (TopologyConnection K)) :
    Prop where
  findings : scan.findings = []
  inputs : ∀ endpoint : EndpointRef, scan.inputConnections[endpoint]?.getD [] =
    connections.filter fun connection =>
      connection.connectionType = "power" ∧ connection.target = endpoint
  outputs : ∀ endpoint : EndpointRef, scan.outputConnections[endpoint]?.getD [] =
    connections.filter fun connection =>
      connection.connectionType = "power" ∧ connection.source = endpoint

omit [Scalar K] in
theorem getD_addConnection (connections : ConnectionsByEndpoint K) (endpoint e : EndpointRef)
    (connection : TopologyConnection K) :
    (addConnection connections endpoint connection)[e]?.getD [] =
      connections[e]?.getD [] ++ if endpoint = e then [connection] else [] := by
  rw [addConnection, Std.ExtTreeMap.getElem?_insert]
  simp only [Std.LawfulEqOrd.compare_eq_iff_eq]
  by_cases he : endpoint = e
  · subst he
    rw [if_pos rfl, if_pos rfl]
    rfl
  · rw [if_neg he, if_neg he, append_nil]

/-- A cable of a well-wired topology carries power exactly when it says so. -/
theorem TopologyIndex.WellWired.power_cases (h : index.WellWired)
    {connection : TopologyConnection K} (hconnection : connection ∈ index.snapshot.connections) :
    (connection.connectionType = "power" ∧ connection.source.item ≠ connection.target.item ∧
      ∃ output input, index.endpointPower connection.source = some output ∧
        index.endpointPower connection.target = some input ∧
        output.direction = "output" ∧ input.direction = "input") ∨
    connection.connectionType ≠ "power" ∧ index.endpointPower connection.source = none ∧
      index.endpointPower connection.target = none := by
  obtain ⟨source, target, hsource, htarget, hhost, hfit⟩ := h.ends connection hconnection
  have hderived : connection.derived = index.connectionDerivedState connection := by
    have hall := h.derived
    rw [TopologyIndex.connectionDerivedStates_eq_map] at hall
    exact map_inj_left.mp hall connection hconnection
  have htype : connection.connectionType = classifyPair source target := by
    have hclass : connection.connectionType =
        index.classifyConnection connection.source connection.target :=
      congrArg (·.connectionType) hderived
    rw [hclass, TopologyIndex.classifyConnection, hsource, htarget]
  simp only [TopologyIndex.endpointPower, hsource, htarget, Option.bind_some]
  rcases hfit with ⟨output, input, houtput, hinput, hdirection, hdirection'⟩ | ⟨hnone, hnone', -⟩
  · refine Or.inl ⟨?_, ?_, output, input, houtput, hinput, hdirection, hdirection'⟩
    · rw [htype, classifyPair, houtput, hinput]
      rfl
    · obtain ⟨_, _, _, _, hof, rfl⟩ := index.endpoint_eq_some.mp hsource
      obtain ⟨_, _, _, _, hof', rfl⟩ := index.endpoint_eq_some.mp htarget
      rw [← hof.endpoint_eq, ← hof'.endpoint_eq]
      exact hhost
  · refine Or.inr ⟨?_, hnone, hnone'⟩
    rw [htype, classifyPair, hnone]
    simp only [Option.isSome_none, Bool.false_and, Bool.false_eq_true, if_false]
    split
    · decide
    · split <;> decide

/-- One cable of a well-wired topology is filed without a finding. -/
theorem scanPowerConnection_files (h : index.WellWired) {connection : TopologyConnection K}
    (hconnection : connection ∈ index.snapshot.connections) {scan : PowerScan K}
    {done : List (TopologyConnection K)} (hscan : scan.Files done) :
    (index.scanPowerConnection scan connection).Files (done ++ [connection]) := by
  unfold TopologyIndex.scanPowerConnection
  rcases h.power_cases hconnection with
    ⟨htype, hitem, output, input, houtput, hinput, hdirection, hdirection'⟩ |
      ⟨htype, hsource, htarget⟩
  · rw [houtput, hinput]
    simp only [htype, hdirection, hdirection', hitem, ne_eq, not_true, if_false, or_self]
    refine ⟨hscan.findings, ?_, ?_⟩
    · intro e
      rw [getD_addConnection, hscan.inputs, filter_append]
      congr 1
      by_cases he : connection.target = e <;> simp [htype, he]
    · intro e
      rw [getD_addConnection, hscan.outputs, filter_append]
      congr 1
      by_cases he : connection.source = e <;> simp [htype, he]
  · rw [hsource, htarget]
    simp only [ne_eq, htype, not_false_eq_true, if_true, Option.isSome_none, Bool.or_self,
      Bool.false_eq_true, if_false]
    refine ⟨hscan.findings, ?_, ?_⟩
    · intro e
      rw [hscan.inputs, filter_append]
      simp [htype]
    · intro e
      rw [hscan.outputs, filter_append]
      simp [htype]

theorem foldl_scanPowerConnection_files (h : index.WellWired) :
    (index.snapshot.connections.foldl index.scanPowerConnection {}).Files
      index.snapshot.connections := by
  suffices hall : ∀ (rest done : List (TopologyConnection K)) (scan : PowerScan K),
      (∀ connection ∈ rest, connection ∈ index.snapshot.connections) → scan.Files done →
        (rest.foldl index.scanPowerConnection scan).Files (done ++ rest) by
    refine hall index.snapshot.connections [] {} (fun _ hmem => hmem) ⟨rfl, ?_, ?_⟩
    · intro e
      simp
    · intro e
      simp
  intro rest
  induction rest with
  | nil =>
    intro done scan _ hscan
    rw [append_nil]
    exact hscan
  | cons connection rest ih =>
    intro done scan hmem hscan
    rw [forall_mem_cons] at hmem
    have hstep := ih (done ++ [connection]) _ hmem.2 (scanPowerConnection_files h hmem.1 hscan)
    rw [append_assoc] at hstep
    exact hstep

/-- A list without duplicates has at most one entry of a kind that all its entries share. -/
theorem drop_one_filter {α : Type} {p : α → Bool} {l : List α} (hnodup : l.Nodup)
    (hsame : ∀ a ∈ l, ∀ b ∈ l, p a = true → p b = true → a = b) : (l.filter p).drop 1 = [] := by
  cases hfilter : l.filter p with
  | nil => rfl
  | cons a rest =>
    cases rest with
    | nil => rfl
    | cons b rest =>
      have hmem : ∀ x ∈ [a, b], x ∈ l ∧ p x = true := by
        intro x hx
        rw [← mem_filter, hfilter]
        rcases mem_pair.mp hx with rfl | rfl
        · exact mem_cons_self
        · exact mem_cons_of_mem _ mem_cons_self
      obtain ⟨ha, hpa⟩ := hmem a (by simp)
      obtain ⟨hb, hpb⟩ := hmem b (by simp)
      have hpair := hnodup.filter p
      rw [hfilter, hsame a ha b hb hpa hpb] at hpair
      simp at hpair

omit [Scalar K] in
theorem isAboutCable_powerItemFinding {code : String} (item : ItemRef)
    (endpoint : Option EndpointRef) :
    (powerItemFinding code item endpoint).isAboutCable =
      "power.connection.".toList.isPrefixOf code.toList :=
  rfl

/-- The findings about equipment are not about cables. -/
theorem powerItemFindings_isAboutCable {item : ItemRef} {finding : PowerTopologyFinding}
    (h : finding ∈ index.powerItemFindings item) : finding.isAboutCable = false := by
  unfold TopologyIndex.powerItemFindings at h
  split at h
  · split at h
    · split at h
      · cases h
      · rw [mem_singleton.mp h, isAboutCable_powerItemFinding]
        decide
    · cases h
  · split at h
    · cases h
    · split at h
      · rw [mem_singleton.mp h, isAboutCable_powerItemFinding]
        decide
      · split at h
        · cases h
        · rw [mem_singleton.mp h, isAboutCable_powerItemFinding]
          decide

/-- **A well-wired topology has no findings about cables.** -/
theorem TopologyIndex.WellWired.not_isAboutCable (h : index.WellWired) :
    ∀ finding ∈ index.powerTopology.findings, finding.isAboutCable = false := by
  have hfiles := foldl_scanPowerConnection_files h
  have hnodup : index.snapshot.connections.Nodup := index.valid.connections_nodup.of_map
  have hshared : ∀ (endpoint : EndpointRef) (power : PowerEndpointDescriptor),
      index.endpointPower endpoint = some power → power.allowFanOut = false →
      ∀ first ∈ index.snapshot.connections, ∀ second ∈ index.snapshot.connections,
        first.Uses endpoint → second.Uses endpoint → first = second := by
    intro endpoint power hpower hfan
    obtain ⟨descriptor, hdescriptor, hpower⟩ := Option.bind_eq_some_iff.mp hpower
    exact h.exclusive endpoint descriptor hdescriptor (by rw [hpower]; exact hfan)
  have hinputs : duplicateInputFindings
      (index.snapshot.connections.foldl index.scanPowerConnection {}).inputConnections = [] := by
    rw [duplicateInputFindings, flatMap_eq_nil_iff]
    intro connections hconnections
    obtain ⟨endpoint, hget⟩ := mem_values.mp hconnections
    have hlist := hfiles.inputs endpoint
    rw [hget, Option.getD_some] at hlist
    have hdrop : connections.drop 1 = [] := by
      rw [hlist]
      refine drop_one_filter hnodup ?_
      intro first hfirst second hsecond huses huses'
      rw [decide_eq_true_eq] at huses huses'
      rcases h.power_cases hfirst with ⟨-, -, -, input, -, hinput, -, hdirection⟩ | ⟨htype, -, -⟩
      · obtain ⟨descriptor, hdescriptor, hpower⟩ := Option.bind_eq_some_iff.mp hinput
        rcases power_roles hdescriptor hpower with houtput | ⟨-, hfan⟩
        · rw [hdirection] at houtput
          exact absurd houtput (by decide)
        · exact hshared _ input hinput hfan first hfirst second hsecond (Or.inr rfl)
            (Or.inr (huses'.2.trans huses.2.symm))
      · exact absurd huses.1 htype
    rw [hdrop]
    rfl
  have houtputs : index.outputFanOutFindings
      (index.snapshot.connections.foldl index.scanPowerConnection {}).outputConnections = [] := by
    rw [outputFanOutFindings, flatMap_eq_nil_iff]
    rintro ⟨endpoint, connections⟩ hentry
    rw [mem_filter, Std.ExtTreeMap.mem_toList_iff_getElem?_eq_some] at hentry
    obtain ⟨hget, hfan⟩ := hentry
    have hlist := hfiles.outputs endpoint
    rw [hget, Option.getD_some] at hlist
    have hdrop : connections.drop 1 = [] := by
      rw [hlist]
      refine drop_one_filter hnodup ?_
      intro first hfirst second hsecond huses huses'
      rw [decide_eq_true_eq] at huses huses'
      rcases h.power_cases hfirst with ⟨-, -, output, -, houtput, -, -, -⟩ | ⟨htype, -, -⟩
      · rw [huses.2] at houtput
        rw [houtput] at hfan
        exact hshared _ output houtput (by simpa using hfan) first hfirst second hsecond
          (Or.inl huses.2) (Or.inl huses'.2)
      · exact absurd huses.1 htype
    rw [hdrop]
    rfl
  intro finding hfinding
  have hmem : finding ∈ index.powerFindings := hfinding
  rw [powerFindings, hfiles.findings, hinputs, houtputs, nil_append, nil_append,
    nil_append, mem_flatMap] at hmem
  obtain ⟨item, -, hitem⟩ := hmem
  exact powerItemFindings_isAboutCable hitem

end Findings

/-! ## Wiring integrity -/

/-- **Wiring integrity over whole runs.** From an engine whose topology is well
wired, every sequence of requests leads to a well-wired topology, and the power
topology has no finding about a cable. -/
theorem Engine.run_wellWired (engine : Engine K) (h : engine.topology.WellWired)
    (requests : List (EngineRequest K)) :
    (engine.run requests).topology.WellWired ∧
      ∀ finding ∈ (engine.run requests).topology.powerTopology.findings,
        finding.isAboutCable = false := by
  have hwired := engine.run_topology_wellWired requests h
  exact ⟨hwired, hwired.not_isAboutCable⟩

/-- A topology without cables is well wired. -/
theorem TopologyIndex.wellWired_of_nil (h : index.snapshot.connections = []) : index.WellWired where
  ends := by
    rw [h]
    exact fun connection hconnection => nomatch hconnection
  exclusive := by
    rw [h]
    exact fun _ _ _ _ connection hconnection => nomatch hconnection
  derived := by
    rw [connectionDerivedStates_eq_map, h]
    rfl

/-- Plugging the monitor in, from its input to the outlet, stores a power cable. -/
theorem Engine.run_wellWired_desk :
    let request : EngineRequest ℚ :=
      { protocolVersion := 1
        requestId := 1
        baseRevision := 0
        operation := .createConnection { item := ⟨"monitor", 1⟩, portId := 1 }
          { item := ⟨"ups", 2⟩, portId := 1 } "today" }
    ∃ engine : Engine ℚ, engine.topology.snapshot = poweredDesk ∧
      (engine.run [request]).topology.WellWired ∧
      (engine.run [request]).topology.snapshot.connections.map (·.source.item.itemType) =
        ["ups"] := by
  intro request
  obtain ⟨topology, hbuild, hsources⟩ : ∃ topology,
      TopologyIndex.build poweredDesk = .ok topology ∧
      ((openedEngine 1 topology).run [request]).topology.snapshot.connections.map
        (·.source.item.itemType) = ["ups"] := exists_ok_of_any (by decide +kernel)
  have hsnapshot : topology.snapshot = poweredDesk := TopologyIndex.build_eq_ok.mp hbuild
  have hwired : topology.WellWired := TopologyIndex.wellWired_of_nil (by rw [hsnapshot]; rfl)
  exact ⟨openedEngine 1 topology, hsnapshot,
    (Engine.run_wellWired (openedEngine 1 topology) hwired [request]).1, hsources⟩

end HomelabInventory
