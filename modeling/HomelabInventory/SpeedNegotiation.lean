import HomelabInventory.TopologyGraph

/-!
# Speed negotiation

The traversal that negotiates the speed of a network component stays on the
vertices of its graph: it asks for no other endpoint's speed, and the fuel it is
given is never used up.
-/

namespace HomelabInventory

open List

/-! ## The vertices of a graph -/

/-- The ends of a list of edges. -/
def edgeEnds (edges : List (EndpointRef × EndpointRef)) : List EndpointRef :=
  edges.flatMap fun edge => [edge.1, edge.2]

/-- Every vertex of the graph, and every neighbor of one, is in the list. -/
def EndpointGraph.Within (adjacency : EndpointGraph) (vertices : List EndpointRef) : Prop :=
  ∀ (vertex : EndpointRef) (neighbors : BTreeSet EndpointRef),
    adjacency[vertex]? = some neighbors →
      vertex ∈ vertices ∧ ∀ neighbor ∈ neighbors, neighbor ∈ vertices

/-- Every neighbor is a vertex itself. -/
def EndpointGraph.Closed (adjacency : EndpointGraph) : Prop :=
  ∀ (vertex : EndpointRef) (neighbors : BTreeSet EndpointRef),
    adjacency[vertex]? = some neighbors → ∀ neighbor ∈ neighbors, neighbor ∈ adjacency

variable {adjacency : EndpointGraph}

theorem mem_getD_insert {vertex neighbor added : EndpointRef} :
    neighbor ∈ (adjacency[vertex]?.getD ∅).insert added ↔
      neighbor = added ∨ ∃ neighbors, adjacency[vertex]? = some neighbors ∧ neighbor ∈ neighbors := by
  rw [Std.ExtTreeSet.mem_insert, Std.LawfulEqOrd.compare_eq_iff_eq]
  cases adjacency[vertex]? with
  | none => simp [eq_comm]
  | some neighbors => simp [eq_comm]

variable {edge : EndpointRef × EndpointRef}

/-- The neighbors of a vertex after an edge was added. -/
theorem getElem?_addGraphEdge {vertex : EndpointRef} {neighbors : BTreeSet EndpointRef}
    (h : (addGraphEdge adjacency edge)[vertex]? = some neighbors) :
    (vertex = edge.1 ∨ vertex = edge.2 ∨ vertex ∈ adjacency) ∧ ∀ neighbor ∈ neighbors,
      neighbor = edge.1 ∨ neighbor = edge.2 ∨
        ∃ known, adjacency[vertex]? = some known ∧ neighbor ∈ known := by
  simp only [addGraphEdge, Std.ExtTreeMap.getElem?_insert, Std.LawfulEqOrd.compare_eq_iff_eq] at h
  by_cases htarget : edge.2 = vertex
  · rw [if_pos htarget] at h
    cases h
    refine ⟨Or.inr (Or.inl htarget.symm), ?_⟩
    intro neighbor hneighbor
    by_cases hsource : edge.1 = edge.2
    · rw [if_pos hsource] at hneighbor
      rw [Option.getD_some, Std.ExtTreeSet.mem_insert, Std.LawfulEqOrd.compare_eq_iff_eq,
        mem_getD_insert, hsource, htarget] at hneighbor
      rcases hneighbor with h | h | h
      · exact Or.inr (Or.inl (h.symm.trans htarget.symm))
      · exact Or.inr (Or.inl (h.trans htarget.symm))
      · exact Or.inr (Or.inr h)
    · rw [if_neg hsource, mem_getD_insert, htarget] at hneighbor
      rcases hneighbor with h | h
      · exact Or.inl h
      · exact Or.inr (Or.inr h)
  · rw [if_neg htarget] at h
    by_cases hsource : edge.1 = vertex
    · rw [if_pos hsource] at h
      cases h
      refine ⟨Or.inl hsource.symm, ?_⟩
      intro neighbor hneighbor
      rw [mem_getD_insert, hsource] at hneighbor
      rcases hneighbor with h | h
      · exact Or.inr (Or.inl h)
      · exact Or.inr (Or.inr h)
    · rw [if_neg hsource] at h
      refine ⟨Or.inr (Or.inr ?_), ?_⟩
      · exact Std.ExtTreeMap.mem_iff_isSome_getElem?.mpr (by rw [h]; rfl)
      · intro neighbor hneighbor
        exact Or.inr (Or.inr ⟨neighbors, h, hneighbor⟩)

theorem mem_addGraphEdge {vertex : EndpointRef} :
    vertex ∈ addGraphEdge adjacency edge ↔
      vertex = edge.1 ∨ vertex = edge.2 ∨ vertex ∈ adjacency := by
  simp only [addGraphEdge, Std.ExtTreeMap.mem_insert, Std.LawfulEqOrd.compare_eq_iff_eq]
  constructor
  · rintro (h | h | h)
    · exact Or.inr (Or.inl h.symm)
    · exact Or.inl h.symm
    · exact Or.inr (Or.inr h)
  · rintro (h | h | h)
    · exact Or.inr (Or.inl h.symm)
    · exact Or.inl h.symm
    · exact Or.inr (Or.inr h)

/-- A graph stays closed when an edge is added. -/
theorem EndpointGraph.Closed.addGraphEdge (h : adjacency.Closed)
    (edge : EndpointRef × EndpointRef) : (addGraphEdge adjacency edge).Closed := by
  intro vertex neighbors hvertex neighbor hneighbor
  rw [mem_addGraphEdge]
  rcases (getElem?_addGraphEdge hvertex).2 neighbor hneighbor with h' | h' | ⟨known, hknown, hmem⟩
  · exact Or.inl h'
  · exact Or.inr (Or.inl h')
  · exact Or.inr (Or.inr (h vertex known hknown neighbor hmem))

theorem EndpointGraph.Within.addGraphEdge {vertices : List EndpointRef}
    (h : adjacency.Within vertices) (hsource : edge.1 ∈ vertices) (htarget : edge.2 ∈ vertices) :
    (addGraphEdge adjacency edge).Within vertices := by
  intro vertex neighbors hvertex
  obtain ⟨hvertices, hneighbors⟩ := getElem?_addGraphEdge hvertex
  constructor
  · rcases hvertices with rfl | rfl | hmem
    · exact hsource
    · exact htarget
    · obtain ⟨known, hknown⟩ := Option.isSome_iff_exists.mp
        (Std.ExtTreeMap.mem_iff_isSome_getElem?.mp hmem)
      exact (h vertex known hknown).1
  · intro neighbor hneighbor
    rcases hneighbors neighbor hneighbor with rfl | rfl | ⟨known, hknown, hmem⟩
    · exact hsource
    · exact htarget
    · exact (h vertex known hknown).2 neighbor hmem

theorem graphOfEdges_closed (edges : List (EndpointRef × EndpointRef)) :
    (graphOfEdges edges).Closed := by
  suffices h : ∀ adjacency : EndpointGraph, adjacency.Closed →
      EndpointGraph.Closed (edges.foldl addGraphEdge adjacency) from
    h ∅ (by intro vertex neighbors hvertex; simp at hvertex)
  induction edges with
  | nil => exact fun _ h => h
  | cons edge edges ih => exact fun adjacency h => ih _ (h.addGraphEdge edge)

theorem graphOfEdges_within (edges : List (EndpointRef × EndpointRef)) :
    (graphOfEdges edges).Within (edgeEnds edges) := by
  suffices h : ∀ (vertices : List EndpointRef) (adjacency : EndpointGraph),
      (∀ e ∈ edgeEnds edges, e ∈ vertices) → adjacency.Within vertices →
        EndpointGraph.Within (edges.foldl addGraphEdge adjacency) vertices from
    h (edgeEnds edges) ∅ (fun _ he => he) (by intro vertex neighbors hvertex; simp at hvertex)
  intro vertices
  induction edges with
  | nil => exact fun _ _ h => h
  | cons edge edges ih =>
    intro adjacency hmem h
    simp only [edgeEnds, flatMap_cons, mem_append, mem_pair] at hmem
    refine ih _ (fun e he => hmem e (Or.inr he)) (h.addGraphEdge ?_ ?_)
    · exact hmem _ (Or.inl (Or.inl rfl))
    · exact hmem _ (Or.inl (Or.inr rfl))

/-! ## Traversals -/

namespace Traversal

variable {adjacency : EndpointGraph}

/-- Pushing neighbors adds them to the stack at most. -/
theorem mem_pending_push {t : Traversal} {neighbors : List EndpointRef} {e : EndpointRef}
    (h : e ∈ (neighbors.foldl push t).pending) : e ∈ t.pending ∨ e ∈ neighbors := by
  induction neighbors generalizing t with
  | nil => exact Or.inl h
  | cons neighbor neighbors ih =>
    rcases ih h with h | h
    · unfold push at h
      split at h
      · exact Or.inl h
      · rcases mem_cons.mp h with rfl | h
        · exact Or.inr mem_cons_self
        · exact Or.inl h
    · exact Or.inr (mem_cons_of_mem _ h)

variable {t : Traversal}

/-- A visit keeps the stack on the vertices. -/
theorem visit_within {vertices : List EndpointRef} (hwithin : adjacency.Within vertices)
    {advertised : EndpointRef → Option ℕ} {current : EndpointRef}
    (h : ∀ e ∈ t.pending, e ∈ vertices) :
    ∀ e ∈ (visit adjacency advertised t current).pending, e ∈ vertices := by
  intro e he
  rcases mem_pending_push he with he | he
  · exact h e he
  · rw [Std.ExtTreeSet.mem_toList] at he
    cases hcurrent : adjacency[current]? with
    | none => simp [hcurrent] at he
    | some neighbors =>
      rw [hcurrent] at he
      exact (hwithin current neighbors hcurrent).2 e he

/-- A traversal asks for the speeds of vertices only. -/
theorem run_congr {vertices : List EndpointRef} (hwithin : adjacency.Within vertices)
    {advertised advertised' : EndpointRef → Option ℕ}
    (hadvertised : ∀ e ∈ vertices, advertised' e = advertised e) (fuel : ℕ)
    (h : ∀ e ∈ t.pending, e ∈ vertices) :
    run adjacency advertised' fuel t = run adjacency advertised fuel t := by
  induction fuel generalizing t with
  | zero => rfl
  | succ fuel ih =>
    unfold run
    split
    · rfl
    · rename_i current pending hpending
      rw [hpending, forall_mem_cons] at h
      have hvisit : visit adjacency advertised' { t with pending := pending } current =
          visit adjacency advertised { t with pending := pending } current := by
        rw [visit, visit, hadvertised current h.1]
      rw [hvisit]
      exact ih (visit_within hwithin h.2)

/-! ## The fuel suffices -/

/-- The vertices that were not visited yet, and the stack. -/
def work (adjacency : EndpointGraph) (t : Traversal) : ℕ :=
  (adjacency.keys.filter fun vertex => !t.visited.contains vertex).length + t.pending.length

/-- Pushing a vertex takes it off the unvisited ones. -/
theorem work_push {neighbor : EndpointRef} (h : neighbor ∈ adjacency) :
    work adjacency (push t neighbor) ≤ work adjacency t := by
  unfold push
  split
  · exact le_refl _
  · rename_i hfresh
    have hkey : neighbor ∈ adjacency.keys.filter fun vertex => !t.visited.contains vertex := by
      rw [mem_filter, Std.ExtTreeMap.mem_keys]
      refine ⟨h, ?_⟩
      rw [Bool.not_eq_true', ← Bool.not_eq_true, Std.ExtTreeSet.contains_iff_mem]
      exact hfresh
    have hsub : (adjacency.keys.filter fun vertex =>
        !(t.visited.insert neighbor).contains vertex).Sublist
          ((adjacency.keys.filter fun vertex => !t.visited.contains vertex).erase neighbor) := by
      have hnodup : (adjacency.keys.filter fun vertex => !t.visited.contains vertex).Nodup :=
        Std.ExtTreeMap.nodup_keys.filter _
      rw [hnodup.erase_eq_filter, filter_filter]
      apply monotone_filter_right
      intro vertex hvertex
      rw [Bool.not_eq_true', Std.ExtTreeSet.contains_insert, Bool.or_eq_false_iff] at hvertex
      have hne : vertex ≠ neighbor := by
        rintro rfl
        simp at hvertex
      simp [hne, hvertex.2]
    have hlength := hsub.length_le
    rw [length_erase_of_mem hkey] at hlength
    have hpos := length_pos_of_mem hkey
    simp only [work, length_cons]
    omega

theorem work_foldl_push {neighbors : List EndpointRef} (h : ∀ e ∈ neighbors, e ∈ adjacency) :
    work adjacency (neighbors.foldl push t) ≤ work adjacency t := by
  induction neighbors generalizing t with
  | nil => exact le_refl _
  | cons neighbor neighbors ih =>
    rw [forall_mem_cons] at h
    exact (ih h.2).trans (work_push h.1)

/-- **With fuel for its work a traversal ends with an empty stack.** -/
theorem run_complete (hclosed : adjacency.Closed) (advertised : EndpointRef → Option ℕ) {fuel : ℕ}
    (hfuel : work adjacency t ≤ fuel) : (run adjacency advertised fuel t).pending = [] := by
  induction fuel generalizing t with
  | zero =>
    have hpending : t.pending.length = 0 := by
      unfold work at hfuel
      omega
    exact length_eq_zero_iff.mp hpending
  | succ fuel ih =>
    unfold run
    split
    · rename_i hpending
      exact hpending
    · rename_i current pending hpending
      apply ih
      have hpushed : work adjacency
            (visit adjacency advertised { t with pending := pending } current) ≤
          work adjacency { t with pending := pending } := by
        apply work_foldl_push
        intro e he
        rw [Std.ExtTreeSet.mem_toList] at he
        cases hcurrent : adjacency[current]? with
        | none => simp [hcurrent] at he
        | some neighbors =>
          rw [hcurrent] at he
          exact hclosed current neighbors hcurrent e he
      have hpopped : work adjacency { t with pending := pending } + 1 = work adjacency t := by
        simp only [work, hpending, length_cons]
        omega
      omega

end Traversal

/-! ## Negotiation -/

/-- The traversals of a negotiation end with an empty stack. -/
theorem negotiateSpeeds_fuel (hclosed : adjacency.Closed) (advertised : EndpointRef → Option ℕ)
    (visited : BTreeSet EndpointRef) (start : EndpointRef) :
    (Traversal.run adjacency advertised (adjacency.size + 1)
      { visited := visited.insert start, pending := [start] }).pending = [] := by
  apply Traversal.run_complete hclosed
  have hfilter := length_filter_le
    (fun vertex => !(visited.insert start).contains vertex) adjacency.keys
  rw [Std.ExtTreeMap.length_keys] at hfilter
  simp only [Traversal.work, length_singleton]
  omega

/-- A negotiation depends on what the vertices advertise only. -/
theorem negotiateSpeeds_congr {vertices : List EndpointRef} (hwithin : adjacency.Within vertices)
    {advertised advertised' : EndpointRef → Option ℕ}
    (hadvertised : ∀ e ∈ vertices, advertised' e = advertised e) :
    negotiateSpeeds adjacency advertised' = negotiateSpeeds adjacency advertised := by
  have hkeys : ∀ e ∈ adjacency.keys, e ∈ vertices := by
    intro e he
    rw [Std.ExtTreeMap.mem_keys, Std.ExtTreeMap.mem_iff_isSome_getElem?] at he
    obtain ⟨neighbors, hneighbors⟩ := Option.isSome_iff_exists.mp he
    exact (hwithin e neighbors hneighbors).1
  unfold negotiateSpeeds
  congr 1
  apply foldl_ext
  intro acc start hstart
  have hrun : Traversal.run adjacency advertised' (adjacency.size + 1)
        { visited := acc.2.insert start, pending := [start] } =
      Traversal.run adjacency advertised (adjacency.size + 1)
        { visited := acc.2.insert start, pending := [start] } := by
    apply Traversal.run_congr hwithin hadvertised
    intro e he
    rw [mem_singleton] at he
    exact he ▸ hkeys start hstart
  rw [hrun]

/-! ## Derived states -/

section DerivedStates

variable {K : Type}

/-- The ends of the network cables and the sides of the patch panels. -/
def networkVertices (snapshot : TopologySnapshot K) : List EndpointRef :=
  (snapshot.connections.flatMap fun connection => [connection.source, connection.target]) ++
    edgeEnds (panelEdges snapshot.items)

/-- The sides of a patch panel are its own. -/
theorem hostedItem_of_mem_panelEdges {items : List TopologyItem} {e : EndpointRef}
    (h : e ∈ edgeEnds (panelEdges items)) : e.hostedItem = none := by
  simp only [edgeEnds, panelEdges, mem_flatMap, mem_filterMap, mem_pair] at h
  obtain ⟨edge, ⟨item, -, port, -, hedge⟩, he⟩ := h
  unfold panelPortEdge at hedge
  split at hedge
  · cases hedge
  · split at hedge
    · cases hedge
      rcases he with rfl | rfl <;> rfl
    · cases hedge

/-- The identifier of a cable and what it joins. -/
def TopologyConnection.ends (connection : TopologyConnection K) : ℕ × EndpointRef × EndpointRef :=
  (connection.id, connection.source, connection.target)

/-- **Derived states depend on the ends of the cables only**: on how they are
classified and what the vertices of the network advertise. -/
theorem derivedStates_congr {snapshot snapshot' : TopologySnapshot K}
    {classify classify' : EndpointRef → EndpointRef → String}
    {advertised advertised' : EndpointRef → Option ℕ}
    (hitems : snapshot'.items = snapshot.items)
    (hends : snapshot'.connections.map (·.ends) = snapshot.connections.map (·.ends))
    (hclassify : ∀ connection ∈ snapshot.connections,
      classify' connection.source connection.target = classify connection.source connection.target)
    (hadvertised : ∀ e ∈ networkVertices snapshot, advertised' e = advertised e) :
    derivedStates classify' advertised' snapshot' = derivedStates classify advertised snapshot := by
  have hedges : networkEdges classify' snapshot'.connections =
      networkEdges classify snapshot.connections := by
    have hshape : ∀ (classify : EndpointRef → EndpointRef → String)
        (connections : List (TopologyConnection K)), networkEdges classify connections =
          ((connections.map (·.ends)).filter fun cable =>
            classify cable.2.1 cable.2.2 == "network").map (·.2) := by
      intro classify connections
      rw [filter_map, map_map]
      rfl
    rw [hshape, hshape, hends]
    congr 1
    apply filter_congr
    intro cable hcable
    obtain ⟨connection, hconnection, rfl⟩ := mem_map.mp hcable
    simp only [TopologyConnection.ends, hclassify connection hconnection]
  have hspeeds : speedByEndpoint classify' advertised' snapshot' =
      speedByEndpoint classify advertised snapshot := by
    unfold speedByEndpoint
    rw [hedges, hitems]
    refine negotiateSpeeds_congr (graphOfEdges_within _) ?_
    intro e he
    apply hadvertised
    rw [edgeEnds, flatMap_append, mem_append] at he
    rw [networkVertices, mem_append]
    rcases he with he | he
    · left
      simp only [networkEdges, mem_flatMap, mem_map, mem_filter] at he ⊢
      obtain ⟨_, ⟨connection, ⟨hconnection, -⟩, rfl⟩, he⟩ := he
      exact ⟨connection, hconnection, he⟩
    · exact Or.inr he
  have hshape : ∀ (classify : EndpointRef → EndpointRef → String)
      (advertised : EndpointRef → Option ℕ) (snapshot : TopologySnapshot K),
      derivedStates classify advertised snapshot =
        (snapshot.connections.map (·.ends)).map fun cable =>
          { connectionId := cable.1
            connectionType := classify cable.2.1 cable.2.2
            negotiatedSpeedBps :=
              if classify cable.2.1 cable.2.2 = "network" then
                (speedByEndpoint classify advertised snapshot)[cable.2.1]?.join
              else none } := by
    intro classify advertised snapshot
    rw [map_map]
    rfl
  rw [hshape, hshape, hspeeds, hends]
  apply map_congr_left
  intro cable hcable
  obtain ⟨connection, hconnection, rfl⟩ := mem_map.mp hcable
  have hclass : classify' connection.ends.2.1 connection.ends.2.2 =
      classify connection.ends.2.1 connection.ends.2.2 := hclassify connection hconnection
  rw [hclass]

end DerivedStates

end HomelabInventory
