import HomelabInventory.Topology

/-!
# Valid snapshots

What a snapshot that passes validation satisfies. Every index holds a valid
snapshot, because it was built from it.
-/

namespace HomelabInventory

/-- The consistency of a snapshot, as far as the engine relies on it. -/
structure TopologySnapshot.Valid {K : Type} [Scalar K] (snapshot : TopologySnapshot K) : Prop where
  items_nodup : (snapshot.items.map (·.item)).Nodup
  ports_nodup : ∀ item ∈ snapshot.items, (item.ports.map (·.id)).Nodup
  sides_nodup : ∀ item ∈ snapshot.items, ∀ port ∈ item.ports, (port.endpoints.map (·.id)).Nodup
  assignments_pos : ∀ assignment ∈ snapshot.assignments, assignment.id ≠ 0
  assignments_nodup : (snapshot.assignments.map (·.id)).Nodup
  hosts_components : ∀ assignment ∈ snapshot.assignments,
    hostsComponents assignment.host.itemType = true
  assigned_exist : ∀ assignment ∈ snapshot.assignments,
    (∃ host ∈ snapshot.items, host.item = assignment.host) ∧
      ∃ owner ∈ snapshot.items, owner.item = assignment.item
  connections_nodup : (snapshot.connections.map (·.id)).Nodup
  hosted_assigned : ∀ connection ∈ snapshot.connections,
    ∀ endpoint ∈ [connection.source, connection.target], ∀ hosted,
      endpoint.hostedItem = some hosted →
        ∃ assignment ∈ snapshot.assignments,
          assignment.host = endpoint.item ∧ assignment.item = hosted
  routes_finite : ∀ connection ∈ snapshot.connections,
    connection.route.any invalidRoute = false
  placements_exist : ∀ placement ∈ snapshot.placements,
    placement.validate = .ok () ∧ ∃ item ∈ snapshot.items, item.item = placement

/-! ## What each loop of the validation checks -/

/-- The identifiers a set-valued loop has seen. -/
theorem nodup_of_seen {ε α κ : Type} [Ord κ] [Std.TransOrd κ] [Std.LawfulEqOrd κ] (key : α → κ)
    {f : BTreeSet κ → α → Except ε (BTreeSet κ)} {l : List α} {seen : BTreeSet κ}
    (hrun : l.foldlM f ∅ = .ok seen)
    (hstep : ∀ s a t, f s a = .ok t → key a ∉ s ∧ t = s.insert (key a)) :
    (l.map key).Nodup ∧ ∀ k, k ∈ seen ↔ ∃ a ∈ l, k = key a := by
  obtain ⟨hnodup, -, hseen⟩ := nodup_of_foldlM key (fun (s : BTreeSet κ) k => k ∈ s) hrun (by
    intro s a t ht
    obtain ⟨hfresh, rfl⟩ := hstep s a t ht
    refine ⟨hfresh, ?_⟩
    intro k
    rw [Std.ExtTreeSet.mem_insert, Std.LawfulEqOrd.compare_eq_iff_eq, or_comm]
    simp only [eq_comm])
  refine ⟨hnodup, ?_⟩
  intro k
  rw [hseen]
  simp

variable {seen : BTreeSet ℕ}

theorem validatePortSides_eq_ok {port : TopologyPort} (h : validatePortSides port = .ok seen) :
    (port.endpoints.map (·.id)).Nodup := by
  refine (nodup_of_seen _ h ?_).1
  intro s endpoint t ht
  simp only [bind_eq_ok, failIf_eq_ok, pure_eq_ok] at ht
  obtain ⟨-, -, -, -, -, hfresh, rfl⟩ := ht
  exact ⟨hfresh, rfl⟩

theorem validatePorts_eq_ok {item : TopologyItem} (h : validatePorts item = .ok seen) :
    (item.ports.map (·.id)).Nodup ∧ ∀ port ∈ item.ports, (port.endpoints.map (·.id)).Nodup := by
  constructor
  · refine (nodup_of_seen _ h ?_).1
    intro s port t ht
    simp only [bind_eq_ok, failIf_eq_ok, pure_eq_ok] at ht
    obtain ⟨-, -, -, -, -, hfresh, -, -, rfl⟩ := ht
    exact ⟨hfresh, rfl⟩
  · refine forall_of_foldlM h ?_
    intro s port t ht
    simp only [bind_eq_ok, failIf_eq_ok, pure_eq_ok] at ht
    obtain ⟨-, -, -, -, -, -, _, hsides, -⟩ := ht
    exact validatePortSides_eq_ok hsides

theorem validateItems_eq_ok {items : List TopologyItem} {refs : BTreeSet ItemRef}
    (h : validateItems items = .ok refs) :
    (items.map (·.item)).Nodup ∧ (∀ ref, ref ∈ refs ↔ ∃ item ∈ items, ref = item.item) ∧
      ∀ item ∈ items, (item.ports.map (·.id)).Nodup ∧
        ∀ port ∈ item.ports, (port.endpoints.map (·.id)).Nodup := by
  obtain ⟨hnodup, hrefs⟩ := nodup_of_seen TopologyItem.item h (by
    intro s item t ht
    simp only [bind_eq_ok, failIf_eq_ok, pure_eq_ok] at ht
    obtain ⟨-, -, -, hfresh, -, -, rfl⟩ := ht
    exact ⟨hfresh, rfl⟩)
  refine ⟨hnodup, hrefs, ?_⟩
  refine forall_of_foldlM h ?_
  intro s item t ht
  simp only [bind_eq_ok, failIf_eq_ok, pure_eq_ok] at ht
  obtain ⟨-, -, -, -, _, hports, -⟩ := ht
  exact validatePorts_eq_ok hports

theorem validateAssignments_eq_ok {refs : BTreeSet ItemRef} {assignments : List TopologyAssignment}
    {seen : BTreeSet ℕ × BTreeSet ItemRef} (h : validateAssignments refs assignments = .ok seen) :
    (assignments.map (·.id)).Nodup ∧ ∀ assignment ∈ assignments, assignment.id ≠ 0 ∧
      hostsComponents assignment.host.itemType = true ∧
      assignment.host ∈ refs ∧ assignment.item ∈ refs := by
  constructor
  · refine (nodup_of_foldlM TopologyAssignment.id
      (fun (s : BTreeSet ℕ × BTreeSet ItemRef) k => k ∈ s.1) h ?_).1
    intro s assignment t ht
    simp only [bind_eq_ok, failIf_eq_ok, pure_eq_ok, not_or] at ht
    obtain ⟨-, -, -, -, -, -, -, -, -, -, -, -, -, hfresh, -, -, rfl⟩ := ht
    refine ⟨hfresh.1, ?_⟩
    intro k
    rw [Std.ExtTreeSet.mem_insert, Std.LawfulEqOrd.compare_eq_iff_eq, or_comm]
    simp only [eq_comm]
  · refine forall_of_foldlM h ?_
    intro s assignment t ht
    simp only [bind_eq_ok, failIf_eq_ok, pure_eq_ok, not_or, not_not] at ht
    obtain ⟨-, hpos, -, -, -, -, -, -, -, hhost, -, -, -, -, -, hrefs, -⟩ := ht
    exact ⟨hpos, by simpa using hhost.2, hrefs⟩

variable {K : Type} [Scalar K]

variable {snapshot : TopologySnapshot K}

omit [Scalar K] in
theorem validateEndpointReference_eq_ok {endpoint : EndpointRef} {u : Unit}
    (h : validateEndpointReference snapshot endpoint = .ok u) (hosted : ItemRef)
    (hhosted : endpoint.hostedItem = some hosted) :
    ∃ assignment ∈ snapshot.assignments,
      assignment.host = endpoint.item ∧ assignment.item = hosted := by
  simp only [validateEndpointReference, bind_eq_ok, failIf_eq_ok] at h
  obtain ⟨-, -, -, -, -, -, -, hassigned, -⟩ := h
  rw [hhosted] at hassigned
  simpa using hassigned

theorem validateConnections_eq_ok (h : validateConnections snapshot = .ok seen) :
    (snapshot.connections.map (·.id)).Nodup ∧ ∀ connection ∈ snapshot.connections,
      (∀ endpoint ∈ [connection.source, connection.target], ∀ hosted,
        endpoint.hostedItem = some hosted →
          ∃ assignment ∈ snapshot.assignments,
            assignment.host = endpoint.item ∧ assignment.item = hosted) ∧
      connection.route.any invalidRoute = false := by
  constructor
  · refine (nodup_of_seen _ h ?_).1
    intro s connection t ht
    simp only [bind_eq_ok, failIf_eq_ok, pure_eq_ok] at ht
    obtain ⟨-, -, -, hfresh, -, -, -, -, -, -, rfl⟩ := ht
    exact ⟨hfresh, rfl⟩
  · refine forall_of_foldlM h ?_
    intro s connection t ht
    simp only [bind_eq_ok, failIf_eq_ok, pure_eq_ok] at ht
    obtain ⟨-, -, -, -, _, hsource, _, htarget, -, hroute, -⟩ := ht
    refine ⟨?_, Bool.not_eq_true _ ▸ hroute⟩
    intro endpoint hendpoint
    rcases List.mem_pair.mp hendpoint with rfl | rfl
    · exact validateEndpointReference_eq_ok hsource
    · exact validateEndpointReference_eq_ok htarget

theorem TopologySnapshot.valid_of_validate {u : Unit} (h : snapshot.validate = .ok u) :
    snapshot.Valid := by
  simp only [validate, bind_eq_ok] at h
  obtain ⟨refs, hitems, _, hassignments, _, hconnections, hplacements⟩ := h
  obtain ⟨hitemsNodup, hrefs, hports⟩ := validateItems_eq_ok hitems
  obtain ⟨hassignmentsNodup, hassigned⟩ := validateAssignments_eq_ok hassignments
  obtain ⟨hconnectionsNodup, hconnectionsValid⟩ := validateConnections_eq_ok hconnections
  have hexists : ∀ ref, ref ∈ refs → ∃ item ∈ snapshot.items, item.item = ref := by
    intro ref href
    obtain ⟨item, hitem, rfl⟩ := (hrefs ref).mp href
    exact ⟨item, hitem, rfl⟩
  exact {
    items_nodup := hitemsNodup
    ports_nodup := fun item hitem => (hports item hitem).1
    sides_nodup := fun item hitem => (hports item hitem).2
    assignments_pos := fun assignment h => (hassigned assignment h).1
    assignments_nodup := hassignmentsNodup
    hosts_components := fun assignment h => (hassigned assignment h).2.1
    assigned_exist := fun assignment h =>
      ⟨hexists _ (hassigned assignment h).2.2.1, hexists _ (hassigned assignment h).2.2.2⟩
    connections_nodup := hconnectionsNodup
    hosted_assigned := fun connection h => (hconnectionsValid connection h).1
    routes_finite := fun connection h => (hconnectionsValid connection h).2
    placements_exist := by
      intro placement hmem
      have hplacement := forM_eq_ok.mp hplacements placement hmem
      simp only [bind_eq_ok, failIf_eq_ok, not_not] at hplacement
      obtain ⟨_, hvalid, href⟩ := hplacement
      exact ⟨hvalid, hexists _ href⟩ }

/-- **Every index holds a valid snapshot.** -/
theorem TopologyIndex.valid (index : TopologyIndex K) : index.snapshot.Valid := by
  have hbuilt := index.built
  simp only [TopologyTables.build, bind_eq_ok] at hbuilt
  obtain ⟨_, hvalidate, -⟩ := hbuilt
  exact TopologySnapshot.valid_of_validate hvalidate

/-! ## Valid cables -/

namespace TopologyIndex

/-- A cable may join an outlet and a power input, or compatible ports without power. -/
theorem validatePortPair_ok {first second : EndpointDescriptor} :
    (validatePortPair first second).ok = true ↔
      (∃ firstPower secondPower, first.power = some firstPower ∧ second.power = some secondPower ∧
        firstPower.direction ≠ secondPower.direction) ∨
      first.power = none ∧ second.power = none ∧
        portsCompatible first.portType second.portType = true := by
  unfold validatePortPair
  cases hfirst : first.power with
  | none =>
    cases hsecond : second.power with
    | none => cases hports : portsCompatible first.portType second.portType <;> simp [invalid]
    | some secondPower => simp [invalid]
  | some firstPower =>
    cases hsecond : second.power with
    | none => simp [invalid]
    | some secondPower =>
      by_cases hdirection : firstPower.direction = secondPower.direction <;>
        simp [invalid, hdirection]

/-- A cable may join two free endpoints of different equipment that fit. -/
theorem validateConnection_ok {index : TopologyIndex K} {first second : EndpointRef} :
    (index.validateConnection first second).ok = true ↔
      first ≠ second ∧ ∃ firstDescriptor secondDescriptor,
        index.endpoint first = some firstDescriptor ∧
        index.endpoint second = some secondDescriptor ∧
        firstDescriptor.host ≠ secondDescriptor.host ∧
        (validatePortPair firstDescriptor secondDescriptor).ok = true ∧
        firstDescriptor.available = true ∧ secondDescriptor.available = true := by
  unfold validateConnection
  by_cases hsame : first = second
  · simp [hsame, invalid]
  · rw [if_neg hsame]
    cases hfirst : index.endpoint first with
    | none => simp [invalid]
    | some firstDescriptor =>
      cases hsecond : index.endpoint second with
      | none => simp [invalid]
      | some secondDescriptor =>
        by_cases hhost : firstDescriptor.host = secondDescriptor.host
        · simp [hhost, invalid]
        · cases hpair : (validatePortPair firstDescriptor secondDescriptor).ok with
          | false => simp [hhost, hpair]
          | true =>
            cases hfree : firstDescriptor.available with
            | false => simp [hhost, hpair, hfree, invalid]
            | true =>
              cases hfree' : secondDescriptor.available <;>
                simp [hsame, hhost, hpair, hfree, hfree', invalid]

theorem portsCompatible_comm (first second : String) :
    portsCompatible first second = portsCompatible second first := by
  rw [portsCompatible, portsCompatible, Bool.and_comm]
  congr 1
  rw [Bool.eq_iff_iff, beq_iff_eq, beq_iff_eq]
  exact eq_comm

/-- Turning a cable around does not change whether it is valid. -/
theorem validateConnection_swap {index : TopologyIndex K} {first second : EndpointRef}
    (h : (index.validateConnection first second).ok = true) :
    (index.validateConnection second first).ok = true := by
  obtain ⟨hne, firstDescriptor, secondDescriptor, hfirst, hsecond, hhost, hpair, hfree, hfree'⟩ :=
    validateConnection_ok.mp h
  refine validateConnection_ok.mpr ⟨hne.symm, secondDescriptor, firstDescriptor, hsecond, hfirst,
    hhost.symm, ?_, hfree', hfree⟩
  rcases validatePortPair_ok.mp hpair with ⟨p, q, hp, hq, hdirection⟩ | ⟨hp, hq, hports⟩
  · exact validatePortPair_ok.mpr (Or.inl ⟨q, p, hq, hp, hdirection.symm⟩)
  · refine validatePortPair_ok.mpr (Or.inr ⟨hq, hp, ?_⟩)
    rw [portsCompatible_comm]
    exact hports

end TopologyIndex

end HomelabInventory
