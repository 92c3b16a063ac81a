import HomelabInventory.Lookup
import HomelabInventory.TopologyValidity

/-!
# The endpoint index

What an index knows about an endpoint: it is known when the snapshot exposes the
port, and its descriptor is that of the port together with the cables that are
plugged in. The other developments about wiring rest on this description and
never look at how the index was built.
-/

namespace HomelabInventory

open List Option

/-! ## Exposed ports -/

section Exposed

variable {K : Type}

/-- The ports of `owner` can be wired at `host`: they are the host's own, or those
of a component that is assigned to it. -/
structure TopologySnapshot.Exposes (snapshot : TopologySnapshot K) (host owner : TopologyItem) :
    Prop where
  host_mem : host ∈ snapshot.items
  owner_mem : owner ∈ snapshot.items
  host_active : host.archived = false
  wired : owner = host ∧ exposesDirectPorts host.item.itemType = true ∨
    owner.archived = false ∧ hostsComponents host.item.itemType = true ∧
      ∃ assignment ∈ snapshot.assignments,
        assignment.host = host.item ∧ assignment.item = owner.item

/-- An endpoint is a side of an exposed port. -/
structure TopologySnapshot.EndpointOf (snapshot : TopologySnapshot K) (endpoint : EndpointRef)
    (host owner : TopologyItem) (port : TopologyPort) (side : Option TopologyPortSide) : Prop where
  exposes : snapshot.Exposes host owner
  port_mem : port ∈ owner.ports
  port_type : port.portType ≠ "barrel"
  side_mem : side ∈ portSides port
  endpoint_eq : (describePort host owner false port side).endpoint = endpoint

/-- The cables at an endpoint. -/
def connectionIdsAt (endpoint : EndpointRef) (connections : List (TopologyConnection K)) : List ℕ :=
  connections.flatMap fun connection =>
    (if connection.source = endpoint then [connection.id] else []) ++
      (if connection.target = endpoint then [connection.id] else [])

/-- The descriptor of a port with the cables at its endpoint. -/
def describeEndpoint (snapshot : TopologySnapshot K) (endpoint : EndpointRef)
    (host owner : TopologyItem) (port : TopologyPort) (side : Option TopologyPortSide) :
    EndpointDescriptor :=
  TopologyTables.finishDescriptor
    { describePort host owner ((collectSet snapshot.placements).contains host.item) port side with
      connectionIds := connectionIdsAt endpoint snapshot.connections }

theorem describePort_owner (host owner : TopologyItem) (placed : Bool) (port : TopologyPort)
    (side : Option TopologyPortSide) :
    (describePort host owner placed port side).endpoint.owner = owner.item := by
  by_cases h : host.item = owner.item <;> simp [describePort, EndpointRef.owner, h]

theorem mem_portSides {port : TopologyPort} {side : TopologyPortSide}
    (h : some side ∈ portSides port) : side ∈ port.endpoints := by
  unfold portSides at h
  split at h
  · simp at h
  · simpa using h

variable [Scalar K]

/-- An endpoint belongs to one exposed port only, whatever is assigned and wired. -/
theorem TopologySnapshot.EndpointOf.unique {snapshot snapshot' : TopologySnapshot K}
    (hvalid : snapshot.Valid) (hitems : snapshot'.items = snapshot.items)
    {endpoint : EndpointRef} {host host' owner owner' : TopologyItem} {port port' : TopologyPort}
    {side side' : Option TopologyPortSide}
    (h : snapshot.EndpointOf endpoint host owner port side)
    (h' : snapshot'.EndpointOf endpoint host' owner' port' side') :
    host = host' ∧ owner = owner' ∧ port = port' ∧ side = side' := by
  have heq := h.endpoint_eq.trans h'.endpoint_eq.symm
  have hhost' : host' ∈ snapshot.items := hitems ▸ h'.exposes.host_mem
  have howner' : owner' ∈ snapshot.items := hitems ▸ h'.exposes.owner_mem
  obtain rfl : host = host' := inj_on_of_nodup_map hvalid.items_nodup h.exposes.host_mem
    hhost' (congrArg EndpointRef.item heq)
  have howner := congrArg EndpointRef.owner heq
  rw [describePort_owner, describePort_owner] at howner
  obtain rfl : owner = owner' := inj_on_of_nodup_map hvalid.items_nodup h.exposes.owner_mem
    howner' howner
  obtain rfl : port = port' := inj_on_of_nodup_map
    (hvalid.ports_nodup owner h.exposes.owner_mem) h.port_mem h'.port_mem
    (congrArg EndpointRef.portId heq)
  refine ⟨rfl, rfl, rfl, ?_⟩
  have hside : side.map (·.id) = side'.map (·.id) := congrArg EndpointRef.endpointId heq
  cases side with
  | none =>
    cases side' with
    | none => rfl
    | some side' => cases hside
  | some side =>
    cases side' with
    | none => cases hside
    | some side' =>
      rw [map_some, map_some, Option.some.injEq] at hside
      rw [inj_on_of_nodup_map
        (hvalid.sides_nodup owner h.exposes.owner_mem port h.port_mem) (mem_portSides h.side_mem)
        (mem_portSides h'.side_mem) hside]

end Exposed

/-! ## What the index is built from -/

section Entries

variable {K : Type}

theorem mem_describeItemPorts {host owner : TopologyItem} {placed : Bool}
    {descriptor : EndpointDescriptor} :
    descriptor ∈ describeItemPorts host owner placed ↔
      ∃ port ∈ owner.ports, port.portType ≠ "barrel" ∧
        ∃ side ∈ portSides port, descriptor = describePort host owner placed port side := by
  simp only [describeItemPorts, mem_flatMap, mem_filter, List.mem_map, decide_eq_true_eq]
  constructor
  · rintro ⟨port, ⟨hport, htype⟩, side, hside, rfl⟩
    exact ⟨port, hport, htype, side, hside, rfl⟩
  · rintro ⟨port, hport, htype, side, hside, rfl⟩
    exact ⟨port, ⟨hport, htype⟩, side, hside, rfl⟩

/-- The entries that an item's ports add to the index. -/
def itemEntries (host owner : TopologyItem) (placed : Bool) :
    List (EndpointRef × EndpointDescriptor) :=
  (describeItemPorts host owner placed).map fun d => (d.endpoint, d)

namespace TopologyTables

/-- The direct endpoints are collected from the ports of the active items. -/
theorem directEndpoints_eq (placements : BTreeSet ItemRef) (items : List TopologyItem) :
    directEndpoints placements items = collectEntries
      ((items.filter fun item => !item.archived && exposesDirectPorts item.item.itemType).flatMap
        fun item => itemEntries item item (placements.contains item.item)) := by
  suffices h : ∀ endpoints : EndpointMap,
      items.foldl (fun endpoints item =>
        if !item.archived && exposesDirectPorts item.item.itemType then
          indexItemPorts endpoints item item (placements.contains item.item)
        else endpoints) endpoints =
      insertEntries endpoints
        ((items.filter fun item => !item.archived && exposesDirectPorts item.item.itemType).flatMap
          fun item => itemEntries item item (placements.contains item.item)) from h ∅
  induction items with
  | nil => exact fun _ => rfl
  | cons item items ih =>
    intro endpoints
    rw [foldl_cons, ih, filter_cons]
    cases hexposed : !item.archived && exposesDirectPorts item.item.itemType with
    | true =>
      rw [if_pos rfl, if_pos rfl, flatMap_cons, insertEntries_append]
      rfl
    | false => rw [if_neg Bool.false_ne_true, if_neg Bool.false_ne_true]

variable {endpoints endpoints' : EndpointMap}

/-- The hosted endpoints are added from the ports of the active components. -/
theorem hostedEndpoints_eq_ok {items : BTreeMap ItemRef TopologyItem}
    {placements : BTreeSet ItemRef} {assignments : List TopologyAssignment}
    (h : hostedEndpoints items placements endpoints assignments = .ok endpoints') :
    ∃ entries, endpoints' = insertEntries endpoints entries ∧
      ∀ entry, entry ∈ entries ↔ ∃ assignment ∈ assignments, ∃ host owner,
        items[assignment.host]? = some host ∧ items[assignment.item]? = some owner ∧
        (host.archived || owner.archived || !hostsComponents host.item.itemType) = false ∧
        entry ∈ itemEntries host owner (placements.contains host.item) := by
  unfold hostedEndpoints at h
  induction assignments generalizing endpoints with
  | nil =>
    rw [foldlM_nil, pure_eq_ok] at h
    exact ⟨[], h.symm, by simp⟩
  | cons assignment rest ih =>
    obtain ⟨middle, hmiddle, hrest⟩ := foldlM_cons_eq_ok.mp h
    obtain ⟨entries, rfl, hentries⟩ := ih hrest
    split at hmiddle
    · rename_i host owner hhost howner
      have hfirst : ∀ entry, (∃ host' owner', items[assignment.host]? = some host' ∧
            items[assignment.item]? = some owner' ∧
            (host'.archived || owner'.archived || !hostsComponents host'.item.itemType) = false ∧
            entry ∈ itemEntries host' owner' (placements.contains host'.item)) ↔
          (host.archived || owner.archived || !hostsComponents host.item.itemType) = false ∧
            entry ∈ itemEntries host owner (placements.contains host.item) := by
        intro entry
        constructor
        · rintro ⟨host', owner', hhost', howner', hrest⟩
          rw [hhost, Option.some.injEq] at hhost'
          rw [howner, Option.some.injEq] at howner'
          subst hhost' howner'
          exact hrest
        · exact fun hrest => ⟨host, owner, hhost, howner, hrest⟩
      split at hmiddle
      · rename_i hhidden
        cases hmiddle
        refine ⟨entries, rfl, ?_⟩
        intro entry
        simp only [hentries, mem_cons, exists_eq_or_imp, hfirst, hhidden, Bool.true_eq_false,
          false_and, false_or]
      · rename_i hshown
        cases hmiddle
        rw [Bool.not_eq_true] at hshown
        refine ⟨itemEntries host owner (placements.contains host.item) ++ entries, ?_, ?_⟩
        · rw [insertEntries_append]
          rfl
        · intro entry
          simp only [mem_append, hentries, mem_cons, exists_eq_or_imp, hfirst, hshown,
            true_and]
    · cases hmiddle

/-- Plug further cables into an endpoint. -/
def plugIn (connectionIds : List ℕ) (descriptor : EndpointDescriptor) : EndpointDescriptor :=
  { descriptor with connectionIds := descriptor.connectionIds ++ connectionIds }

theorem plugIn_plugIn (ids ids' : List ℕ) (descriptor : EndpointDescriptor) :
    plugIn ids' (plugIn ids descriptor) = plugIn (ids ++ ids') descriptor := by
  simp [plugIn, append_assoc]

theorem plugIn_nil : plugIn [] = id := by
  funext descriptor
  simp [plugIn]

theorem plugEnd_eq_ok {connectionId : ℕ} {endpoint : EndpointRef}
    (h : plugEnd connectionId endpoints endpoint = .ok endpoints') (e : EndpointRef) :
    endpoints'[e]? = endpoints[e]?.map (plugIn (if endpoint = e then [connectionId] else [])) := by
  unfold plugEnd at h
  split at h
  · rename_i descriptor hget
    cases h
    rw [Std.ExtTreeMap.getElem?_insert]
    simp only [Std.LawfulEqOrd.compare_eq_iff_eq]
    by_cases he : endpoint = e
    · subst he
      rw [if_pos rfl, if_pos rfl, hget]
      rfl
    · rw [if_neg he, if_neg he, plugIn_nil, map_id_apply]
  · rename_i hget
    split at h
    · cases h
    · cases h
      by_cases he : endpoint = e
      · subst he
        rw [hget]
        rfl
      · rw [if_neg he, plugIn_nil, map_id_apply]

theorem plugConnections_eq_ok {connections : List (TopologyConnection K)}
    (h : plugConnections endpoints connections = .ok endpoints') (e : EndpointRef) :
    endpoints'[e]? = endpoints[e]?.map (plugIn (connectionIdsAt e connections)) := by
  unfold plugConnections at h
  induction connections generalizing endpoints with
  | nil =>
    rw [foldlM_nil, pure_eq_ok] at h
    subst h
    rw [connectionIdsAt, flatMap_nil, plugIn_nil, map_id_apply]
  | cons connection connections ih =>
    obtain ⟨plugged, hends, hrest⟩ := foldlM_cons_eq_ok.mp h
    obtain ⟨middle, hsource, hend⟩ := foldlM_cons_eq_ok.mp hends
    obtain ⟨last, htarget, hlast⟩ := foldlM_cons_eq_ok.mp hend
    rw [foldlM_nil, pure_eq_ok] at hlast
    subst hlast
    rw [ih hrest, plugEnd_eq_ok htarget, plugEnd_eq_ok hsource, Option.map_map, Option.map_map]
    apply Option.map_congr
    intro d _
    simp only [Function.comp_apply, plugIn_plugIn, connectionIdsAt, flatMap_cons]

end TopologyTables

end Entries

/-! ## The endpoints of an index -/

namespace TopologyIndex

variable {K : Type} [Scalar K]

/-- Before any cable is plugged in, the tables hold the exposed ports. -/
theorem mem_entries_iff {snapshot : TopologySnapshot K} (hvalid : snapshot.Valid)
    {hosted : List (EndpointRef × EndpointDescriptor)}
    (hhosted : ∀ entry, entry ∈ hosted ↔ ∃ assignment ∈ snapshot.assignments, ∃ host owner,
      (collectEntries (snapshot.items.map fun item => (item.item, item)))[assignment.host]? =
          some host ∧
      (collectEntries (snapshot.items.map fun item => (item.item, item)))[assignment.item]? =
          some owner ∧
      (host.archived || owner.archived || !hostsComponents host.item.itemType) = false ∧
      entry ∈ itemEntries host owner ((collectSet snapshot.placements).contains host.item))
    (endpoint : EndpointRef) (descriptor : EndpointDescriptor) :
    (endpoint, descriptor) ∈ (snapshot.items.filter fun item =>
        !item.archived && exposesDirectPorts item.item.itemType).flatMap (fun item =>
          itemEntries item item ((collectSet snapshot.placements).contains item.item)) ++ hosted ↔
      ∃ host owner port side, snapshot.EndpointOf endpoint host owner port side ∧
        descriptor =
          describePort host owner ((collectSet snapshot.placements).contains host.item) port side := by
  have hitem : ∀ ref item,
      (collectEntries (snapshot.items.map fun item => (item.item, item)))[ref]? = some item ↔
        item ∈ snapshot.items ∧ item.item = ref := by
    intro ref item
    rw [getElem?_collectEntries_map hvalid.items_nodup, lookup_eq_some_iff hvalid.items_nodup]
  have hentry : ∀ host owner placed, (endpoint, descriptor) ∈ itemEntries host owner placed ↔
      ∃ port ∈ owner.ports, port.portType ≠ "barrel" ∧ ∃ side ∈ portSides port,
        (describePort host owner false port side).endpoint = endpoint ∧
          descriptor = describePort host owner placed port side := by
    intro host owner placed
    simp only [itemEntries, List.mem_map, mem_describeItemPorts, Prod.mk.injEq]
    constructor
    · rintro ⟨_, ⟨port, hport, htype, side, hside, rfl⟩, rfl, rfl⟩
      exact ⟨port, hport, htype, side, hside, rfl, rfl⟩
    · rintro ⟨port, hport, htype, side, hside, rfl, rfl⟩
      exact ⟨_, ⟨port, hport, htype, side, hside, rfl⟩, rfl, rfl⟩
  simp only [mem_append, mem_flatMap, mem_filter, hhosted, hitem, hentry]
  constructor
  · rintro (⟨item, ⟨hmem, hexposed⟩, port, hport, htype, side, hside, hendpoint, hdescriptor⟩ |
      ⟨assignment, hassignment, host, owner, ⟨hhost, hhostRef⟩, ⟨howner, hownerRef⟩, hshown,
        port, hport, htype, side, hside, hendpoint, hdescriptor⟩)
    · rw [Bool.and_eq_true, Bool.not_eq_true'] at hexposed
      exact ⟨item, item, port, side,
        { exposes :=
            { host_mem := hmem
              owner_mem := hmem
              host_active := hexposed.1
              wired := Or.inl ⟨rfl, hexposed.2⟩ }
          port_mem := hport
          port_type := htype
          side_mem := hside
          endpoint_eq := hendpoint }, hdescriptor⟩
    · rw [Bool.or_eq_false_iff, Bool.or_eq_false_iff, Bool.not_eq_false'] at hshown
      exact ⟨host, owner, port, side,
        { exposes :=
            { host_mem := hhost
              owner_mem := howner
              host_active := hshown.1.1
              wired := Or.inr ⟨hshown.1.2, hshown.2, assignment, hassignment, hhostRef.symm,
                hownerRef.symm⟩ }
          port_mem := hport
          port_type := htype
          side_mem := hside
          endpoint_eq := hendpoint }, hdescriptor⟩
  · rintro ⟨host, owner, port, side, hof, hdescriptor⟩
    have hactive := hof.exposes.host_active
    rcases hof.exposes.wired with ⟨rfl, hdirect⟩ |
      ⟨howner, hhosts, assignment, hassignment, hhostRef, hownerRef⟩
    · refine Or.inl ⟨owner, ⟨hof.exposes.host_mem, ?_⟩, port, hof.port_mem, hof.port_type, side,
        hof.side_mem, hof.endpoint_eq, hdescriptor⟩
      rw [hactive, hdirect]
      rfl
    · refine Or.inr ⟨assignment, hassignment, host, owner, ⟨hof.exposes.host_mem, hhostRef.symm⟩,
        ⟨hof.exposes.owner_mem, hownerRef.symm⟩, ?_, port, hof.port_mem, hof.port_type, side,
        hof.side_mem, hof.endpoint_eq, hdescriptor⟩
      rw [hactive, howner, hhosts]
      rfl

/-- **An endpoint is known exactly when the snapshot exposes it**, and its
descriptor is that of the port with the cables plugged in. -/
theorem endpoint_eq_some (index : TopologyIndex K) {endpoint : EndpointRef}
    {descriptor : EndpointDescriptor} :
    index.endpoint endpoint = some descriptor ↔
      ∃ host owner port side, index.snapshot.EndpointOf endpoint host owner port side ∧
        descriptor = describeEndpoint index.snapshot endpoint host owner port side := by
  have hvalid := index.valid
  have hbuilt := index.built
  simp only [TopologyTables.build, bind_eq_ok, pure_eq_ok] at hbuilt
  obtain ⟨_, -, hosted, hhosted, plugged, hplugged, htables⟩ := hbuilt
  obtain ⟨entries, rfl, hentries⟩ := TopologyTables.hostedEndpoints_eq_ok hhosted
  have hendpoints := congrArg TopologyTables.endpoints htables
  rw [TopologyIndex.endpoint, ← hendpoints, Std.ExtTreeMap.getElem?_map,
    TopologyTables.plugConnections_eq_ok hplugged, TopologyTables.directEndpoints_eq, collectEntries,
    ← insertEntries_append, Option.map_map, map_eq_some_iff]
  have hbase : ∀ d, _ ↔ _ := fun d => getElem?_collectEntries (k := endpoint) (v := d) (by
    intro e d d' hd hd'
    rw [mem_entries_iff hvalid hentries] at hd hd'
    obtain ⟨host, owner, port, side, hof, rfl⟩ := hd
    obtain ⟨host', owner', port', side', hof', rfl⟩ := hd'
    obtain ⟨rfl, rfl, rfl, rfl⟩ := hof.unique hvalid rfl hof'
    rfl)
  simp only [collectEntries] at hbase
  simp only [hbase, mem_entries_iff hvalid hentries]
  constructor
  · rintro ⟨_, ⟨host, owner, port, side, hof, rfl⟩, rfl⟩
    exact ⟨host, owner, port, side, hof, rfl⟩
  · rintro ⟨host, owner, port, side, hof, rfl⟩
    exact ⟨_, ⟨host, owner, port, side, hof, rfl⟩, rfl⟩

end TopologyIndex

end HomelabInventory
