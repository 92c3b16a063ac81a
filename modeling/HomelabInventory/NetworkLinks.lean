import HomelabInventory.EndpointIndex
import HomelabInventory.NetworkComponents

/-!
# Network links

Endpoints are linked by network cables and through the ports of patch panels. The lookups of a trace
and the edges of the graph in which speeds are negotiated find the same links at a known endpoint, if
every panel port has one front and one back. So the negotiated speed of a cable is the lowest one
that is advertised where links from its ends lead.
-/

namespace HomelabInventory

open List

open Relation (ReflTransGen)

/-! ## Links -/

section Links

variable {K : Type} [Scalar K]

/-- Every port of a patch panel has one front and one back. -/
def TopologySnapshot.PanelsTwoSided (snapshot : TopologySnapshot K) : Prop :=
  ∀ panel ∈ snapshot.items, panel.item.itemType = "patchPanel" → ∀ port ∈ panel.ports,
    (port.endpoints.map (·.side)).Perm ["front", "back"]

/-- The endpoint of a side of a port. -/
def sideEndpoint (item : TopologyItem) (port : TopologyPort) (side : TopologyPortSide) :
    EndpointRef where
  item := item.item
  portId := port.id
  endpointId := some side.id

/-- The endpoints are the two sides of a port of a patch panel. -/
def TopologySnapshot.Crosses (snapshot : TopologySnapshot K) (endpoint peer : EndpointRef) : Prop :=
  ∃ panel ∈ snapshot.items, panel.item.itemType = "patchPanel" ∧ ∃ port ∈ panel.ports,
    ∃ side ∈ port.endpoints, ∃ other ∈ port.endpoints, side.side ≠ other.side ∧
      endpoint = sideEndpoint panel port side ∧ peer = sideEndpoint panel port other

namespace TopologyIndex

/-- A network cable joins the endpoints. -/
structure Cables (index : TopologyIndex K) (connection : TopologyConnection K)
    (endpoint next : EndpointRef) : Prop where
  mem : connection ∈ index.snapshot.connections
  network : index.classifyConnection connection.source connection.target = "network"
  ends : connection.source = endpoint ∧ connection.target = next ∨
    connection.target = endpoint ∧ connection.source = next

/-- The endpoints are joined by a network cable or through a port of a patch panel. -/
def Linked (index : TopologyIndex K) (endpoint next : EndpointRef) : Prop :=
  (∃ connection, index.Cables connection endpoint next) ∨ index.snapshot.Crosses endpoint next

/-- A known endpoint of a network port. -/
def IsNetwork (index : TopologyIndex K) (endpoint : EndpointRef) : Prop :=
  ∃ descriptor, index.endpoint endpoint = some descriptor ∧
    isNetworkPort descriptor.portType = true

end TopologyIndex

theorem classifyPair_network {source target : EndpointDescriptor}
    (h : classifyPair source target = "network") :
    isNetworkPort source.portType = true ∧ isNetworkPort target.portType = true := by
  unfold classifyPair at h
  split at h
  · exact absurd h (by decide)
  split at h
  · rename_i hports
    rw [Bool.and_eq_true, beq_iff_eq] at hports
    exact ⟨hports.2, hports.1 ▸ hports.2⟩
  split at h
  · exact absurd h (by decide)
  · exact absurd h (by decide)

namespace TopologyIndex

variable {index : TopologyIndex K}

variable {endpoint next peer source target : EndpointRef}

/-- The ends of a network cable are known endpoints of network ports. -/
theorem isNetwork_of_network (h : index.classifyConnection source target = "network") :
    index.IsNetwork source ∧ index.IsNetwork target := by
  unfold classifyConnection at h
  split at h
  · rename_i first second hfirst hsecond
    obtain ⟨hsource, htarget⟩ := classifyPair_network h
    exact ⟨⟨first, hfirst, hsource⟩, ⟨second, hsecond, htarget⟩⟩
  · exact absurd h (by decide)

variable {connection : TopologyConnection K}

theorem Cables.isNetwork (h : index.Cables connection endpoint next) :
    index.IsNetwork endpoint ∧ index.IsNetwork next := by
  obtain ⟨hsource, htarget⟩ := isNetwork_of_network h.network
  obtain ⟨rfl, rfl⟩ | ⟨rfl, rfl⟩ := h.ends
  · exact ⟨hsource, htarget⟩
  · exact ⟨htarget, hsource⟩

/-! ## The cable at an endpoint -/

variable {connectionId : ℕ}

theorem connectionById_eq_some (index : TopologyIndex K) :
    index.connectionIndexById[connectionId]?.bind (index.snapshot.connections[·]?) =
        some connection ↔
      connection ∈ index.snapshot.connections ∧ connection.id = connectionId := by
  have hbuilt := index.built
  simp only [TopologyTables.build, bind_eq_ok, pure_eq_ok] at hbuilt
  obtain ⟨_, -, _, -, _, -, htables⟩ := hbuilt
  have hids := congrArg TopologyTables.connectionIndexById htables
  dsimp only at hids
  have hget : ∀ place, index.connectionIndexById[connectionId]? = some place ↔
      ∃ other, index.snapshot.connections[place]? = some other ∧ other.id = connectionId := by
    intro place
    rw [← hids, getElem?_collectEntries]
    · simp only [mem_map, Prod.mk.injEq, Prod.exists, mem_zipIdx_iff_getElem?]
      constructor
      · rintro ⟨other, _, hother, hid, rfl⟩
        exact ⟨other, hother, hid⟩
      · rintro ⟨other, hother, hid⟩
        exact ⟨other, place, hother, hid, rfl⟩
    · intro id first second hfirst hsecond
      simp only [mem_map, Prod.mk.injEq, Prod.exists, mem_zipIdx_iff_getElem?]
        at hfirst hsecond
      obtain ⟨one, _, hone, hid, rfl⟩ := hfirst
      obtain ⟨two, _, htwo, hid', rfl⟩ := hsecond
      have hlt := (List.getElem?_eq_some_iff.mp hone).1
      have hnodup := index.valid.connections_nodup
      rw [← List.length_map (·.id)] at hlt
      refine (getElem?_inj hlt hnodup).mp ?_
      rw [getElem?_map, getElem?_map, hone, htwo, Option.map_some, Option.map_some, hid,
        hid']
  rw [Option.bind_eq_some_iff]
  constructor
  · rintro ⟨place, hplace, hconnection⟩
    obtain ⟨other, hother, hid⟩ := (hget place).mp hplace
    rw [hother, Option.some.injEq] at hconnection
    exact hconnection ▸ ⟨mem_of_getElem? hother, hid⟩
  · rintro ⟨hmem, hid⟩
    obtain ⟨place, hplace⟩ := getElem?_of_mem hmem
    exact ⟨place, (hget place).mpr ⟨connection, hplace, hid⟩, hplace⟩

omit [Scalar K] in
theorem mem_connectionIdsAt {connections : List (TopologyConnection K)} :
    connectionId ∈ connectionIdsAt endpoint connections ↔
      ∃ connection ∈ connections, connection.id = connectionId ∧
        (connection.source = endpoint ∨ connection.target = endpoint) := by
  simp only [connectionIdsAt, mem_flatMap, mem_append]
  refine exists_congr fun connection => and_congr_right fun _ => ?_
  by_cases hsource : connection.source = endpoint <;>
    by_cases htarget : connection.target = endpoint <;> simp [hsource, htarget, eq_comm]

theorem mem_connectionIds {descriptor : EndpointDescriptor}
    (h : index.endpoint endpoint = some descriptor) :
    connectionId ∈ descriptor.connectionIds ↔
      ∃ connection ∈ index.snapshot.connections, connection.id = connectionId ∧
        (connection.source = endpoint ∨ connection.target = endpoint) := by
  obtain ⟨host, owner, port, side, -, rfl⟩ := index.endpoint_eq_some.mp h
  rw [← mem_connectionIdsAt]
  exact mem_sortBy

/-- The endpoint that a cable leads to. -/
def otherEnd (connection : TopologyConnection K) (endpoint : EndpointRef) : EndpointRef :=
  if connection.source = endpoint then connection.target else connection.source

/-- The cable that a trace follows from an endpoint joins it to the other end. -/
theorem cables_of_networkConnection
    (h : index.networkConnectionForEndpoint endpoint = some connection) :
    index.Cables connection endpoint (otherEnd connection endpoint) := by
  rw [networkConnectionForEndpoint, Option.bind_eq_some_iff] at h
  obtain ⟨descriptor, hdescriptor, h⟩ := h
  obtain ⟨connectionId, hid, h⟩ := exists_of_findSome?_eq_some h
  rw [Option.filter_eq_some_iff, connectionById_eq_some] at h
  obtain ⟨⟨hmem, hsame⟩, hnetwork⟩ := h
  obtain ⟨other, hother, hid', hends⟩ := (mem_connectionIds hdescriptor).mp hid
  obtain rfl : other = connection := inj_on_of_nodup_map index.valid.connections_nodup hother
    hmem (hid'.trans hsame.symm)
  refine ⟨hmem, beq_iff_eq.mp hnetwork, ?_⟩
  unfold otherEnd
  by_cases hsource : other.source = endpoint
  · rw [if_pos hsource]
    exact .inl ⟨hsource, rfl⟩
  · rw [if_neg hsource]
    exact .inr ⟨hends.resolve_left hsource, rfl⟩

/-- No network cable is plugged in where a trace finds none. -/
theorem not_cables_of_none (h : index.networkConnectionForEndpoint endpoint = none)
    (connection : TopologyConnection K) (next : EndpointRef) :
    ¬index.Cables connection endpoint next := by
  intro hcables
  obtain ⟨⟨descriptor, hdescriptor, -⟩, -⟩ := hcables.isNetwork
  rw [networkConnectionForEndpoint, hdescriptor, Option.bind_some, findSome?_eq_none_iff] at h
  have hends : connection.source = endpoint ∨ connection.target = endpoint :=
    hcables.ends.imp And.left And.left
  have hnone := h connection.id
    ((mem_connectionIds hdescriptor).mpr ⟨connection, hcables.mem, rfl, hends⟩)
  rw [index.connectionById_eq_some.mpr ⟨hcables.mem, rfl⟩, Option.filter_some,
    if_pos (beq_iff_eq.mpr hcables.network)] at hnone
  cases hnone

/-! ## The sides of a panel port -/

theorem sideEndpoint_eq {panel : TopologyItem} {port : TopologyPort} {side : TopologyPortSide}
    (hitem : endpoint.item = panel.item) (hhosted : endpoint.hostedItem = none)
    (hport : endpoint.portId = port.id) (hside : endpoint.endpointId = some side.id) :
    endpoint = sideEndpoint panel port side := by
  obtain ⟨item, portId, endpointId, hostedItem⟩ := endpoint
  simp_all [sideEndpoint]

/-- A known endpoint of a panel of its own is a side of a port of an active panel. -/
theorem endpointOf_panel (hknown : index.IsNetwork endpoint)
    (hhosted : endpoint.hostedItem = none) : ∃ panel port side,
      index.snapshot.EndpointOf endpoint panel panel port side ∧
        isNetworkPort port.portType = true := by
  obtain ⟨descriptor, hdescriptor, hnetwork⟩ := hknown
  obtain ⟨host, owner, port, side, hof, rfl⟩ := index.endpoint_eq_some.mp hdescriptor
  have hsame : host.item = owner.item := by
    by_contra hdiffers
    rw [← hof.endpoint_eq] at hhosted
    simp [describePort, hdiffers] at hhosted
  obtain rfl : host = owner := inj_on_of_nodup_map index.valid.items_nodup
    hof.exposes.host_mem hof.exposes.owner_mem hsame
  exact ⟨host, port, side, hof, hnetwork⟩

/-- A crossing from a known endpoint of a network port. -/
theorem Crosses.side (hknown : index.IsNetwork endpoint)
    (h : index.snapshot.Crosses endpoint peer) : ∃ panel port side other,
      index.snapshot.EndpointOf endpoint panel panel port (some side) ∧
      panel.item.itemType = "patchPanel" ∧ isNetworkPort port.portType = true ∧
      side ∈ port.endpoints ∧ other ∈ port.endpoints ∧ side.side ≠ other.side ∧
      endpoint = sideEndpoint panel port side ∧ peer = sideEndpoint panel port other := by
  obtain ⟨panel, hpanel, htype, port, hport, side, hside, other, hother, hdiffers, rfl, rfl⟩ := h
  obtain ⟨panel', port', side', hof, hnetwork⟩ := endpointOf_panel hknown rfl
  have hitem := congrArg EndpointRef.item hof.endpoint_eq
  obtain rfl : panel' = panel := inj_on_of_nodup_map index.valid.items_nodup
    hof.exposes.host_mem hpanel hitem
  obtain rfl : port' = port := inj_on_of_nodup_map (index.valid.ports_nodup panel' hpanel)
    hof.port_mem hport (congrArg EndpointRef.portId hof.endpoint_eq)
  have hid : side'.map (·.id) = some side.id := congrArg EndpointRef.endpointId hof.endpoint_eq
  obtain ⟨found, rfl, hfound⟩ := Option.map_eq_some_iff.mp hid
  obtain rfl : found = side := inj_on_of_nodup_map
    (index.valid.sides_nodup panel' hpanel port' hport) (mem_portSides hof.side_mem) hside hfound
  exact ⟨panel', port', found, other, hof, htype, hnetwork, hside, hother, hdiffers, rfl, rfl⟩

/-- The other side of a known endpoint of a network port is known, too. -/
theorem Crosses.isNetwork (hknown : index.IsNetwork endpoint)
    (h : index.snapshot.Crosses endpoint peer) : index.IsNetwork peer := by
  obtain ⟨panel, port, side, other, hof, -, hnetwork, -, hother, -, -, rfl⟩ := Crosses.side hknown h
  have hsides : some other ∈ portSides port := by
    unfold portSides
    split
    · rename_i hempty
      rw [isEmpty_iff.mp hempty] at hother
      cases hother
    · exact mem_map_of_mem hother
  have hof' : index.snapshot.EndpointOf (sideEndpoint panel port other) panel panel port
      (some other) :=
    { exposes := hof.exposes
      port_mem := hof.port_mem
      port_type := hof.port_type
      side_mem := hsides
      endpoint_eq := by simp [describePort, sideEndpoint] }
  exact ⟨_, index.endpoint_eq_some.mpr ⟨panel, panel, port, some other, hof', rfl⟩, hnetwork⟩

theorem Linked.isNetwork (hknown : index.IsNetwork endpoint) (h : index.Linked endpoint next) :
    index.IsNetwork next := by
  obtain ⟨connection, hcables⟩ | hcrosses := h
  · exact hcables.isNetwork.2
  · exact Crosses.isNetwork hknown hcrosses

variable (hsides : index.snapshot.PanelsTwoSided)
include hsides

/-- The names of the sides of a panel port are the front and the back, once each. -/
theorem sides_of_panel {panel : TopologyItem} (hpanel : panel ∈ index.snapshot.items)
    (htype : panel.item.itemType = "patchPanel") {port : TopologyPort}
    (hport : port ∈ panel.ports) :
    (port.endpoints.map (·.side)).Nodup ∧
      ∀ side ∈ port.endpoints, side.side = "front" ∨ side.side = "back" := by
  have hperm := hsides panel hpanel htype port hport
  refine ⟨hperm.nodup_iff.mpr (by decide), fun side hside => ?_⟩
  have hname := hperm.mem_iff.mp (mem_map_of_mem hside)
  simpa using hname

omit hsides in
theorem guard_eq_some {p : Prop} [Decidable p] {u : Unit} :
    (guard p : Option Unit) = some u ↔ p := by
  unfold guard
  split
  · rename_i h
    exact ⟨fun _ => h, fun _ => rfl⟩
  · rename_i h
    constructor
    · intro hfailed
      cases hfailed
    · exact fun hp => absurd hp h

/-- **A trace crosses a panel exactly where there is another side.** -/
theorem patchPanelPeer_eq_some (hknown : index.IsNetwork endpoint) :
    index.patchPanelPeer endpoint = some peer ↔ index.snapshot.Crosses endpoint peer := by
  simp only [patchPanelPeer, Option.bind_eq_bind, Option.bind_eq_some_iff, Option.pure_def,
    guard_eq_some, Option.some.injEq]
  constructor
  · rintro ⟨-, ⟨htype, hhosted⟩, endpointId, hid, panel, hpanel, port, hport, -, -, other, hother,
      rfl⟩
    -- what the lookups find is the port of the endpoint
    rw [Option.isNone_iff_eq_none] at hhosted
    obtain ⟨host, own, ownSide, hof, -⟩ := endpointOf_panel hknown hhosted
    have hpanelMem := mem_of_find?_eq_some hpanel
    have hpanelItem : panel.item = endpoint.item := by simpa using find?_some hpanel
    have hportMem := mem_of_find?_eq_some hport
    have hportId : port.id = endpoint.portId := by simpa using find?_some hport
    have hotherMem := mem_of_find?_eq_some hother
    have hotherId : other.id ≠ endpointId := by simpa using find?_some hother
    obtain rfl : host = panel := inj_on_of_nodup_map index.valid.items_nodup
      hof.exposes.host_mem hpanelMem ((congrArg EndpointRef.item hof.endpoint_eq).trans
        hpanelItem.symm)
    obtain rfl : own = port := inj_on_of_nodup_map (index.valid.ports_nodup host hpanelMem)
      hof.port_mem hportMem ((congrArg EndpointRef.portId hof.endpoint_eq).trans hportId.symm)
    have hsideId := (congrArg EndpointRef.endpointId hof.endpoint_eq).trans hid
    obtain ⟨side, rfl, rfl⟩ := Option.map_eq_some_iff.mp hsideId
    have hsideMem := mem_portSides hof.side_mem
    refine ⟨host, hpanelMem, hpanelItem ▸ htype, own, hportMem, side, hsideMem, other, hotherMem,
      fun hsame => hotherId ?_, sideEndpoint_eq hpanelItem.symm hhosted hportId.symm hid, ?_⟩
    · have hnodup := (sides_of_panel hsides hpanelMem (hpanelItem ▸ htype) hportMem).1
      rw [inj_on_of_nodup_map hnodup hotherMem hsideMem hsame.symm]
    · rw [sideEndpoint, hpanelItem, hportId]
  · intro h
    obtain ⟨panel, port, side, other, hof, htype, hnetwork, hside, hother, hdiffers, rfl, rfl⟩ :=
      Crosses.side hknown h
    have hpanelMem := hof.exposes.host_mem
    obtain ⟨hnodup, hnames⟩ := sides_of_panel hsides hpanelMem htype hof.port_mem
    have hpanel : index.snapshot.items.find? (fun item =>
        item.item == (sideEndpoint panel port side).item) = some panel := by
      rw [← lookup_of_mem index.valid.items_nodup hpanelMem, lookup]
      exact congrArg (find? · _) (funext fun item => by rw [Bool.beq_eq_decide_eq]; rfl)
    have hport : panel.ports.find? (fun candidate =>
        candidate.id == (sideEndpoint panel port side).portId) = some port :=
      lookup_of_mem (index.valid.ports_nodup panel hpanelMem) hof.port_mem
    have hpeer : port.endpoints.find? (fun candidate => candidate.id != side.id) = some other := by
      cases hfind : port.endpoints.find? (fun candidate => candidate.id != side.id) with
      | none =>
        have hsame := find?_eq_none.mp hfind other hother
        rw [bne_iff_ne, not_not] at hsame
        rw [inj_on_of_nodup_map (index.valid.sides_nodup panel hpanelMem port hof.port_mem)
          hother hside hsame] at hdiffers
        exact absurd rfl hdiffers
      | some found =>
        have hfoundMem := mem_of_find?_eq_some hfind
        have hfoundId : found.id ≠ side.id := by simpa using find?_some hfind
        have hname : found.side ≠ side.side := fun hsame => hfoundId (by
          rw [inj_on_of_nodup_map hnodup hfoundMem hside hsame])
        have hsame : found.side = other.side := by
          obtain hone | hone := hnames found hfoundMem <;>
            obtain htwo | htwo := hnames other hother <;>
              obtain hthree | hthree := hnames side hside <;> simp_all
        rw [inj_on_of_nodup_map hnodup hfoundMem hother hsame]
    exact ⟨(), ⟨htype, rfl⟩, side.id, rfl, panel, hpanel, port, hport, (), hnetwork, other, hpeer, rfl⟩

theorem patchPanelPeer_eq_none (hknown : index.IsNetwork endpoint)
    (h : index.patchPanelPeer endpoint = none) (peer : EndpointRef) :
    ¬index.snapshot.Crosses endpoint peer := by
  intro hcrosses
  rw [(patchPanelPeer_eq_some hsides hknown).mpr hcrosses] at h
  cases h

/-! ## The network graph -/

/-- The graph in which speeds are negotiated. -/
def networkGraph (index : TopologyIndex K) : EndpointGraph :=
  graphOfEdges (networkEdges index.classifyConnection index.snapshot.connections ++
    panelEdges index.snapshot.items)

omit hsides in
theorem mem_networkEdges :
    (source, target) ∈ networkEdges index.classifyConnection index.snapshot.connections ↔
      ∃ connection ∈ index.snapshot.connections,
        index.classifyConnection connection.source connection.target = "network" ∧
          connection.source = source ∧ connection.target = target := by
  simp only [networkEdges, mem_map, mem_filter, beq_iff_eq, Prod.mk.injEq, and_assoc]

omit hsides in
/-- A cable is an edge, in one of its directions. -/
theorem cables_iff :
    (∃ connection, index.Cables connection endpoint next) ↔
      (endpoint, next) ∈ networkEdges index.classifyConnection index.snapshot.connections ∨
        (next, endpoint) ∈ networkEdges index.classifyConnection index.snapshot.connections := by
  rw [mem_networkEdges, mem_networkEdges]
  constructor
  · rintro ⟨connection, hmem, hnetwork, hends | hends⟩
    · exact .inl ⟨connection, hmem, hnetwork, hends⟩
    · exact .inr ⟨connection, hmem, hnetwork, hends.2, hends.1⟩
  · rintro (⟨connection, hmem, hnetwork, hends⟩ | ⟨connection, hmem, hnetwork, hsource, htarget⟩)
    · exact ⟨connection, hmem, hnetwork, .inl hends⟩
    · exact ⟨connection, hmem, hnetwork, .inr ⟨htarget, hsource⟩⟩

omit hsides in
/-- An edge through a panel crosses it, whichever way it is followed. -/
theorem crosses_of_panelEdge (h : (source, target) ∈ panelEdges index.snapshot.items) :
    index.snapshot.Crosses source target ∧ index.snapshot.Crosses target source := by
  simp only [panelEdges, mem_flatMap, mem_filter, mem_filterMap, Bool.and_eq_true,
    beq_iff_eq] at h
  obtain ⟨panel, ⟨hpanel, -, htype⟩, port, hport, hedge⟩ := h
  unfold panelPortEdge at hedge
  split at hedge
  · cases hedge
  split at hedge
  · rename_i front back hfront hback
    obtain ⟨rfl, rfl⟩ := Prod.mk.inj (Option.some.inj hedge)
    have hfrontName : front.side = "front" := by simpa using find?_some hfront
    have hbackName : back.side = "back" := by simpa using find?_some hback
    have hdiffers : front.side ≠ back.side := by rw [hfrontName, hbackName]; decide
    have hfrontMem := mem_of_find?_eq_some hfront
    have hbackMem := mem_of_find?_eq_some hback
    exact ⟨⟨panel, hpanel, htype, port, hport, front, hfrontMem, back, hbackMem, hdiffers, rfl, rfl⟩,
      ⟨panel, hpanel, htype, port, hport, back, hbackMem, front, hfrontMem, hdiffers.symm, rfl, rfl⟩⟩
  · cases hedge

/-- A crossing from a known endpoint is an edge, in one of its directions. -/
theorem panelEdge_of_crosses (hknown : index.IsNetwork endpoint)
    (h : index.snapshot.Crosses endpoint peer) :
    (endpoint, peer) ∈ panelEdges index.snapshot.items ∨
      (peer, endpoint) ∈ panelEdges index.snapshot.items := by
  obtain ⟨panel, port, side, other, hof, htype, hnetwork, hside, hother, hdiffers, rfl, rfl⟩ :=
    Crosses.side hknown h
  obtain ⟨hnodup, hnames⟩ := sides_of_panel hsides hof.exposes.host_mem htype hof.port_mem
  have hfind : ∀ found ∈ port.endpoints, ∀ name, found.side = name →
      port.endpoints.find? (·.side == name) = some found := by
    rintro found hfound name rfl
    rw [← lookup_of_mem hnodup hfound, lookup]
    exact congrArg (find? · _) (funext fun candidate => by rw [Bool.beq_eq_decide_eq])
  have hedge : ∀ front back, front ∈ port.endpoints → back ∈ port.endpoints →
      front.side = "front" → back.side = "back" →
      (sideEndpoint panel port front, sideEndpoint panel port back) ∈
        panelEdges index.snapshot.items := by
    intro front back hfront hback hfrontName hbackName
    simp only [panelEdges, mem_flatMap, mem_filter, mem_filterMap, Bool.and_eq_true,
      beq_iff_eq]
    refine ⟨panel, ⟨hof.exposes.host_mem, ?_, htype⟩, port, hof.port_mem, ?_⟩
    · rw [hof.exposes.host_active]
      rfl
    · rw [panelPortEdge, hnetwork, hfind front hfront _ hfrontName, hfind back hback _ hbackName]
      rfl
  obtain hone | hone := hnames side hside <;> obtain htwo | htwo := hnames other hother
  · exact absurd (hone.trans htwo.symm) hdiffers
  · exact .inl (hedge side other hside hother hone htwo)
  · exact .inr (hedge other side hother hside htwo hone)
  · exact absurd (hone.trans htwo.symm) hdiffers

/-- **The edges at a known endpoint are its links.** -/
theorem joined_iff_linked (hknown : index.IsNetwork endpoint) :
    index.networkGraph.Joined endpoint next ↔ index.Linked endpoint next := by
  rw [networkGraph, joined_graphOfEdges, mem_append, mem_append, Linked, cables_iff]
  constructor
  · rintro ((hcable | hpanel) | hcable | hpanel)
    · exact .inl (.inl hcable)
    · exact .inr (crosses_of_panelEdge hpanel).1
    · exact .inl (.inr hcable)
    · exact .inr (crosses_of_panelEdge hpanel).2
  · rintro ((hcable | hcable) | hcrosses)
    · exact .inl (.inl hcable)
    · exact .inr (.inl hcable)
    · exact (panelEdge_of_crosses hsides hknown hcrosses).imp .inr .inr

/-- Paths from a known endpoint of a network port follow the links. -/
theorem path_iff_linked {start e : EndpointRef} (hknown : index.IsNetwork start) :
    ReflTransGen index.networkGraph.Joined start e ↔ ReflTransGen index.Linked start e := by
  constructor
  · intro hpath
    have hboth : index.IsNetwork e ∧ ReflTransGen index.Linked start e := by
      induction hpath with
      | refl => exact ⟨hknown, .refl⟩
      | tail _ hjoined ih =>
        have hlinked := (joined_iff_linked hsides ih.1).mp hjoined
        exact ⟨hlinked.isNetwork ih.1, ih.2.tail hlinked⟩
    exact hboth.2
  · intro hpath
    have hboth : index.IsNetwork e ∧ ReflTransGen index.networkGraph.Joined start e := by
      induction hpath with
      | refl => exact ⟨hknown, .refl⟩
      | tail _ hlinked ih =>
        exact ⟨hlinked.isNetwork ih.1, ih.2.tail ((joined_iff_linked hsides ih.1).mpr hlinked)⟩
    exact hboth.2

/-- The speeds that are advertised where links from an endpoint lead. -/
def linkedSpeeds (index : TopologyIndex K) (endpoint : EndpointRef) : Set ℕ :=
  { speed | ∃ e, ReflTransGen index.Linked endpoint e ∧
      index.endpointAdvertisedSpeed e = some speed }

theorem speedsFrom_networkGraph (hknown : index.IsNetwork endpoint) :
    index.networkGraph.speedsFrom index.endpointAdvertisedSpeed endpoint =
      index.linkedSpeeds endpoint := by
  ext speed
  simp only [EndpointGraph.speedsFrom, linkedSpeeds, Set.mem_ofPred_eq, path_iff_linked hsides hknown]

omit hsides in
theorem joined_symm_networkGraph (a b : EndpointRef) (h : index.networkGraph.Joined a b) :
    index.networkGraph.Joined b a :=
  joined_symm_graphOfEdges _ a b h

/-- Linked endpoints are linked to the same. -/
theorem linkedSpeeds_congr (hknown : index.IsNetwork endpoint)
    (hpath : ReflTransGen index.Linked endpoint next) (hnext : index.IsNetwork next) :
    index.linkedSpeeds next = index.linkedSpeeds endpoint := by
  rw [← speedsFrom_networkGraph hsides hknown, ← speedsFrom_networkGraph hsides hnext]
  ext speed
  simp only [EndpointGraph.speedsFrom, Set.mem_ofPred_eq,
    path_congr joined_symm_networkGraph ((path_iff_linked hsides hknown).mpr hpath)]

/-- **The negotiated speed of a network cable** is the lowest one where links from its ends lead. -/
theorem negotiatedSpeed_lowest (hcables : index.Cables connection endpoint next) :
    IsLowest (index.linkedSpeeds endpoint)
      (index.connectionDerivedState connection).negotiatedSpeedBps := by
  obtain ⟨hendpoint, hnext⟩ := hcables.isNetwork
  have hedge : index.networkGraph.Joined connection.source connection.target :=
    joined_graphOfEdges.mpr (.inl (mem_append_left _
      (mem_networkEdges.mpr ⟨connection, hcables.mem, hcables.network, rfl, rfl⟩)))
  have hclosed : index.networkGraph.Closed := graphOfEdges_closed _
  obtain ⟨speed, hspeed, hlowest⟩ := negotiateSpeeds_lowest hclosed
    joined_symm_networkGraph index.endpointAdvertisedSpeed hedge.mem
  have hstate : (index.connectionDerivedState connection).negotiatedSpeedBps = speed := by
    have hget : (speedByEndpoint index.classifyConnection index.endpointAdvertisedSpeed
        index.snapshot)[connection.source]? = some speed := hspeed
    simp only [connectionDerivedState, derivedState, hcables.network, if_true, hget, Option.join_some]
  rw [hstate]
  obtain ⟨hsource, -⟩ | ⟨-, hsource⟩ := hcables.ends
  · rw [hsource, speedsFrom_networkGraph hsides hendpoint] at hlowest
    exact hlowest
  · rw [hsource, speedsFrom_networkGraph hsides hnext,
      linkedSpeeds_congr hsides hendpoint (.single (.inl ⟨connection, hcables⟩)) hnext] at hlowest
    exact hlowest

end TopologyIndex

end Links

end HomelabInventory
