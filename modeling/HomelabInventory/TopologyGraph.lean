import HomelabInventory.Topology

/-!
# The network and the power graph

What the index derives from the cables: the type and the negotiated speed of
every connection, the path a network cable takes to a switch, and the findings
about power cables and unpowered equipment.
-/

namespace HomelabInventory

/-! ## Advertised speeds -/

/-- The speeds by their spelling, in capitals and without blanks. -/
def advertisedSpeeds : List (List String × ℕ) :=
  [(["1G", "1GBPS", "1GBE", "1000M", "1000MBPS", "1000MB/S"], 1000000000),
    (["2.5G", "2.5GBPS", "2.5GBE", "2500M", "2500MBPS", "2500MB/S"], 2500000000),
    (["5G", "5GBPS", "5GBE", "5000M", "5000MBPS", "5000MB/S"], 5000000000),
    (["10G", "10GBPS", "10GBE", "10000M", "10000MBPS", "10000MB/S"], 10000000000)]

/-- Read an advertised speed. -/
def parseAdvertisedSpeed (speed : Option String) : Option ℕ :=
  speed.bind fun speed =>
    let normalized := String.ofList (((trim speed).toList.map Char.toUpper).filter (· ≠ ' '))
    (advertisedSpeeds.find? fun entry => entry.1.contains normalized).map (·.2)

/-! ## Graphs of endpoints -/

/-- Adjacency sets by endpoint. -/
abbrev EndpointGraph := BTreeMap EndpointRef (BTreeSet EndpointRef)

/-- Join two endpoints, in both directions. -/
def addGraphEdge (adjacency : EndpointGraph) (edge : EndpointRef × EndpointRef) : EndpointGraph :=
  let adjacency := adjacency.insert edge.1 ((adjacency[edge.1]?.getD ∅).insert edge.2)
  adjacency.insert edge.2 ((adjacency[edge.2]?.getD ∅).insert edge.1)

/-- The graph of a list of edges. -/
def graphOfEdges (edges : List (EndpointRef × EndpointRef)) : EndpointGraph :=
  edges.foldl addGraphEdge ∅

/-- The state of a traversal: a stack of pending endpoints and what was found. -/
structure Traversal where
  visited : BTreeSet EndpointRef
  pending : List EndpointRef
  component : List EndpointRef := []
  speeds : List ℕ := []

namespace Traversal

/-- Push a neighbor that was not visited before. -/
def push (t : Traversal) (neighbor : EndpointRef) : Traversal :=
  if neighbor ∈ t.visited then t
  else { t with visited := t.visited.insert neighbor, pending := neighbor :: t.pending }

/-- Visit an endpoint that was taken off the stack. -/
def visit (adjacency : EndpointGraph) (advertised : EndpointRef → Option ℕ) (t : Traversal)
    (current : EndpointRef) : Traversal :=
  let t := { t with
    component := t.component ++ [current]
    speeds := t.speeds ++ (advertised current).toList }
  (adjacency[current]?.getD ∅).toList.foldl push t

/-- Traverse until nothing is pending. -/
def run (adjacency : EndpointGraph) (advertised : EndpointRef → Option ℕ) :
    ℕ → Traversal → Traversal
  | 0, t => t
  | fuel + 1, t =>
    match t.pending with
    | [] => t
    | current :: pending =>
      run adjacency advertised fuel (visit adjacency advertised { t with pending := pending } current)

end Traversal

/-- Negotiate the speed of every component of a graph: the lowest one that any
of its endpoints advertises. -/
def negotiateSpeeds (adjacency : EndpointGraph) (advertised : EndpointRef → Option ℕ) :
    BTreeMap EndpointRef (Option ℕ) :=
  (adjacency.keys.foldl
    (fun (acc : BTreeMap EndpointRef (Option ℕ) × BTreeSet EndpointRef) start =>
      if start ∈ acc.2 then acc
      else
        let t := Traversal.run adjacency advertised (adjacency.size + 1)
          { visited := acc.2.insert start, pending := [start] }
        (insertEntries acc.1 (t.component.map fun endpoint => (endpoint, t.speeds.min?)), t.visited))
    (∅, ∅)).1

/-- The edge through a port of a patch panel, from its front to its back. -/
def panelPortEdge (item : TopologyItem) (port : TopologyPort) :
    Option (EndpointRef × EndpointRef) :=
  if !isNetworkPort port.portType then none
  else
    match port.endpoints.find? (·.side == "front"), port.endpoints.find? (·.side == "back") with
    | some front, some back =>
      some
        ({ item := item.item, portId := port.id, endpointId := some front.id },
          { item := item.item, portId := port.id, endpointId := some back.id })
    | _, _ => none

/-- The edges through the patch panels. -/
def panelEdges (items : List TopologyItem) : List (EndpointRef × EndpointRef) :=
  (items.filter fun item => !item.archived && item.item.itemType == "patchPanel").flatMap
    fun item => item.ports.filterMap (panelPortEdge item)

/-! ## Derived states -/

/-- The type and speed of a connection. -/
structure ConnectionDerivedState where
  connectionId : ℕ
  connectionType : String
  negotiatedSpeedBps : Option ℕ
  deriving DecidableEq

/-- The type of a cable between two known endpoints. -/
def classifyPair (source target : EndpointDescriptor) : String :=
  if source.power.isSome && target.power.isSome then "power"
  else if source.portType == target.portType && isNetworkPort source.portType then "network"
  else if isDisplayPort source.portType && isDisplayPort target.portType then "display"
  else "other"

/-- The speed a known endpoint advertises. -/
def EndpointDescriptor.advertisedSpeed (descriptor : EndpointDescriptor) : Option ℕ :=
  if !(["server", "nas", "pcBuild", "switch"].contains descriptor.host.itemType) ||
    !isNetworkPort descriptor.portType then none
  else
    (parseAdvertisedSpeed descriptor.speed).or
      (if descriptor.portType = "sfp-plus" ∧ descriptor.speed.isNone then some 10000000000
      else none)

section DerivedStates

variable {K : Type}

/-- The edges along the network cables. -/
def networkEdges (classify : EndpointRef → EndpointRef → String)
    (connections : List (TopologyConnection K)) : List (EndpointRef × EndpointRef) :=
  (connections.filter fun connection => classify connection.source connection.target == "network").map
    fun connection => (connection.source, connection.target)

/-- The negotiated speed at every endpoint of the network graph. -/
def speedByEndpoint (classify : EndpointRef → EndpointRef → String)
    (advertised : EndpointRef → Option ℕ) (snapshot : TopologySnapshot K) :
    BTreeMap EndpointRef (Option ℕ) :=
  let adjacency :=
    graphOfEdges (networkEdges classify snapshot.connections ++ panelEdges snapshot.items)
  negotiateSpeeds adjacency advertised

/-- The derived state of a connection. -/
def derivedState (classify : EndpointRef → EndpointRef → String)
    (speeds : BTreeMap EndpointRef (Option ℕ)) (connection : TopologyConnection K) :
    ConnectionDerivedState :=
  let connectionType := classify connection.source connection.target
  { connectionId := connection.id
    connectionType := connectionType
    negotiatedSpeedBps :=
      if connectionType = "network" then speeds[connection.source]?.join else none }

/-- The derived state of every connection, from the type of each cable and the
speed each endpoint advertises. -/
def derivedStates (classify : EndpointRef → EndpointRef → String)
    (advertised : EndpointRef → Option ℕ) (snapshot : TopologySnapshot K) :
    List ConnectionDerivedState :=
  let speeds := speedByEndpoint classify advertised snapshot
  snapshot.connections.map (derivedState classify speeds)

end DerivedStates

namespace TopologyIndex

variable {K : Type} [Scalar K]

/-- The type of a cable; one with an unknown end is `other`. -/
def classifyConnection (index : TopologyIndex K) (source target : EndpointRef) : String :=
  match index.endpoint source, index.endpoint target with
  | some source, some target => classifyPair source target
  | _, _ => "other"

/-- The speed an endpoint advertises. -/
def endpointAdvertisedSpeed (index : TopologyIndex K) (endpoint : EndpointRef) : Option ℕ :=
  (index.endpoint endpoint).bind EndpointDescriptor.advertisedSpeed

/-- The derived state of a connection. -/
def connectionDerivedState (index : TopologyIndex K) :
    TopologyConnection K → ConnectionDerivedState :=
  derivedState index.classifyConnection
    (speedByEndpoint index.classifyConnection index.endpointAdvertisedSpeed index.snapshot)

/-- The derived state of every connection. -/
def connectionDerivedStates (index : TopologyIndex K) : List ConnectionDerivedState :=
  derivedStates index.classifyConnection index.endpointAdvertisedSpeed index.snapshot

theorem connectionDerivedStates_eq_map (index : TopologyIndex K) :
    index.connectionDerivedStates = index.snapshot.connections.map index.connectionDerivedState :=
  rfl

end TopologyIndex

/-! ## Network traces -/

/-- A step of a network trace. -/
structure NetworkTraceStep where
  endpoint : EndpointRef
  state : String
  connectionId : Option ℕ := none
  deriving DecidableEq

/-- The path from an endpoint towards a switch. -/
structure NetworkTrace where
  start : EndpointRef
  steps : List NetworkTraceStep
  complete : Bool
  deriving DecidableEq

namespace TopologyIndex

variable {K : Type} [Scalar K]

/-- The first network cable at an endpoint. -/
def networkConnectionForEndpoint (index : TopologyIndex K) (endpoint : EndpointRef) :
    Option (TopologyConnection K) :=
  (index.endpoint endpoint).bind fun descriptor =>
    descriptor.connectionIds.findSome? fun connectionId =>
      (index.connectionIndexById[connectionId]?.bind (index.snapshot.connections[·]?)).filter
        fun connection => index.classifyConnection connection.source connection.target == "network"

/-- The endpoint on the other side of a patch panel port. -/
def patchPanelPeer (index : TopologyIndex K) (endpoint : EndpointRef) : Option EndpointRef := do
  guard (endpoint.item.itemType = "patchPanel" ∧ endpoint.hostedItem.isNone)
  let endpointId ← endpoint.endpointId
  let panel ← index.snapshot.items.find? fun item => item.item == endpoint.item
  let port ← panel.ports.find? fun port => port.id == endpoint.portId
  guard (isNetworkPort port.portType)
  let peer ← port.endpoints.find? fun candidate => candidate.id != endpointId
  return { item := endpoint.item, portId := endpoint.portId, endpointId := some peer.id }

/-- Follow cables and patch panels until a switch, an open end or a loop. -/
def followTrace (index : TopologyIndex K) :
    ℕ → BTreeSet EndpointRef → EndpointRef → List NetworkTraceStep → List NetworkTraceStep × Bool
  | 0, _, _, steps => (steps, false)
  | fuel + 1, visited, current, steps =>
    if index.endpoints.size < visited.size then (steps, false)
    else
      match index.networkConnectionForEndpoint current with
      | none => (steps ++ [{ endpoint := current, state := "open" }], false)
      | some connection =>
        let next := if connection.source = current then connection.target else connection.source
        if next ∈ visited then (steps, false)
        else
          let visited := visited.insert next
          let steps := steps ++
            [{ endpoint := next, state := "connected", connectionId := some connection.id }]
          if next.item.itemType = "switch" then (steps, true)
          else
            match index.patchPanelPeer next with
            | none => index.followTrace fuel visited next steps
            | some peer =>
              if peer ∈ visited then (steps, false)
              else
                index.followTrace fuel (visited.insert peer) peer
                  (steps ++ [{ endpoint := peer, state := "internal" }])

/-- Trace the network path from an endpoint. Every turn visits an endpoint, so
the number of endpoints bounds the turns. -/
def traceNetworkPath (index : TopologyIndex K) (start : EndpointRef) : Option NetworkTrace :=
  match index.endpoint start with
  | none => none
  | some descriptor =>
    if !isNetworkPort descriptor.portType then none
    else if (index.networkConnectionForEndpoint start).isNone then
      some { start := start, steps := [{ endpoint := start, state := "open" }], complete := false }
    else
      let trace := index.followTrace (index.endpoints.size + 1)
        ((∅ : BTreeSet EndpointRef).insert start) start
        [{ endpoint := start, state := "connected" }]
      some { start := start, steps := trace.1, complete := trace.2 }

/-- The traces from every network endpoint. -/
def networkTraces (index : TopologyIndex K) : List NetworkTrace :=
  (index.endpointList.filter fun descriptor => isNetworkPort descriptor.portType).filterMap
    fun descriptor => index.traceNetworkPath descriptor.endpoint

end TopologyIndex

/-! ## Power topology -/

/-- A finding about a power cable or a piece of equipment. -/
structure PowerTopologyFinding where
  id : String
  code : String
  severity : String
  item : Option ItemRef := none
  connectionId : Option ℕ := none
  endpoint : Option EndpointRef := none
  deriving DecidableEq

/-- The power endpoints and the findings about them. -/
structure PowerTopology where
  endpoints : List EndpointDescriptor
  findings : List PowerTopologyFinding
  deriving DecidableEq

/-- The key of an item in messages. -/
def itemKey (item : ItemRef) : String := item.itemType ++ ":" ++ toString item.id

/-- A finding about an item. -/
def powerItemFinding (code : String) (item : ItemRef) (endpoint : Option EndpointRef) :
    PowerTopologyFinding where
  id := code ++ ":" ++ itemKey item
  code := code
  severity := "warning"
  item := some item
  endpoint := endpoint

section PowerFindings

variable {K : Type}

/-- A finding about a cable. -/
def powerConnectionFinding (code : String) (connection : TopologyConnection K)
    (endpoint : Option EndpointRef) : PowerTopologyFinding where
  id := code ++ ":" ++ toString connection.id
  code := code
  severity := "error"
  connectionId := some connection.id
  endpoint := endpoint

/-- The cables at each endpoint, in the order in which they were met. -/
abbrev ConnectionsByEndpoint (K : Type) := BTreeMap EndpointRef (List (TopologyConnection K))

/-- The findings so far and the sound power cables at each input and output. -/
structure PowerScan (K : Type) where
  findings : List PowerTopologyFinding := []
  inputConnections : ConnectionsByEndpoint K := ∅
  outputConnections : ConnectionsByEndpoint K := ∅

/-- Add a cable at an endpoint. -/
def addConnection (connections : ConnectionsByEndpoint K) (endpoint : EndpointRef)
    (connection : TopologyConnection K) : ConnectionsByEndpoint K :=
  connections.insert endpoint ((connections[endpoint]?.getD []) ++ [connection])

end PowerFindings

namespace TopologyIndex

variable {K : Type} [Scalar K]

/-- The power role of an endpoint. -/
def endpointPower (index : TopologyIndex K) (endpoint : EndpointRef) :
    Option PowerEndpointDescriptor :=
  (index.endpoint endpoint).bind (·.power)

/-- Check one cable. -/
def scanPowerConnection (index : TopologyIndex K) (scan : PowerScan K)
    (connection : TopologyConnection K) : PowerScan K :=
  let source := index.endpointPower connection.source
  let target := index.endpointPower connection.target
  let report := fun (code : String) (endpoint : Option EndpointRef) =>
    { scan with findings := scan.findings ++ [powerConnectionFinding code connection endpoint] }
  if connection.connectionType ≠ "power" then
    if source.isSome || target.isSome then report "power.connection.misclassified" none else scan
  else
    match source, target with
    | some sourcePower, some targetPower =>
      if sourcePower.direction ≠ "output" ∨ targetPower.direction ≠ "input" ∨
        connection.source.item = connection.target.item then
        report "power.connection.invalid-direction" none
      else
        { scan with
          inputConnections := addConnection scan.inputConnections connection.target connection
          outputConnections := addConnection scan.outputConnections connection.source connection }
    | _, _ =>
      report "power.connection.stale-endpoint"
        (some (if source.isNone then connection.source else connection.target))

/-- The second and further cables at a power input. -/
def duplicateInputFindings (inputs : ConnectionsByEndpoint K) : List PowerTopologyFinding :=
  inputs.values.flatMap fun connections => (connections.drop 1).map fun connection =>
    powerConnectionFinding "power.connection.duplicate-input" connection (some connection.target)

/-- The second and further cables at an outlet without fan-out. -/
def outputFanOutFindings (index : TopologyIndex K) (outputs : ConnectionsByEndpoint K) :
    List PowerTopologyFinding :=
  (outputs.toList.filter fun entry => !(index.endpointPower entry.1).any (·.allowFanOut)).flatMap
    fun entry => (entry.2.drop 1).map fun connection =>
      powerConnectionFinding "power.connection.output-fan-out" connection (some connection.source)

/-- The first power input of a host. -/
def powerInputForHost (index : TopologyIndex K) (host : ItemRef) : Option EndpointRef :=
  (index.endpointList.find? fun descriptor =>
    descriptor.host == host && descriptor.power.any (·.direction == "input")).map (·.endpoint)

/-- A power cable runs from an outlet to the input. -/
def powerInputIsConnected (index : TopologyIndex K) (input : EndpointRef) : Bool :=
  index.snapshot.connections.any fun connection =>
    connection.connectionType == "power" && connection.target == input &&
      (index.endpointPower connection.source).any (·.direction == "output")

/-- The finding about a placed item, when it has no power. -/
def powerItemFindings (index : TopologyIndex K) (item : ItemRef) : List PowerTopologyFinding :=
  if item.itemType = "monitor" then
    match index.powerInputForHost item with
    | some input =>
      if index.powerInputIsConnected input then []
      else [powerItemFinding "power.monitor.unpowered" item (some input)]
    | none => []
  else if !hostsComponents item.itemType then []
  else
    match index.powerInputForHost item with
    | none => [powerItemFinding "power.host.missing-input" item none]
    | some input =>
      if index.powerInputIsConnected input then []
      else [powerItemFinding "power.host.unpowered" item (some input)]

/-- All findings. -/
def powerFindings (index : TopologyIndex K) : List PowerTopologyFinding :=
  let scan := index.snapshot.connections.foldl index.scanPowerConnection {}
  scan.findings ++ duplicateInputFindings scan.inputConnections ++
    index.outputFanOutFindings scan.outputConnections ++
    index.placements.toList.flatMap index.powerItemFindings

/-- The power topology. -/
def powerTopology (index : TopologyIndex K) : PowerTopology where
  endpoints := index.endpointList.filter (·.power.isSome)
  findings := index.powerFindings

end TopologyIndex

end HomelabInventory
