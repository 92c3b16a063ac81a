import HomelabInventory.EndpointIndex
import HomelabInventory.RouteBatches
import HomelabInventory.SpeedNegotiation

/-!
# Wiring integrity

A topology is well wired when its cables join ends that fit, no endpoint is used
twice without fan-out, and every cable stores the type and the speed that the
index derives for it. Every command of the engine keeps it that way, so the power
topology never has anything to report about a cable.
-/

namespace HomelabInventory

open List

variable {K : Type}

/-! ## Well-wired topologies -/

/-- Two ends fit: an outlet and an input, or compatible ports without power. -/
def EndsFit (source target : EndpointDescriptor) : Prop :=
  (∃ output input, source.power = some output ∧ target.power = some input ∧
    output.direction = "output" ∧ input.direction = "input") ∨
  source.power = none ∧ target.power = none ∧
    portsCompatible source.portType target.portType = true

/-- A cable has an end at the endpoint. -/
def TopologyConnection.Uses (connection : TopologyConnection K) (endpoint : EndpointRef) : Prop :=
  connection.source = endpoint ∨ connection.target = endpoint

/-- The ends of a cable and the derived state that it stores. -/
def TopologyConnection.wiring (connection : TopologyConnection K) :
    (ℕ × EndpointRef × EndpointRef) × ConnectionDerivedState :=
  (connection.ends, connection.derived)

/-- What is known about an endpoint apart from placements and cables. -/
def EndpointDescriptor.static (descriptor : EndpointDescriptor) : EndpointDescriptor :=
  { descriptor with connectionIds := [], placed := false, available := true }

section Definitions

variable [Scalar K]

/-- The cables join known ends of different equipment that fit, and share an
endpoint only where power fans out. -/
structure TopologyIndex.Wired (index : TopologyIndex K) : Prop where
  ends : ∀ connection ∈ index.snapshot.connections, ∃ source target,
    index.endpoint connection.source = some source ∧
    index.endpoint connection.target = some target ∧
    source.host ≠ target.host ∧ EndsFit source target
  exclusive : ∀ endpoint descriptor, index.endpoint endpoint = some descriptor →
    descriptor.power.any (·.allowFanOut) = false →
    ∀ connection ∈ index.snapshot.connections, ∀ other ∈ index.snapshot.connections,
      connection.Uses endpoint → other.Uses endpoint → connection = other

/-- A well-wired topology also stores the derived state of every cable. -/
structure TopologyIndex.WellWired (index : TopologyIndex K) : Prop extends index.Wired where
  derived : index.snapshot.connections.map (·.derived) = index.connectionDerivedStates

end Definitions

/-! ## What stays the same at an endpoint -/

section Static

theorem EndsFit.of_static {source source' target target' : EndpointDescriptor}
    (h : EndsFit source target) (hsource : source'.static = source.static)
    (htarget : target'.static = target.static) : EndsFit source' target' := by
  have hpower : source'.power = source.power := congrArg (·.power) hsource
  have hpower' : target'.power = target.power := congrArg (·.power) htarget
  have hport : source'.portType = source.portType := congrArg (·.portType) hsource
  have hport' : target'.portType = target.portType := congrArg (·.portType) htarget
  unfold EndsFit
  rw [hpower, hpower', hport, hport']
  exact h

theorem classifyPair_static {source source' target target' : EndpointDescriptor}
    (hsource : source'.static = source.static) (htarget : target'.static = target.static) :
    classifyPair source' target' = classifyPair source target := by
  have h : classifyPair source'.static target'.static = classifyPair source.static target.static :=
    congrArg₂ classifyPair hsource htarget
  exact h

theorem advertisedSpeed_static {descriptor descriptor' : EndpointDescriptor}
    (h : descriptor'.static = descriptor.static) :
    descriptor'.advertisedSpeed = descriptor.advertisedSpeed := by
  have h : descriptor'.static.advertisedSpeed = descriptor.static.advertisedSpeed :=
    congrArg EndpointDescriptor.advertisedSpeed h
  exact h

variable [Scalar K]

/-- The port of an endpoint stays exposed as long as its component stays assigned. -/
theorem TopologySnapshot.EndpointOf.transfer {snapshot snapshot' : TopologySnapshot K}
    (hvalid : snapshot.Valid) (hitems : snapshot'.items = snapshot.items)
    {endpoint : EndpointRef} {host owner : TopologyItem} {port : TopologyPort}
    {side : Option TopologyPortSide} (h : snapshot.EndpointOf endpoint host owner port side)
    (hassigned : ∀ hosted, endpoint.hostedItem = some hosted →
      ∃ assignment ∈ snapshot'.assignments,
        assignment.host = endpoint.item ∧ assignment.item = hosted) :
    snapshot'.EndpointOf endpoint host owner port side := by
  refine ⟨⟨?_, ?_, h.exposes.host_active, ?_⟩, h.port_mem, h.port_type, h.side_mem, h.endpoint_eq⟩
  · rw [hitems]
    exact h.exposes.host_mem
  · rw [hitems]
    exact h.exposes.owner_mem
  · have hhosted : (if host.item ≠ owner.item then some owner.item else none) =
        endpoint.hostedItem := congrArg EndpointRef.hostedItem h.endpoint_eq
    have hitem : host.item = endpoint.item := congrArg EndpointRef.item h.endpoint_eq
    by_cases hsame : host.item = owner.item
    · -- the ports of the host itself need no assignment
      have howner : owner = host := inj_on_of_nodup_map hvalid.items_nodup
        h.exposes.owner_mem h.exposes.host_mem hsame.symm
      refine Or.inl ⟨howner, ?_⟩
      rcases h.exposes.wired with ⟨-, hdirect⟩ | ⟨-, hhosts, -⟩
      · exact hdirect
      · exact exposesDirectPorts_of_hostsComponents hhosts
    · rw [if_pos hsame] at hhosted
      rcases h.exposes.wired with ⟨rfl, -⟩ | ⟨hactive, hhosts, -⟩
      · exact absurd rfl hsame
      · obtain ⟨assignment, hmem, hhost, howner⟩ := hassigned owner.item hhosted.symm
        exact Or.inr ⟨hactive, hhosts, assignment, hmem, hhost.trans hitem.symm, howner⟩

namespace TopologyIndex

variable {index index' : TopologyIndex K}

variable {endpoint : EndpointRef}

/-- A known endpoint stays known as long as its component stays assigned, and
only its placement and its cables can change. -/
theorem endpoint_transfer (hitems : index'.snapshot.items = index.snapshot.items)
    {descriptor : EndpointDescriptor}
    (h : index.endpoint endpoint = some descriptor)
    (hassigned : ∀ hosted, endpoint.hostedItem = some hosted →
      ∃ assignment ∈ index'.snapshot.assignments,
        assignment.host = endpoint.item ∧ assignment.item = hosted) :
    ∃ descriptor', index'.endpoint endpoint = some descriptor' ∧
      descriptor'.static = descriptor.static := by
  obtain ⟨host, owner, port, side, hof, rfl⟩ := index.endpoint_eq_some.mp h
  have hof' := hof.transfer index.valid hitems hassigned
  exact ⟨_, index'.endpoint_eq_some.mpr ⟨host, owner, port, side, hof', rfl⟩, rfl⟩

/-- The end of a cable of the new topology stays known. -/
theorem end_transfer (hitems : index'.snapshot.items = index.snapshot.items)
    {connection : TopologyConnection K} (hconnection : connection ∈ index'.snapshot.connections)
    (hend : connection.Uses endpoint) {descriptor : EndpointDescriptor}
    (h : index.endpoint endpoint = some descriptor) :
    ∃ descriptor', index'.endpoint endpoint = some descriptor' ∧
      descriptor'.static = descriptor.static := by
  refine endpoint_transfer hitems h (index'.valid.hosted_assigned connection hconnection _ ?_)
  rcases hend with rfl | rfl
  · exact mem_cons_self
  · exact mem_cons_of_mem _ mem_cons_self

/-- What an item's own endpoint advertises does not depend on assignments and cables. -/
theorem advertised_of_direct (hitems : index'.snapshot.items = index.snapshot.items)
    (hdirect : endpoint.hostedItem = none) :
    index'.endpointAdvertisedSpeed endpoint = index.endpointAdvertisedSpeed endpoint := by
  have hassigned : ∀ (snapshot : TopologySnapshot K) hosted, endpoint.hostedItem = some hosted →
      ∃ assignment ∈ snapshot.assignments,
        assignment.host = endpoint.item ∧ assignment.item = hosted := by
    intro snapshot hosted hhosted
    rw [hdirect] at hhosted
    cases hhosted
  unfold endpointAdvertisedSpeed
  cases h : index.endpoint endpoint with
  | some descriptor =>
    obtain ⟨descriptor', h', hstatic⟩ := endpoint_transfer hitems h (hassigned _)
    rw [h', Option.bind_some, Option.bind_some, advertisedSpeed_static hstatic]
  | none =>
    cases h' : index'.endpoint endpoint with
    | none => rfl
    | some descriptor' =>
      obtain ⟨descriptor, hknown, -⟩ := endpoint_transfer hitems.symm h' (hassigned _)
      rw [h] at hknown
      cases hknown

/-- **The derived states only depend on the cables**, when all their ends are known. -/
theorem connectionDerivedStates_congr (hitems : index'.snapshot.items = index.snapshot.items)
    (hends : index'.snapshot.connections.map (·.ends) = index.snapshot.connections.map (·.ends))
    (hknown : ∀ connection ∈ index.snapshot.connections, ∀ endpoint, connection.Uses endpoint →
      ∃ descriptor, index.endpoint endpoint = some descriptor) :
    index'.connectionDerivedStates = index.connectionDerivedStates := by
  have hstatic : ∀ connection ∈ index.snapshot.connections, ∀ endpoint, connection.Uses endpoint →
      ∃ descriptor descriptor', index.endpoint endpoint = some descriptor ∧
        index'.endpoint endpoint = some descriptor' ∧ descriptor'.static = descriptor.static := by
    intro connection hconnection endpoint huses
    obtain ⟨descriptor, hdescriptor⟩ := hknown connection hconnection endpoint huses
    have hmem : connection.ends ∈ index'.snapshot.connections.map (·.ends) :=
      hends ▸ mem_map_of_mem hconnection
    obtain ⟨connection', hconnection', hsame⟩ := mem_map.mp hmem
    have huses' : connection'.Uses endpoint := by
      rcases huses with rfl | rfl
      · exact Or.inl (congrArg (·.2.1) hsame)
      · exact Or.inr (congrArg (·.2.2) hsame)
    obtain ⟨descriptor', hdescriptor', hstatic⟩ :=
      end_transfer hitems hconnection' huses' hdescriptor
    exact ⟨descriptor, descriptor', hdescriptor, hdescriptor', hstatic⟩
  apply derivedStates_congr hitems hends
  · intro connection hconnection
    obtain ⟨source, source', hsource, hsource', hsourceStatic⟩ :=
      hstatic connection hconnection _ (Or.inl rfl)
    obtain ⟨target, target', htarget, htarget', htargetStatic⟩ :=
      hstatic connection hconnection _ (Or.inr rfl)
    simp only [classifyConnection, hsource, hsource', htarget, htarget']
    exact classifyPair_static hsourceStatic htargetStatic
  · intro endpoint hvertex
    rw [networkVertices, mem_append] at hvertex
    rcases hvertex with hvertex | hvertex
    · simp only [mem_flatMap, mem_pair] at hvertex
      obtain ⟨connection, hconnection, huses⟩ := hvertex
      obtain ⟨descriptor, descriptor', hdescriptor, hdescriptor', hsame⟩ :=
        hstatic connection hconnection endpoint (huses.imp Eq.symm Eq.symm)
      simp only [endpointAdvertisedSpeed, hdescriptor, hdescriptor', Option.bind_some]
      exact advertisedSpeed_static hsame
    · exact advertised_of_direct hitems (hostedItem_of_mem_panelEdges hvertex)

end TopologyIndex

end Static

/-! ## Changes that keep a topology wired -/

namespace TopologyIndex

variable [Scalar K] {index index' : TopologyIndex K}

variable {endpoint : EndpointRef}
variable {connection : TopologyConnection K}

theorem Wired.known (h : index.Wired) (hconnection : connection ∈ index.snapshot.connections)
    (huses : connection.Uses endpoint) :
    ∃ descriptor, index.endpoint endpoint = some descriptor := by
  obtain ⟨source, target, hsource, htarget, -, -⟩ := h.ends connection hconnection
  rcases huses with rfl | rfl
  · exact ⟨source, hsource⟩
  · exact ⟨target, htarget⟩

omit [Scalar K] in
theorem uses_of_ends {connection connection' : TopologyConnection K}
    (hends : connection'.ends = connection.ends) (h : connection'.Uses endpoint) :
    connection.Uses endpoint := by
  rcases h with rfl | rfl
  · exact Or.inl (congrArg (·.2.1) hends).symm
  · exact Or.inr (congrArg (·.2.2) hends).symm

/-- Whether the new topology is wired can be checked at the old endpoints. -/
theorem Wired.of_known (hitems : index'.snapshot.items = index.snapshot.items)
    (hends : ∀ connection ∈ index'.snapshot.connections, ∃ source target,
      index.endpoint connection.source = some source ∧
      index.endpoint connection.target = some target ∧
      source.host ≠ target.host ∧ EndsFit source target)
    (hexclusive : ∀ endpoint descriptor, index.endpoint endpoint = some descriptor →
      descriptor.power.any (·.allowFanOut) = false →
      ∀ connection ∈ index'.snapshot.connections, ∀ other ∈ index'.snapshot.connections,
        connection.Uses endpoint → other.Uses endpoint → connection = other) : index'.Wired where
  ends := by
    intro connection hconnection
    obtain ⟨source, target, hsource, htarget, hhost, hfit⟩ := hends connection hconnection
    obtain ⟨source', hsource', hsourceStatic⟩ :=
      end_transfer hitems hconnection (Or.inl rfl) hsource
    obtain ⟨target', htarget', htargetStatic⟩ :=
      end_transfer hitems hconnection (Or.inr rfl) htarget
    refine ⟨source', target', hsource', htarget', ?_, hfit.of_static hsourceStatic htargetStatic⟩
    have hsourceHost : source'.host = source.host := congrArg (·.host) hsourceStatic
    have htargetHost : target'.host = target.host := congrArg (·.host) htargetStatic
    rw [hsourceHost, htargetHost]
    exact hhost
  exclusive := by
    intro endpoint descriptor' hdescriptor' hfan connection hconnection other hother huses huses'
    obtain ⟨descriptor, hdescriptor⟩ : ∃ descriptor, index.endpoint endpoint = some descriptor := by
      obtain ⟨source, target, hsource, htarget, -, -⟩ := hends connection hconnection
      rcases huses with rfl | rfl
      · exact ⟨source, hsource⟩
      · exact ⟨target, htarget⟩
    obtain ⟨known, hknown, hstatic⟩ := end_transfer hitems hconnection huses hdescriptor
    obtain rfl := Option.some.inj (hdescriptor'.symm.trans hknown)
    have hpower : descriptor'.power = descriptor.power := congrArg (·.power) hstatic
    exact hexclusive endpoint descriptor hdescriptor (hpower ▸ hfan) connection hconnection other
      hother huses huses'

/-- A topology stays wired when no cable is added, whatever is assigned and placed. -/
theorem Wired.of_cables (h : index.Wired) (hitems : index'.snapshot.items = index.snapshot.items)
    (hcables : ∀ connection' ∈ index'.snapshot.connections,
      ∃ connection ∈ index.snapshot.connections, connection'.ends = connection.ends) :
    index'.Wired := by
  refine .of_known hitems ?_ ?_
  · intro connection' hconnection'
    obtain ⟨connection, hconnection, hends⟩ := hcables connection' hconnection'
    have hsource : connection'.source = connection.source := congrArg (·.2.1) hends
    have htarget : connection'.target = connection.target := congrArg (·.2.2) hends
    rw [hsource, htarget]
    exact h.ends connection hconnection
  · intro endpoint descriptor hdescriptor hfan first hfirst second hsecond huses huses'
    obtain ⟨connection, hconnection, hends⟩ := hcables first hfirst
    obtain ⟨other, hother, hends'⟩ := hcables second hsecond
    have hsame : connection = other := h.exclusive endpoint descriptor hdescriptor hfan
      connection hconnection other hother (uses_of_ends hends huses) (uses_of_ends hends' huses')
    have hid : first.id = second.id :=
      congrArg Prod.fst (hends.trans ((congrArg _ hsame).trans hends'.symm))
    exact inj_on_of_nodup_map index'.valid.connections_nodup hfirst hsecond hid

/-- **Changes that keep the cables and their stored states keep a topology well
wired**, whatever they label, draw, assign or place. -/
theorem WellWired.of_wiring (h : index.WellWired)
    (hitems : index'.snapshot.items = index.snapshot.items)
    (hwiring : index'.snapshot.connections.map (·.wiring) =
      index.snapshot.connections.map (·.wiring)) : index'.WellWired := by
  have hends : index'.snapshot.connections.map (·.ends) =
      index.snapshot.connections.map (·.ends) := by
    have hfst := congrArg (List.map Prod.fst) hwiring
    rw [map_map, map_map] at hfst
    exact hfst
  have hderived : index'.snapshot.connections.map (·.derived) =
      index.snapshot.connections.map (·.derived) := by
    have hsnd := congrArg (List.map Prod.snd) hwiring
    rw [map_map, map_map] at hsnd
    exact hsnd
  have hwired : index'.Wired := h.toWired.of_cables hitems (by
    intro connection' hconnection'
    have hmem : connection'.ends ∈ index.snapshot.connections.map (·.ends) :=
      hends ▸ mem_map_of_mem hconnection'
    obtain ⟨connection, hconnection, hsame⟩ := mem_map.mp hmem
    exact ⟨connection, hconnection, hsame.symm⟩)
  refine ⟨hwired, ?_⟩
  rw [hderived, h.derived, connectionDerivedStates_congr hitems hends]
  intro connection hconnection endpoint huses
  exact h.known hconnection huses

/-- Storing the derived states makes a wired topology well wired. -/
theorem Wired.wellWired_of_restated (h : index.Wired)
    (hsnapshot : index'.snapshot = { index.snapshot with
      connections := index.snapshot.connections.map fun connection =>
        connection.withDerived (index.connectionDerivedState connection) }) :
    index'.WellWired := by
  have hitems : index'.snapshot.items = index.snapshot.items := by rw [hsnapshot]
  have hends : index'.snapshot.connections.map (·.ends) =
      index.snapshot.connections.map (·.ends) := by
    rw [hsnapshot, map_map]
    rfl
  refine ⟨h.of_cables hitems ?_, ?_⟩
  · intro connection' hconnection'
    rw [hsnapshot] at hconnection'
    obtain ⟨connection, hconnection, rfl⟩ := mem_map.mp hconnection'
    exact ⟨connection, hconnection, rfl⟩
  · rw [connectionDerivedStates_congr hitems hends (fun _ hconnection _ huses =>
      h.known hconnection huses), connectionDerivedStates_eq_map, hsnapshot, map_map]
    rfl

/-! ## A new cable -/

/-- The power role of a known endpoint is that of an outlet or of an input, and an
input takes one cable. -/
theorem power_roles {descriptor : EndpointDescriptor}
    (h : index.endpoint endpoint = some descriptor) {power : PowerEndpointDescriptor}
    (hpower : descriptor.power = some power) :
    power.direction = "output" ∨ power.direction = "input" ∧ power.allowFanOut = false := by
  obtain ⟨host, owner, port, side, -, rfl⟩ := index.endpoint_eq_some.mp h
  have hrole : powerEndpoint host owner port = some power := hpower
  unfold powerEndpoint at hrole
  split at hrole
  · cases hrole
    exact Or.inl rfl
  · split at hrole
    · cases hrole
    · obtain ⟨kind, -, rfl⟩ := Option.map_eq_some_iff.mp hrole
      exact Or.inr ⟨rfl, rfl⟩

/-- A cable that may be created joins ends that fit, once it is turned around. -/
theorem endsFit_orientConnection {source target : EndpointRef}
    {sourceDescriptor targetDescriptor : EndpointDescriptor}
    (hsource : index.endpoint source = some sourceDescriptor)
    (htarget : index.endpoint target = some targetDescriptor)
    (hpair : (validatePortPair sourceDescriptor targetDescriptor).ok = true) :
    ((orientConnection source target sourceDescriptor targetDescriptor).1 = source ∧
      (orientConnection source target sourceDescriptor targetDescriptor).2.1 = target ∧
      EndsFit sourceDescriptor targetDescriptor) ∨
    ((orientConnection source target sourceDescriptor targetDescriptor).1 = target ∧
      (orientConnection source target sourceDescriptor targetDescriptor).2.1 = source ∧
      EndsFit targetDescriptor sourceDescriptor) := by
  unfold orientConnection
  rcases validatePortPair_ok.mp hpair with ⟨p, q, hp, hq, hdirection⟩ | ⟨hp, hq, hports⟩
  · rw [hp]
    dsimp only
    rcases power_roles hsource hp with houtput | ⟨hinput, -⟩
    · have hinput : q.direction = "input" := by
        rcases power_roles htarget hq with h | ⟨h, -⟩
        · exact absurd (houtput.trans h.symm) hdirection
        · exact h
      rw [if_neg (by rw [houtput]; decide)]
      exact Or.inl ⟨rfl, rfl, Or.inl ⟨p, q, hp, hq, houtput, hinput⟩⟩
    · have houtput : q.direction = "output" := by
        rcases power_roles htarget hq with h | ⟨h, -⟩
        · exact h
        · exact absurd (hinput.trans h.symm) hdirection
      rw [if_pos hinput]
      exact Or.inr ⟨rfl, rfl, Or.inl ⟨q, p, hq, hp, houtput, hinput⟩⟩
  · rw [hp]
    dsimp only
    refine Or.inl ⟨?_, ?_, Or.inr ⟨hp, hq, hports⟩⟩
    · split
      · rfl
      · split <;> rfl
    · split
      · rfl
      · split <;> rfl

/-- No cable uses an endpoint that is free and does not fan out. -/
theorem not_uses_of_available {descriptor : EndpointDescriptor}
    (h : index.endpoint endpoint = some descriptor) (havailable : descriptor.available = true)
    (hfan : descriptor.power.any (·.allowFanOut) = false)
    (hconnection : connection ∈ index.snapshot.connections) : ¬connection.Uses endpoint := by
  obtain ⟨host, owner, port, side, -, rfl⟩ := index.endpoint_eq_some.mp h
  have hempty : (sortBy compare (connectionIdsAt endpoint index.snapshot.connections)).isEmpty =
      true := by
    have hfree : ((sortBy compare (connectionIdsAt endpoint index.snapshot.connections)).isEmpty ||
      (powerEndpoint host owner port).any (·.allowFanOut)) = true := havailable
    rw [show (powerEndpoint host owner port).any (·.allowFanOut) = false from hfan,
      Bool.or_false] at hfree
    exact hfree
  rw [List.isEmpty_iff] at hempty
  intro huses
  have hmem : connection.id ∈ sortBy compare
      (connectionIdsAt endpoint index.snapshot.connections) := by
    rw [mem_sortBy, connectionIdsAt, mem_flatMap]
    refine ⟨connection, hconnection, ?_⟩
    rcases huses with h | h <;> simp [h]
  rw [hempty] at hmem
  cases hmem

/-- A topology stays wired when a cable is added between free ends that fit. -/
theorem Wired.of_addition (h : index.Wired) (hitems : index'.snapshot.items = index.snapshot.items)
    (hconnections : ∀ other, other ∈ index'.snapshot.connections ↔
      other ∈ index.snapshot.connections ∨ other = connection)
    {source target : EndpointDescriptor} (hsource : index.endpoint connection.source = some source)
    (htarget : index.endpoint connection.target = some target) (hhost : source.host ≠ target.host)
    (hfit : EndsFit source target) (hfree : source.available = true)
    (hfree' : target.available = true) : index'.Wired := by
  have hunused : ∀ endpoint, connection.Uses endpoint → ∀ descriptor,
      index.endpoint endpoint = some descriptor →
      descriptor.power.any (·.allowFanOut) = false →
      ∀ other ∈ index.snapshot.connections, ¬other.Uses endpoint := by
    intro endpoint huses descriptor hdescriptor hfan other hother
    have havailable : descriptor.available = true := by
      rcases huses with rfl | rfl
      · rw [hsource, Option.some.injEq] at hdescriptor
        rw [← hdescriptor]
        exact hfree
      · rw [htarget, Option.some.injEq] at hdescriptor
        rw [← hdescriptor]
        exact hfree'
    exact not_uses_of_available hdescriptor havailable hfan hother
  refine .of_known hitems ?_ ?_
  · intro other hother
    rcases (hconnections other).mp hother with hold | rfl
    · exact h.ends other hold
    · exact ⟨source, target, hsource, htarget, hhost, hfit⟩
  · intro endpoint descriptor hdescriptor hfan first hfirst second hsecond huses huses'
    rcases (hconnections first).mp hfirst with hfirst | rfl
    · rcases (hconnections second).mp hsecond with hsecond | rfl
      · exact h.exclusive endpoint descriptor hdescriptor hfan first hfirst second hsecond huses
          huses'
      · exact absurd huses (hunused endpoint huses' descriptor hdescriptor hfan first hfirst)
    · rcases (hconnections second).mp hsecond with hsecond | rfl
      · exact absurd huses' (hunused endpoint huses descriptor hdescriptor hfan second hsecond)
      · rfl

end TopologyIndex

end HomelabInventory
