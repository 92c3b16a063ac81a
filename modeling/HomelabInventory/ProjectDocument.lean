import HomelabInventory.InsertionMap
import HomelabInventory.Lookup
import HomelabInventory.Protocol

/-!
# Project documents

The project as a client keeps it, and the meaning of patches on it. A document
holds lists; what matters about them is which connection and which assignment
they show for an identifier, and this view of a document is all that a patch
acts on.
-/

namespace HomelabInventory

open List

/-! ## Runtime values -/

/-- A connection end with runtime item keys. -/
structure RuntimeEndpoint where
  itemId : String
  portId : ℕ
  endpointId : Option ℕ
  hostedItemId : Option String
  deriving BEq, ReflBEq, LawfulBEq, DecidableEq

/-- The route preferences of a connection; what is not set is absent. -/
structure RuntimeRoute (K : Type) where
  sourceSide : Option String := none
  targetSide : Option String := none
  bendPoints : Option (List (Point K)) := none
  avoidCableOverlap : Bool := false
  deriving DecidableEq

/-- A connection of a document. -/
structure RuntimeConnection (K : Type) where
  id : ℕ
  source : RuntimeEndpoint
  target : RuntimeEndpoint
  type : String
  negotiatedSpeedBps : Option ℕ
  label : Option String
  route : Option (RuntimeRoute K)
  createdAt : String
  deriving DecidableEq

/-- The slots of an assigned component. -/
structure RuntimeAllocation where
  resourceType : String
  groupId : Option ℕ
  positions : List ℕ
  deriving DecidableEq

/-- An assignment of a document. -/
structure RuntimeAssignment where
  id : ℕ
  serverId : String
  itemId : String
  type : String
  assignedAt : String
  allocation : Option RuntimeAllocation
  deriving DecidableEq

/-- A placement of a document. -/
structure RuntimePlacement (K : Type) where
  serverId : String
  x : K
  y : K
  deriving DecidableEq

/-- The parts of a project document that patches change. -/
structure ProjectDocument (K : Type) where
  revision : ℕ
  name : String
  connections : List (RuntimeConnection K)
  assignments : List RuntimeAssignment
  placements : List (RuntimePlacement K)

/-! ## Conversions -/

section Conversions

variable {K : Type}

/-- The runtime end of an endpoint reference. -/
def runtimeEndpoint (endpoint : EndpointRef) : RuntimeEndpoint where
  itemId := itemKey endpoint.item
  portId := endpoint.portId
  endpointId := endpoint.endpointId
  hostedItemId := endpoint.hostedItem.map itemKey

/-- The runtime route of a stored one; an empty route is none. -/
def runtimeRoute (route : Option (ConnectionRoute K)) : Option (RuntimeRoute K) :=
  route.bind fun route =>
    let sourceSide := route.sourceSide.filter (!·.isEmpty)
    let targetSide := route.targetSide.filter (!·.isEmpty)
    let bendPoints := if route.bendPoints.isEmpty then none else some route.bendPoints
    if sourceSide.isSome || targetSide.isSome || bendPoints.isSome || route.avoidCableOverlap then
      some
        { sourceSide := sourceSide
          targetSide := targetSide
          bendPoints := bendPoints
          avoidCableOverlap := route.avoidCableOverlap }
    else none

/-- The runtime connection of a stored one. -/
def runtimeConnection (connection : TopologyConnection K) : RuntimeConnection K where
  id := connection.id
  source := runtimeEndpoint connection.source
  target := runtimeEndpoint connection.target
  type := connection.connectionType
  negotiatedSpeedBps := connection.negotiatedSpeedBps
  label := connection.label
  route := runtimeRoute connection.route
  createdAt := connection.createdAt

/-- The runtime assignment of a stored one. -/
def runtimeAssignment (assignment : TopologyAssignment) : RuntimeAssignment where
  id := assignment.id
  serverId := itemKey assignment.host
  itemId := itemKey assignment.item
  type := assignment.componentType
  assignedAt := assignment.assignedAt
  allocation := assignment.allocation.map fun allocation =>
    { resourceType := allocation.resourceType
      groupId := allocation.groupId
      positions := allocation.positions }

/-- The runtime placement of a canvas placement. -/
def runtimePlacement (placement : CanvasPlacement K) : RuntimePlacement K where
  serverId := itemKey placement.item
  x := placement.x
  y := placement.y

/-- The items whose runtime keys a connection needs. -/
def TopologyConnection.itemRefs (connection : TopologyConnection K) : List ItemRef :=
  [connection.source.item, connection.target.item] ++ connection.source.hostedItem.toList ++
    connection.target.hostedItem.toList

/-- The items whose runtime keys an assignment needs. -/
def TopologyAssignment.itemRefs (assignment : TopologyAssignment) : List ItemRef :=
  [assignment.host, assignment.item]

end Conversions

/-! ## Upserts -/

section Upserts

variable {α κ ρ : Type} [DecidableEq κ]

/-- Go through a list, dropping removed entries and replacing upserted ones; also
returns the upserts that found nothing to replace. -/
def mergeUpserts (key : ρ → κ) (make : α → ρ) (remove : List κ) :
    List (κ × α) → List ρ → List ρ × List (κ × α)
  | upsert, [] => ([], upsert)
  | upsert, x :: xs =>
    if key x ∈ remove then mergeUpserts key make remove upsert xs
    else
      match InsertionMap.get? upsert (key x) with
      | some replacement =>
        let merged := mergeUpserts key make remove (InsertionMap.delete upsert (key x)) xs
        (make replacement :: merged.1, merged.2)
      | none =>
        let merged := mergeUpserts key make remove upsert xs
        (x :: merged.1, merged.2)

/-- A list with some entries upserted and some removed; new entries come last. -/
def patchEntries (key : ρ → κ) (make : α → ρ) (upsert : List (κ × α)) (remove : List κ)
    (l : List ρ) : List ρ :=
  let merged := mergeUpserts key make remove (InsertionMap.ofEntries upsert) l
  merged.1 ++ merged.2.map fun entry => make entry.2

end Upserts

/-! ## Applying patches -/

section Apply

variable {K : Type}

namespace ProjectPatch

/-- The items whose runtime keys a patch needs, apart from the patches of a batch. -/
def itemRefs : ProjectPatch K → List ItemRef
  | addConnection connection => connection.itemRefs
  | patchPlacements upsert removeItems => upsert.map (·.item) ++ removeItems
  | patchAssignments upsert _ => upsert.flatMap (·.itemRefs)
  | _ => []

end ProjectPatch

namespace ProjectDocument

/-- Change the connections with an identifier. -/
def mapConnection (document : ProjectDocument K) (connectionId : ℕ)
    (f : RuntimeConnection K → RuntimeConnection K) : List (RuntimeConnection K) :=
  document.connections.map fun connection =>
    if connection.id ≠ connectionId then connection else f connection

/-- Apply a patch other than a batch. -/
def applyLeaf (document : ProjectDocument K) (patch : ProjectPatch K) (revision : ℕ) :
    ProjectDocument K :=
  match patch with
  | .setProjectName name => { document with revision := revision, name := name }
  | .addConnection connection =>
    { document with
      revision := revision
      connections := document.connections ++ [runtimeConnection connection] }
  | .removeConnection connection =>
    { document with
      revision := revision
      connections := document.connections.filter fun other => other.id != connection.id }
  | .setConnectionLabel connectionId label =>
    { document with
      revision := revision
      connections := document.mapConnection connectionId ({ · with label := label }) }
  | .setConnectionRoute connectionId route =>
    { document with
      revision := revision
      connections := document.mapConnection connectionId
        ({ · with route := runtimeRoute route }) }
  | .setConnectionDerived states =>
    let byId := InsertionMap.ofEntries (states.map fun state => (state.connectionId, state))
    { document with
      revision := revision
      connections := document.connections.map fun connection =>
        match InsertionMap.get? byId connection.id with
        | none => connection
        | some state =>
          { connection with
            type := state.connectionType
            negotiatedSpeedBps := state.negotiatedSpeedBps } }
  | .patchPlacements upsert removeItems =>
    { document with
      revision := revision
      placements := patchEntries RuntimePlacement.serverId runtimePlacement
        (upsert.map fun placement => (itemKey placement.item, placement))
        (removeItems.map itemKey) document.placements }
  | .patchAssignments upsert removeAssignmentIds =>
    { document with
      revision := revision
      assignments := sortByKey RuntimeAssignment.id
        (patchEntries RuntimeAssignment.id runtimeAssignment
          (upsert.map fun assignment => (assignment.id, assignment)) removeAssignmentIds
          document.assignments) }
  | .batch _ => document

end ProjectDocument

variable (parses : String → Bool)

mutual

/-- Apply a patch. `parses` tells which runtime keys name an item of a known type;
a patch that needs another key fails. -/
def applyProjectPatch (document : ProjectDocument K) (revision : ℕ) :
    ProjectPatch K → Option (ProjectDocument K)
  | .batch patches => applyProjectPatches document revision patches
  | patch =>
    if patch.itemRefs.all fun item => parses (itemKey item) then
      some (document.applyLeaf patch revision)
    else none

/-- Apply patches one after the other. -/
def applyProjectPatches (document : ProjectDocument K) (revision : ℕ) :
    List (ProjectPatch K) → Option (ProjectDocument K)
  | [] => some document
  | patch :: patches =>
    match applyProjectPatch document revision patch with
    | none => none
    | some document => applyProjectPatches document revision patches

end

end Apply

/-! ## Views -/

/-- The connection and the assignment a document shows for each identifier, and its name. -/
@[ext] structure DocumentView (K : Type) where
  name : String
  connections : ℕ → Option (RuntimeConnection K)
  assignments : ℕ → Option RuntimeAssignment

section Views

variable {K : Type}

/-- The view of a document. -/
def ProjectDocument.view (document : ProjectDocument K) : DocumentView K where
  name := document.name
  connections := lookup RuntimeConnection.id document.connections
  assignments := lookup RuntimeAssignment.id document.assignments

namespace DocumentView

/-- Change one connection. -/
def modify (view : DocumentView K) (connectionId : ℕ)
    (f : RuntimeConnection K → RuntimeConnection K) : DocumentView K :=
  { view with
    connections := fun id =>
      if id = connectionId then (view.connections id).map f else view.connections id }

mutual

/-- Apply a patch to a view. -/
def apply (view : DocumentView K) : ProjectPatch K → DocumentView K
  | .setProjectName name => { view with name := name }
  | .addConnection connection =>
    { view with
      connections := fun id => (view.connections id).or
        (if id = connection.id then some (runtimeConnection connection) else none) }
  | .removeConnection connection =>
    { view with
      connections := fun id => if id = connection.id then none else view.connections id }
  | .setConnectionLabel connectionId label => view.modify connectionId ({ · with label := label })
  | .setConnectionRoute connectionId route =>
    view.modify connectionId ({ · with route := runtimeRoute route })
  | .setConnectionDerived states =>
    { view with
      connections := fun id => (view.connections id).map fun connection =>
        match InsertionMap.get?
          (InsertionMap.ofEntries (states.map fun state => (state.connectionId, state))) id with
        | none => connection
        | some state =>
          { connection with
            type := state.connectionType
            negotiatedSpeedBps := state.negotiatedSpeedBps } }
  | .patchPlacements _ _ => view
  | .patchAssignments upsert removeAssignmentIds =>
    { view with
      assignments := fun id =>
        ((InsertionMap.get? (InsertionMap.ofEntries
          (upsert.map fun assignment => (assignment.id, assignment))) id).map
            runtimeAssignment).or
          (if id ∈ removeAssignmentIds then none else view.assignments id) }
  | .batch patches => applyAll view patches

/-- Apply patches to a view, one after the other. -/
def applyAll (view : DocumentView K) : List (ProjectPatch K) → DocumentView K
  | [] => view
  | patch :: patches => applyAll (view.apply patch) patches

end

@[simp] theorem applyAll_nil (view : DocumentView K) : view.applyAll [] = view := by
  rw [applyAll]

@[simp] theorem applyAll_cons (view : DocumentView K) (patch : ProjectPatch K)
    (patches : List (ProjectPatch K)) :
    view.applyAll (patch :: patches) = (view.apply patch).applyAll patches := by
  rw [applyAll]

theorem applyAll_append (view : DocumentView K) (patches others : List (ProjectPatch K)) :
    view.applyAll (patches ++ others) = (view.applyAll patches).applyAll others := by
  induction patches generalizing view with
  | nil => simp
  | cons patch patches ih => simp [ih]

end DocumentView

end Views

/-! ## What a patch does to the view of a document -/

section Lookup

variable {α κ ρ : Type} [DecidableEq κ] {key : ρ → κ}

/-- Patched entries: an upsert comes first, a removed entry is gone, any other
entry stays. -/
theorem lookup_patchEntries {make : α → ρ} {upsert : List (κ × α)} {remove : List κ}
    (hmake : ∀ entry ∈ upsert, key (make entry.2) = entry.1) (l : List ρ) (k : κ) :
    lookup key (patchEntries key make upsert remove l) k =
      ((InsertionMap.get? (InsertionMap.ofEntries upsert) k).map make).or
        (if k ∈ remove then none else lookup key l k) := by
  suffices h : ∀ (m : List (κ × α)), (∀ entry ∈ m, key (make entry.2) = entry.1) →
      lookup key ((mergeUpserts key make remove m l).1 ++
        (mergeUpserts key make remove m l).2.map fun entry => make entry.2) k =
      ((InsertionMap.get? m k).map make).or (if k ∈ remove then none else lookup key l k) from
    h _ fun entry hentry => hmake entry (InsertionMap.mem_ofEntries hentry)
  induction l with
  | nil =>
    intro m hm
    rw [mergeUpserts]
    simp only [nil_append, lookup_nil, ite_self, Option.or_none]
    induction m with
    | nil => rfl
    | cons e m ih =>
      rw [map_cons, lookup_cons, hm e mem_cons_self, InsertionMap.get?_cons,
        ih fun e he => hm e (mem_cons_of_mem _ he)]
      by_cases he : e.1 = k <;> simp [he]
  | cons x xs ih =>
    intro m hm
    rw [mergeUpserts]
    by_cases hremove : key x ∈ remove
    · rw [if_pos hremove, ih m hm, lookup_cons]
      by_cases hx : key x = k
      · have hk : k ∈ remove := hx ▸ hremove
        simp [hk]
      · simp [hx]
    · rw [if_neg hremove]
      cases hget : InsertionMap.get? m (key x) with
      | some replacement =>
        have hmem := InsertionMap.mem_of_get?_eq_some hget
        have hdel : ∀ entry ∈ InsertionMap.delete m (key x), key (make entry.2) = entry.1 :=
          fun entry he => hm entry (mem_filter.mp he).1
        simp only [cons_append]
        rw [lookup_cons, hm _ hmem, ih _ hdel, lookup_cons]
        by_cases hx : key x = k
        · subst hx
          simp [hget]
        · have hne : k ≠ key x := fun h => hx h.symm
          rw [if_neg hx, if_neg hx, InsertionMap.get?_delete_of_ne hne]
      | none =>
        simp only [cons_append]
        rw [lookup_cons, ih m hm, lookup_cons]
        by_cases hx : key x = k
        · subst hx
          simp [hget, hremove]
        · rw [if_neg hx, if_neg hx]

end Lookup

/-! ## The view follows the document -/

section Simulation

variable {K : Type} (parses : String → Bool)

/-- A single patch of the name, the connections or the assignments. -/
def ProjectPatch.isLeaf : ProjectPatch K → Bool
  | .batch _ | .patchPlacements _ _ => false
  | _ => true

/-- The items whose keys a patch needs are of known types. -/
def ProjectPatch.keysParse (patch : ProjectPatch K) : Bool :=
  patch.itemRefs.all fun item => parses (itemKey item)

/-- Changing the connections with an identifier changes the one that is shown. -/
theorem ProjectDocument.view_mapConnection (document : ProjectDocument K) (connectionId : ℕ)
    {f : RuntimeConnection K → RuntimeConnection K}
    (hf : ∀ connection, (f connection).id = connection.id) :
    lookup RuntimeConnection.id (document.mapConnection connectionId f) =
      (document.view.modify connectionId f).connections := by
  funext id
  rw [mapConnection, lookup_map]
  · simp only [DocumentView.modify, view]
    cases hfind : lookup RuntimeConnection.id document.connections id with
    | none => simp
    | some connection =>
      obtain ⟨-, rfl⟩ := lookup_eq_some hfind
      by_cases hid : connection.id = connectionId <;> simp [hid]
  · intro connection
    split
    · rfl
    · exact hf connection

variable {patch : ProjectPatch K}

/-- Applying a single patch applies it to the view. -/
theorem ProjectDocument.view_applyLeaf (document : ProjectDocument K) (hleaf : patch.isLeaf = true)
    (revision : ℕ) : (document.applyLeaf patch revision).view = document.view.apply patch := by
  cases patch with
  | setProjectName name => rfl
  | addConnection connection =>
    ext1
    · rfl
    · funext id
      rw [DocumentView.apply]
      simp only [ProjectDocument.view, ProjectDocument.applyLeaf, lookup_append, lookup_cons,
        lookup_nil, eq_comm]
      rfl
    · rfl
  | removeConnection connection =>
    ext1
    · rfl
    · funext id
      rw [DocumentView.apply]
      exact lookup_filter_ne _ _ _
    · rfl
  | setConnectionLabel connectionId label =>
    ext1
    · rfl
    · exact document.view_mapConnection connectionId (fun _ => rfl)
    · rfl
  | setConnectionRoute connectionId route =>
    ext1
    · rfl
    · exact document.view_mapConnection connectionId (fun _ => rfl)
    · rfl
  | setConnectionDerived states =>
    ext1
    · rfl
    · funext id
      rw [DocumentView.apply]
      simp only [ProjectDocument.view, ProjectDocument.applyLeaf]
      rw [lookup_map]
      · cases hfind : lookup RuntimeConnection.id document.connections id with
        | none => rfl
        | some connection =>
          obtain ⟨-, rfl⟩ := lookup_eq_some hfind
          rfl
      · intro connection
        split <;> rfl
    · rfl
  | patchPlacements upsert removeItems => cases hleaf
  | patchAssignments upsert removeAssignmentIds =>
    ext1
    · rfl
    · rfl
    · funext id
      rw [DocumentView.apply]
      simp only [ProjectDocument.view, ProjectDocument.applyLeaf]
      rw [lookup_sortByKey, lookup_patchEntries]
      intro entry hentry
      obtain ⟨assignment, -, rfl⟩ := mem_map.mp hentry
      rfl
  | batch patches => cases hleaf

theorem ProjectDocument.placements_applyLeaf (document : ProjectDocument K)
    (hleaf : patch.isLeaf = true) (revision : ℕ) :
    (document.applyLeaf patch revision).placements = document.placements := by
  cases patch <;> first | rfl | cases hleaf

/-- A single patch whose keys parse can be applied. -/
theorem applyProjectPatch_leaf (hleaf : patch.isLeaf = true)
    (hparse : patch.keysParse parses = true) (document : ProjectDocument K) (revision : ℕ) :
    applyProjectPatch parses document revision patch =
      some (document.applyLeaf patch revision) := by
  rw [ProjectPatch.keysParse] at hparse
  rw [applyProjectPatch, if_pos hparse]
  rintro patches rfl
  cases hleaf

/-- Single patches whose keys parse can be applied one after the other; they apply
to the view and leave the placements. -/
theorem applyProjectPatches_leaves {patches : List (ProjectPatch K)}
    (hleaf : ∀ patch ∈ patches, patch.isLeaf = true)
    (hparse : ∀ patch ∈ patches, patch.keysParse parses = true) (document : ProjectDocument K)
    (revision : ℕ) :
    ∃ next, applyProjectPatches parses document revision patches = some next ∧
      next.view = document.view.applyAll patches ∧ next.placements = document.placements := by
  induction patches generalizing document with
  | nil => exact ⟨document, rfl, by simp, rfl⟩
  | cons patch patches ih =>
    have hleaf' := hleaf patch mem_cons_self
    obtain ⟨next, hnext, hview, hplacements⟩ := ih (fun p hp => hleaf p (mem_cons_of_mem _ hp))
      (fun p hp => hparse p (mem_cons_of_mem _ hp)) (document.applyLeaf patch revision)
    refine ⟨next, ?_, ?_, ?_⟩
    · rw [applyProjectPatches,
        applyProjectPatch_leaf parses hleaf' (hparse patch mem_cons_self)]
      exact hnext
    · rw [hview, document.view_applyLeaf hleaf', DocumentView.applyAll_cons]
    · rw [hplacements, document.placements_applyLeaf hleaf']

end Simulation

end HomelabInventory
