import HomelabInventory.ResolutionRuns
import Mathlib.Data.List.ReduceOption

/-!
# What a resolution plan consists of

Every operation of a plan has its reason in the project and the two versions of the item:
a cable end whose port moves, a component that is released, a resource that is renamed
or migrates. The plan has an operation for each of these reasons, and only one operation
for each key.
-/

namespace HomelabInventory.CatalogResolution

open List

open Compatibility (TextRules)

/-! ## Reasons -/

/-- The next resource with the identity of a resource. -/
def successor (next : CatalogItem) (resource : HostResource) : Option HostResource :=
  (resourceIdentity resource).bind fun identity =>
    (hostResources next).find? fun candidate => resourceIdentity candidate == some identity

/-- The resource is the one that migrates. -/
def handled (rules : TextRules) (current next : CatalogItem) (resource : HostResource) : Bool :=
  (handledResources (Wlan.planWlanResourceMigration rules current.host next.host)).contains
    resource.mark

/-- No next resource takes the place of a resource. -/
def isDropped (next : CatalogItem) (resource : HostResource) : Prop :=
  successor next resource = none ∧
    ((hostResources next).filter fun candidate =>
      candidate.resourceType == resource.resourceType && candidate.key == resource.key).length ≠ 1

/-- The update releases an assigned component: it is the adapter that is replaced, it
becomes part of the item, or its resource is dropped. -/
def Released (rules : TextRules) (current next : CatalogItem) (project : Project) (link : Link)
    (assignment : Assignment) : Prop :=
  (losesAdapter current next link = true ∧
    assignment ∈ assignedAdapters project link.hostKey) ∨
  (∃ component ∈ newFixedComponents current next,
    assignment ∈ fixedMatches rules project link.hostKey component) ∨
  (∃ resource ∈ hostResources current, handled rules current next resource = false ∧
    assignment ∈ resourceAssignments project link.hostKey resource ∧ isDropped next resource)

/-- The operation that renames a resource. -/
def renameOperation (project : Project) (link : Link) (resource renamed : HostResource) :
    Operation :=
  .remapResourceKey resource.resourceType resource.id resource.key renamed.key
    (sortedIds (resourceAssignments project link.hostKey resource))

/-- The operation that migrates the wireless card slot. -/
def migrationOperation (project : Project) (link : Link) (migration : Wlan.Migration) :
    Operation :=
  wlanResourceReclassification migration
    ((resourceAssignments project link.hostKey (migratedSource migration)).map Assignment.id)

/-- The operations that an update has a reason for. -/
inductive Warranted (rules : TextRules) (current next : CatalogItem) (project : Project)
    (link : Link) : Operation → Prop where
  /-- the port of a cable end becomes another port -/
  | port {connection : Connection} {role : EndpointRole} {currentPort target : Port}
      (connected : connection ∈ project.connections)
      (onHost : (connection.endpoint role).itemId = link.hostKey)
      (unhosted : (connection.endpoint role).isHosted = false)
      (found : (current.ports.find? fun port =>
        port.id == (connection.endpoint role).portId) = some currentPort)
      (becomes : targetPort rules currentPort next.ports = some target)
      (moves : target.id ≠ (connection.endpoint role).portId) :
      Warranted rules current next project link (.moveConnectionEndpoint connection.id role
        ⟨link.itemType, link.itemId, none, none, (connection.endpoint role).portId⟩
        ⟨link.itemType, link.itemId, none, none, target.id⟩)
  /-- the power adapter of a cable end is replaced -/
  | adapter {connection : Connection} {role : EndpointRole} {assignment : Assignment}
      {target : Port}
      (loses : losesAdapter current next link = true)
      (assigned : assignedAdapters project link.hostKey = [assignment])
      (inlet : unique (acInputs next) = some target)
      (connected : connection ∈ project.connections)
      (onHost : (connection.endpoint role).itemId = link.hostKey)
      (hosted : (connection.endpoint role).hostedItemId = some assignment.itemId) :
      Warranted rules current next project link (.moveConnectionEndpoint connection.id role
        ⟨link.itemType, link.itemId, some "powerAdapter",
          (project.item? assignment.itemId).map StoredItem.id, (connection.endpoint role).portId⟩
        ⟨link.itemType, link.itemId, none, none, target.id⟩)
  /-- a component is released -/
  | release {assignment : Assignment} {itemType : String} {itemId : Option ℕ}
      (assigned : assignment ∈ project.assignments)
      (released : Released rules current next project link assignment) :
      Warranted rules current next project link (.unassignItem assignment.id itemType itemId)
  /-- the wireless card slot migrates -/
  | migrate {migration : Wlan.Migration}
      (ready : Wlan.planWlanResourceMigration rules current.host next.host = .ready migration) :
      Warranted rules current next project link (migrationOperation project link migration)
  /-- a resource with assignments is renamed -/
  | rename {resource renamed : HostResource}
      (present : resource ∈ hostResources current)
      (unhandled : handled rules current next resource = false)
      (occupied : resourceAssignments project link.hostKey resource ≠ [])
      (becomes : successor next resource = some renamed)
      (renames : renamed.key ≠ resource.key) :
      Warranted rules current next project link (renameOperation project link resource renamed)

variable {rules : TextRules} {current next : CatalogItem} {project : Project} {link : Link}

/-! ## Each kind of operation -/

variable {connection : Connection}
variable {role : EndpointRole}

theorem mem_ends : (connection, role) ∈ project.ends ↔ connection ∈ project.connections := by
  cases role <;> simp [Project.ends]

variable {operation : Operation}

/-- A port operation has its reason. -/
theorem warranted_of_port (hmem : connection ∈ project.connections)
    (h : portRemapOperation rules current next link link.hostKey connection role
      = .ok (some operation)) : Warranted rules current next project link operation := by
  simp only [portRemapOperation] at h
  split at h
  · cases h
  · rename_i hend
    obtain ⟨hhost, hhosted⟩ := not_or.mp hend
    split at h
    · cases h
    · rename_i currentPort hfound
      split at h
      · cases h
      · rename_i target htarget
        split at h
        · cases h
        · rename_i hmoves
          cases h
          exact .port hmem (not_not.mp hhost) (Bool.not_eq_true _ ▸ hhosted) hfound htarget hmoves

variable {fixed planned ports : List Operation}

theorem mem_portRemapOperations
    (h : portRemapOperations rules current next project link link.hostKey = .ok ports) :
    operation ∈ ports ↔ ∃ connection ∈ project.connections, ∃ role,
      portRemapOperation rules current next link link.hostKey connection role
        = .ok (some operation) := by
  obtain ⟨collected, hcollected, hports⟩ := bind_eq_ok.mp h
  have hports := pure_eq_ok.mp hports
  subst hports
  rw [reduceOption_mem_iff, mem_of_mapM hcollected]
  constructor
  · rintro ⟨⟨connection, role⟩, hmem, hop⟩
    exact ⟨connection, mem_ends.mp hmem, role, hop⟩
  · rintro ⟨connection, hmem, role, hop⟩
    exact ⟨(connection, role), mem_ends.mpr hmem, hop⟩

/-- Every cable end on the item has a port that becomes another one. -/
theorem exists_target_of_ports
    (h : portRemapOperations rules current next project link link.hostKey = .ok ports)
    (hmem : connection ∈ project.connections)
    (hhost : (connection.endpoint role).itemId = link.hostKey)
    (hhosted : (connection.endpoint role).isHosted = false) :
    ∃ currentPort target, (current.ports.find? fun port =>
        port.id == (connection.endpoint role).portId) = some currentPort ∧
      targetPort rules currentPort next.ports = some target := by
  obtain ⟨collected, hcollected, -⟩ := bind_eq_ok.mp h
  obtain ⟨operation, -, hop⟩ :=
    exists_of_mapM hcollected (mem_ends.mpr hmem : (connection, role) ∈ project.ends)
  simp only [portRemapOperation, hhost, hhosted] at hop
  split at hop
  · simp_all
  · split at hop
    · cases hop
    · rename_i currentPort hfound
      split at hop
      · cases hop
      · rename_i target htarget
        exact ⟨currentPort, target, hfound, htarget⟩

variable {assignment : Assignment}

theorem mem_adapterOperation {target : Port} :
    adapterOperation project link link.hostKey assignment target connection role = some operation ↔
      (connection.endpoint role).itemId = link.hostKey ∧
        (connection.endpoint role).hostedItemId = some assignment.itemId ∧
        operation = .moveConnectionEndpoint connection.id role
          ⟨link.itemType, link.itemId, some "powerAdapter",
            (project.item? assignment.itemId).map StoredItem.id,
            (connection.endpoint role).portId⟩
          ⟨link.itemType, link.itemId, none, none, target.id⟩ := by
  simp only [adapterOperation]
  split
  · rename_i hend
    constructor
    · intro h
      cases h
    · rintro ⟨hhost, hhosted, -⟩
      rcases hend with hne | hne
      · exact absurd hhost hne
      · exact absurd hhosted hne
  · rename_i hend
    obtain ⟨hhost, hhosted⟩ := not_or.mp hend
    constructor
    · intro h
      exact ⟨not_not.mp hhost, not_not.mp hhosted, (Option.some.inj h).symm⟩
    · rintro ⟨-, -, rfl⟩
      rfl

/-- A plan that replaces an adapter knows the only one assigned, and the inlet for its cable. -/
theorem adapter_single {adapters : List Operation} {assignment : Assignment}
    (h : powerAdapterOperations current next project link link.hostKey = .ok adapters)
    (hloses : losesAdapter current next link = true)
    (hassigned : assignment ∈ assignedAdapters project link.hostKey) :
    assignedAdapters project link.hostKey = [assignment] ∧
      ∃ inlet, unique (acInputs next) = some inlet := by
  rw [powerAdapterOperations, if_neg (by simp [hloses])] at h
  split at h
  · rename_i hnil
    rw [hnil] at hassigned
    cases hassigned
  · rename_i other hother
    rw [hother, mem_singleton] at hassigned
    split at h
    · cases h
    · rename_i inlet hinlet
      exact ⟨hassigned ▸ hother, inlet, hinlet⟩
  · cases h

/-- The adapter is replaced exactly when its operations are planned. -/
theorem mem_powerAdapterOperations {adapters : List Operation}
    (h : powerAdapterOperations current next project link link.hostKey = .ok adapters) :
    operation ∈ adapters ↔ losesAdapter current next link = true ∧
      ∃ assignment, assignedAdapters project link.hostKey = [assignment] ∧
        ((∃ target connection role, unique (acInputs next) = some target ∧
          connection ∈ project.connections ∧
          adapterOperation project link link.hostKey assignment target connection role
            = some operation) ∨
        operation = .unassignItem assignment.id "powerAdapter"
          ((project.item? assignment.itemId).map StoredItem.id)) := by
  simp only [powerAdapterOperations] at h
  split at h
  · rename_i hloses
    cases h
    simp [hloses]
  · rename_i hloses
    have hloses : losesAdapter current next link = true := by simpa using hloses
    split at h
    · rename_i hnone
      cases h
      simp [hnone]
    · rename_i assignment hassigned
      split at h
      · cases h
      · rename_i target htarget
        cases h
        simp only [mem_append, mem_filterMap, mem_singleton]
        constructor
        · rintro (⟨⟨connection, role⟩, hmem, hop⟩ | hop)
          · exact ⟨hloses, assignment, hassigned, .inl ⟨target, connection, role, htarget,
              mem_ends.mp hmem, hop⟩⟩
          · exact ⟨hloses, assignment, hassigned, .inr hop⟩
        · rintro ⟨-, other, hother, hop⟩
          obtain rfl : assignment = other := by simpa using hassigned.symm.trans hother
          rcases hop with ⟨inlet, connection, role, hinlet, hmem, hop⟩ | hop
          · obtain rfl := Option.some.inj (htarget.symm.trans hinlet)
            exact .inl ⟨(connection, role), mem_ends.mpr hmem, hop⟩
          · exact .inr hop
    · cases h

theorem mem_fixedComponentOperations
    (h : fixedComponentOperations rules current next project link.hostKey = .ok fixed) :
    operation ∈ fixed ↔ ∃ component ∈ newFixedComponents current next,
      fixedComponentOperation rules project link.hostKey component = .ok (some operation) := by
  obtain ⟨collected, hcollected, hfixed⟩ := bind_eq_ok.mp h
  have hfixed := pure_eq_ok.mp hfixed
  subst hfixed
  rw [reduceOption_mem_iff, mem_of_mapM hcollected]

/-- A fixed component releases the one component it is. -/
theorem fixedComponentOperation_eq {component : FixedComponent}
    (h : fixedComponentOperation rules project link.hostKey component = .ok (some operation)) :
    ∃ assignment itemType itemId, fixedMatches rules project link.hostKey component = [assignment] ∧
      operation = .unassignItem assignment.id itemType itemId := by
  simp only [fixedComponentOperation] at h
  split at h
  · cases h
  · rename_i assignment hmatch
    split at h
    · cases h
    · cases h
      exact ⟨assignment, _, _, hmatch, rfl⟩
  · cases h

/-- A component that becomes part of the item is released. -/
theorem exists_release_of_fixed
    (h : fixedComponentOperations rules current next project link.hostKey = .ok fixed)
    {component : FixedComponent} (hnew : component ∈ newFixedComponents current next)
    (hmatch : assignment ∈ fixedMatches rules project link.hostKey component) :
    ∃ itemType itemId, .unassignItem assignment.id itemType itemId ∈ fixed := by
  obtain ⟨collected, hcollected, -⟩ := bind_eq_ok.mp h
  obtain ⟨found, -, hfound⟩ := exists_of_mapM hcollected hnew
  cases found with
  | some operation =>
    obtain ⟨other, itemType, itemId, hother, rfl⟩ := fixedComponentOperation_eq hfound
    rw [hother, mem_singleton] at hmatch
    subst hmatch
    exact ⟨itemType, itemId, (mem_fixedComponentOperations h).mpr ⟨component, hnew, hfound⟩⟩
  | none =>
    exfalso
    simp only [fixedComponentOperation] at hfound
    split at hfound
    · rename_i hnil
      rw [hnil] at hmatch
      cases hmatch
    · split at hfound <;> cases hfound
    · cases hfound

/-! ## Resources -/

theorem get?_append {κ ν : Type} [DecidableEq κ] (front back : List (κ × ν)) (key : κ) :
    InsertionMap.get? (front ++ back) key
      = (InsertionMap.get? front key).or (InsertionMap.get? back key) := by
  simp [InsertionMap.get?, find?_append, Option.map_or]

theorem get?_foldlM_indexResource {resources : List HostResource}
    {start result : List ((ResourceType × ℤ) × HostResource)}
    (h : resources.foldlM indexResource start = .ok result) (identity : ResourceType × ℤ) :
    InsertionMap.get? result identity = (InsertionMap.get? start identity).or
      (resources.find? fun candidate => resourceIdentity candidate == some identity) := by
  induction resources generalizing start with
  | nil =>
    rw [foldlM_nil, pure_eq_ok] at h
    subst h
    simp
  | cons resource rest ih =>
    obtain ⟨middle, hstep, hrest⟩ := foldlM_cons_eq_ok.mp h
    rw [ih hrest]
    rw [indexResource] at hstep
    cases hid : resourceIdentity resource with
    | none =>
      simp only [hid] at hstep
      cases hstep
      simp [hid]
    | some own =>
      simp only [hid] at hstep
      split at hstep
      · cases hstep
      · rename_i hfresh
        cases hstep
        rw [get?_append, InsertionMap.get?_cons, InsertionMap.get?_nil, find?_cons, hid]
        by_cases hown : own = identity
        · subst hown
          have hnone : InsertionMap.get? start own = none := by simpa using hfresh
          simp [hnone]
        · have hne : (some own == some identity) = false := by simp [hown]
          rw [if_neg hown, Option.or_none, hne]

/-- The index of the next resources finds what a search does. -/
theorem get?_indexResources {resources : List HostResource}
    {index : List ((ResourceType × ℤ) × HostResource)}
    (h : indexResources resources = .ok index) (identity : ResourceType × ℤ) :
    InsertionMap.get? index identity
      = resources.find? fun candidate => resourceIdentity candidate == some identity := by
  simpa using get?_foldlM_indexResource h identity

/-- What is planned for the assignments to one resource. -/
theorem mem_resourceOperations {index : List ((ResourceType × ℤ) × HostResource)}
    (hindex : indexResources (hostResources next) = .ok index) {resource : HostResource}
    {operations : List Operation}
    (h : resourceOperations project link.hostKey (hostResources next) index resource
      = .ok operations) :
    operation ∈ operations ↔
      (resourceAssignments project link.hostKey resource ≠ [] ∧ ∃ renamed,
        successor next resource = some renamed ∧ renamed.key ≠ resource.key ∧
        operation = renameOperation project link resource renamed) ∨
      (isDropped next resource ∧ ∃ assignment ∈ resourceAssignments project link.hostKey resource,
        operation = releaseAssignment project assignment) := by
  have hsuccessor : (resourceIdentity resource).bind (InsertionMap.get? index)
      = successor next resource := by
    rw [successor]
    congr 1
    funext identity
    exact get?_indexResources hindex identity
  simp only [resourceOperations, hsuccessor] at h
  split at h
  · rename_i hempty
    rw [pure_eq_ok] at h
    subst h
    simp [hempty]
  · rename_i hoccupied
    split at h
    · rename_i renamed hrenamed
      have hkept : ¬isDropped next resource := fun hdrop => by
        rw [hdrop.1] at hrenamed
        cases hrenamed
      split at h
      · rename_i hkey
        rw [pure_eq_ok] at h
        subst h
        simp [hkept, hrenamed, hkey]
      · rename_i hkey
        obtain ⟨_, -, h⟩ := bind_eq_ok.mp h
        rw [pure_eq_ok] at h
        subst h
        simp [hkept, hrenamed, hkey, hoccupied, renameOperation]
    · rename_i hnone
      split at h
      · rename_i hsame
        rw [pure_eq_ok] at h
        subst h
        simp [isDropped, hnone, hsame]
      · rename_i hsame
        rw [pure_eq_ok] at h
        subst h
        rw [mem_map]
        constructor
        · rintro ⟨assignment, hassignment, rfl⟩
          exact .inr ⟨⟨hnone, hsame⟩, assignment, hassignment, rfl⟩
        · rintro (⟨-, renamed, hrenamed, -⟩ | ⟨-, assignment, hassignment, rfl⟩)
          · rw [hnone] at hrenamed
            cases hrenamed
          · exact ⟨assignment, hassignment, rfl⟩

/-- The slot that migrates is one of the host. -/
theorem migratedSource_mem {migration : Wlan.Migration}
    (h : Wlan.planWlanResourceMigration rules current.host next.host = .ready migration) :
    migratedSource migration ∈ hostResources current := by
  have hsource := (Wlan.planWlanResourceMigration_source h).1
  have hmem : migration.source ∈ current.host.expansionSlots := by
    have : migration.source ∈ [migration.source] := mem_singleton.mpr rfl
    rw [← hsource] at this
    exact mem_of_mem_filter this
  simp only [hostResources, mem_append, mem_map]
  exact .inl (.inl (.inl (.inr ⟨_, hmem, rfl⟩)))

/-- What is planned for the assignments to resources. -/
theorem mem_resourceRelationshipOperations {resources : List Operation}
    (h : resourceRelationshipOperations rules current next project link.hostKey = .ok resources) :
    operation ∈ resources ↔
      (∃ migration, Wlan.planWlanResourceMigration rules current.host next.host
          = .ready migration ∧ operation = migrationOperation project link migration) ∨
      ∃ resource ∈ hostResources current, handled rules current next resource = false ∧
        ((resourceAssignments project link.hostKey resource ≠ [] ∧ ∃ renamed,
          successor next resource = some renamed ∧ renamed.key ≠ resource.key ∧
          operation = renameOperation project link resource renamed) ∨
        (isDropped next resource ∧
          ∃ assignment ∈ resourceAssignments project link.hostKey resource,
            operation = releaseAssignment project assignment)) := by
  simp only [resourceRelationshipOperations] at h
  split at h
  · rename_i hempty
    rw [pure_eq_ok] at h
    subst h
    constructor
    · intro hmem
      cases hmem
    · rintro (⟨migration, hready, -⟩ | ⟨resource, hmem, -⟩)
      · have := migratedSource_mem hready
        rw [hempty] at this
        cases this
      · rw [hempty] at hmem
        cases hmem
  · obtain ⟨index, hindex, h⟩ := bind_eq_ok.mp h
    obtain ⟨migrated, hmigrated, h⟩ := bind_eq_ok.mp h
    obtain ⟨collected, hcollected, h⟩ := bind_eq_ok.mp h
    rw [pure_eq_ok] at h
    subst h
    rw [mem_append]
    refine or_congr ?_ ?_
    · generalize Wlan.planWlanResourceMigration rules current.host next.host = plan at hmigrated
      cases plan with
      | none =>
        cases hmigrated
        simp
      | ambiguous reason =>
        simp only [migrationOperations] at hmigrated
        split at hmigrated
        · cases hmigrated
          simp
        · cases hmigrated
      | ready migration =>
        obtain ⟨_, -, hmigrated⟩ := bind_eq_ok.mp hmigrated
        rw [pure_eq_ok] at hmigrated
        subst hmigrated
        simp [migrationOperation]
    · rw [mem_flatten]
      constructor
      · rintro ⟨operations, hoperations, hmem⟩
        obtain ⟨resource, hresource, hrun⟩ := (mem_of_mapM hcollected).mp hoperations
        obtain ⟨hpresent, hhandled⟩ := mem_filter.mp hresource
        exact ⟨resource, hpresent, by simpa [handled] using hhandled,
          (mem_resourceOperations hindex hrun).mp hmem⟩
      · rintro ⟨resource, hpresent, hhandled, hcase⟩
        have hresource : resource ∈ (hostResources current).filter fun resource =>
            !(handledResources (Wlan.planWlanResourceMigration rules current.host
              next.host)).contains resource.mark := by
          refine mem_filter.mpr ⟨hpresent, ?_⟩
          simpa [handled] using hhandled
        obtain ⟨operations, hoperations, hrun⟩ := exists_of_mapM hcollected hresource
        exact ⟨operations, hoperations, (mem_resourceOperations hindex hrun).mpr hcase⟩

/-! ## The operations of a plan -/

variable (h : plannedOperations rules current next project link = .ok planned)
include h

theorem plannedOperations_eq_ok :
    ∃ ports adapters fixed resources,
      portRemapOperations rules current next project link link.hostKey = .ok ports ∧
      powerAdapterOperations current next project link link.hostKey = .ok adapters ∧
      fixedComponentOperations rules current next project link.hostKey = .ok fixed ∧
      resourceRelationshipOperations rules current next project link.hostKey = .ok resources ∧
      planned = ports ++ adapters ++ fixed ++ resources := by
  obtain ⟨ports, hports, h⟩ := bind_eq_ok.mp h
  obtain ⟨adapters, hadapters, h⟩ := bind_eq_ok.mp h
  obtain ⟨fixed, hfixed, h⟩ := bind_eq_ok.mp h
  obtain ⟨resources, hresources, h⟩ := bind_eq_ok.mp h
  exact ⟨ports, adapters, fixed, resources, hports, hadapters, hfixed, hresources,
    (pure_eq_ok.mp h).symm⟩

/-- **Every operation has its reason.** -/
theorem warranted_of_mem (hmem : operation ∈ planned) :
    Warranted rules current next project link operation := by
  obtain ⟨ports, adapters, fixed, resources, hports, hadapters, hfixed, hresources, rfl⟩ :=
    plannedOperations_eq_ok h
  simp only [mem_append] at hmem
  rcases hmem with ((hmem | hmem) | hmem) | hmem
  · obtain ⟨connection, hconnection, role, hop⟩ := (mem_portRemapOperations hports).mp hmem
    exact warranted_of_port hconnection hop
  · obtain ⟨hloses, assignment, hassigned, hcase⟩ := (mem_powerAdapterOperations hadapters).mp hmem
    rcases hcase with ⟨target, connection, role, htarget, hconnection, hop⟩ | rfl
    · obtain ⟨hhost, hhosted, rfl⟩ := mem_adapterOperation.mp hop
      exact .adapter hloses hassigned htarget hconnection hhost hhosted
    · have hself : assignment ∈ assignedAdapters project link.hostKey := by
        rw [hassigned]
        exact mem_singleton.mpr rfl
      exact .release (mem_of_mem_filter hself) (.inl ⟨hloses, hself⟩)
  · obtain ⟨component, hnew, hop⟩ := (mem_fixedComponentOperations hfixed).mp hmem
    obtain ⟨assignment, itemType, itemId, hmatch, rfl⟩ := fixedComponentOperation_eq hop
    have hself : assignment ∈ fixedMatches rules project link.hostKey component := by
      rw [hmatch]
      exact mem_singleton.mpr rfl
    exact .release (mem_of_mem_filter hself) (.inr (.inl ⟨component, hnew, hself⟩))
  · rcases (mem_resourceRelationshipOperations hresources).mp hmem with
      ⟨migration, hready, rfl⟩ | ⟨resource, hpresent, hhandled, hcase⟩
    · exact .migrate hready
    · rcases hcase with ⟨hoccupied, renamed, hbecomes, hkey, rfl⟩ |
        ⟨hdropped, assignment, hassignment, rfl⟩
      · exact .rename hpresent hhandled hoccupied hbecomes hkey
      · exact .release (mem_of_mem_filter hassignment)
          (.inr (.inr ⟨resource, hpresent, hhandled, hassignment, hdropped⟩))

/-- Every component that is released has an operation. -/
theorem exists_release (hreleased : Released rules current next project link assignment) :
    ∃ itemType itemId, .unassignItem assignment.id itemType itemId ∈ planned := by
  obtain ⟨ports, adapters, fixed, resources, -, hadapters, hfixed, hresources, rfl⟩ :=
    plannedOperations_eq_ok h
  simp only [mem_append]
  rcases hreleased with ⟨hloses, hadapter⟩ | ⟨component, hnew, hmatch⟩ |
    ⟨resource, hpresent, hhandled, hassignment, hdropped⟩
  · have hone := (adapter_single hadapters hloses hadapter).1
    exact ⟨_, _, .inl (.inl (.inr ((mem_powerAdapterOperations hadapters).mpr
      ⟨hloses, assignment, hone, .inr rfl⟩)))⟩
  · obtain ⟨itemType, itemId, hmem⟩ := exists_release_of_fixed hfixed hnew hmatch
    exact ⟨itemType, itemId, .inl (.inr hmem)⟩
  · exact ⟨_, _, .inr ((mem_resourceRelationshipOperations hresources).mpr
      (.inr ⟨resource, hpresent, hhandled, .inr ⟨hdropped, assignment, hassignment, rfl⟩⟩))⟩

/-- Every resource that is renamed has its operation. -/
theorem mem_rename {resource renamed : HostResource} (hpresent : resource ∈ hostResources current)
    (hhandled : handled rules current next resource = false)
    (hoccupied : resourceAssignments project link.hostKey resource ≠ [])
    (hbecomes : successor next resource = some renamed) (hkey : renamed.key ≠ resource.key) :
    renameOperation project link resource renamed ∈ planned := by
  obtain ⟨ports, adapters, fixed, resources, -, -, -, hresources, rfl⟩ := plannedOperations_eq_ok h
  exact mem_append_right _ ((mem_resourceRelationshipOperations hresources).mpr
    (.inr ⟨resource, hpresent, hhandled, .inl ⟨hoccupied, renamed, hbecomes, hkey, rfl⟩⟩))

theorem mem_migrate {migration : Wlan.Migration}
    (hready : Wlan.planWlanResourceMigration rules current.host next.host = .ready migration) :
    migrationOperation project link migration ∈ planned := by
  obtain ⟨ports, adapters, fixed, resources, -, -, -, hresources, rfl⟩ := plannedOperations_eq_ok h
  exact mem_append_right _ ((mem_resourceRelationshipOperations hresources).mpr
    (.inl ⟨migration, hready, rfl⟩))

end HomelabInventory.CatalogResolution
