import HomelabInventory.ResolutionPlans

/-!
# What applying a resolution plan does

A plan can be applied, and does what it says, exactly when every assignment it moves is
recorded under the resource that is renamed and is not also released, and the cables it
takes off a power adapter name the adapter by its own key.
-/

namespace HomelabInventory.CatalogResolution

open List

open Compatibility (TextRules)

/-! ## One operation for each key -/

/-- Adding operations of new keys adds some of them, each key once. -/
theorem foldl_keepFirst (operations kept : List Operation) (hkept : (kept.map Operation.key).Nodup) :
    ∃ added, operations.foldl (fun kept operation =>
        if (kept.map Operation.key).contains operation.key then kept else kept ++ [operation]) kept
          = kept ++ added ∧ added.Sublist operations ∧
      ((kept ++ added).map Operation.key).Nodup ∧
      ∀ operation, operation ∈ added ↔ operation.key ∉ kept.map Operation.key ∧
        operations.find? (fun other => other.key == operation.key) = some operation := by
  induction operations generalizing kept with
  | nil => exact ⟨[], by simp, by simp, by simpa using hkept, by simp⟩
  | cons first rest ih =>
    rw [foldl_cons]
    by_cases hseen : first.key ∈ kept.map Operation.key
    · rw [if_pos (by simpa using hseen)]
      obtain ⟨added, heq, hsub, hnodup, hmem⟩ := ih kept hkept
      refine ⟨added, heq, hsub.trans (sublist_cons_self first rest), hnodup, ?_⟩
      intro operation
      rw [hmem]
      refine and_congr_right fun hnew => ?_
      have hne : (first.key == operation.key) = false := by
        simp only [beq_eq_false_iff_ne]
        exact fun h => hnew (h ▸ hseen)
      rw [find?_cons, hne]
    · rw [if_neg (by simpa using hseen)]
      have hnext : ((kept ++ [first]).map Operation.key).Nodup := by
        rw [map_append, map_singleton]
        exact nodup_append.mpr ⟨hkept, nodup_singleton _, by
          intro a ha b hb
          rw [mem_singleton.mp hb]
          exact fun h => hseen (h ▸ ha)⟩
      obtain ⟨added, heq, hsub, hnodup, hmem⟩ := ih (kept ++ [first]) hnext
      refine ⟨first :: added, ?_, hsub.cons_cons first, ?_, ?_⟩
      · rw [heq, append_assoc, singleton_append]
      · simpa using hnodup
      · intro operation
        rw [mem_cons, hmem, map_append, mem_append, map_singleton,
          mem_singleton, find?_cons]
        by_cases hkey : first.key = operation.key
        · have htrue : (first.key == operation.key) = true := by simpa using hkey
          rw [htrue]
          constructor
          · rintro (rfl | ⟨hnew, -⟩)
            · exact ⟨hseen, rfl⟩
            · exact absurd (.inr hkey.symm) hnew
          · rintro ⟨-, h⟩
            exact .inl (Option.some.inj h).symm
        · have hfalse : (first.key == operation.key) = false := by simpa using hkey
          rw [hfalse]
          constructor
          · rintro (rfl | ⟨hnew, hfound⟩)
            · exact absurd rfl hkey
            · exact ⟨fun h => hnew (.inl h), hfound⟩
          · rintro ⟨hnew, hfound⟩
            exact .inr ⟨fun h => h.elim hnew fun h => hkey h.symm, hfound⟩

/-- The operations that are kept, in their order. -/
theorem deduplicateOperations_sublist (operations : List Operation) :
    (deduplicateOperations operations).Sublist operations := by
  obtain ⟨added, heq, hsub, -, -⟩ := foldl_keepFirst operations [] nodup_nil
  rw [deduplicateOperations, heq]
  exact hsub

/-- No two operations that are kept have the same key. -/
theorem nodup_deduplicateOperations (operations : List Operation) :
    ((deduplicateOperations operations).map Operation.key).Nodup := by
  obtain ⟨added, heq, -, hnodup, -⟩ := foldl_keepFirst operations [] nodup_nil
  rw [deduplicateOperations, heq]
  exact hnodup

variable {first operation second : Operation}
variable {operations planned : List Operation}

/-- **The first operation of each key is kept.** -/
theorem mem_deduplicateOperations :
    operation ∈ deduplicateOperations operations ↔
      operations.find? (fun other => other.key == operation.key) = some operation := by
  obtain ⟨added, heq, -, -, hmem⟩ := foldl_keepFirst operations [] nodup_nil
  rw [deduplicateOperations, heq, nil_append, hmem]
  simp

/-- Every operation has one of its key that is kept. -/
theorem exists_kept (h : operation ∈ operations) :
    ∃ kept ∈ deduplicateOperations operations, kept.key = operation.key ∧ kept ∈ operations := by
  obtain ⟨kept, hkept⟩ : ∃ kept,
      operations.find? (fun other => other.key == operation.key) = some kept := by
    rw [← Option.isSome_iff_exists, find?_isSome]
    exact ⟨operation, h, by simp⟩
  have hkey : kept.key = operation.key := by simpa using find?_some hkept
  refine ⟨kept, ?_, hkey, mem_of_find?_eq_some hkept⟩
  rw [mem_deduplicateOperations, hkey]
  exact hkept

/-! ## The order of the operations -/

/-- The operation renames a resource. -/
def Operation.isRename : Operation → Bool
  | .remapResourceKey _ _ _ _ _ => true
  | _ => false

/-- The operation migrates a resource. -/
def Operation.isMigration : Operation → Bool
  | .reclassifyResource _ _ _ => true
  | _ => false

variable {rules : TextRules} {current next : CatalogItem} {project : Project} {link : Link}

/-- Cable ends and fixed components rename no resource. -/
theorem isRename_leading {ports adapters fixed : List Operation}
    (hports : portRemapOperations rules current next project link link.hostKey = .ok ports)
    (hadapters : powerAdapterOperations current next project link link.hostKey = .ok adapters)
    (hfixed : fixedComponentOperations rules current next project link.hostKey = .ok fixed)
    (hmem : operation ∈ ports ++ adapters ++ fixed) : operation.isRename = false := by
  simp only [mem_append] at hmem
  rcases hmem with (hmem | hmem) | hmem
  · obtain ⟨connection, -, role, hop⟩ := (mem_portRemapOperations hports).mp hmem
    simp only [portRemapOperation] at hop
    split at hop
    · cases hop
    · split at hop
      · cases hop
      · split at hop
        · cases hop
        · split at hop <;> cases hop
          rfl
  · obtain ⟨-, assignment, -, hcase⟩ := (mem_powerAdapterOperations hadapters).mp hmem
    rcases hcase with ⟨target, connection, role, -, -, hop⟩ | rfl
    · obtain ⟨-, -, rfl⟩ := mem_adapterOperation.mp hop
      rfl
    · rfl
  · obtain ⟨component, -, hop⟩ := (mem_fixedComponentOperations hfixed).mp hmem
    obtain ⟨assignment, itemType, itemId, -, rfl⟩ := fixedComponentOperation_eq hop
    rfl

variable {other resource : HostResource}

/-- What is planned for one resource is no migration. -/
theorem isMigration_resourceOperations {index : List ((ResourceType × ℤ) × HostResource)}
    (hindex : indexResources (hostResources next) = .ok index)
    (h : resourceOperations project link.hostKey (hostResources next) index resource
      = .ok operations) (hmem : operation ∈ operations) :
    operation.isMigration = false := by
  rcases (mem_resourceOperations hindex h).mp hmem with
    ⟨-, renamed, -, -, rfl⟩ | ⟨-, assignment, -, rfl⟩
  · rfl
  · rfl

/-- The migration is planned before any resource is renamed. -/
theorem plannedOperations_order
    (h : plannedOperations rules current next project link = .ok planned) :
    ∃ front back, planned = front ++ back ∧
      (∀ operation ∈ front, operation.isRename = false) ∧
      ∀ operation ∈ back, operation.isMigration = false := by
  obtain ⟨ports, adapters, fixed, resources, hports, hadapters, hfixed, hresources, rfl⟩ :=
    plannedOperations_eq_ok h
  simp only [resourceRelationshipOperations] at hresources
  split at hresources
  · rw [pure_eq_ok] at hresources
    subst hresources
    exact ⟨ports ++ adapters ++ fixed, [], rfl, fun _ => isRename_leading hports hadapters hfixed,
      by simp⟩
  · obtain ⟨index, hindex, hresources⟩ := bind_eq_ok.mp hresources
    obtain ⟨migrated, hmigrated, hresources⟩ := bind_eq_ok.mp hresources
    obtain ⟨collected, hcollected, hresources⟩ := bind_eq_ok.mp hresources
    rw [pure_eq_ok] at hresources
    subst hresources
    refine ⟨ports ++ adapters ++ fixed ++ migrated, collected.flatten, ?_, ?_, ?_⟩
    · rw [append_assoc _ migrated]
    · intro operation hmem
      rcases mem_append.mp hmem with hmem | hmem
      · exact isRename_leading hports hadapters hfixed hmem
      · generalize Wlan.planWlanResourceMigration rules current.host next.host = plan
          at hmigrated
        cases plan with
        | none =>
          cases hmigrated
          cases hmem
        | ambiguous reason =>
          simp only [migrationOperations] at hmigrated
          split at hmigrated <;> cases hmigrated
          cases hmem
        | ready migration =>
          obtain ⟨_, -, hmigrated⟩ := bind_eq_ok.mp hmigrated
          rw [pure_eq_ok] at hmigrated
          subst hmigrated
          rw [mem_singleton] at hmem
          subst hmem
          rfl
    · intro operation hmem
      obtain ⟨operations, hoperations, hmem⟩ := mem_flatten.mp hmem
      obtain ⟨resource, -, hrun⟩ := (mem_of_mapM hcollected).mp hoperations
      exact isMigration_resourceOperations hindex hrun hmem

variable {migration : Wlan.Migration}

/-- The operations of a migration that are planned are one. -/
theorem eq_migrationOperation
    (hready : Wlan.planWlanResourceMigration rules current.host next.host = .ready migration)
    (hw : Warranted rules current next project link operation)
    (hmigration : operation.isMigration = true) :
    operation = migrationOperation project link migration := by
  cases hw with
  | port => cases hmigration
  | adapter => cases hmigration
  | release => cases hmigration
  | migrate hother =>
    rw [hready] at hother
    cases hother
    rfl
  | rename => cases hmigration

/-- An operation about a resource renames it or migrates it. -/
theorem Warranted.resource_cases (hw : Warranted rules current next project link operation)
    {resourceType : ResourceType} {id : Option ℤ} {rest : String}
    (hkey : operation.key = .resource resourceType id rest) :
    operation.isRename = true ∨ operation.isMigration = true := by
  cases hw with
  | port => cases hkey
  | adapter => cases hkey
  | release => cases hkey
  | migrate => exact .inr rfl
  | rename => exact .inl rfl

theorem migrationOperation_kept
    (h : plannedOperations rules current next project link = .ok planned)
    (hready : Wlan.planWlanResourceMigration rules current.host next.host = .ready migration) :
    migrationOperation project link migration ∈ deduplicateOperations planned := by
  obtain ⟨front, back, rfl, hfront, hback⟩ := plannedOperations_order h
  have hmem := mem_migrate h hready
  have hinFront : migrationOperation project link migration ∈ front := by
    rcases mem_append.mp hmem with hmem | hmem
    · exact hmem
    · exact absurd (hback _ hmem) Bool.noConfusion
  rw [mem_deduplicateOperations, find?_append]
  obtain ⟨first, hfirst⟩ : ∃ first, front.find? (fun other =>
      other.key == (migrationOperation project link migration).key) = some first := by
    rw [← Option.isSome_iff_exists, find?_isSome]
    exact ⟨_, hinFront, by simp⟩
  have hin := mem_of_find?_eq_some hfirst
  have hkey : first.key = (migrationOperation project link migration).key := by
    simpa using find?_some hfirst
  have hw := warranted_of_mem h (mem_append_left back hin)
  rw [hfirst, Option.some_or]
  -- what comes first with this key renames nothing, so it is the migration
  rcases hw.resource_cases hkey with hrename | hmigration
  · rw [hfront first hin] at hrename
    cases hrename
  · rw [eq_migrationOperation hready hw hmigration]

/-! ## The edits at a place -/

/-- The edits of operations at a place. -/
def editsAt (operations : List Operation) (place : Place) : List Edit :=
  operations.flatMap fun operation => operation.edits.filter fun edit => edit.place = place

theorem filter_edits (operations : List Operation) (place : Place) :
    (operations.flatMap Operation.edits).filter (fun edit => edit.place = place)
      = editsAt operations place := by
  rw [editsAt, filter_flatMap]

variable {edit : Edit}

theorem mem_editsAt {place : Place} :
    edit ∈ editsAt operations place ↔
      ∃ operation ∈ operations, edit ∈ operation.edits ∧ edit.place = place := by
  simp [editsAt]

/-- A list without repetition has an element at most once. -/
theorem length_filter_le_one {α : Type} [DecidableEq α] {l : List α} (hl : l.Nodup) (a : α) :
    (l.filter fun b => b = a).length ≤ 1 := by
  have hcount : (l.filter fun b => b = a).length = l.count a := by
    rw [List.count, countP_eq_length_filter]
    congr 1
  rw [hcount]
  exact nodup_iff_count_le_one.mp hl a

theorem length_moves_le_one {ids : List ℕ} (hids : ids.Nodup) (source target : ResourceRef)
    (migration : String) (place : Place) :
    ((ids.map (Edit.move source target migration)).filter
      fun edit => edit.place = place).length ≤ 1 := by
  rw [filter_map, length_map]
  cases place with
  | assignment id =>
    have hsame : (ids.filter ((fun edit : Edit => decide (edit.place = .assignment id)) ∘
        Edit.move source target migration)) = ids.filter fun other => other = id :=
      filter_congr fun other _ => by simp [Edit.place]
    rw [hsame]
    exact length_filter_le_one hids id
  | cableEnd connectionId role =>
    have hnone : (ids.filter ((fun edit : Edit => decide (edit.place = .cableEnd connectionId role))
        ∘ Edit.move source target migration)) = [] :=
      filter_eq_nil_iff.mpr fun other _ => by simp [Edit.place]
    rw [hnone]
    exact Nat.zero_le 1

theorem nodup_ids_filter (hproject : project.Keyed) (p : Assignment → Bool) :
    ((project.assignments.filter p).map Assignment.id).Nodup :=
  hproject.assignments.sublist (filter_sublist.map _)

theorem nodup_sortedIds (hproject : project.Keyed) (resource : HostResource) :
    (sortedIds (resourceAssignments project link.hostKey resource)).Nodup :=
  (mergeSort_perm _ _).nodup_iff.mpr (nodup_ids_filter hproject _)

/-- An operation edits a place at most once. -/
theorem Warranted.length_edits_le_one (hproject : project.Keyed)
    (hw : Warranted rules current next project link operation) (place : Place) :
    (operation.edits.filter fun edit => edit.place = place).length ≤ 1 := by
  cases hw with
  | port => exact (length_filter_le _ _).trans (Nat.le_refl 1)
  | adapter => exact (length_filter_le _ _).trans (Nat.le_refl 1)
  | release => exact (length_filter_le _ _).trans (Nat.le_refl 1)
  | migrate => exact length_moves_le_one (nodup_sortedIds hproject _) _ _ _ place
  | rename => exact length_moves_le_one (nodup_sortedIds hproject _) _ _ _ place

/-! ## The condition -/

/-- The resource of an assignment, when it is recorded in full. -/
def Assignment.location? (assignment : Assignment) : Option (ResourceType × Option ℤ × String) :=
  assignment.allocation.bind fun allocation =>
    allocation.resourceKey.map fun key => (allocation.resourceType, allocation.groupId, key)

/-- The resource that an operation moves assignments from. -/
def Operation.from? : Operation → Option (ResourceType × Option ℤ × String)
  | .remapResourceKey resourceType resourceId fromKey _ _ => some (resourceType, resourceId, fromKey)
  | .reclassifyResource source _ _ => some (source.resourceType, source.resourceId, source.key)
  | _ => none

/-- The resource that an operation moves assignments to. -/
def Operation.to? : Operation → Option ResourceRef
  | .remapResourceKey resourceType resourceId _ toKey _ =>
    some ⟨resourceType, resourceId, toKey, none⟩
  | .reclassifyResource _ target _ => some target
  | _ => none

/-- The kind, id and key of a resource. -/
def HostResource.location (resource : HostResource) : ResourceType × Option ℤ × String :=
  (resource.resourceType, resource.id, resource.key)

theorem Assignment.isAt_iff {assignment : Assignment} {resourceType : ResourceType}
    {resourceId : Option ℤ} {key : String} :
    assignment.isAt resourceType resourceId key = true ↔
      assignment.location? = some (resourceType, resourceId, key) := by
  simp only [Assignment.isAt, Assignment.location?]
  cases assignment.allocation with
  | none => simp
  | some allocation =>
    obtain ⟨type, key', group, positions⟩ := allocation
    cases key' with
    | none => simp
    | some key' => simp [and_comm, and_assoc, and_left_comm]

/-- The assignments a plan moves are recorded under the resource they move from and are
not released, and the cables it takes off a power adapter name it by its own key. -/
structure Settled (rules : TextRules) (current next : CatalogItem) (project : Project)
    (link : Link) : Prop where
  /-- the assignments to a renamed resource; a rename that reads like the migration is
  not planned -/
  renamed : ∀ resource ∈ hostResources current, handled rules current next resource = false →
    ∀ renamed, successor next resource = some renamed → renamed.key ≠ resource.key →
    (∀ migration, Wlan.planWlanResourceMigration rules current.host next.host
        = .ready migration →
      (renameOperation project link resource renamed).key
        ≠ (migrationOperation project link migration).key) →
    ∀ assignment ∈ resourceAssignments project link.hostKey resource,
      assignment.location? = some resource.location ∧
        ¬Released rules current next project link assignment
  /-- the assignments to the slot that migrates -/
  migrated : ∀ migration, Wlan.planWlanResourceMigration rules current.host next.host
      = .ready migration →
    ∀ assignment ∈ resourceAssignments project link.hostKey (migratedSource migration),
      assignment.location? = some (migratedSource migration).location ∧
        ¬Released rules current next project link assignment
  /-- the cables of an adapter that is replaced -/
  adapters : losesAdapter current next link = true →
    ∀ assignment ∈ assignedAdapters project link.hostKey, ∀ connection ∈ project.connections,
    ∀ role, (connection.endpoint role).itemId = link.hostKey →
    (connection.endpoint role).hostedItemId = some assignment.itemId →
    ∀ item, project.item? assignment.itemId = some item →
      assignment.itemId = runtimeKey "powerAdapter" item.id

/-! ## What an edit of an assignment comes from -/

/-- The reason for an edit of an assignment. -/
inductive EditReason (rules : TextRules) (current next : CatalogItem) (project : Project)
    (link : Link) (assignment : Assignment) : Operation → Edit → Prop where
  | release {itemType : String} {itemId : Option ℕ}
      (released : Released rules current next project link assignment) :
      EditReason rules current next project link assignment
        (.unassignItem assignment.id itemType itemId) (.release assignment.id)
  | rename {resource renamed : HostResource}
      (present : resource ∈ hostResources current)
      (unhandled : handled rules current next resource = false)
      (becomes : successor next resource = some renamed)
      (renames : renamed.key ≠ resource.key)
      (assigned : assignment ∈ resourceAssignments project link.hostKey resource) :
      EditReason rules current next project link assignment
        (renameOperation project link resource renamed)
        (.move ⟨resource.resourceType, resource.id, resource.key, none⟩
          ⟨resource.resourceType, resource.id, renamed.key, none⟩ "remap" assignment.id)
  | migrate {migration : Wlan.Migration}
      (ready : Wlan.planWlanResourceMigration rules current.host next.host = .ready migration)
      (assigned : assignment ∈
        resourceAssignments project link.hostKey (migratedSource migration)) :
      EditReason rules current next project link assignment
        (migrationOperation project link migration)
        (.move ⟨.expansion, migration.source.id, migration.source.key, migration.source.label⟩
          ⟨.optionalModule, migration.source.id, migration.destination.key,
            migration.destination.label⟩ "migration" assignment.id)

variable {id : ℕ}

theorem mem_sortedIds :
    id ∈ sortedIds (resourceAssignments project link.hostKey resource) ↔
      ∃ assignment ∈ resourceAssignments project link.hostKey resource, assignment.id = id := by
  simp [sortedIds, mem_mergeSort]

/-- Every edit of an assignment has its reason. -/
theorem Warranted.editReason (hw : Warranted rules current next project link operation)
    (hedit : edit ∈ operation.edits) (hplace : edit.place = .assignment id) :
    ∃ assignment ∈ project.assignments, assignment.id = id ∧
      EditReason rules current next project link assignment operation edit := by
  cases hw with
  | port =>
    rw [mem_singleton.mp hedit] at hplace
    cases hplace
  | adapter =>
    rw [mem_singleton.mp hedit] at hplace
    cases hplace
  | @release assignment itemType itemId hassigned hreleased =>
    obtain rfl := mem_singleton.mp hedit
    cases hplace
    exact ⟨assignment, hassigned, rfl, .release hreleased⟩
  | @migrate migration hready =>
    obtain ⟨other, hother, rfl⟩ := mem_map.mp hedit
    cases hplace
    obtain ⟨assignment, hassigned, rfl⟩ := mem_sortedIds.mp hother
    exact ⟨assignment, mem_of_mem_filter hassigned, rfl, .migrate hready hassigned⟩
  | @rename resource renamed hpresent hunhandled hoccupied hbecomes hrenames =>
    obtain ⟨other, hother, rfl⟩ := mem_map.mp hedit
    cases hplace
    obtain ⟨assignment, hassigned, rfl⟩ := mem_sortedIds.mp hother
    exact ⟨assignment, mem_of_mem_filter hassigned, rfl,
      .rename hpresent hunhandled hbecomes hrenames hassigned⟩

/-- The successor of a resource depends on its kind and id. -/
theorem successor_of_identity (htype : resource.resourceType = other.resourceType)
    (hid : resource.id = other.id) : successor next resource = successor next other := by
  simp only [successor, resourceIdentity, htype, hid]

/-- The successor of a resource depends on its kind and id. -/
theorem successor_congr (h : resource.location = other.location) :
    successor next resource = successor next other := by
  simp only [HostResource.location, Prod.mk.injEq] at h
  exact successor_of_identity h.1 h.2.1

theorem mark_congr (h : resource.location = other.location) : resource.mark = other.mark := by
  obtain ⟨⟨id, key, label, count, family, kinds⟩, type⟩ := resource
  obtain ⟨⟨id', key', label', count', family', kinds'⟩, type'⟩ := other
  cases h
  rfl

/-- The slot that migrates is handled, whatever its other data. -/
theorem handled_of_location
    (hready : Wlan.planWlanResourceMigration rules current.host next.host = .ready migration)
    (h : resource.location = (migratedSource migration).location) :
    handled rules current next resource = true := by
  simp [handled, hready, handledResources, mark_congr h]

/-- **A resource is renamed or migrated by one operation.** -/
theorem key_eq_of_from (hfirst : Warranted rules current next project link first)
    (hsecond : Warranted rules current next project link second)
    {location : ResourceType × Option ℤ × String} (h : first.from? = some location)
    (h' : second.from? = some location) : first.key = second.key := by
  cases hfirst with
  | port => cases h
  | adapter => cases h
  | release => cases h
  | @migrate migration hready =>
    cases hsecond with
    | port => cases h'
    | adapter => cases h'
    | release => cases h'
    | @migrate other hother =>
      rw [hready] at hother
      cases hother
      rfl
    | @rename resource renamed hpresent hunhandled hoccupied hbecomes hrenames =>
      have hlocation : resource.location = (migratedSource migration).location :=
        Option.some.inj (h'.trans h.symm)
      rw [handled_of_location hready hlocation] at hunhandled
      cases hunhandled
  | @rename resource renamed hpresent hunhandled hoccupied hbecomes hrenames =>
    cases hsecond with
    | port => cases h'
    | adapter => cases h'
    | release => cases h'
    | @migrate migration hready =>
      have hlocation : resource.location = (migratedSource migration).location :=
        Option.some.inj (h.trans h'.symm)
      rw [handled_of_location hready hlocation] at hunhandled
      cases hunhandled
    | @rename other becomes hpresent' hunhandled' hoccupied' hbecomes' hrenames' =>
      have hlocation : resource.location = other.location := Option.some.inj (h.trans h'.symm)
      rw [successor_congr hlocation, hbecomes'] at hbecomes
      obtain rfl := Option.some.inj hbecomes
      simp only [HostResource.location, Prod.mk.injEq] at hlocation
      obtain ⟨htype, hid, hkey⟩ := hlocation
      simp only [renameOperation, Operation.key, htype, hid, hkey]

/-- What an edit of a cable end comes from, and that it changes the end. -/
theorem Warranted.rewire (hw : Warranted rules current next project link operation)
    (hedit : edit ∈ operation.edits) {role : EndpointRole}
    (hplace : edit.place = .cableEnd id role) :
    ∃ connection ∈ project.connections, connection.id = id ∧ ∃ source target,
      operation = .moveConnectionEndpoint connection.id role source target ∧
      edit = .rewire connection.id role source target ∧
      target.endpoint ≠ connection.endpoint role ∧
      (Settled rules current next project link →
        (connection.endpoint role).isAt source = true) := by
  cases hw with
  | @port connection role' currentPort target hconnected hhost hunhosted hfound hbecomes hmoves =>
    obtain rfl := mem_singleton.mp hedit
    cases hplace
    refine ⟨connection, hconnected, rfl, _, _, rfl, rfl, ?_, ?_⟩
    · exact fun h => hmoves (congrArg Endpoint.portId h)
    · intro _
      simp only [Link.hostKey] at hhost
      simp [Endpoint.isAt, hhost]
  | @adapter connection role' assignment target hloses hassigned hinlet hconnected hhost hhosted =>
    obtain rfl := mem_singleton.mp hedit
    cases hplace
    refine ⟨connection, hconnected, rfl, _, _, rfl, rfl, ?_, ?_⟩
    · intro h
      have hnone := congrArg Endpoint.hostedItemId h
      rw [hhosted] at hnone
      cases hnone
    · intro hsettled
      have hmem : assignment ∈ assignedAdapters project link.hostKey := by
        rw [hassigned]
        exact mem_singleton.mpr rfl
      have hnamed := hsettled.adapters hloses assignment hmem connection hconnected role hhost
        hhosted
      simp only [Link.hostKey] at hhost
      cases hitem : project.item? assignment.itemId with
      | none => simp [Endpoint.isAt, hhost]
      | some item => simp [Endpoint.isAt, hhost, hhosted, hnamed item hitem]
  | release =>
    obtain rfl := mem_singleton.mp hedit
    cases hplace
  | migrate =>
    obtain ⟨other, -, rfl⟩ := mem_map.mp hedit
    cases hplace
  | rename =>
    obtain ⟨other, -, rfl⟩ := mem_map.mp hedit
    cases hplace

/-! ## A settled plan -/

variable {planned : List Operation}

theorem warranted_of_kept (hplanned : plannedOperations rules current next project link
    = .ok planned) (hmem : operation ∈ deduplicateOperations planned) :
    Warranted rules current next project link operation :=
  warranted_of_mem hplanned ((deduplicateOperations_sublist planned).subset hmem)

/-- Two operations of a plan with one key are the same. -/
theorem eq_of_key (hfirst : first ∈ deduplicateOperations planned)
    (hsecond : second ∈ deduplicateOperations planned) (h : first.key = second.key) :
    first = second :=
  inj_on_of_nodup_map (nodup_deduplicateOperations planned) hfirst hsecond h

/-- In a settled plan an edit releases a component that is to be released, or moves one
that is not from where it is recorded. -/
theorem Settled.edit_cases (hsettled : Settled rules current next project link)
    (hplanned : plannedOperations rules current next project link = .ok planned)
    (hmem : operation ∈ deduplicateOperations planned) {assignment : Assignment}
    (h : EditReason rules current next project link assignment operation edit) :
    (edit = .release assignment.id ∧ operation.key = .assignment assignment.id ∧
      Released rules current next project link assignment) ∨
    (∃ source target migration, edit = .move source target migration assignment.id ∧
      assignment.location? = operation.from? ∧
      operation.from? = some (source.resourceType, source.resourceId, source.key) ∧
      operation.to? = some target ∧
      ¬(target.resourceType = source.resourceType ∧ target.key = source.key) ∧
      ¬Released rules current next project link assignment) := by
  cases h with
  | release hreleased => exact .inl ⟨rfl, rfl, hreleased⟩
  | @rename resource renamed hpresent hunhandled hbecomes hrenames hassigned =>
    have hdistinct : ∀ migration, Wlan.planWlanResourceMigration rules current.host next.host
        = .ready migration →
        (renameOperation project link resource renamed).key
          ≠ (migrationOperation project link migration).key := by
      intro migration hready hkey
      cases eq_of_key hmem (migrationOperation_kept hplanned hready) hkey
    obtain ⟨hlocation, hkept⟩ := hsettled.renamed resource hpresent hunhandled renamed hbecomes
      hrenames hdistinct assignment hassigned
    exact .inr ⟨_, _, _, rfl, hlocation, rfl, rfl, (fun h => hrenames h.2), hkept⟩
  | @migrate migration hready hassigned =>
    obtain ⟨hlocation, hkept⟩ := hsettled.migrated migration hready assignment hassigned
    exact .inr ⟨_, _, _, rfl, hlocation, rfl, rfl, (fun h => nomatch h.1), hkept⟩

/-- A list of operations with distinct keys edits a place once when no two of its
operations that do have different keys. -/
theorem length_editsAt_le_one (hproject : project.Keyed)
    (hplanned : plannedOperations rules current next project link = .ok planned) {place : Place}
    (hkey : ∀ first ∈ deduplicateOperations planned, ∀ second ∈ deduplicateOperations planned,
      ∀ edit ∈ first.edits, edit.place = place → ∀ edit' ∈ second.edits, edit'.place = place →
      first.key = second.key) :
    (editsAt (deduplicateOperations planned) place).length ≤ 1 := by
  refine length_flatMap_le_one (fun operation hmem =>
    (warranted_of_kept hplanned hmem).length_edits_le_one hproject place) ?_
  have hpairs := pairwise_map.mp
    (nodup_iff_pairwise_ne.mp (nodup_deduplicateOperations planned))
  refine List.Pairwise.imp_of_mem ?_ hpairs
  intro first second hfirst hsecond hkeys
  by_contra hboth
  obtain ⟨hleft, hright⟩ := not_or.mp hboth
  obtain ⟨edit, hin⟩ := exists_mem_of_ne_nil _ hleft
  obtain ⟨edit', hin'⟩ := exists_mem_of_ne_nil _ hright
  obtain ⟨hedit, hat⟩ := mem_filter.mp hin
  obtain ⟨hedit', hat'⟩ := mem_filter.mp hin'
  exact hkeys (hkey first hfirst second hsecond edit hedit (of_decide_eq_true hat) edit' hedit'
    (of_decide_eq_true hat'))

theorem cableEnd_edits_le_one (hproject : project.Keyed)
    (hplanned : plannedOperations rules current next project link = .ok planned)
    (id : ℕ) (role : EndpointRole) :
    (editsAt (deduplicateOperations planned) (.cableEnd id role)).length ≤ 1 := by
  refine length_editsAt_le_one hproject hplanned ?_
  intro first hfirst second hsecond edit hedit hplace edit' hedit' hplace'
  obtain ⟨connection, -, hid, source, target, rfl, -⟩ :=
    (warranted_of_kept hplanned hfirst).rewire hedit hplace
  obtain ⟨connection', -, hid', source', target', rfl, -⟩ :=
    (warranted_of_kept hplanned hsecond).rewire hedit' hplace'
  simp only [Operation.key, hid, hid']

/-- **A settled plan edits no place twice.** -/
theorem Settled.length_editsAt_le_one (hsettled : Settled rules current next project link)
    (hproject : project.Keyed)
    (hplanned : plannedOperations rules current next project link = .ok planned)
    (place : Place) : (editsAt (deduplicateOperations planned) place).length ≤ 1 := by
  cases place with
  | cableEnd id role => exact cableEnd_edits_le_one hproject hplanned id role
  | assignment id =>
    refine CatalogResolution.length_editsAt_le_one hproject hplanned ?_
    intro first hfirst second hsecond edit hedit hplace edit' hedit' hplace'
    have hw := warranted_of_kept hplanned hfirst
    have hw' := warranted_of_kept hplanned hsecond
    obtain ⟨assignment, hassignment, hid, hreason⟩ := hw.editReason hedit hplace
    obtain ⟨other, hother, hid', hreason'⟩ := hw'.editReason hedit' hplace'
    obtain rfl : assignment = other :=
      eq_of_key_eq hproject.assignments hassignment hother (hid.trans hid'.symm)
    rcases hsettled.edit_cases hplanned hfirst hreason with
      ⟨-, hkey, hreleased⟩ | ⟨_, _, _, -, hat, -, -, -, hkept⟩
    · rcases hsettled.edit_cases hplanned hsecond hreason' with
        ⟨-, hkey', -⟩ | ⟨_, _, _, -, -, -, -, -, hkept⟩
      · exact hkey.trans hkey'.symm
      · exact absurd hreleased hkept
    · rcases hsettled.edit_cases hplanned hsecond hreason' with
        ⟨-, -, hreleased⟩ | ⟨_, _, _, -, hat', hfrom', -, -, -⟩
      · exact absurd hreleased hkept
      · exact key_eq_of_from hw hw' ((hat.symm.trans hat').trans hfrom') hfrom'

end HomelabInventory.CatalogResolution
