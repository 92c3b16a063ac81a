import HomelabInventory.ResolutionOutcomes

/-!
# Plans that can be applied

The plan of an update is worked out on the project it is applied to. It still fails, or
leaves an assignment it moves unmoved, when the plan selects assignments more loosely than
its operations check them.
-/

namespace HomelabInventory.CatalogResolution

open List Option

open Compatibility (TextRules)

/-! ## What a plan says -/

/-- The operation releases an assignment. -/
def Operation.releases (operation : Operation) (id : ℕ) : Bool :=
  match operation with
  | .unassignItem assignmentId _ _ => assignmentId == id
  | _ => false

/-- **A plan does what it says**: the cables and the assignments it lists are those that
change, it releases an assignment by one operation, every assignment that it moves is at
the resource it is moved to, and nothing else changes. -/
structure Resolves (project result : Project) (plan : Plan) : Prop where
  items : result.items = project.items
  /-- the cables are the same, in the same order -/
  cables : result.connections.map Connection.id = project.connections.map Connection.id
  /-- the cables listed are those that change -/
  changedCables : ∀ connection ∈ project.connections,
    connection ∈ result.connections ↔
      connection.id ∉ plan.affectedRelationships.connectionIds
  /-- the assignments that are not released are the same, in the same order -/
  assigned : result.assignments.map Assignment.id =
    (project.assignments.map Assignment.id).filter fun id =>
      !plan.operations.any fun operation => operation.releases id
  /-- the assignments listed are those that change -/
  changedAssignments : ∀ assignment ∈ project.assignments,
    assignment ∈ result.assignments ↔
      assignment.id ∉ plan.affectedRelationships.assignmentIds
  /-- an assignment is released once -/
  releasedOnce : ∀ id, (plan.operations.filter fun operation => operation.releases id).length ≤ 1
  /-- an assignment that is moved is at the resource it is moved to -/
  moved : ∀ operation ∈ plan.operations, ∀ target, operation.to? = some target →
    ∀ id ∈ operation.assignmentIds, ∃ assignment ∈ project.assignments, assignment.id = id ∧
      assignment.moveTo target.resourceType target.resourceId target.key ∈ result.assignments

/-! ## Runs of edits and whole tables -/

/-- A part of a list without repetition is what is left of it. -/
theorem eq_filter_of_sublist {part whole : List ℕ} (h : part.Sublist whole)
    (hwhole : whole.Nodup) : part = whole.filter fun a => decide (a ∈ part) := by
  induction h with
  | slnil => rfl
  | @cons part whole a hsub ih =>
    obtain ⟨ha, hrest⟩ := nodup_cons.mp hwhole
    have hnot : a ∉ part := fun hmem => ha (hsub.subset hmem)
    rw [filter_cons_of_neg (by simpa using hnot)]
    exact ih hrest
  | @cons_cons part whole a hsub ih =>
    obtain ⟨ha, hrest⟩ := nodup_cons.mp hwhole
    rw [filter_cons_of_pos (by simp)]
    congr 1
    refine (ih hrest).trans (filter_congr fun b hb => ?_)
    have hne : b ≠ a := fun hba => ha (hba ▸ hb)
    simp [hne]

variable {edit : Edit}

/-- An edit keeps the items, the cables in their order, and the order of the assignments. -/
theorem applyEdit_tables {draft next : Project} (h : applyEdit draft edit = .ok next) :
    next.items = draft.items ∧
      next.connections.map Connection.id = draft.connections.map Connection.id ∧
      (next.assignments.map Assignment.id).Sublist (draft.assignments.map Assignment.id) := by
  cases edit with
  | release id =>
    simp only [applyEdit, unassignItem] at h
    split at h
    · cases h
    · cases h
      exact ⟨rfl, rfl, (spliceOut_sublist _ _ _).map _⟩
  | move source target migration id =>
    simp only [applyEdit, moveAssignment] at h
    split at h
    · cases h
    · split at h
      · cases h
      · cases h
        refine ⟨rfl, rfl, ?_⟩
        rw [map_modifyFirst fun a _ => Assignment.moveTo_id a _ _ _]
  | rewire id role source target =>
    simp only [applyEdit, moveConnectionEndpoint] at h
    split at h
    · cases h
    · split at h
      · cases h
      · cases h
        refine ⟨rfl, ?_, List.Sublist.refl _⟩
        rw [map_modifyFirst fun a _ => Connection.setEndpoint_id a _ _]

/-- A run of edits keeps the items, the cables and the order of the assignments. -/
theorem run_tables {edits : List Edit} {project result : Project}
    (h : edits.foldlM applyEdit project = .ok result) :
    result.items = project.items ∧
      result.connections.map Connection.id = project.connections.map Connection.id ∧
      (result.assignments.map Assignment.id).Sublist (project.assignments.map Assignment.id) := by
  refine foldlM_invariant (P := fun draft : Project => draft.items = project.items ∧
    draft.connections.map Connection.id = project.connections.map Connection.id ∧
    (draft.assignments.map Assignment.id).Sublist (project.assignments.map Assignment.id)) h
    ⟨rfl, rfl, List.Sublist.refl _⟩ ?_
  rintro draft edit - next ⟨hitems, hconnections, hassignments⟩ hstep
  obtain ⟨hi, hc, ha⟩ := applyEdit_tables hstep
  exact ⟨hi.trans hitems, hc.trans hconnections, ha.trans hassignments⟩

variable {assignment : Assignment}
variable {project : Project}

theorem content_assignment (h : project.Keyed) :
    project.content (.assignment assignment.id) = some (.assignment assignment) ↔
      assignment ∈ project.assignments := by
  simp only [Project.content, map_eq_some_iff, Content.assignment.injEq]
  constructor
  · rintro ⟨other, hother, rfl⟩
    exact (lookup_eq_some hother).1
  · intro hmem
    exact ⟨assignment, lookup_of_mem h.assignments hmem, rfl⟩

theorem content_cableEnd (h : project.Keyed) {connection : Connection}
    (hmem : connection ∈ project.connections) (role : EndpointRole) :
    project.content (.cableEnd connection.id role)
      = some (.cableEnd (connection.endpoint role)) := by
  simp only [Project.content, lookup_of_mem h.connections hmem, map_some]

/-- The ids of the assignments of a project are those with something at their place. -/
theorem mem_assignmentIds {project : Project} {id : ℕ} :
    id ∈ project.assignments.map Assignment.id ↔ project.content (.assignment id) ≠ none := by
  simp only [Project.content, ne_eq, map_eq_none_iff, lookup_eq_none, List.mem_map]
  constructor
  · rintro ⟨assignment, hmem, hid⟩ hnone
    exact hnone assignment hmem hid
  · intro h
    by_contra hnot
    exact h fun assignment hmem hid => hnot ⟨assignment, hmem, hid⟩

/-! ## What a run leaves at a place -/

variable {rules : TextRules} {current next : CatalogItem} {project result : Project} {link : Link}
  {planned operations : List Operation}

/-- What a run leaves at a place is what the edits there do. -/
theorem run_editsAt (hproject : project.Keyed)
    (hrun : (operations.flatMap Operation.edits).foldlM applyEdit project = .ok result)
    (place : Place) :
    (editsAt operations place).foldlM (fun content edit => edit.act content)
      (project.content place) = .ok (result.content place) := by
  rw [← filter_edits]
  exact addressed_applyEdit.run_view hproject hrun place

/-- A place without edits keeps what it has. -/
theorem content_of_untouched (hproject : project.Keyed)
    (hrun : (operations.flatMap Operation.edits).foldlM applyEdit project = .ok result)
    {place : Place} (h : editsAt operations place = []) :
    result.content place = project.content place := by
  have hview := run_editsAt hproject hrun place
  rw [h, foldlM_nil, pure_eq_ok] at hview
  exact hview.symm

/-- A place with one edit has what the edit leaves. -/
theorem content_of_edit (hproject : project.Keyed)
    (hrun : (operations.flatMap Operation.edits).foldlM applyEdit project = .ok result)
    {place : Place} (h : editsAt operations place = [edit]) :
    edit.act (project.content place) = .ok (result.content place) := by
  have hview := run_editsAt hproject hrun place
  rw [h, foldlM_cons_eq_ok] at hview
  obtain ⟨content, hact, hrest⟩ := hview
  rw [foldlM_nil, pure_eq_ok] at hrest
  rw [hact, hrest]

/-- A list of at most one element that holds an element is that element. -/
theorem eq_singleton_of_mem {α : Type} {l : List α} (hlen : l.length ≤ 1) {a : α} (h : a ∈ l) :
    l = [a] := by
  match l, hlen, h with
  | [b], _, h => rw [mem_singleton.mp h]

variable {id : ℕ}
variable {source target : ResourceRef}
variable {migration : String}

theorem act_move
    (h : assignment.location? = some (source.resourceType, source.resourceId, source.key)) :
    (Edit.move source target migration id).act (some (.assignment assignment))
      = .ok (some (.assignment
        (assignment.moveTo target.resourceType target.resourceId target.key))) := by
  simp [Edit.act, Assignment.isAt_iff.mpr h]

/-- An assignment that is moved is where it is moved to. -/
theorem location_moveTo {location : ResourceType × Option ℤ × String}
    (h : assignment.location? = some location) (resourceType : ResourceType) (resourceId : Option ℤ)
    (key : String) :
    (assignment.moveTo resourceType resourceId key).location?
      = some (resourceType, resourceId, key) := by
  simp only [Assignment.location?, Assignment.moveTo] at h ⊢
  cases hallocation : assignment.allocation with
  | none => simp [hallocation] at h
  | some allocation => rfl

/-- An assignment to a resource is of its kind. -/
theorem resourceType_of_assigned {hostKey : String} {resource : HostResource}
    {location : ResourceType × Option ℤ × String}
    (h : assignment ∈ resourceAssignments project hostKey resource)
    (hat : assignment.location? = some location) : location.1 = resource.resourceType := by
  have htest := (mem_filter.mp h).2
  simp only [Assignment.location?] at hat
  cases hallocation : assignment.allocation with
  | none => simp [hallocation] at hat
  | some allocation =>
    simp only [hallocation, Bool.and_eq_true, beq_iff_eq] at htest
    rw [hallocation] at hat
    simp only [bind_some, map_eq_some_iff] at hat
    obtain ⟨key, -, rfl⟩ := hat
    exact htest.2.1

/-- An assignment that is moved is another one. -/
theorem moveTo_ne
    (h : assignment.location? = some (source.resourceType, source.resourceId, source.key))
    (hne : ¬(target.resourceType = source.resourceType ∧ target.key = source.key)) :
    assignment.moveTo target.resourceType target.resourceId target.key ≠ assignment := by
  intro hsame
  have hlocation := location_moveTo h target.resourceType target.resourceId target.key
  rw [hsame, h] at hlocation
  simp only [Option.some.injEq, Prod.mk.injEq] at hlocation
  exact hne ⟨hlocation.1.symm, hlocation.2.2.symm⟩

/-! ## Settled plans -/

variable {operation : Operation}

/-- The edit of an assignment in a settled plan. -/
theorem Settled.edit_assignment (hsettled : Settled rules current next project link)
    (hproject : project.Keyed)
    (hplanned : plannedOperations rules current next project link = .ok planned)
    (hassignment : assignment ∈ project.assignments)
    (hmem : operation ∈ deduplicateOperations planned) (hedit : edit ∈ operation.edits)
    (hplace : edit.place = .assignment assignment.id) :
    EditReason rules current next project link assignment operation edit ∧
      editsAt (deduplicateOperations planned) (.assignment assignment.id) = [edit] := by
  obtain ⟨other, hother, hid, hreason⟩ := (warranted_of_kept hplanned hmem).editReason hedit hplace
  obtain rfl : other = assignment := eq_of_key_eq hproject.assignments hother hassignment hid
  refine ⟨hreason, eq_singleton_of_mem (hsettled.length_editsAt_le_one hproject hplanned _) ?_⟩
  exact mem_editsAt.mpr ⟨operation, hmem, hedit, hplace⟩

/-- **A settled plan can be applied.** -/
theorem Settled.runs (hsettled : Settled rules current next project link) (hproject : project.Keyed)
    (hplanned : plannedOperations rules current next project link = .ok planned) :
    ∃ result, ((deduplicateOperations planned).flatMap Operation.edits).foldlM applyEdit project
      = .ok result := by
  refine addressed_applyEdit.run_total hproject fun place => ?_
  rw [filter_edits]
  by_cases hnone : editsAt (deduplicateOperations planned) place = []
  · exact ⟨project.content place, by rw [hnone]; rfl⟩
  · obtain ⟨edit, hin⟩ := exists_mem_of_ne_nil _ hnone
    have hone := eq_singleton_of_mem (hsettled.length_editsAt_le_one hproject hplanned place) hin
    obtain ⟨operation, hmem, hedit, hplace⟩ := mem_editsAt.mp hin
    have hw := warranted_of_kept hplanned hmem
    rw [hone]
    suffices hact : ∃ content, edit.act (project.content place) = .ok content by
      obtain ⟨content, hact⟩ := hact
      exact ⟨content, foldlM_cons_eq_ok.mpr ⟨content, hact, rfl⟩⟩
    cases place with
    | cableEnd id role =>
      obtain ⟨connection, hconnection, rfl, source, target, -, rfl, -, hat⟩ :=
        hw.rewire hedit hplace
      rw [content_cableEnd hproject hconnection]
      refine ⟨some (.cableEnd target.endpoint), ?_⟩
      simp [Edit.act, hat hsettled]
    | assignment id =>
      obtain ⟨assignment, hassignment, rfl, hreason⟩ := hw.editReason hedit hplace
      rw [(content_assignment hproject).mpr hassignment]
      rcases hsettled.edit_cases hplanned hmem hreason with
        ⟨rfl, -, -⟩ | ⟨source, target, migration, rfl, hat, hfrom, -, -, -⟩
      · exact ⟨none, rfl⟩
      · exact ⟨_, act_move (hat.trans hfrom)⟩

theorem mem_assignmentIds_iff :
    id ∈ operation.assignmentIds ↔ ∃ edit ∈ operation.edits, edit.place = .assignment id := by
  cases operation with
  | unassignItem => simp [Operation.assignmentIds, Operation.edits, Edit.place, eq_comm]
  | remapResourceKey => simp [Operation.assignmentIds, Operation.edits, Edit.place]
  | reclassifyResource => simp [Operation.assignmentIds, Operation.edits, Edit.place]
  | moveConnectionEndpoint => simp [Operation.assignmentIds, Operation.edits, Edit.place]

theorem connectionId?_eq_some :
    operation.connectionId? = some id ↔
      ∃ edit ∈ operation.edits, ∃ role, edit.place = .cableEnd id role := by
  cases operation with
  | unassignItem => simp [Operation.connectionId?, Operation.edits, Edit.place]
  | remapResourceKey => simp [Operation.connectionId?, Operation.edits, Edit.place]
  | reclassifyResource => simp [Operation.connectionId?, Operation.edits, Edit.place]
  | moveConnectionEndpoint => simp [Operation.connectionId?, Operation.edits, Edit.place]

/-- The assignments a plan lists have an edit. -/
theorem mem_affectedAssignments :
    id ∈ InsertionMap.distinct (operations.flatMap Operation.assignmentIds) ↔
      editsAt operations (.assignment id) ≠ [] := by
  rw [InsertionMap.mem_distinct, mem_flatMap]
  constructor
  · rintro ⟨operation, hmem, hid⟩
    obtain ⟨edit, hedit, hplace⟩ := mem_assignmentIds_iff.mp hid
    exact ne_nil_of_mem (mem_editsAt.mpr ⟨operation, hmem, hedit, hplace⟩)
  · intro hne
    obtain ⟨edit, hin⟩ := exists_mem_of_ne_nil _ hne
    obtain ⟨operation, hmem, hedit, hplace⟩ := mem_editsAt.mp hin
    exact ⟨operation, hmem, mem_assignmentIds_iff.mpr ⟨edit, hedit, hplace⟩⟩

/-- The cables a plan lists have an edit. -/
theorem mem_affectedConnections :
    id ∈ InsertionMap.distinct (operations.filterMap Operation.connectionId?) ↔
      ∃ role, editsAt operations (.cableEnd id role) ≠ [] := by
  rw [InsertionMap.mem_distinct, mem_filterMap]
  constructor
  · rintro ⟨operation, hmem, hid⟩
    obtain ⟨edit, hedit, role, hplace⟩ := connectionId?_eq_some.mp hid
    exact ⟨role, ne_nil_of_mem (mem_editsAt.mpr ⟨operation, hmem, hedit, hplace⟩)⟩
  · rintro ⟨role, hne⟩
    obtain ⟨edit, hin⟩ := exists_mem_of_ne_nil _ hne
    obtain ⟨operation, hmem, hedit, hplace⟩ := mem_editsAt.mp hin
    exact ⟨operation, hmem, connectionId?_eq_some.mpr ⟨edit, hedit, role, hplace⟩⟩

/-- The operations of a plan that is available. -/
theorem plan_available (h : (buildCatalogResolutionPlan rules current next project link).available
    = true) : ∃ planned, plannedOperations rules current next project link = .ok planned ∧
      (buildCatalogResolutionPlan rules current next project link).operations
        = deduplicateOperations planned ∧
      (buildCatalogResolutionPlan rules current next project link).affectedRelationships
        = ⟨InsertionMap.distinct ((deduplicateOperations planned).filterMap
            Operation.connectionId?),
          InsertionMap.distinct ((deduplicateOperations planned).flatMap
            Operation.assignmentIds)⟩ := by
  simp only [buildCatalogResolutionPlan] at h ⊢
  cases hplanned : plannedOperations rules current next project link with
  | error reason =>
    rw [hplanned] at h
    cases h
  | ok planned => exact ⟨planned, rfl, rfl, rfl⟩

variable {plan : Plan}

/-- Applying a plan that is available is making its edits. -/
theorem applyCatalogResolutionPlan_eq (h : plan.available = true) (project : Project) :
    applyCatalogResolutionPlan project plan
      = (plan.operations.flatMap Operation.edits).foldlM applyEdit project := by
  rw [applyCatalogResolutionPlan, if_neg (by simp [h]), applyOperations_eq]

/-- A release is the edit of an operation that releases. -/
theorem releases_iff : operation.releases id = true ↔ .release id ∈ operation.edits := by
  cases operation with
  | unassignItem =>
    simp only [Operation.releases, Operation.edits, mem_singleton, beq_iff_eq,
      Edit.release.injEq]
    exact eq_comm
  | remapResourceKey => simp [Operation.releases, Operation.edits]
  | reclassifyResource => simp [Operation.releases, Operation.edits]
  | moveConnectionEndpoint => simp [Operation.releases, Operation.edits]

theorem releases_key (h : operation.releases id = true) : operation.key = .assignment id := by
  cases operation with
  | unassignItem =>
    simp only [Operation.releases, beq_iff_eq] at h
    rw [Operation.key, h]
  | remapResourceKey => cases h
  | reclassifyResource => cases h
  | moveConnectionEndpoint => cases h

theorem length_releases_le_one (id : ℕ) :
    ((deduplicateOperations planned).filter fun operation => operation.releases id).length ≤ 1 := by
  have hnodup : (((deduplicateOperations planned).filter fun operation =>
      operation.releases id).map Operation.key).Nodup :=
    (nodup_deduplicateOperations planned).sublist (filter_sublist.map _)
  have hsame : ∀ operation ∈ (deduplicateOperations planned).filter fun operation =>
      operation.releases id, operation.key = .assignment id := fun operation hmem =>
    releases_key (mem_filter.mp hmem).2
  generalize (deduplicateOperations planned).filter (fun operation => operation.releases id)
    = releases at hnodup hsame ⊢
  match releases, hnodup, hsame with
  | [], _, _ => exact Nat.zero_le 1
  | [_], _, _ => exact Nat.le_refl 1
  | first :: second :: rest, hnodup, hsame =>
    have hfirst := hsame first mem_cons_self
    have hsecond := hsame second (mem_cons_of_mem _ mem_cons_self)
    rw [map_cons, nodup_cons, map_cons] at hnodup
    exact absurd (hfirst.trans hsecond.symm ▸ mem_cons_self) hnodup.1

theorem Settled.outcome (hsettled : Settled rules current next project link)
    (hproject : project.Keyed)
    (hplanned : plannedOperations rules current next project link = .ok planned)
    (hrun : ((deduplicateOperations planned).flatMap Operation.edits).foldlM applyEdit project
      = .ok result) (hassignment : assignment ∈ project.assignments) :
    (editsAt (deduplicateOperations planned) (.assignment assignment.id) = [] ∧
      result.content (.assignment assignment.id) = some (.assignment assignment)) ∨
    (editsAt (deduplicateOperations planned) (.assignment assignment.id)
        = [.release assignment.id] ∧
      result.content (.assignment assignment.id) = none) ∨
    (∃ source target migration, editsAt (deduplicateOperations planned)
        (.assignment assignment.id) = [.move source target migration assignment.id] ∧
      assignment.moveTo target.resourceType target.resourceId target.key ≠ assignment ∧
      result.content (.assignment assignment.id) = some (.assignment
        (assignment.moveTo target.resourceType target.resourceId target.key))) := by
  have hcontent := (content_assignment hproject).mpr hassignment
  by_cases hnone : editsAt (deduplicateOperations planned) (.assignment assignment.id) = []
  · exact .inl ⟨hnone, (content_of_untouched hproject hrun hnone).trans hcontent⟩
  · obtain ⟨edit, hin⟩ := exists_mem_of_ne_nil _ hnone
    obtain ⟨operation, hmem, hedit, hplace⟩ := mem_editsAt.mp hin
    obtain ⟨hreason, hone⟩ :=
      hsettled.edit_assignment hproject hplanned hassignment hmem hedit hplace
    have hact := content_of_edit hproject hrun hone
    rw [hcontent] at hact
    rcases hsettled.edit_cases hplanned hmem hreason with
      ⟨rfl, -, -⟩ | ⟨source, target, migration, rfl, hat, hfrom, -, hne, -⟩
    · exact .inr (.inl ⟨hone, (Except.ok.inj hact).symm⟩)
    · rw [act_move (hat.trans hfrom)] at hact
      exact .inr (.inr ⟨source, target, migration, hone, moveTo_ne (hat.trans hfrom) hne,
        (Except.ok.inj hact).symm⟩)

/-- **A settled plan does what it says.** -/
theorem Settled.resolves (hsettled : Settled rules current next project link)
    (hproject : project.Keyed)
    (hplanned : plannedOperations rules current next project link = .ok planned)
    (hoperations : plan.operations = deduplicateOperations planned)
    (haffected : plan.affectedRelationships
      = ⟨InsertionMap.distinct (plan.operations.filterMap Operation.connectionId?),
        InsertionMap.distinct (plan.operations.flatMap Operation.assignmentIds)⟩)
    (hrun : (plan.operations.flatMap Operation.edits).foldlM applyEdit project = .ok result) :
    Resolves project result plan := by
  obtain ⟨hitems, hcables, hassignments⟩ := run_tables hrun
  have hresult : result.Keyed := addressed_applyEdit.run_valid hproject hrun
  have hrun' := hrun
  rw [hoperations] at hrun'
  refine ⟨hitems, hcables, ?_, ?_, ?_, ?_, ?_⟩
  · intro connection hconnection
    rw [haffected, mem_affectedConnections, hoperations]
    constructor
    · rintro hmem ⟨role, hne⟩
      -- an edit would have changed this end of the cable
      obtain ⟨edit, hin⟩ := exists_mem_of_ne_nil _ hne
      obtain ⟨operation, hop, hedit, hplace⟩ := mem_editsAt.mp hin
      obtain ⟨other, hother, hid, source, target, -, rfl, hchanged, hat⟩ :=
        (warranted_of_kept hplanned hop).rewire hedit hplace
      obtain rfl : other = connection := eq_of_key_eq hproject.connections hother hconnection hid
      have hact := content_of_edit hproject hrun' (eq_singleton_of_mem
        (hsettled.length_editsAt_le_one hproject hplanned _) hin)
      rw [content_cableEnd hproject hconnection, content_cableEnd hresult hmem] at hact
      simp only [Edit.act, hat hsettled, Bool.true_eq_false, if_false, Except.ok.injEq,
        Option.some.injEq, Content.cableEnd.injEq] at hact
      exact hchanged hact
    · intro hnone
      have hid : connection.id ∈ result.connections.map Connection.id := by
        rw [hcables]
        exact mem_map_of_mem hconnection
      obtain ⟨other, hother, hid⟩ := mem_map.mp hid
      have hends : ∀ role, other.endpoint role = connection.endpoint role := by
        intro role
        have hsame := content_of_untouched hproject hrun' (not_not.mp fun hne => hnone ⟨role, hne⟩)
        rw [content_cableEnd hproject hconnection, ← hid, content_cableEnd hresult hother]
          at hsame
        exact Content.cableEnd.inj (Option.some.inj hsame)
      have hsame : other = connection := by
        obtain ⟨otherId, otherSource, otherTarget⟩ := other
        obtain ⟨id, source, target⟩ := connection
        simp only [Connection.mk.injEq]
        exact ⟨hid, hends .source, hends .target⟩
      exact hsame ▸ hother
  · rw [eq_filter_of_sublist hassignments hproject.assignments]
    refine filter_congr fun id hid => ?_
    obtain ⟨assignment, hassignment, rfl⟩ := mem_map.mp hid
    have hpresent := @mem_assignmentIds result assignment.id
    have hreleases : (plan.operations.any fun operation => operation.releases assignment.id)
        = true ↔ .release assignment.id ∈
          editsAt (deduplicateOperations planned) (.assignment assignment.id) := by
      rw [List.any_eq_true, mem_editsAt, hoperations]
      constructor
      · rintro ⟨operation, hop, hrel⟩
        exact ⟨operation, hop, releases_iff.mp hrel, rfl⟩
      · rintro ⟨operation, hop, hedit, -⟩
        exact ⟨operation, hop, releases_iff.mpr hedit⟩
    rcases hsettled.outcome hproject hplanned hrun' hassignment with
      ⟨hedits, hcontent⟩ | ⟨hedits, hcontent⟩ | ⟨source, target, migration, hedits, -, hcontent⟩
    · rw [hcontent] at hpresent
      simp [hpresent.mpr (by simp), Bool.eq_false_iff, hreleases, hedits]
    · have hnot : assignment.id ∉ result.assignments.map Assignment.id :=
        fun h => hpresent.mp h hcontent
      rw [decide_eq_false hnot, hreleases.mpr (by rw [hedits]; exact mem_singleton.mpr rfl)]
      rfl
    · rw [hcontent] at hpresent
      simp [hpresent.mpr (by simp), Bool.eq_false_iff, hreleases, hedits]
  · intro assignment hassignment
    rw [haffected, mem_affectedAssignments, hoperations, ← content_assignment hresult]
    rcases hsettled.outcome hproject hplanned hrun' hassignment with
      ⟨hedits, hcontent⟩ | ⟨hedits, hcontent⟩ |
      ⟨source, target, migration, hedits, hmoved, hcontent⟩
    · simp [hedits, hcontent]
    · simp [hedits, hcontent]
    · simp [hedits, hcontent, hmoved]
  · intro id
    rw [hoperations]
    exact length_releases_le_one id
  · intro operation hop target htarget id hid
    rw [hoperations] at hop
    obtain ⟨edit, hedit, hplace⟩ := mem_assignmentIds_iff.mp hid
    obtain ⟨assignment, hassignment, rfl, hreason⟩ :=
      (warranted_of_kept hplanned hop).editReason hedit hplace
    obtain ⟨-, hone⟩ := hsettled.edit_assignment hproject hplanned hassignment hop hedit hplace
    have hact := content_of_edit hproject hrun' hone
    rw [(content_assignment hproject).mpr hassignment] at hact
    refine ⟨assignment, hassignment, rfl, ?_⟩
    rcases hsettled.edit_cases hplanned hop hreason with
      ⟨rfl, hkey, -⟩ | ⟨source, target', migration, rfl, hat, hfrom, hto, -, -⟩
    · cases operation with
      | unassignItem => cases htarget
      | remapResourceKey => cases hkey
      | reclassifyResource => cases hkey
      | moveConnectionEndpoint => cases htarget
    · obtain rfl := Option.some.inj (hto.symm.trans htarget)
      rw [act_move (hat.trans hfrom)] at hact
      have hmoved := (Except.ok.inj hact).symm
      rw [← Assignment.moveTo_id assignment target'.resourceType target'.resourceId target'.key]
        at hmoved
      exact (content_assignment hresult).mp hmoved

/-! ## Plans that do what they say are settled -/

/-- What is released is gone, and nothing can be done with it after. -/
theorem act_none (edit : Edit) {content : Option Content} (h : edit.act none = .ok content) :
    False := by
  cases edit with
  | release => cases h
  | move => cases h
  | rewire => cases h

theorem not_release_of_run {edits : List Edit} {start : Option Content} {last : Content}
    (h : edits.foldlM (fun content edit => edit.act content) start = .ok (some last)) (id : ℕ) :
    .release id ∉ edits := by
  induction edits generalizing start with
  | nil => exact not_mem_nil
  | cons edit rest ih =>
    obtain ⟨content, hact, hrest⟩ := foldlM_cons_eq_ok.mp h
    intro hmem
    rcases mem_cons.mp hmem with rfl | hmem
    · have hgone : content = none := by
        cases start with
        | none => exact (act_none _ hact).elim
        | some start =>
          cases start with
          | assignment => exact (Except.ok.inj hact).symm
          | cableEnd => cases hact
      subst hgone
      cases rest with
      | nil => cases hrest
      | cons edit' rest =>
        obtain ⟨content, hact', -⟩ := foldlM_cons_eq_ok.mp hrest
        exact act_none _ hact'
    · exact ih hrest hmem

/-- An assignment is moved from where it is recorded. -/
theorem location_of_act
    {content : Option Content}
    (h : (Edit.move source target migration id).act (some (.assignment assignment)) = .ok content) :
    assignment.location? = some (source.resourceType, source.resourceId, source.key) ∧
      content = some (.assignment
        (assignment.moveTo target.resourceType target.resourceId target.key)) := by
  simp only [Edit.act] at h
  split at h
  · cases h
  · rename_i hat
    exact ⟨Assignment.isAt_iff.mp (Bool.not_eq_false _ ▸ hat), (Except.ok.inj h).symm⟩

/-- The edit belongs to a rename. -/
def Edit.isRename : Edit → Bool
  | .move _ _ migration _ => migration == "remap"
  | _ => false

/-- The edit belongs to a migration. -/
def Edit.isMigration : Edit → Bool
  | .move _ _ migration _ => migration == "migration"
  | _ => false

theorem isRename_of_edit (hedit : edit ∈ operation.edits) (h : edit.isRename = true) :
    operation.isRename = true := by
  cases operation with
  | unassignItem => rw [mem_singleton.mp hedit] at h; cases h
  | remapResourceKey => rfl
  | reclassifyResource =>
    obtain ⟨id, -, rfl⟩ := mem_map.mp hedit
    have hno : ("migration" == "remap") = true := h
    exact absurd hno (by decide)
  | moveConnectionEndpoint => rw [mem_singleton.mp hedit] at h; cases h

theorem isMigration_of_edit (hedit : edit ∈ operation.edits) (h : edit.isMigration = true) :
    operation.isMigration = true := by
  cases operation with
  | unassignItem => rw [mem_singleton.mp hedit] at h; cases h
  | remapResourceKey =>
    obtain ⟨id, -, rfl⟩ := mem_map.mp hedit
    have hno : ("remap" == "migration") = true := h
    exact absurd hno (by decide)
  | reclassifyResource => rfl
  | moveConnectionEndpoint => rw [mem_singleton.mp hedit] at h; cases h

theorem pairwise_of_length_le_one {α : Type} {R : α → α → Prop} {l : List α}
    (hlen : l.length ≤ 1) : l.Pairwise R := by
  match l, hlen with
  | [], _ => exact List.Pairwise.nil
  | [a], _ => exact pairwise_singleton R a

/-- At each place the migration comes before the renames. -/
theorem editsAt_order (hproject : project.Keyed)
    (hplanned : plannedOperations rules current next project link = .ok planned)
    (place : Place) : (editsAt (deduplicateOperations planned) place).Pairwise
      fun first second => ¬(first.isRename = true ∧ second.isMigration = true) := by
  obtain ⟨front, back, hsplit, hfront, hback⟩ := plannedOperations_order hplanned
  have horder : planned.Pairwise
      fun first second => ¬(first.isRename = true ∧ second.isMigration = true) := by
    rw [hsplit, pairwise_append]
    refine ⟨pairwise_of_forall_mem_list ?_, pairwise_of_forall_mem_list ?_, ?_⟩
    · rintro first hfirst second - ⟨hrename, -⟩
      rw [hfront first hfirst] at hrename
      cases hrename
    · rintro first - second hsecond ⟨-, hmigration⟩
      rw [hback second hsecond] at hmigration
      cases hmigration
    · rintro first hfirst second - ⟨hrename, -⟩
      rw [hfront first hfirst] at hrename
      cases hrename
  rw [editsAt, pairwise_flatMap]
  refine ⟨?_, ?_⟩
  · intro operation hmem
    exact pairwise_of_length_le_one
      ((warranted_of_kept hplanned hmem).length_edits_le_one hproject place)
  · refine (horder.sublist (deduplicateOperations_sublist planned)).imp ?_
    intro first second hpair edit hedit edit' hedit' hboth
    exact hpair ⟨isRename_of_edit (mem_of_mem_filter hedit) hboth.1,
      isMigration_of_edit (mem_of_mem_filter hedit') hboth.2⟩

/-- **An assignment is moved once**: where its edits leave it in the project, there is one,
which moves it from where it is recorded. -/
theorem single_move (hproject : project.Keyed)
    (hplanned : plannedOperations rules current next project link = .ok planned)
    (hassignment : assignment ∈ project.assignments) {last : Content}
    (hrun : (editsAt (deduplicateOperations planned) (.assignment assignment.id)).foldlM
      (fun content edit => edit.act content) (some (.assignment assignment)) = .ok (some last))
    (hin : .move source target migration assignment.id ∈
      editsAt (deduplicateOperations planned) (.assignment assignment.id)) :
    assignment.location? = some (source.resourceType, source.resourceId, source.key) := by
  have hreason : ∀ edit ∈ editsAt (deduplicateOperations planned) (.assignment assignment.id),
      ∃ operation, EditReason rules current next project link assignment operation edit := by
    intro edit hedit
    obtain ⟨operation, hop, hmem, hplace⟩ := mem_editsAt.mp hedit
    obtain ⟨other, hother, hid, hreason⟩ := (warranted_of_kept hplanned hop).editReason hmem hplace
    obtain rfl : other = assignment := eq_of_key_eq hproject.assignments hother hassignment hid
    exact ⟨operation, hreason⟩
  have hnorelease := not_release_of_run hrun
  have horder := editsAt_order hproject hplanned (.assignment assignment.id)
  generalize editsAt (deduplicateOperations planned) (.assignment assignment.id) = edits
    at hrun hin hreason hnorelease horder
  match edits, hrun, hin, hreason, hnorelease, horder with
  | first :: rest, hrun, hin, hreason, hnorelease, horder =>
    obtain ⟨content, hact, hrest⟩ := foldlM_cons_eq_ok.mp hrun
    obtain ⟨operation, hfirst⟩ := hreason first mem_cons_self
    match rest, hrest, hin, hreason, hnorelease, horder with
    | [], _, hin, _, _, _ =>
      rw [mem_singleton] at hin
      subst hin
      exact (location_of_act hact).1
    | second :: later, hrest, _, hreason, hnorelease, horder =>
      exfalso
      obtain ⟨_, hact', -⟩ := foldlM_cons_eq_ok.mp hrest
      obtain ⟨operation', hsecond⟩ := hreason second (mem_cons_of_mem _ mem_cons_self)
      have hpair := (pairwise_cons.mp horder).1 second mem_cons_self
      -- after the first move the second finds the assignment somewhere else
      cases hfirst with
      | release => exact hnorelease _ mem_cons_self
      | @rename resource renamed hpresent hunhandled hbecomes hrenames hassigned =>
        obtain ⟨hat, rfl⟩ := location_of_act hact
        cases hsecond with
        | release => exact hnorelease _ (mem_cons_of_mem _ mem_cons_self)
        | @rename other renamed' hpresent' hunhandled' hbecomes' hrenames' hassigned' =>
          obtain ⟨hat', -⟩ := location_of_act hact'
          rw [location_moveTo hat] at hat'
          simp only [Option.some.injEq, Prod.mk.injEq] at hat'
          have hsame : successor next other = successor next resource :=
            successor_of_identity hat'.1.symm hat'.2.1.symm
          rw [hbecomes', hbecomes] at hsame
          obtain rfl := Option.some.inj hsame
          exact hrenames' hat'.2.2
        | migrate => exact hpair ⟨rfl, rfl⟩
      | @migrate wlan hready hassigned =>
        obtain ⟨hat, rfl⟩ := location_of_act hact
        cases hsecond with
        | release => exact hnorelease _ (mem_cons_of_mem _ mem_cons_self)
        | @rename other renamed' hpresent' hunhandled' hbecomes' hrenames' hassigned' =>
          obtain ⟨hat', -⟩ := location_of_act hact'
          rw [location_moveTo hat] at hat'
          simp only [Option.some.injEq, Prod.mk.injEq] at hat'
          have htype := resourceType_of_assigned hassigned' hat
          rw [← hat'.1] at htype
          cases htype
        | migrate =>
          obtain ⟨hat', -⟩ := location_of_act hact'
          rw [location_moveTo hat] at hat'
          simp only [Option.some.injEq, Prod.mk.injEq] at hat'
          exact nomatch hat'.1

/-- The key of a rename tells the resource it renames. -/
theorem rename_of_key {resource renamed : HostResource}
    (hbecomes : successor next resource = some renamed)
    (hw : Warranted rules current next project link operation) (hrename : operation.isRename = true)
    (hkey : operation.key = (renameOperation project link resource renamed).key) :
    operation = renameOperation project link resource renamed := by
  cases hw with
  | port => cases hrename
  | adapter => cases hrename
  | release => cases hrename
  | migrate => cases hrename
  | @rename other renamed' hpresent hunhandled hoccupied hbecomes' hrenames =>
    simp only [renameOperation, Operation.key, OperationKey.resource.injEq] at hkey
    obtain ⟨htype, hid, htext⟩ := hkey
    rw [successor_of_identity htype hid, hbecomes] at hbecomes'
    obtain rfl := Option.some.inj hbecomes'
    have hkeys : other.key = resource.key := by
      simpa [String.append_assoc] using htext
    have hassigned : resourceAssignments project link.hostKey other
        = resourceAssignments project link.hostKey resource := by
      simp only [resourceAssignments, htype, hid, hkeys]
    simp only [renameOperation, htype, hid, hkeys, hassigned]

/-- What a plan that does what it says leaves of an assignment it moves. -/
theorem Resolves.recorded (h : Resolves project result plan) (hproject : project.Keyed)
    (hplanned : plannedOperations rules current next project link = .ok planned)
    (hoperations : plan.operations = deduplicateOperations planned)
    (hrun : (plan.operations.flatMap Operation.edits).foldlM applyEdit project = .ok result)
    (hassignment : assignment ∈ project.assignments) (hop : operation ∈ plan.operations)
    (hedit : .move source target migration assignment.id ∈ operation.edits) {moved : ResourceRef}
    (hto : operation.to? = some moved) :
    assignment.location? = some (source.resourceType, source.resourceId, source.key) ∧
      ¬Released rules current next project link assignment := by
  have hresult : result.Keyed := addressed_applyEdit.run_valid hproject hrun
  obtain ⟨other, hother, hid, hmoved⟩ := h.moved operation hop moved hto assignment.id
    (mem_assignmentIds_iff.mpr ⟨_, hedit, rfl⟩)
  have hlast := (content_assignment hresult).mpr hmoved
  rw [Assignment.moveTo_id, hid] at hlast
  rw [hoperations] at hrun hop
  have hview := run_editsAt hproject hrun (.assignment assignment.id)
  rw [(content_assignment hproject).mpr hassignment, hlast] at hview
  refine ⟨single_move hproject hplanned hassignment hview
    (mem_editsAt.mpr ⟨operation, hop, hedit, rfl⟩), ?_⟩
  intro hreleased
  obtain ⟨itemType, itemId, hmem⟩ := exists_release hplanned hreleased
  obtain ⟨kept, hkept, hkey, -⟩ := exists_kept hmem
  have hrelease : .release assignment.id ∈ kept.edits := by
    have hw := warranted_of_kept hplanned hkept
    cases hw with
    | port => cases hkey
    | adapter => cases hkey
    | @release released itemType' itemId' _ _ =>
      rw [OperationKey.assignment.inj hkey]
      exact mem_singleton.mpr rfl
    | migrate => cases hkey
    | rename => cases hkey
  exact not_release_of_run hview assignment.id (mem_editsAt.mpr ⟨kept, hkept, hrelease, rfl⟩)

/-- **A plan that does what it says is settled.** -/
theorem Resolves.settled (h : Resolves project result plan)
    (hproject : project.Keyed) (hnamed : ∀ assignment ∈ project.assignments, assignment.itemId ≠ "")
    (hplanned : plannedOperations rules current next project link = .ok planned)
    (hoperations : plan.operations = deduplicateOperations planned)
    (hrun : (plan.operations.flatMap Operation.edits).foldlM applyEdit project = .ok result) :
    Settled rules current next project link := by
  refine ⟨?_, ?_, ?_⟩
  · intro resource hpresent hunhandled renamed hbecomes hrenames hdistinct assignment hassigned
    have hoccupied := ne_nil_of_mem hassigned
    have hmem := mem_rename hplanned hpresent hunhandled hoccupied hbecomes hrenames
    obtain ⟨kept, hkept, hkey, -⟩ := exists_kept hmem
    have hw := warranted_of_kept hplanned hkept
    have hsame : kept = renameOperation project link resource renamed := by
      rcases hw.resource_cases hkey with hrename | hmigration
      · exact rename_of_key hbecomes hw hrename hkey
      · cases hw with
        | port => cases hmigration
        | adapter => cases hmigration
        | release => cases hmigration
        | @migrate migration hready => exact absurd hkey.symm (hdistinct migration hready)
        | rename => cases hmigration
    rw [hsame, ← hoperations] at hkept
    have hedit : Edit.move ⟨resource.resourceType, resource.id, resource.key, none⟩
        ⟨resource.resourceType, resource.id, renamed.key, none⟩ "remap" assignment.id
        ∈ (renameOperation project link resource renamed).edits :=
      mem_map.mpr ⟨assignment.id, mem_sortedIds.mpr ⟨assignment, hassigned, rfl⟩, rfl⟩
    exact h.recorded hproject hplanned hoperations hrun (mem_of_mem_filter hassigned) hkept
      hedit rfl
  · intro migration hready assignment hassigned
    have hkept := migrationOperation_kept hplanned hready
    rw [← hoperations] at hkept
    have hedit : Edit.move
        ⟨.expansion, migration.source.id, migration.source.key, migration.source.label⟩
        ⟨.optionalModule, migration.source.id, migration.destination.key,
          migration.destination.label⟩ "migration" assignment.id
        ∈ (migrationOperation project link migration).edits :=
      mem_map.mpr ⟨assignment.id, mem_sortedIds.mpr ⟨assignment, hassigned, rfl⟩, rfl⟩
    exact h.recorded hproject hplanned hoperations hrun (mem_of_mem_filter hassigned) hkept
      hedit rfl
  · intro hloses assignment hadapter connection hconnection role hhost hhosted item hitem
    obtain ⟨ports, adapters, fixed, resources, -, hadapters, -, -, hsplit⟩ :=
      plannedOperations_eq_ok hplanned
    obtain ⟨hassigned, target, htarget⟩ := adapter_single hadapters hloses hadapter
    have hmem : Operation.moveConnectionEndpoint connection.id role
        ⟨link.itemType, link.itemId, some "powerAdapter",
          (project.item? assignment.itemId).map StoredItem.id,
          (connection.endpoint role).portId⟩
        ⟨link.itemType, link.itemId, none, none, target.id⟩ ∈ planned := by
      have hadded := (mem_powerAdapterOperations hadapters).mpr ⟨hloses, assignment, hassigned,
        .inl ⟨target, connection, role, htarget, hconnection,
          mem_adapterOperation.mpr ⟨hhost, hhosted, rfl⟩⟩⟩
      rw [hsplit]
      exact mem_append_left _ (mem_append_left _ (mem_append_right _ hadded))
    obtain ⟨kept, hkept, hkey, -⟩ := exists_kept hmem
    have hassignment : assignment ∈ project.assignments := by
      have hself : assignment ∈ assignedAdapters project link.hostKey := by
        rw [hassigned]
        exact mem_singleton.mpr rfl
      exact mem_of_mem_filter hself
    -- the end is a hosted one, so the operation that is kept is the adapter's
    have hedit : ∃ moved, .rewire connection.id role
        ⟨link.itemType, link.itemId, some "powerAdapter",
          (project.item? assignment.itemId).map StoredItem.id,
          (connection.endpoint role).portId⟩ moved ∈ kept.edits := by
      have hw := warranted_of_kept hplanned hkept
      cases hw with
      | @port other role' currentPort inlet hconnected _ hunhosted _ _ _ =>
        obtain ⟨hid, rfl⟩ := OperationKey.connection.inj hkey
        obtain rfl : other = connection :=
          eq_of_key_eq hproject.connections hconnected hconnection hid
        simp only [Endpoint.isHosted, hhosted, bne_eq_false_iff_eq] at hunhosted
        exact absurd hunhosted (hnamed assignment hassignment)
      | @adapter other role' adapter inlet _ hone _ hconnected _ _ =>
        obtain ⟨hid, rfl⟩ := OperationKey.connection.inj hkey
        obtain rfl : other = connection :=
          eq_of_key_eq hproject.connections hconnected hconnection hid
        rw [hassigned] at hone
        cases hone
        exact ⟨_, mem_singleton.mpr rfl⟩
      | release => cases hkey
      | migrate => cases hkey
      | rename => cases hkey
    obtain ⟨moved, hedit⟩ := hedit
    rw [hoperations] at hrun
    have hview := run_editsAt hproject hrun (.cableEnd connection.id role)
    rw [content_cableEnd hproject hconnection] at hview
    have hone := eq_singleton_of_mem (cableEnd_edits_le_one hproject hplanned _ _)
      (mem_editsAt.mpr ⟨kept, hkept, hedit, rfl⟩)
    have hact := content_of_edit hproject hrun hone
    rw [content_cableEnd hproject hconnection] at hact
    simp only [Edit.act] at hact
    split at hact
    · cases hact
    · rename_i hat
      simp only [Endpoint.isAt, hitem, map_some, hhosted, Bool.and_eq_false_iff,
        not_or, Bool.not_eq_false, beq_iff_eq, Option.some.injEq] at hat
      exact hat.2

/-! ## When a plan can be applied -/

/-- **A plan that is available can be applied, and does what it says, exactly when it is
settled**: every assignment it moves is recorded under the resource it is moved from and is
not released, and the cables it takes off a power adapter name the adapter by its own key. -/
theorem buildCatalogResolutionPlan_applies (rules : TextRules) (current next : CatalogItem)
    (project : Project) (link : Link) (hproject : project.Keyed)
    (hnamed : ∀ assignment ∈ project.assignments, assignment.itemId ≠ "")
    (havailable : (buildCatalogResolutionPlan rules current next project link).available = true) :
    (∃ result, applyCatalogResolutionPlan project
        (buildCatalogResolutionPlan rules current next project link) = .ok result ∧
      Resolves project result (buildCatalogResolutionPlan rules current next project link)) ↔
    Settled rules current next project link := by
  obtain ⟨planned, hplanned, hoperations, haffected⟩ := plan_available havailable
  rw [applyCatalogResolutionPlan_eq havailable]
  constructor
  · rintro ⟨result, hrun, hresolves⟩
    exact hresolves.settled hproject hnamed hplanned hoperations hrun
  · intro hsettled
    obtain ⟨result, hrun⟩ := hsettled.runs hproject hplanned
    rw [← hoperations] at hrun
    rw [← hoperations] at haffected
    exact ⟨result, hrun, hsettled.resolves hproject hplanned hoperations haffected hrun⟩

/-! ## A storage server that is updated -/

/-- Text rules for ASCII text. -/
def asciiText : TextRules := ⟨String.toLower, compare, String.instTransOrd⟩

/-- Drive bays under a key. -/
def driveBays (key : String) : Wlan.Resource := ⟨some 1, key, none, some 6, none, none⟩

/-- A storage server with drive bays under a key and built-in components. -/
def storageServer (key : String) (fixedComponents : List FixedComponent) : CatalogItem where
  ports := []
  fixedComponents
  host := ⟨[driveBays key], [], [], [], [], []⟩
  powerConfiguration := none
  adapterDisposition := none
  specPowerConfiguration := none

/-- The disk that a definition describes. -/
def diskDefinition : Definition := ⟨"storage", some "Example", some "SSD-1", none⟩

/-- A project with a disk in the first drive bay. -/
def bayProject : Project where
  items := [("storage:3", ⟨diskDefinition, 3⟩)]
  assignments := [⟨18, "nas:1", "storage:3", "storage",
    some ⟨.storage, some "drive-bays", some 1, [0]⟩⟩]
  connections := []

theorem bayProject_keyed : bayProject.Keyed := ⟨by decide, by decide⟩

/-- Renamed drive bays keep the disk that is in them. -/
theorem buildCatalogResolutionPlan_applies_bays :
    ∃ result, applyCatalogResolutionPlan bayProject
        (buildCatalogResolutionPlan asciiText (storageServer "drive-bays" [])
          (storageServer "sata-bays" []) bayProject ⟨"nas", 1⟩) = .ok result ∧
      Resolves bayProject result (buildCatalogResolutionPlan asciiText
        (storageServer "drive-bays" []) (storageServer "sata-bays" []) bayProject ⟨"nas", 1⟩) := by
  have hnone : Wlan.planWlanResourceMigration asciiText (storageServer "drive-bays" []).host
      (storageServer "sata-bays" []).host = .none := by decide +kernel
  have hadapter : losesAdapter (storageServer "drive-bays" []) (storageServer "sata-bays" [])
      ⟨"nas", 1⟩ = false := by decide
  refine (buildCatalogResolutionPlan_applies asciiText _ _ bayProject ⟨"nas", 1⟩ bayProject_keyed
    (by decide) (by decide +kernel)).mpr ⟨?_, ?_, ?_⟩
  · intro resource hresource _ renamed hrenamed _ _ assignment hassignment
    obtain rfl : resource = ⟨driveBays "drive-bays", .storage⟩ := List.mem_singleton.mp hresource
    obtain rfl := List.mem_singleton.mp (List.mem_of_mem_filter hassignment)
    refine ⟨rfl, ?_⟩
    -- nothing is built in, and the bays have a successor
    rintro (⟨hloses, -⟩ | ⟨component, hcomponent, -⟩ | ⟨dropped, hdropped, -, -, hgone, -⟩)
    · rw [hadapter] at hloses
      cases hloses
    · cases hcomponent
    · obtain rfl : dropped = ⟨driveBays "drive-bays", .storage⟩ := List.mem_singleton.mp hdropped
      rw [hrenamed] at hgone
      cases hgone
  · intro migration hready
    rw [hnone] at hready
    cases hready
  · intro hloses
    rw [hadapter] at hloses
    cases hloses

/-- An update that renames the drive bays and builds in the disk has a plan that cannot be
applied: it releases the disk and then moves it. -/
theorem buildCatalogResolutionPlan_stuck :
    (buildCatalogResolutionPlan asciiText (storageServer "drive-bays" [])
      (storageServer "sata-bays" [⟨1, "storage", diskDefinition⟩]) bayProject
      ⟨"nas", 1⟩).available = true ∧
    ¬∃ result, applyCatalogResolutionPlan bayProject
      (buildCatalogResolutionPlan asciiText (storageServer "drive-bays" [])
        (storageServer "sata-bays" [⟨1, "storage", diskDefinition⟩]) bayProject
        ⟨"nas", 1⟩) = .ok result := by
  refine ⟨by decide +kernel, ?_⟩
  have hfails : (applyCatalogResolutionPlan bayProject
      (buildCatalogResolutionPlan asciiText (storageServer "drive-bays" [])
        (storageServer "sata-bays" [⟨1, "storage", diskDefinition⟩]) bayProject
        ⟨"nas", 1⟩)).toOption = none := by decide +kernel
  rintro ⟨result, hresult⟩
  rw [hresult] at hfails
  cases hfails

end HomelabInventory.CatalogResolution
