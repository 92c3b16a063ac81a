import HomelabInventory.AddressedRuns
import HomelabInventory.CatalogResolution

/-!
# Runs of a resolution plan

Applying a plan is a run of edits, each addressed to one assignment or to one cable end.
What happens to an assignment or a cable end is therefore decided by the edits addressed
to it, in their order.
-/

namespace HomelabInventory.CatalogResolution

/-! ## Edits and places -/

/-- A change of a plan to one assignment or one cable end. -/
inductive Edit where
  | release (assignmentId : ℕ)
  | move (source target : ResourceRef) (migration : String) (assignmentId : ℕ)
  | rewire (connectionId : ℕ) (role : EndpointRole) (source target : EndpointRef)
  deriving DecidableEq

/-- The changes of an operation. -/
def Operation.edits : Operation → List Edit
  | .unassignItem assignmentId _ _ => [.release assignmentId]
  | .remapResourceKey resourceType resourceId fromKey toKey assignmentIds =>
    assignmentIds.map (.move ⟨resourceType, resourceId, fromKey, none⟩
      ⟨resourceType, resourceId, toKey, none⟩ "remap")
  | .reclassifyResource source target assignmentIds =>
    assignmentIds.map (.move source target "migration")
  | .moveConnectionEndpoint connectionId role source target =>
    [.rewire connectionId role source target]

/-- What an edit is addressed to. -/
inductive Place where
  | assignment (id : ℕ)
  | cableEnd (connectionId : ℕ) (role : EndpointRole)
  deriving DecidableEq

/-- What a project holds at a place. -/
inductive Content where
  | assignment (assignment : Assignment)
  | cableEnd (endpoint : Endpoint)
  deriving DecidableEq

/-- The place of an edit. -/
def Edit.place : Edit → Place
  | .release assignmentId => .assignment assignmentId
  | .move _ _ _ assignmentId => .assignment assignmentId
  | .rewire connectionId role _ _ => .cableEnd connectionId role

/-- What a project holds at a place. -/
def Project.content (project : Project) : Place → Option Content
  | .assignment id => (lookup Assignment.id project.assignments id).map .assignment
  | .cableEnd connectionId role =>
    (lookup Connection.id project.connections connectionId).map fun connection =>
      .cableEnd (connection.endpoint role)

/-- What an edit does at its place. -/
def Edit.act : Edit → Option Content → Except String (Option Content)
  | .release _, some (.assignment _) => .ok none
  | .release id, _ => .error ("Assignment " ++ toString id ++ " does not exist.")
  | .move source target migration id, some (.assignment assignment) =>
    if assignment.isAt source.resourceType source.resourceId source.key = false then
      .error ("Assignment " ++ toString id ++ " changed after the resource " ++ migration ++
        " was planned.")
    else .ok (some (.assignment
      (assignment.moveTo target.resourceType target.resourceId target.key)))
  | .move _ _ _ id, _ => .error ("Assignment " ++ toString id ++ " does not exist.")
  | .rewire id _ source target, some (.cableEnd endpoint) =>
    if endpoint.isAt source = false then
      .error ("Connection " ++ toString id ++ " changed after the resolution was planned.")
    else .ok (some (.cableEnd target.endpoint))
  | .rewire id _ _ _, _ => .error ("Connection " ++ toString id ++ " endpoint does not exist.")

/-- Apply an edit to a project. -/
def applyEdit (draft : Project) : Edit → Except String Project
  | .release assignmentId => unassignItem draft assignmentId
  | .move source target migration assignmentId =>
    moveAssignment source target migration draft assignmentId
  | .rewire connectionId role source target =>
    moveConnectionEndpoint draft connectionId role source target

/-- Assignments and cables are told apart by their ids. -/
structure Project.Keyed (project : Project) : Prop where
  assignments : (project.assignments.map Assignment.id).Nodup
  connections : (project.connections.map Connection.id).Nodup

/-! ## A plan as a run of edits -/

/-- Applying an operation is making its edits. -/
theorem applyOperation_eq (draft : Project) (operation : Operation) :
    applyOperation draft operation = operation.edits.foldlM applyEdit draft := by
  cases operation with
  | unassignItem assignmentId itemType itemId =>
    rw [Operation.edits, List.foldlM_cons]
    change unassignItem draft assignmentId = unassignItem draft assignmentId >>= fun s => .ok s
    cases unassignItem draft assignmentId <;> rfl
  | remapResourceKey resourceType resourceId fromKey toKey assignmentIds =>
    rw [Operation.edits, List.foldlM_map]
    rfl
  | reclassifyResource source target assignmentIds =>
    rw [Operation.edits, List.foldlM_map]
    rfl
  | moveConnectionEndpoint connectionId role source target =>
    rw [Operation.edits, List.foldlM_cons]
    change moveConnectionEndpoint draft connectionId role source target
      = moveConnectionEndpoint draft connectionId role source target >>= fun s => .ok s
    cases moveConnectionEndpoint draft connectionId role source target <;> rfl

theorem applyOperations_eq (draft : Project) (operations : List Operation) :
    operations.foldlM applyOperation draft
      = (operations.flatMap Operation.edits).foldlM applyEdit draft := by
  induction operations generalizing draft with
  | nil => rfl
  | cons operation rest ih =>
    rw [List.foldlM_cons, List.flatMap_cons, List.foldlM_append, applyOperation_eq]
    congr 1
    funext next
    exact ih next

/-! ## Lookups in a changed table -/

/-- Changing the first record with a key changes what a lookup of that key finds. -/
theorem lookup_modifyFirst {ρ : Type} {key : ρ → ℕ} {f : ρ → ρ} (hkey : ∀ x, key (f x) = key x)
    (l : List ρ) (k other : ℕ) :
    lookup key (modifyFirst (fun x => key x == k) f l) other
      = if other = k then (lookup key l other).map f else lookup key l other := by
  induction l with
  | nil => simp [modifyFirst]
  | cons x xs ih =>
    by_cases hx : key x = k
    · subst hx
      by_cases ho : other = key x
      · subst ho
        simp [modifyFirst, lookup_cons, hkey]
      · simp [modifyFirst, lookup_cons, hkey, ho, Ne.symm ho]
    · by_cases ho : key x = other
      · subst ho
        simp [modifyFirst, lookup_cons, hx]
      · simp [modifyFirst, lookup_cons, hx, ho, ih]

@[simp] theorem Connection.setEndpoint_id (connection : Connection) (role : EndpointRole)
    (endpoint : Endpoint) : (connection.setEndpoint role endpoint).id = connection.id := by
  cases role <;> rfl

theorem Connection.endpoint_setEndpoint (connection : Connection) (role other : EndpointRole)
    (endpoint : Endpoint) :
    (connection.setEndpoint role endpoint).endpoint other
      = if other = role then endpoint else connection.endpoint other := by
  cases role <;> cases other <;> rfl

@[simp] theorem Assignment.moveTo_id (assignment : Assignment) (resourceType : ResourceType)
    (resourceId : Option ℤ) (key : String) :
    (assignment.moveTo resourceType resourceId key).id = assignment.id := rfl

/-- The assignment with an id is removed, the others are kept. -/
theorem spliceOut_assignments {l : List Assignment} (hl : (l.map Assignment.id).Nodup)
    {id : ℕ} {assignment : Assignment} (h : lookup Assignment.id l id = some assignment) :
    spliceOut Assignment.id id l = l.filter fun entry => decide (entry.id ≠ id) := by
  obtain ⟨hmem, hid⟩ := lookup_eq_some h
  subst hid
  exact spliceOut_eq_filter hl hmem

/-- What a lookup finds after an assignment is removed. -/
theorem lookup_spliceOut {l : List Assignment} (hl : (l.map Assignment.id).Nodup)
    {id : ℕ} {assignment : Assignment} (h : lookup Assignment.id l id = some assignment)
    (other : ℕ) :
    lookup Assignment.id (spliceOut Assignment.id id l) other
      = if other = id then none else lookup Assignment.id l other := by
  have hfilter : (l.filter fun entry => decide (entry.id ≠ id))
      = l.filter fun entry => entry.id != id := by
    refine List.filter_congr fun entry _ => ?_
    by_cases hid : entry.id = id <;> simp [hid]
  rw [spliceOut_assignments hl h, hfilter, lookup_filter_ne]

/-! ## Edits are addressed -/

variable {draft next : Project}
variable {edit : Edit}

theorem applyEdit_keyed (hdraft : draft.Keyed) (h : applyEdit draft edit = .ok next) :
    next.Keyed := by
  cases edit with
  | release id =>
    simp only [applyEdit, unassignItem] at h
    split at h
    · cases h
    · cases h
      exact ⟨hdraft.assignments.sublist ((spliceOut_sublist _ _ _).map _), hdraft.connections⟩
  | move source target migration id =>
    simp only [applyEdit, moveAssignment] at h
    split at h
    · cases h
    · split at h
      · cases h
      · cases h
        refine ⟨?_, hdraft.connections⟩
        rw [map_modifyFirst fun a _ => Assignment.moveTo_id a _ _ _]
        exact hdraft.assignments
  | rewire id role source target =>
    simp only [applyEdit, moveConnectionEndpoint] at h
    split at h
    · cases h
    · split at h
      · cases h
      · cases h
        refine ⟨hdraft.assignments, ?_⟩
        rw [map_modifyFirst fun a _ => Connection.setEndpoint_id a _ _]
        exact hdraft.connections

theorem applyEdit_content (hdraft : draft.Keyed) (h : applyEdit draft edit = .ok next) :
    edit.act (draft.content edit.place) = .ok (next.content edit.place) ∧
      ∀ place, place ≠ edit.place → next.content place = draft.content place := by
  cases edit with
  | release id =>
    simp only [applyEdit, unassignItem] at h
    split at h
    · cases h
    · rename_i assignment hfound
      cases h
      have hlook := lookup_spliceOut hdraft.assignments hfound
      refine ⟨?_, ?_⟩
      · simp [Edit.place, Project.content, hfound, Edit.act, hlook]
      · intro place hplace
        cases place with
        | assignment other =>
          have hne : other ≠ id := fun hid => hplace (hid ▸ rfl)
          simp [Project.content, hlook, hne]
        | cableEnd connectionId role => rfl
  | move source target migration id =>
    simp only [applyEdit, moveAssignment] at h
    split at h
    · cases h
    · rename_i assignment hfound
      split at h
      · cases h
      · rename_i hat
        cases h
        refine ⟨?_, ?_⟩
        · simp only [Edit.place, Project.content, hfound, Option.map_some, Edit.act, if_neg hat]
          rw [lookup_modifyFirst fun a => Assignment.moveTo_id a _ _ _, if_pos rfl, hfound]
          rfl
        · intro place hplace
          cases place with
          | assignment other =>
            have hne : other ≠ id := fun hid => hplace (hid ▸ rfl)
            simp only [Project.content]
            rw [lookup_modifyFirst fun a => Assignment.moveTo_id a _ _ _, if_neg hne]
          | cableEnd connectionId role => rfl
  | rewire id role source target =>
    simp only [applyEdit, moveConnectionEndpoint] at h
    split at h
    · cases h
    · rename_i connection hfound
      split at h
      · cases h
      · rename_i hat
        cases h
        refine ⟨?_, ?_⟩
        · simp only [Edit.place, Project.content, hfound, Option.map_some, Edit.act, if_neg hat]
          rw [lookup_modifyFirst fun c => Connection.setEndpoint_id c _ _, if_pos rfl, hfound]
          simp [Connection.endpoint_setEndpoint]
        · intro place hplace
          cases place with
          | assignment other => rfl
          | cableEnd connectionId other =>
            simp only [Project.content]
            rw [lookup_modifyFirst fun c => Connection.setEndpoint_id c _ _]
            by_cases hid : connectionId = id
            · subst hid
              have hne : other ≠ role := fun hr => hplace (hr ▸ rfl)
              simp [hfound, Connection.endpoint_setEndpoint, hne]
            · rw [if_neg hid]

/-- An edit that can be made at its place can be made. -/
theorem applyEdit_total {content : Option Content}
    (h : edit.act (draft.content edit.place) = .ok content) :
    ∃ next, applyEdit draft edit = .ok next := by
  cases edit with
  | release id =>
    cases hfound : lookup Assignment.id draft.assignments id with
    | none => simp [Edit.place, Project.content, hfound, Edit.act] at h
    | some assignment => exact ⟨_, by simp only [applyEdit, unassignItem, hfound]; rfl⟩
  | move source target migration id =>
    cases hfound : lookup Assignment.id draft.assignments id with
    | none => simp [Edit.place, Project.content, hfound, Edit.act] at h
    | some assignment =>
      simp only [Edit.place, Project.content, hfound, Option.map_some, Edit.act] at h
      split at h
      · cases h
      · rename_i hat
        exact ⟨_, by simp only [applyEdit, moveAssignment, hfound, if_neg hat]; rfl⟩
  | rewire id role source target =>
    cases hfound : lookup Connection.id draft.connections id with
    | none => simp [Edit.place, Project.content, hfound, Edit.act] at h
    | some connection =>
      simp only [Edit.place, Project.content, hfound, Option.map_some, Edit.act] at h
      split at h
      · cases h
      · rename_i hat
        exact ⟨_, by simp only [applyEdit, moveConnectionEndpoint, hfound, if_neg hat]; rfl⟩

/-- **Edits are addressed**: each reads and writes one place of the project. -/
theorem addressed_applyEdit :
    Addressed Project.Keyed applyEdit Edit.place Project.content Edit.act where
  keeps := applyEdit_keyed
  here hs h := (applyEdit_content hs h).1
  elsewhere hs h hk := (applyEdit_content hs h).2 _ hk
  runs _ h := applyEdit_total h

end HomelabInventory.CatalogResolution
