import HomelabInventory.ChangeTracking
import HomelabInventory.ProjectDocument
import HomelabInventory.RouteBatches

/-!
# Patches and their inverses

The forward patch of a command takes the document of the state before it to the
document of the state after it, and the inverse patch takes it back. Both are
scripts of simple patches; each command is shown to write a script that undoes.
-/

namespace HomelabInventory

open List

variable {K : Type}

/-! ## Views of snapshots -/

/-- The view of the document of a snapshot. -/
def snapshotView (name : String) (snapshot : TopologySnapshot K) : DocumentView K where
  name := name
  connections := fun id =>
    (lookup TopologyConnection.id snapshot.connections id).map runtimeConnection
  assignments := fun id =>
    (lookup TopologyAssignment.id snapshot.assignments id).map runtimeAssignment

/-- The items whose runtime keys the document of a snapshot needs. -/
def TopologySnapshot.documentRefs (snapshot : TopologySnapshot K) : List ItemRef :=
  snapshot.connections.flatMap (·.itemRefs) ++ snapshot.assignments.flatMap (·.itemRefs)

/-- Two scripts of single patches that lead from one named snapshot to another and back. -/
structure Undoes (name name' : String) (before after : TopologySnapshot K)
    (forward inverse : List (ProjectPatch K)) : Prop where
  forward_leaf : ∀ patch ∈ forward, patch.isLeaf = true
  inverse_leaf : ∀ patch ∈ inverse, patch.isLeaf = true
  forward_refs : ∀ patch ∈ forward, patch.itemRefs ⊆ after.documentRefs
  inverse_refs : ∀ patch ∈ inverse, patch.itemRefs ⊆ before.documentRefs
  apply_forward : (snapshotView name before).applyAll forward = snapshotView name' after
  apply_inverse : (snapshotView name' after).applyAll inverse = snapshotView name before

/-- A prepared change whose patches are the batches of two such scripts. -/
def TopologyChange.Undoable (before : TopologySnapshot K) (change : TopologyChange K) : Prop :=
  ∃ forward inverse, change.forward = batchPatch forward ∧ change.inverse = batchPatch inverse ∧
    ∀ name, Undoes name name before change.snapshot forward inverse

/-! ## Labels and routes -/

/-- Changing one connection changes it in the view. -/
theorem snapshotView_modifyConnection (f : TopologyConnection K → TopologyConnection K)
    (g : RuntimeConnection K → RuntimeConnection K)
    (hf : ∀ connection, (f connection).id = connection.id)
    (hg : ∀ connection, runtimeConnection (f connection) = g (runtimeConnection connection))
    (name : String) (snapshot : TopologySnapshot K) (connectionId : ℕ) :
    snapshotView name
        { snapshot with connections := modifyConnection connectionId f snapshot.connections } =
      (snapshotView name snapshot).modify connectionId g := by
  ext1
  · rfl
  · funext id
    simp only [snapshotView, DocumentView.modify, lookup_modifyConnection hf]
    by_cases hid : id = connectionId
    · simp [hid, hg, Function.comp_def]
    · simp [hid]
  · rfl

variable {connectionId : ℕ}

/-- Changing a shown connection twice, the second time to what it was. -/
theorem DocumentView.modify_modify_cancel {view : DocumentView K}
    {f g : RuntimeConnection K → RuntimeConnection K}
    (h : ∀ connection, view.connections connectionId = some connection →
      g (f connection) = connection) :
    (view.modify connectionId f).modify connectionId g = view := by
  ext1
  · rfl
  · funext id
    simp only [modify]
    by_cases hid : id = connectionId
    · subst hid
      cases hview : view.connections id with
      | none => simp
      | some connection => simp [h connection hview]
    · simp [hid]
  · rfl

variable {before snapshot : TopologySnapshot K}
variable {connection : TopologyConnection K}

theorem snapshotView_connections_of_lookup {name : String} {id : ℕ}
    (h : lookup TopologyConnection.id snapshot.connections id = some connection)
    {shown : RuntimeConnection K}
    (hshown : (snapshotView name snapshot).connections id = some shown) :
    shown = runtimeConnection connection := by
  simp only [snapshotView, h, Option.map_some, Option.some.injEq] at hshown
  exact hshown.symm

variable {change : TopologyChange K}

theorem prepareLabel_undoable {label : Option String}
    (h : prepareLabel before connectionId label = .ok change) : change.Undoable before := by
  unfold prepareLabel at h
  dsimp only at h
  split at h
  · cases h
  · rename_i connection hfind
    cases h
    rw [find?_id_eq_lookup] at hfind
    refine ⟨[.setConnectionLabel connectionId ((label.map trim).filter (!·.isEmpty))],
      [.setConnectionLabel connectionId connection.label], rfl, rfl, ?_⟩
    intro name
    have hview : ∀ label, snapshotView name { before with
          connections := modifyConnection connectionId ({ · with label := label })
            before.connections } =
        (snapshotView name before).modify connectionId ({ · with label := label }) :=
      fun label => snapshotView_modifyConnection ({ · with label := label })
        ({ · with label := label }) (fun _ => rfl) (fun _ => rfl) name before _
    refine ⟨by simp [ProjectPatch.isLeaf], by simp [ProjectPatch.isLeaf],
      by simp [ProjectPatch.itemRefs], by simp [ProjectPatch.itemRefs], ?_, ?_⟩
    · rw [DocumentView.applyAll_cons, DocumentView.applyAll_nil, hview, DocumentView.apply]
    · rw [DocumentView.applyAll_cons, DocumentView.applyAll_nil, hview, DocumentView.apply]
      apply DocumentView.modify_modify_cancel
      intro shown hshown
      rw [snapshotView_connections_of_lookup hfind hshown]
      rfl

/-- Setting the route of a found connection, and setting it back. -/
theorem setRoute_views (before : TopologySnapshot K)
    (hfind : lookup TopologyConnection.id before.connections connectionId = some connection)
    (name : String) (route : Option (ConnectionRoute K)) :
    let after := { before with
      connections := modifyConnection connectionId ({ · with route := route }) before.connections }
    (snapshotView name before).apply (.setConnectionRoute connectionId route) =
        snapshotView name after ∧
      (snapshotView name after).apply (.setConnectionRoute connectionId connection.route) =
        snapshotView name before := by
  intro after
  have hview : snapshotView name after = (snapshotView name before).modify connectionId
      ({ · with route := runtimeRoute route }) :=
    snapshotView_modifyConnection ({ · with route := route }) ({ · with route := runtimeRoute route })
      (fun _ => rfl) (fun _ => rfl) name before _
  rw [hview, DocumentView.apply, DocumentView.apply]
  refine ⟨rfl, ?_⟩
  apply DocumentView.modify_modify_cancel
  intro shown hshown
  rw [snapshotView_connections_of_lookup hfind hshown]
  rfl

theorem prepareRoute_undoable {route : Option (ConnectionRoute K)}
    (h : prepareRoute before connectionId route = .ok change) : change.Undoable before := by
  unfold prepareRoute at h
  split at h
  · cases h
  · rename_i connection hfind
    cases h
    rw [find?_id_eq_lookup] at hfind
    refine ⟨[.setConnectionRoute connectionId route],
      [.setConnectionRoute connectionId connection.route], rfl, rfl, ?_⟩
    intro name
    refine ⟨by simp [ProjectPatch.isLeaf], by simp [ProjectPatch.isLeaf],
      by simp [ProjectPatch.itemRefs], by simp [ProjectPatch.itemRefs], ?_, ?_⟩
    · rw [DocumentView.applyAll_cons, DocumentView.applyAll_nil]
      exact (setRoute_views before hfind name route).1
    · rw [DocumentView.applyAll_cons, DocumentView.applyAll_nil]
      exact (setRoute_views before hfind name route).2

/-! ## Batches of routes -/

/-- A patch that sets a route. -/
def ProjectPatch.isRoute : ProjectPatch K → Bool
  | .setConnectionRoute _ _ => true
  | _ => false

theorem ProjectPatch.isLeaf_of_isRoute {patch : ProjectPatch K} (h : patch.isRoute = true) :
    patch.isLeaf = true := by
  cases patch <;> first | rfl | cases h

theorem ProjectPatch.itemRefs_of_isRoute {patch : ProjectPatch K} (h : patch.isRoute = true) :
    patch.itemRefs = [] := by
  cases patch <;> first | rfl | cases h

/-- Scripts that set routes undo as soon as they do so on views. -/
theorem Undoes.of_isRoute {name : String} {before after : TopologySnapshot K}
    {forward inverse : List (ProjectPatch K)}
    (hforward : ∀ patch ∈ forward, patch.isRoute = true)
    (hinverse : ∀ patch ∈ inverse, patch.isRoute = true)
    (hviews : (snapshotView name before).applyAll forward = snapshotView name after ∧
      (snapshotView name after).applyAll inverse = snapshotView name before) :
    Undoes name name before after forward inverse where
  forward_leaf patch hpatch := ProjectPatch.isLeaf_of_isRoute (hforward patch hpatch)
  inverse_leaf patch hpatch := ProjectPatch.isLeaf_of_isRoute (hinverse patch hpatch)
  forward_refs patch hpatch := by
    rw [ProjectPatch.itemRefs_of_isRoute (hforward patch hpatch)]
    exact nil_subset _
  inverse_refs patch hpatch := by
    rw [ProjectPatch.itemRefs_of_isRoute (hinverse patch hpatch)]
    exact nil_subset _
  apply_forward := hviews.1
  apply_inverse := hviews.2

/-- Setting routes one after the other, and back in the other order. -/
theorem RouteChain.views {connections : List (TopologyConnection K)}
    {entries : List (TopologyConnection K × Option (ConnectionRoute K))}
    (h : RouteChain connections entries) (name : String) (before : TopologySnapshot K) :
    (snapshotView name { before with connections := connections }).applyAll
          (entries.map forwardRoute) =
        snapshotView name { before with connections := setRoutes connections entries } ∧
      (snapshotView name { before with connections := setRoutes connections entries }).applyAll
          (entries.map inverseRoute).reverse =
        snapshotView name { before with connections := connections } := by
  induction entries generalizing connections with
  | nil => exact ⟨by simp [setRoutes], by simp [setRoutes]⟩
  | cons entry rest ih =>
    obtain ⟨hlookup, hrest⟩ := h
    obtain ⟨hforward, hinverse⟩ := ih hrest
    obtain ⟨hset, hback⟩ :=
      setRoute_views { before with connections := connections } hlookup name entry.2
    rw [setRoutes]
    constructor
    · rw [map_cons, DocumentView.applyAll_cons, ← hforward]
      exact congrArg (DocumentView.applyAll · _) hset
    · rw [map_cons, reverse_cons, DocumentView.applyAll_append, hinverse,
        DocumentView.applyAll_cons, DocumentView.applyAll_nil]
      exact hback

theorem RouteBatch.undoable [Scalar K]
    {entries : List (TopologyConnection K × Option (ConnectionRoute K))}
    (h : RouteBatch before change entries) : change.Undoable before := by
  refine ⟨entries.map forwardRoute, (entries.map inverseRoute).reverse, ?_, ?_, ?_⟩
  · rw [h.change_eq]
  · rw [h.change_eq]
  · intro name
    have hviews := h.chain.views name before
    rw [h.change_eq]
    refine Undoes.of_isRoute ?_ ?_ hviews
    · intro patch hpatch
      obtain ⟨entry, -, rfl⟩ := mem_map.mp hpatch
      rfl
    · intro patch hpatch
      obtain ⟨entry, -, rfl⟩ := mem_map.mp (mem_reverse.mp hpatch)
      rfl

/-! ## Derived states -/

section Derived

variable {before after : TopologySnapshot K}

/-- The connections that both snapshots have differ in nothing but their derived state. -/
def Rederived (before after : TopologySnapshot K) : Prop :=
  ∀ id previous connection, lookup TopologyConnection.id before.connections id = some previous →
    lookup TopologyConnection.id after.connections id = some connection →
      ∃ state, connection = previous.withDerived state

/-- The view of the connections of `after`, as `before` derives them. -/
def staleView (name : String) (before after : TopologySnapshot K) : DocumentView K :=
  { snapshotView name after with
    connections := fun id =>
      (lookup TopologyConnection.id after.connections id).map fun connection =>
        runtimeConnection ((lookup TopologyConnection.id before.connections id).getD connection) }

/-- The changes of derived states are those of the connections that both
snapshots have and that differ. -/
theorem mem_connectionDerivedChanges (hbefore : (before.connections.map (·.id)).Nodup)
    (hafter : (after.connections.map (·.id)).Nodup)
    {change : ConnectionDerivedState × ConnectionDerivedState} :
    change ∈ connectionDerivedChanges before after ↔
      ∃ id previous connection, lookup TopologyConnection.id before.connections id = some previous ∧
        lookup TopologyConnection.id after.connections id = some connection ∧
        ¬(previous.connectionType = connection.connectionType ∧
          previous.negotiatedSpeedBps = connection.negotiatedSpeedBps) ∧
        change = (connection.derived, previous.derived) := by
  simp only [connectionDerivedChanges, mem_filterMap, getElem?_collectEntries_map hbefore]
  constructor
  · rintro ⟨connection, hconnection, hchange⟩
    split at hchange
    · cases hchange
    · rename_i previous hprevious
      split at hchange
      · cases hchange
      · rename_i hdiffers
        exact ⟨connection.id, previous, connection, hprevious, lookup_of_mem hafter hconnection,
          hdiffers, (Option.some.inj hchange).symm⟩
  · rintro ⟨id, previous, connection, hprevious, hlookup, hdiffers, rfl⟩
    obtain ⟨hconnection, rfl⟩ := lookup_eq_some hlookup
    refine ⟨connection, hconnection, ?_⟩
    rw [hprevious]
    simp only [if_neg hdiffers]

/-- The derived states after and before the change of a connection, when they differ. -/
def changedStates (before after : TopologySnapshot K) (id : ℕ) :
    Option (ConnectionDerivedState × ConnectionDerivedState) :=
  (lookup TopologyConnection.id before.connections id).bind fun previous =>
    (lookup TopologyConnection.id after.connections id).bind fun connection =>
      if previous.connectionType = connection.connectionType ∧
        previous.negotiatedSpeedBps = connection.negotiatedSpeedBps then none
      else some (connection.derived, previous.derived)

/-- One side of the changes of derived states as a map. -/
theorem get?_connectionDerivedChanges (hbefore : (before.connections.map (·.id)).Nodup)
    (hafter : (after.connections.map (·.id)).Nodup)
    (side : ConnectionDerivedState × ConnectionDerivedState → ConnectionDerivedState)
    (hside : ∀ change, change.1.connectionId = change.2.connectionId →
      (side change).connectionId = change.1.connectionId) (id : ℕ) :
    InsertionMap.get? (InsertionMap.ofEntries
        (((connectionDerivedChanges before after).map side).map fun state =>
          (state.connectionId, state))) id =
      (changedStates before after id).map side := by
  apply InsertionMap.get?_ofEntries_of_forall
  intro state
  simp only [map_map, mem_map, Function.comp_apply, Prod.mk.injEq,
    mem_connectionDerivedChanges hbefore hafter, changedStates, Option.map_eq_some_iff,
    Option.bind_eq_some_iff]
  constructor
  · rintro ⟨change, ⟨id', previous, connection, hprevious, hconnection, hdiffers, rfl⟩, hid, rfl⟩
    have hids : connection.id = previous.id :=
      (lookup_eq_some hconnection).2.trans (lookup_eq_some hprevious).2.symm
    have hkey : connection.id = id := (hside _ hids).symm.trans hid
    rw [(lookup_eq_some hconnection).2] at hkey
    subst hkey
    exact ⟨_, ⟨previous, hprevious, connection, hconnection, if_neg hdiffers⟩, rfl⟩
  · rintro ⟨change, ⟨previous, hprevious, connection, hconnection, hchange⟩, rfl⟩
    have hids : connection.id = previous.id :=
      (lookup_eq_some hconnection).2.trans (lookup_eq_some hprevious).2.symm
    split at hchange
    · cases hchange
    · rename_i hdiffers
      obtain rfl := Option.some.inj hchange
      exact ⟨_, ⟨id, previous, connection, hprevious, hconnection, hdiffers, rfl⟩,
        (hside _ hids).trans (lookup_eq_some hconnection).2, rfl⟩

theorem derivedPatch_applyAll (view : DocumentView K) (states : List ConnectionDerivedState) :
    view.applyAll (derivedPatch states) = view.apply (.setConnectionDerived states) := by
  unfold derivedPatch
  split
  · rename_i hempty
    obtain rfl := List.isEmpty_iff.mp hempty
    rw [DocumentView.applyAll_nil, DocumentView.apply]
    ext1
    · rfl
    · funext id
      exact (congrFun Option.map_id (view.connections id)).symm
    · rfl
  · simp

/-- The derived states after the change turn the stale view into the new one, and the ones before
it turn the new view into the stale one. -/
theorem derivedViews_applyAll (hbefore : (before.connections.map (·.id)).Nodup)
    (hafter : (after.connections.map (·.id)).Nodup) (hrederived : Rederived before after)
    (name : String) :
    (staleView name before after).applyAll
        (derivedPatch ((connectionDerivedChanges before after).map (·.1))) =
      snapshotView name after ∧
    (snapshotView name after).applyAll
        (derivedPatch ((connectionDerivedChanges before after).map (·.2))) =
      staleView name before after := by
  rw [derivedPatch_applyAll, DocumentView.apply, derivedPatch_applyAll, DocumentView.apply]
  rw [DocumentView.ext_iff, DocumentView.ext_iff]
  refine ⟨⟨rfl, funext fun id => ?_, rfl⟩, rfl, funext fun id => ?_, rfl⟩
  all_goals
    simp only [get?_connectionDerivedChanges hbefore hafter (·.1) (fun _ _ => rfl),
      get?_connectionDerivedChanges hbefore hafter (·.2) (fun _ h => h.symm), staleView,
      snapshotView, changedStates]
    cases hconnection : lookup TopologyConnection.id after.connections id with
    | none => rfl
    | some connection =>
      cases hprevious : lookup TopologyConnection.id before.connections id with
      | none => rfl
      | some previous =>
        obtain ⟨state, rfl⟩ := hrederived id previous connection hprevious hconnection
        by_cases hsame : previous.connectionType = state.connectionType ∧
          previous.negotiatedSpeedBps = state.negotiatedSpeedBps
        · simp [TopologyConnection.withDerived, runtimeConnection, hsame]
        · simp [TopologyConnection.withDerived, TopologyConnection.derived, runtimeConnection, hsame]

theorem derivedPatch_isLeaf {states : List ConnectionDerivedState} {patch : ProjectPatch K}
    (h : patch ∈ derivedPatch states) : patch.isLeaf = true := by
  unfold derivedPatch at h
  split at h
  · cases h
  · rw [mem_singleton.mp h]
    rfl

theorem derivedPatch_itemRefs {states : List ConnectionDerivedState} {patch : ProjectPatch K}
    (h : patch ∈ derivedPatch states) : patch.itemRefs = [] := by
  unfold derivedPatch at h
  split at h
  · cases h
  · rw [mem_singleton.mp h]
    rfl

/-- The scripts of a change that first does `patch` and then stores the derived
states, and of its inverse. -/
theorem Undoes.of_stale (hbefore : (before.connections.map (·.id)).Nodup)
    (hafter : (after.connections.map (·.id)).Nodup) (hrederived : Rederived before after)
    (patch inverse : ProjectPatch K) (hpatch : patch.isLeaf = true)
    (hinverse : inverse.isLeaf = true) (hpatchRefs : patch.itemRefs ⊆ after.documentRefs)
    (hinverseRefs : inverse.itemRefs ⊆ before.documentRefs)
    {name : String}
    (hforward : (snapshotView name before).apply patch = staleView name before after)
    (hback : (staleView name before after).apply inverse = snapshotView name before) :
    Undoes name name before after
      (patch :: derivedPatch ((connectionDerivedChanges before after).map (·.1)))
      (derivedPatch ((connectionDerivedChanges before after).map (·.2)) ++ [inverse]) where
  forward_leaf := by
    intro other hother
    rcases mem_cons.mp hother with rfl | hother
    · exact hpatch
    · exact derivedPatch_isLeaf hother
  inverse_leaf := by
    intro other hother
    rcases mem_append.mp hother with hother | hother
    · exact derivedPatch_isLeaf hother
    · rw [mem_singleton.mp hother]
      exact hinverse
  forward_refs := by
    intro other hother
    rcases mem_cons.mp hother with rfl | hother
    · exact hpatchRefs
    · rw [derivedPatch_itemRefs hother]
      exact nil_subset _
  inverse_refs := by
    intro other hother
    rcases mem_append.mp hother with hother | hother
    · rw [derivedPatch_itemRefs hother]
      exact nil_subset _
    · rw [mem_singleton.mp hother]
      exact hinverseRefs
  apply_forward := by
    rw [DocumentView.applyAll_cons, hforward, (derivedViews_applyAll hbefore hafter hrederived _).1]
  apply_inverse := by
    rw [DocumentView.applyAll_append, (derivedViews_applyAll hbefore hafter hrederived _).2,
      DocumentView.applyAll_cons, DocumentView.applyAll_nil, hback]

end Derived

/-! ## Creating and removing connections -/

theorem itemRefs_subset_documentRefs (h : connection ∈ snapshot.connections) :
    connection.itemRefs ⊆ snapshot.documentRefs := by
  intro ref href
  exact mem_append_left _ (mem_flatMap.mpr ⟨connection, h, href⟩)

variable [Scalar K]

theorem prepareAddition_undoable (hbefore : (before.connections.map (·.id)).Nodup)
    (hfresh : ∀ other ∈ before.connections, other.id ≠ connection.id)
    (h : prepareAddition before connection = .ok change) : change.Undoable before := by
  obtain ⟨index, snapshot, hindex, hsnapshot, rfl⟩ := prepareAddition_eq_ok hfresh h
  -- the connections after the change, as lookups
  have hlookup : ∀ id, lookup TopologyConnection.id snapshot.connections id =
      (if id = connection.id then some connection
        else lookup TopologyConnection.id before.connections id).map fun connection =>
          connection.withDerived (index.connectionDerivedState connection) := by
    intro id
    rw [hsnapshot, lookup_restated, hindex, lookup_sortByKey, lookup_snoc_of_fresh hfresh]
  have hafter : (snapshot.connections.map (·.id)).Nodup := by
    rw [hsnapshot, map_map]
    exact index.valid.connections_nodup
  have hmem : connection.withDerived (index.connectionDerivedState connection) ∈
      snapshot.connections := by
    have hfound := hlookup connection.id
    rw [if_pos rfl] at hfound
    exact (lookup_eq_some hfound).1
  have hassignments : snapshot.assignments = before.assignments := by rw [hsnapshot, hindex]
  have hrederived : Rederived before snapshot := by
    intro id previous after hprevious hafter
    have hne : id ≠ connection.id := by
      rintro rfl
      exact hfresh previous (lookup_eq_some hprevious).1 (lookup_eq_some hprevious).2
    rw [hlookup, if_neg hne, hprevious] at hafter
    exact ⟨_, (Option.some.inj hafter).symm⟩
  refine ⟨_, _, rfl, rfl, ?_⟩
  intro name
  refine Undoes.of_stale hbefore hafter hrederived (.addConnection _) (.removeConnection _) rfl rfl
    (itemRefs_subset_documentRefs hmem) (nil_subset _) ?_ ?_
  · rw [DocumentView.apply]
    ext1
    · rfl
    · funext id
      simp only [staleView, snapshotView, hlookup]
      by_cases hid : id = connection.id
      · subst hid
        rw [lookup_eq_none.mpr hfresh]
        simp [TopologyConnection.withDerived]
      · simp only [if_neg hid]
        cases lookup TopologyConnection.id before.connections id with
        | none => simp [TopologyConnection.withDerived, hid]
        | some previous => rfl
    · simp only [staleView, snapshotView, hassignments]
  · rw [DocumentView.apply]
    ext1
    · rfl
    · funext id
      simp only [staleView, snapshotView, hlookup]
      by_cases hid : id = connection.id
      · subst hid
        rw [lookup_eq_none.mpr hfresh]
        simp [TopologyConnection.withDerived]
      · have hne : ¬id = (connection.withDerived (index.connectionDerivedState connection)).id := hid
        simp only [if_neg hid, if_neg hne]
        cases lookup TopologyConnection.id before.connections id <;> rfl
    · simp only [staleView, snapshotView, hassignments]

theorem prepareRemoval_undoable (hbefore : (before.connections.map (·.id)).Nodup)
    (h : prepareRemoval before connectionId = .ok change) : change.Undoable before := by
  obtain ⟨connection, snapshot, hfind, hnormalize, rfl⟩ := prepareRemoval_eq_ok h
  obtain ⟨index, hindex, hsnapshot⟩ := normalizeConnectionDerived_eq_ok hnormalize
  obtain ⟨hmem, hid⟩ := lookup_eq_some hfind
  have hlookup : ∀ id, lookup TopologyConnection.id snapshot.connections id =
      (if id = connectionId then none
        else lookup TopologyConnection.id before.connections id).map fun connection =>
          connection.withDerived (index.connectionDerivedState connection) := by
    intro id
    rw [hsnapshot, lookup_restated]
    exact congrArg _ (lookup_filter_ne before.connections connectionId id)
  have hafter : (snapshot.connections.map (·.id)).Nodup := by
    have hnodup := index.valid.connections_nodup
    rw [hindex] at hnodup
    rw [hsnapshot, map_map]
    exact hnodup
  have hassignments : snapshot.assignments = before.assignments := by rw [hsnapshot]
  have hrederived : Rederived before snapshot := by
    intro id previous after hprevious hafter
    rw [hlookup, hprevious] at hafter
    split at hafter
    · cases hafter
    · exact ⟨_, (Option.some.inj hafter).symm⟩
  refine ⟨_, _, rfl, rfl, ?_⟩
  intro name
  refine Undoes.of_stale hbefore hafter hrederived (.removeConnection _) (.addConnection _) rfl rfl
    (nil_subset _) (itemRefs_subset_documentRefs hmem) ?_ ?_
  · rw [DocumentView.apply]
    ext1
    · rfl
    · funext id
      simp only [staleView, snapshotView, hlookup, hid]
      by_cases hid' : id = connectionId
      · simp [hid']
      · simp only [if_neg hid']
        cases lookup TopologyConnection.id before.connections id <;> rfl
    · simp only [staleView, snapshotView, hassignments]
  · rw [DocumentView.apply]
    ext1
    · rfl
    · funext id
      simp only [staleView, snapshotView, hlookup, hid]
      by_cases hid' : id = connectionId
      · subst hid'
        simp [hfind]
      · simp only [if_neg hid', Option.or_none]
        cases lookup TopologyConnection.id before.connections id <;> rfl
    · simp only [staleView, snapshotView, hassignments]

/-! ## Assignments -/

omit [Scalar K] in
/-- The view of a patch of assignments, when its lists lead from one state to another. -/
theorem Leads.applyAssignments {upsert : List TopologyAssignment} {remove : List ℕ}
    {before after : ℕ → Option TopologyAssignment}
    (h : Leads TopologyAssignment.id upsert remove before after) (view : DocumentView K)
    (hview : view.assignments = fun id => (before id).map runtimeAssignment) :
    view.apply (.patchAssignments (sortByKey (·.id) upsert) (sortBy compare remove)) =
      { view with assignments := fun id => (after id).map runtimeAssignment } := by
  have hsorted : Leads TopologyAssignment.id (sortByKey (·.id) upsert) (sortBy compare remove)
      before after := h.congr (fun _ => mem_sortByKey) (fun _ => mem_sortBy)
  rw [DocumentView.apply]
  ext1
  · rfl
  · rfl
  · funext id
    dsimp only
    rw [← hsorted.apply_eq id, hview, Option.map_or]
    congr 1
    split <;> rfl

omit [Scalar K] in
theorem prepareAssignments_undoable (hnodup : (before.assignments.map (·.id)).Nodup)
    {changes : List AssignmentChange} (h : prepareAssignments before changes = .ok change) :
    change.Undoable before := by
  obtain ⟨plan, hplan, -, rfl⟩ := prepareAssignments_eq_ok.mp h
  have htracks := prepareAssignments_tracks hnodup hplan
  have hvalues := lookup_values htracks.keyed
  -- the entries of the lists belong to the snapshots they lead to
  have hrefs : ∀ (snapshot : TopologySnapshot K) (upsert : List TopologyAssignment)
      (removed : List ℕ), (∀ assignment ∈ upsert, assignment ∈ snapshot.assignments) →
      ∀ patch ∈ [ProjectPatch.patchAssignments (K := K) (sortByKey (·.id) upsert) removed],
        patch.itemRefs ⊆ snapshot.documentRefs := by
    intro snapshot upsert removed hupsert patch hpatch ref href
    rw [mem_singleton.mp hpatch, ProjectPatch.itemRefs, mem_flatMap] at href
    obtain ⟨assignment, hassignment, href⟩ := href
    exact mem_append_right _
      (mem_flatMap.mpr ⟨assignment, hupsert assignment (mem_sortByKey.mp hassignment), href⟩)
  refine ⟨[_], [_], rfl, rfl, fun name => ?_⟩
  refine ⟨by simp [ProjectPatch.isLeaf], by simp [ProjectPatch.isLeaf], hrefs _ _ _ ?_,
    hrefs _ _ _ ?_, ?_, ?_⟩
  · intro assignment hassignment
    exact mem_values.mpr ⟨_, htracks.lists.forward.upserted assignment hassignment⟩
  · intro assignment hassignment
    exact (lookup_eq_some (htracks.lists.inverse.upserted assignment hassignment)).1
  · rw [DocumentView.applyAll_cons, DocumentView.applyAll_nil,
      htracks.lists.forward.applyAssignments _ rfl]
    simp only [snapshotView, hvalues]
  · rw [DocumentView.applyAll_cons, DocumentView.applyAll_nil,
      htracks.lists.inverse.applyAssignments _ (by simp only [snapshotView, hvalues])]
    rfl

/-! ## Commands -/

/-- The operations that change placements; their patches say nothing about
connections, assignments or the name. -/
def Operation.changesPlacements : Operation K → Bool
  | .updatePlacements _ | .snapPlacementsToGrid _ _ _ => true
  | _ => false

/-- The patches of a command are the batches of scripts that lead from the
project before it to the project after it and back. -/
def Engine.Undoes (engine next : Engine K) (patches : CommandPatchSet K) : Prop :=
  ∃ forward inverse, patches.forward = batchPatch forward ∧ patches.inverse = batchPatch inverse ∧
    HomelabInventory.Undoes engine.projectName next.projectName engine.topology.snapshot
      next.topology.snapshot forward inverse

theorem Engine.CommitOf.undoes {engine next : Engine K} {patches : CommandPatchSet K}
    (h : engine.CommitOf change next patches) (hundo : change.Undoable engine.topology.snapshot) :
    engine.Undoes next patches := by
  obtain ⟨forward, inverse, hforward, hinverse, hundo⟩ := hundo
  refine ⟨forward, inverse, ?_, ?_, ?_⟩
  · rw [h.answer, hforward]
  · rw [h.answer, hinverse]
  · rw [h.projectName_eq, h.snapshot_eq]
    exact hundo engine.projectName

/-- Every command other than those on placements undoes what its patch does. -/
theorem Engine.perform_undoes {engine next : Engine K} {operation : Operation K}
    {patches : CommandPatchSet K} (hoperation : operation.changesPlacements = false)
    (h : engine.perform operation = (next, .patch patches)) : engine.Undoes next patches := by
  have hvalid := engine.topology.valid
  cases perform_commits h with
  | created hprepare hcommit hnext =>
    obtain rfl := hnext
    obtain ⟨_, _, -, -, -, hid, -, hadd⟩ := prepareCreation_eq_ok.mp hprepare
    have hfresh := allocateConnectionId_eq_ok hid
    have hundo := prepareAddition_undoable hvalid.connections_nodup
      (fun other hother => (hfresh other hother).ne) hadd
    exact hcommit.undoes hundo
  | removed hprepare hcommit =>
    exact hcommit.undoes (prepareRemoval_undoable hvalid.connections_nodup hprepare)
  | labelled hprepare hcommit => exact hcommit.undoes (prepareLabel_undoable hprepare)
  | routed hprepare hcommit => exact hcommit.undoes (prepareRoute_undoable hprepare)
  | batch _ hbatch hcommit => exact hcommit.undoes hbatch.undoable
  | @renamed name h =>
    obtain ⟨-, -, rfl, rfl⟩ := updateProjectMetadata_eq_patch.mp h
    exact ⟨[.setProjectName (trim name)], [.setProjectName engine.projectName], rfl, rfl,
      by simp [ProjectPatch.isLeaf], by simp [ProjectPatch.isLeaf],
      by simp [ProjectPatch.itemRefs], by simp [ProjectPatch.itemRefs], rfl, rfl⟩
  | assigned _ hprepare hcommit =>
    exact hcommit.undoes (prepareAssignments_undoable hvalid.assignments_nodup hprepare)
  | placed hplaces _ => obtain rfl | ⟨_, _, _, rfl⟩ := hplaces <;> cases hoperation

/-! ## Documents -/

section Documents

variable (parses : String → Bool)

/-- The document of the state of an engine, with the coordinates that only the
client keeps. There is none when an item has a key that does not parse. -/
def Engine.document (engine : Engine K) (placements : List (RuntimePlacement K)) :
    Option (ProjectDocument K) :=
  if engine.topology.snapshot.documentRefs.all fun item => parses (itemKey item) then
    some
      { revision := engine.revision
        name := engine.projectName
        connections := engine.topology.snapshot.connections.map runtimeConnection
        assignments := engine.topology.snapshot.assignments.map runtimeAssignment
        placements := placements }
  else none

theorem Engine.document_eq_some {engine : Engine K} {placements : List (RuntimePlacement K)}
    {document : ProjectDocument K} (h : engine.document parses placements = some document) :
    (∀ ref ∈ engine.topology.snapshot.documentRefs, parses (itemKey ref) = true) ∧
      document.view = snapshotView engine.projectName engine.topology.snapshot ∧
      document.placements = placements := by
  unfold Engine.document at h
  split at h
  · rename_i hparse
    cases h
    refine ⟨all_eq_true.mp hparse, ?_, rfl⟩
    ext1
    · rfl
    · funext id
      exact lookup_map (fun _ => rfl) engine.topology.snapshot.connections id
    · funext id
      exact lookup_map (fun _ => rfl) engine.topology.snapshot.assignments id
  · cases h

omit [Scalar K] in
/-- A script of single patches is applied as the batch that carries it. -/
theorem applyProjectPatch_batchPatch {patches : List (ProjectPatch K)}
    (hleaf : ∀ patch ∈ patches, patch.isLeaf = true)
    (hparse : ∀ patch ∈ patches, patch.keysParse parses = true) (document : ProjectDocument K)
    (revision : ℕ) :
    ∃ next, applyProjectPatch parses document revision (batchPatch patches) = some next ∧
      next.view = document.view.applyAll patches ∧ next.placements = document.placements := by
  obtain ⟨next, hnext, hview⟩ := applyProjectPatches_leaves parses hleaf hparse document revision
  refine ⟨next, ?_, hview⟩
  rw [← hnext]
  unfold batchPatch
  split
  · rename_i patch
    rw [applyProjectPatches]
    cases applyProjectPatch parses document revision patch <;> rfl
  · rw [applyProjectPatch]

/-- **Patches and their inverses are exact.** When a command on connections,
routes, labels, assignments or the name is answered with a patch, the forward
patch takes the document of the state before the command to that of the state
after it, and the inverse patch takes it back. -/
theorem Engine.dispatch_patch_exact (engine : Engine K) (request : EngineRequest K)
    (hoperation : request.operation.changesPlacements = false) {patches : CommandPatchSet K}
    (hpatch : (engine.dispatch request).2.result = .patch patches)
    {placements : List (RuntimePlacement K)} {before after : ProjectDocument K}
    (hbefore : engine.document parses placements = some before)
    (hafter : (engine.dispatch request).1.document parses placements = some after)
    (revision : ℕ) :
    (∃ document, applyProjectPatch parses before revision patches.forward = some document ∧
      document.view = after.view ∧ document.placements = after.placements) ∧
    ∃ document, applyProjectPatch parses after revision patches.inverse = some document ∧
      document.view = before.view ∧ document.placements = before.placements := by
  obtain ⟨hbeforeRefs, hbeforeView, hbeforePlacements⟩ := Engine.document_eq_some parses hbefore
  obtain ⟨hafterRefs, hafterView, hafterPlacements⟩ := Engine.document_eq_some parses hafter
  obtain ⟨-, -, hperform⟩ := Engine.dispatch_eq_patch hpatch
  obtain ⟨forward, inverse, hforward, hinverse, hundo⟩ := Engine.perform_undoes hoperation hperform
  rw [hforward, hinverse]
  constructor
  · obtain ⟨document, hdocument, hview, hplacements⟩ := applyProjectPatch_batchPatch parses
      hundo.forward_leaf (fun patch hpatch => all_eq_true.mpr fun ref href =>
        hafterRefs ref (hundo.forward_refs patch hpatch href)) before revision
    refine ⟨document, hdocument, ?_, ?_⟩
    · rw [hview, hbeforeView, hundo.apply_forward, hafterView]
    · rw [hplacements, hbeforePlacements, hafterPlacements]
  · obtain ⟨document, hdocument, hview, hplacements⟩ := applyProjectPatch_batchPatch parses
      hundo.inverse_leaf (fun patch hpatch => all_eq_true.mpr fun ref href =>
        hbeforeRefs ref (hundo.inverse_refs patch hpatch href)) after revision
    refine ⟨document, hdocument, ?_, ?_⟩
    · rw [hview, hafterView, hundo.apply_inverse, hbeforeView]
    · rw [hplacements, hbeforePlacements, hafterPlacements]

/-- Connecting the switch settles the speed of the other cable, and undoing that takes it back. -/
theorem Engine.dispatch_patch_exact_patched :
    ∃ (engine : Engine ℚ) (patches : CommandPatchSet ℚ) (before after shown restored : ProjectDocument ℚ),
      engine.topology.snapshot = halfPatched ∧
      (engine.dispatch connectSwitch).2.result = .patch patches ∧
      engine.document (fun _ => true) [] = some before ∧
      (engine.dispatch connectSwitch).1.document (fun _ => true) [] = some after ∧
      before.connections.map (·.negotiatedSpeedBps) = [none] ∧
      after.connections.map (·.negotiatedSpeedBps) = [some 1000000000, some 1000000000] ∧
      applyProjectPatch (fun _ => true) before 1 patches.forward = some shown ∧
      shown.view = after.view ∧
      applyProjectPatch (fun _ => true) after 1 patches.inverse = some restored ∧
      restored.view = before.view := by
  obtain ⟨topology, hbuild, hpatch, hbefore, hafter⟩ : ∃ topology,
      TopologyIndex.build halfPatched = .ok topology ∧
      ((openedEngine 2 topology).dispatch connectSwitch).2.result.patches?.isSome = true ∧
      ((openedEngine 2 topology).document (fun _ => true) []).map
        (·.connections.map (·.negotiatedSpeedBps)) = some [none] ∧
      (((openedEngine 2 topology).dispatch connectSwitch).1.document (fun _ => true) []).map
        (·.connections.map (·.negotiatedSpeedBps)) = some [some 1000000000, some 1000000000] :=
    exists_ok_of_any (by decide +kernel)
  obtain ⟨patches, hpatches⟩ := Option.isSome_iff_exists.mp hpatch
  have hresult := ResponseBody.patches?_eq_some.mp hpatches
  obtain ⟨before, hbefore, hnone⟩ := Option.map_eq_some_iff.mp hbefore
  obtain ⟨after, hafter, hsettled⟩ := Option.map_eq_some_iff.mp hafter
  obtain ⟨⟨shown, hshown, hview, -⟩, restored, hrestored, hundone, -⟩ :=
    Engine.dispatch_patch_exact (fun _ => true) _ _ rfl hresult hbefore hafter 1
  exact ⟨openedEngine 2 topology, patches, before, after, shown, restored,
    TopologyIndex.build_eq_ok.mp hbuild, hresult, hbefore, hafter, hnone, hsettled, hshown, hview,
    hrestored, hundone⟩

end Documents

end HomelabInventory
