import HomelabInventory.ChangeTracking
import HomelabInventory.RouteBatches
import Mathlib.Data.Set.List
import Std.Data.String.ToNat

/-!
# Replaying a committed patch

A client that hears of a committed patch carries out an operation of its own
that it reads off the patch and its inverse. Whenever it finds one, the
operation takes a copy of the authority's state to the state the authority is in.
-/

namespace HomelabInventory

open InsertionMap List Option

/-! ## Keys of items -/

/-- Texts that end in a part without the separator split in one way. -/
theorem append_cons_inj {α : Type} {separator : α} {first first' last last' : List α}
    (hlast : separator ∉ last) (hlast' : separator ∉ last')
    (h : first ++ separator :: last = first' ++ separator :: last') :
    first = first' ∧ last = last' := by
  rcases append_eq_append_iff.mp h with ⟨between, rfl, hsplit⟩ | ⟨between, rfl, hsplit⟩
  · cases between with
    | nil =>
      rw [nil_append, List.cons.injEq] at hsplit
      exact ⟨by simp, hsplit.2⟩
    | cons a between =>
      rw [cons_append, List.cons.injEq] at hsplit
      rw [hsplit.2] at hlast
      exact absurd (mem_append_right _ mem_cons_self) hlast
  · cases between with
    | nil =>
      rw [nil_append, List.cons.injEq] at hsplit
      exact ⟨by simp, hsplit.2.symm⟩
    | cons a between =>
      rw [cons_append, List.cons.injEq] at hsplit
      rw [hsplit.2] at hlast'
      exact absurd (mem_append_right _ mem_cons_self) hlast'

/-- Different items have different keys: the number stands after the last colon. -/
theorem itemKey_injective : Function.Injective itemKey := by
  have hdigits : ∀ n : ℕ, ':' ∉ (toString n).toList := by
    intro n hmem
    have hdigit := Nat.isDigit_of_mem_toDigits (b := 10) (n := n) (by decide) (by decide)
      (by simpa [Nat.toList_repr] using hmem)
    exact absurd hdigit (by decide)
  intro item item' h
  have hlist := congrArg String.toList h
  simp only [itemKey, String.toList_append, append_assoc] at hlist
  obtain ⟨htype, hid⟩ := append_cons_inj (hdigits item.id) (hdigits item'.id) hlist
  obtain ⟨itemType, id⟩ := item
  obtain ⟨itemType', id'⟩ := item'
  rw [ItemRef.mk.injEq]
  exact ⟨String.toList_injective htype, Nat.repr_injective (String.toList_injective hid)⟩

/-! ## Pairing the two sides of a patch -/

section Pairing

variable {α κ σ : Type} [DecidableEq σ]

/-- The upserts of a patch by the code of their key. -/
def upsertsByCode (code : κ → σ) (key : α → κ) (upsert : List α) : List (σ × α) :=
  ofEntries (upsert.map fun a => (code (key a), a))

/-- The codes of the keys that a patch or its inverse names. -/
def changedCodes (code : κ → σ) (key : α → κ) (upsert inverseUpsert : List α)
    (remove inverseRemove : List κ) : List σ :=
  distinct
    (keys (upsertsByCode code key inverseUpsert) ++
      keys (upsertsByCode code key upsert) ++ inverseRemove.map code ++
      remove.map code)

end Pairing

/-- The assignment changes that a patch and its inverse describe. -/
def assignmentChanges (upsert : List TopologyAssignment) (removeAssignmentIds : List ℕ)
    (inverseUpsert : List TopologyAssignment) (inverseRemoveIds : List ℕ) :
    List AssignmentChange :=
  let previous := upsertsByCode id TopologyAssignment.id inverseUpsert
  let next := upsertsByCode id TopologyAssignment.id upsert
  let ids := sortBy compare (changedCodes id TopologyAssignment.id upsert inverseUpsert
    removeAssignmentIds inverseRemoveIds)
  ids.map fun id =>
    { previous := get? previous id, next := get? next id }

section Operations

variable {K : Type}

/-- The placement changes that a patch and its inverse describe. -/
def placementChanges (upsert : List (CanvasPlacement K)) (removeItems : List ItemRef)
    (inverseUpsert : List (CanvasPlacement K)) (inverseRemoveItems : List ItemRef) :
    List (PlacementChange K) :=
  let previous := upsertsByCode itemKey CanvasPlacement.item inverseUpsert
  let next := upsertsByCode itemKey CanvasPlacement.item upsert
  let keys := changedCodes itemKey CanvasPlacement.item upsert inverseUpsert removeItems
    inverseRemoveItems
  keys.map fun key =>
    { previous := get? previous key, next := get? next key }

/-! ## The operation of a committed patch -/

/-- The connection whose route a patch sets, with the route. -/
def ProjectPatch.route? : ProjectPatch K → Option (ℕ × Option (ConnectionRoute K))
  | .setConnectionRoute connectionId route => some (connectionId, route)
  | _ => none

/-- Two routes differ at most in their bends. The first one may be unknown. -/
def routesEqualExceptBends :
    Option (Option (ConnectionRoute K)) → Option (ConnectionRoute K) → Bool
  | some (some previous), some next =>
    previous.sourceSide == next.sourceSide && previous.targetSide == next.targetSide &&
      previous.avoidCableOverlap == next.avoidCableOverlap
  | some none, none => true
  | _, _ => false

/-- The patches of a batch; another patch has none. -/
def ProjectPatch.children : Option (ProjectPatch K) → List (ProjectPatch K)
  | some (.batch patches) => patches
  | _ => []

/-- The routes that the patches of a batch set. -/
def routesOf (patches : List (ProjectPatch K)) : List (ℕ × Option (ConnectionRoute K)) :=
  ofEntries (patches.filterMap ProjectPatch.route?)

/-- A batch that changes nothing but bends. -/
def bendOnlyRouteBatch (patches inverseChildren : List (ProjectPatch K)) : Bool :=
  !patches.isEmpty && patches.all fun child =>
    child.route?.any fun entry =>
      routesEqualExceptBends (get? (routesOf inverseChildren) entry.1) entry.2

/-- The repairs that a batch of bends amounts to. -/
def bendRepairs (patches inverseChildren : List (ProjectPatch K)) :
    List (ConnectionRouteCanonicalization K) :=
  (patches.filterMap ProjectPatch.route?).map fun entry =>
    { connectionId := entry.1
      expectedBendPoints :=
        ((get? (routesOf inverseChildren) entry.1).join.map (·.bendPoints)).getD []
      bendPoints := (entry.2.map (·.bendPoints)).getD [] }

mutual

/-- The operation that does what a committed patch says, when there is one. -/
def operationForCommittedPatch :
    ProjectPatch K → Option (ProjectPatch K) → Option (Operation K)
  | .setProjectName name, _ => some (.updateProjectMetadata name)
  | .addConnection connection, _ =>
    some (.createConnection connection.source connection.target connection.createdAt)
  | .removeConnection connection, _ => some (.removeConnection connection.id)
  | .setConnectionLabel connectionId label, _ =>
    some (.updateConnectionLabel connectionId label)
  | .setConnectionRoute connectionId route, _ =>
    some (.updateConnectionRoute connectionId route)
  | .setConnectionDerived _, _ => none
  | .patchPlacements upsert removeItems, some (.patchPlacements inverseUpsert inverseRemove) =>
    some (.updatePlacements (placementChanges upsert removeItems inverseUpsert inverseRemove))
  | .patchPlacements _ _, _ => none
  | .patchAssignments upsert removeIds, some (.patchAssignments inverseUpsert inverseRemove) =>
    some (.updateAssignments (assignmentChanges upsert removeIds inverseUpsert inverseRemove))
  | .patchAssignments _ _, _ => none
  | .batch patches, inversePatch =>
    let inverseChildren := ProjectPatch.children inversePatch
    if bendOnlyRouteBatch patches inverseChildren then
      some (.canonicalizeConnectionRoutes (bendRepairs patches inverseChildren))
    else if patches.all (·.route?.isSome) then none
    else firstOperation patches inverseChildren.reverse

/-- The first operation of the patches of a batch. The inverse patches are given
last one first: the inverse of a batch undoes its patches in the other order. -/
def firstOperation : List (ProjectPatch K) → List (ProjectPatch K) → Option (Operation K)
  | [], _ => none
  | child :: rest, inverses =>
    match operationForCommittedPatch child inverses.head? with
    | some operation => some operation
    | none => firstOperation rest inverses.tail

end

end Operations

/-! ## Tracked changes are recovered by pairing -/

section Pairing

variable {α κ σ : Type} [DecidableEq σ]

variable [DecidableEq κ] {code : κ → σ} {key : α → κ}

theorem get?_upsertsByCode (hcode : Function.Injective code) (upsert : List α) (k : κ) :
    get? (upsertsByCode code key upsert) (code k) =
      get? (ofEntries (upsert.map fun a => (key a, a))) k := by
  rw [upsertsByCode, get?_ofEntries, get?_ofEntries, ← map_reverse, ← map_reverse]
  induction upsert.reverse with
  | nil => rfl
  | cons a as ih =>
    rw [map_cons, map_cons, get?_cons, get?_cons, ih]
    simp only [hcode.eq_iff]

variable {lists : ChangeLists α κ} {seen : κ → Prop} {before after : κ → Option α}

/-- An entry that has changed is upserted to what it is now, or removed. -/
theorem Leads.get?_of_changed {upsert : List α} {remove : List κ}
    (h : Leads key upsert remove before after) {k : κ} (hk : after k ≠ before k) :
    get? (ofEntries (upsert.map fun a => (key a, a))) k = after k := by
  have happly := h.apply_eq k
  cases hget : get? (ofEntries (upsert.map fun a => (key a, a))) k with
  | some a =>
    rw [hget, some_or] at happly
    exact happly
  | none =>
    rw [hget, none_or] at happly
    split at happly
    · exact happly
    · exact absurd happly.symm hk

omit [DecidableEq κ] in
theorem mem_keys_upsertsByCode {upsert : List α} {s : σ} :
    s ∈ keys (upsertsByCode code key upsert) ↔ ∃ a ∈ upsert, code (key a) = s := by
  rw [upsertsByCode, (keys_ofEntries _).2]
  simp [InsertionMap.keys]

omit [DecidableEq κ] in
theorem mem_changedCodes {s : σ} :
    s ∈ changedCodes code key lists.forwardUpsert lists.inverseUpsert lists.forwardRemove
        lists.inverseRemove ↔ ∃ k, lists.Names key k ∧ code k = s := by
  simp only [changedCodes, mem_distinct, mem_append, mem_keys_upsertsByCode,
    List.mem_map, ChangeLists.Names]
  constructor
  · rintro (((⟨a, ha, rfl⟩ | ⟨a, ha, rfl⟩) | ⟨k, hk, rfl⟩) | ⟨k, hk, rfl⟩)
    · exact ⟨_, Or.inr (Or.inl ⟨a, ha, rfl⟩), rfl⟩
    · exact ⟨_, Or.inl (Or.inl ⟨a, ha, rfl⟩), rfl⟩
    · exact ⟨k, Or.inr (Or.inr hk), rfl⟩
    · exact ⟨k, Or.inl (Or.inr hk), rfl⟩
  · rintro ⟨k, (⟨a, ha, rfl⟩ | hk) | (⟨a, ha, rfl⟩ | hk), rfl⟩
    · exact Or.inl (Or.inl (Or.inr ⟨a, ha, rfl⟩))
    · exact Or.inr ⟨k, hk, rfl⟩
    · exact Or.inl (Or.inl (Or.inl ⟨a, ha, rfl⟩))
    · exact Or.inl (Or.inr ⟨k, hk, rfl⟩)

omit [DecidableEq κ] in
/-- Only the members of the lists count. -/
theorem ChangeLists.Tracks.congr (h : lists.Tracks key seen before after) (lists' : ChangeLists α κ)
    (hforwardUpsert : ∀ a, a ∈ lists'.forwardUpsert ↔ a ∈ lists.forwardUpsert)
    (hforwardRemove : ∀ k, k ∈ lists'.forwardRemove ↔ k ∈ lists.forwardRemove)
    (hinverseUpsert : ∀ a, a ∈ lists'.inverseUpsert ↔ a ∈ lists.inverseUpsert)
    (hinverseRemove : ∀ k, k ∈ lists'.inverseRemove ↔ k ∈ lists.inverseRemove) :
    lists'.Tracks key seen before after := by
  have hnames : ∀ k, lists'.Names key k → lists.Names key k := by
    intro k hk
    simpa only [ChangeLists.Names, hforwardUpsert, hforwardRemove, hinverseUpsert,
      hinverseRemove] using hk
  exact ⟨h.forward.congr hforwardUpsert hforwardRemove,
    h.inverse.congr hinverseUpsert hinverseRemove,
    fun k hk => h.named_seen k (hnames k hk), fun k hk => h.named_changed k (hnames k hk)⟩

/-- Pairing the lists of tracked changes recovers each changed entry once, as it
was and as it is. -/
theorem ChangeLists.Tracks.paired (h : lists.Tracks key seen before after)
    (hcode : Function.Injective code) {codes : List σ}
    (hperm : codes.Perm (changedCodes code key lists.forwardUpsert lists.inverseUpsert
      lists.forwardRemove lists.inverseRemove)) {γ : Type} (make : Option α → Option α → γ) :
    ∃ keys : List κ, keys.Nodup ∧ (∀ k, k ∈ keys ↔ after k ≠ before k) ∧
      codes.map (fun s =>
        make (get? (upsertsByCode code key lists.inverseUpsert) s)
          (get? (upsertsByCode code key lists.forwardUpsert) s)) =
        keys.map fun k => make (before k) (after k) := by
  have hrange : codes ∈ Set.range (List.map code) := by
    rw [Set.range_list_map]
    intro s hs
    obtain ⟨k, -, rfl⟩ := mem_changedCodes.mp (hperm.mem_iff.mp hs)
    exact ⟨k, rfl⟩
  obtain ⟨keys, rfl⟩ := hrange
  have hmem : ∀ k, k ∈ keys ↔ after k ≠ before k := by
    intro k
    rw [← h.names_iff, ← List.mem_map_of_injective hcode, hperm.mem_iff, mem_changedCodes]
    constructor
    · rintro ⟨j, hj, hcodes⟩
      rw [← hcode hcodes]
      exact hj
    · intro hk
      exact ⟨k, hk, rfl⟩
  refine ⟨keys, ?_, hmem, ?_⟩
  · exact List.Nodup.of_map code (hperm.nodup_iff.mpr (nodup_distinct _))
  · rw [List.map_map]
    apply map_congr_left
    intro k hk
    have hchanged := (hmem k).mp hk
    simp only [Function.comp_apply, get?_upsertsByCode hcode, h.forward.get?_of_changed hchanged,
      h.inverse.get?_of_changed (Ne.symm hchanged)]

end Pairing

/-! ## Replaying changes of assignments and placements -/

theorem ChangeLists.isEmpty_record {α κ : Type} (lists : ChangeLists α κ) (k : κ)
    (previous next : Option α) : (lists.record k previous next).isEmpty = false := by
  cases next <;> simp [isEmpty, record]

/-- Changing distinct entries from what they are to something else succeeds, and
records the changes. -/
theorem foldlM_planAssignment {before after : ℕ → Option TopologyAssignment}
    (hbefore : ∀ id assignment, before id = some assignment → assignment.id = id)
    (hafter : ∀ id assignment, after id = some assignment → assignment.id = id)
    {ids : List ℕ} (hnodup : ids.Nodup) (plan : AssignmentPlan)
    (hids : ∀ id ∈ ids, id ≠ 0 ∧ id ∉ plan.seen ∧ plan.assignments[id]? = before id ∧
      after id ≠ before id) :
    ∃ plan', (ids.map fun id =>
          ({ previous := before id, next := after id } : AssignmentChange)).foldlM
        planAssignment plan = .ok plan' ∧
      (∀ id : ℕ, plan'.assignments[id]? = if id ∈ ids then after id else plan.assignments[id]?) ∧
      (ids ≠ [] ∨ plan.lists.isEmpty = false → plan'.lists.isEmpty = false) := by
  induction ids generalizing plan with
  | nil => exact ⟨plan, rfl, by simp, by simp⟩
  | cons id ids ih =>
    obtain ⟨hpos, hfresh, hcurrent, hchanged⟩ := hids id mem_cons_self
    have hnew := (nodup_cons.mp hnodup).1
    have hsome : (before id).isSome ∨ (after id).isSome := by
      cases hb : before id with
      | some _ => exact Or.inl rfl
      | none =>
        cases ha : after id with
        | some _ => exact Or.inr rfl
        | none => exact absurd (ha.trans hb.symm) hchanged
    have hstep : planAssignment plan { previous := before id, next := after id } = .ok _ :=
      planAssignment_eq_ok.mpr ⟨id, ⟨hbefore id, hafter id, hsome⟩, ⟨hpos, hfresh⟩, hcurrent, rfl⟩
    rw [if_neg (Ne.symm hchanged)] at hstep
    obtain ⟨plan', hplan', hassignments, hlists⟩ := ih (nodup_cons.mp hnodup).2
      { assignments := setEntry plan.assignments id (after id)
        seen := plan.seen.insert id
        lists := plan.lists.record id (before id) (after id) } (by
        intro other hother
        obtain ⟨hotherPos, hotherFresh, hotherCurrent, hotherChanged⟩ :=
          hids other (mem_cons_of_mem _ hother)
        have hne : other ≠ id := fun heq => hnew (heq ▸ hother)
        refine ⟨hotherPos, ?_, ?_, hotherChanged⟩
        · rw [mem_insert_iff, not_or]
          exact ⟨hotherFresh, hne⟩
        · rw [getElem?_setEntry, if_neg hne]
          exact hotherCurrent)
    refine ⟨plan', ?_, ?_, ?_⟩
    · rw [map_cons]
      exact foldlM_cons_eq_ok.mpr ⟨_, hstep, hplan'⟩
    · intro other
      rw [hassignments, getElem?_setEntry]
      by_cases hother : other ∈ ids
      · simp [hother]
      · by_cases hid : other = id
        · simp [hid]
        · simp [hother, hid]
    · intro _
      exact hlists (Or.inr (ChangeLists.isEmpty_record _ _ _ _))

section Placements

variable {K : Type} [Scalar K]

theorem foldlM_planPlacement {knownItems : BTreeSet ItemRef}
    {before after : ItemRef → Option (CanvasPlacement K)} {items : List ItemRef}
    (hnodup : items.Nodup) (plan : PlacementPlan K)
    (hitems : ∀ item ∈ items, item ∉ plan.seen ∧
      ValidPlacementChange knownItems item (before item) (after item)) :
    ∃ plan', (items.map fun item =>
          ({ previous := before item, next := after item } : PlacementChange K)).foldlM
        (planPlacement knownItems) plan = .ok plan' ∧
      (∀ item, item ∈ plan'.placedItems ↔
        if item ∈ items then (after item).isSome = true else item ∈ plan.placedItems) ∧
      (items ≠ [] ∨ plan.lists.isEmpty = false → plan'.lists.isEmpty = false) := by
  induction items generalizing plan with
  | nil => exact ⟨plan, rfl, by simp, by simp⟩
  | cons item items ih =>
    obtain ⟨hfresh, hvalid⟩ := hitems item mem_cons_self
    have hnew := (nodup_cons.mp hnodup).1
    have hsome : (before item).isSome ∨ (after item).isSome := by
      have hdiffers := hvalid.differs
      cases hb : before item with
      | some _ => exact Or.inl rfl
      | none =>
        cases ha : after item with
        | some _ => exact Or.inr rfl
        | none =>
          rw [hb, ha] at hdiffers
          cases hdiffers
    have hstep : planPlacement knownItems plan { previous := before item, next := after item } =
      .ok _ := planPlacement_eq_ok.mpr ⟨item,
      ⟨hvalid.previous_item, hvalid.next_item, hsome⟩, ⟨hvalid.valid_item, hvalid.known, hfresh⟩,
      ⟨hvalid.previous_finite, hvalid.next_finite⟩, rfl⟩
    rw [if_neg (Bool.not_eq_true _ ▸ hvalid.differs)] at hstep
    obtain ⟨plan', hplan', hplaced, hlists⟩ := ih (nodup_cons.mp hnodup).2
      { placedItems := if (after item).isSome then plan.placedItems.insert item
          else plan.placedItems.erase item
        seen := plan.seen.insert item
        lists := plan.lists.record item (before item) (after item) } (by
        intro other hother
        obtain ⟨hotherFresh, hotherValid⟩ := hitems other (mem_cons_of_mem _ hother)
        have hne : other ≠ item := fun heq => hnew (heq ▸ hother)
        refine ⟨?_, hotherValid⟩
        rw [mem_insert_iff, not_or]
        exact ⟨hotherFresh, hne⟩)
    refine ⟨plan', ?_, ?_, ?_⟩
    · rw [map_cons]
      exact foldlM_cons_eq_ok.mpr ⟨_, hstep, hplan'⟩
    · intro other
      rw [hplaced, mem_placedItems]
      by_cases hother : other ∈ items
      · simp [hother]
      · by_cases hid : other = item
        · simp [hid]
        · simp [hother, hid]
    · intro _
      exact hlists (Or.inr (ChangeLists.isEmpty_record _ _ _ _))

end Placements

theorem ChangeLists.exists_names {α κ : Type} (key : α → κ) {lists : ChangeLists α κ}
    (h : lists.isEmpty = false) : ∃ k, lists.Names key k := by
  rw [isEmpty, Bool.and_eq_false_iff, isEmpty_eq_false_iff, isEmpty_eq_false_iff] at h
  rcases h with h | h
  · obtain ⟨a, ha⟩ := exists_mem_of_ne_nil _ h
    exact ⟨key a, Or.inl (Or.inl ⟨a, ha, rfl⟩)⟩
  · obtain ⟨k, hk⟩ := exists_mem_of_ne_nil _ h
    exact ⟨k, Or.inl (Or.inr hk)⟩

/-- The assignment changes read off a patch lead to the same assignments. -/
theorem prepareAssignments_replay {K : Type} {topology : TopologySnapshot K}
    (hnodup : (topology.assignments.map (·.id)).Nodup) {changes : List AssignmentChange}
    {change : TopologyChange K} (h : prepareAssignments topology changes = .ok change)
    {operation : Operation K}
    (hoperation : operationForCommittedPatch change.forward (some change.inverse) =
      some operation) :
    ∃ replayed change', operation = .updateAssignments replayed ∧ replayed ≠ [] ∧
      prepareAssignments topology replayed = .ok change' ∧ change'.snapshot = change.snapshot := by
  obtain ⟨plan, hplan, hchanged, rfl⟩ := prepareAssignments_eq_ok.mp h
  have htracks := prepareAssignments_tracks hnodup hplan
  have hsorted := htracks.lists.congr
    { forwardUpsert := sortByKey (·.id) plan.lists.forwardUpsert
      forwardRemove := sortBy compare plan.lists.forwardRemove
      inverseUpsert := sortByKey (·.id) plan.lists.inverseUpsert
      inverseRemove := sortBy compare plan.lists.inverseRemove }
    (fun _ => mem_sortByKey) (fun _ => mem_sortBy) (fun _ => mem_sortByKey) (fun _ => mem_sortBy)
  obtain ⟨ids, hids, hmem, hpairs⟩ := hsorted.paired Function.injective_id
    (perm_sortBy compare _) fun previous next =>
      ({ previous := previous, next := next } : AssignmentChange)
  have hpositive : ∀ id ∈ ids, id ≠ 0 := by
    intro id hid
    exact htracks.positive id (htracks.lists.named_seen id
      ((htracks.lists.names_iff id).mpr ((hmem id).mp hid)))
  have hne : ids ≠ [] := by
    rintro rfl
    obtain ⟨id, hid⟩ := ChangeLists.exists_names TopologyAssignment.id hchanged
    exact not_mem_nil ((hmem id).mpr ((htracks.lists.names_iff id).mp hid))
  obtain ⟨plan', hplan', hassignments, hlists⟩ := foldlM_planAssignment
    (fun id _ h => (lookup_eq_some h).2) htracks.keyed hids
    { assignments := collectEntries (topology.assignments.map fun assignment =>
        (assignment.id, assignment)) }
    fun id hid => ⟨hpositive id hid, by simp, getElem?_collectEntries_map hnodup id,
      (hmem id).mp hid⟩
  have hsame : plan'.assignments = plan.assignments := by
    ext id assignment
    rw [hassignments]
    split
    · rfl
    · rename_i hid
      rw [hmem, not_not] at hid
      rw [getElem?_collectEntries_map hnodup, hid]
  rw [operationForCommittedPatch, Option.some.injEq] at hoperation
  subst hoperation
  have hchanges : assignmentChanges (sortByKey (·.id) plan.lists.forwardUpsert)
      (sortBy compare plan.lists.forwardRemove) (sortByKey (·.id) plan.lists.inverseUpsert)
      (sortBy compare plan.lists.inverseRemove) = ids.map _ := hpairs
  refine ⟨_, _, rfl, ?_, prepareAssignments_eq_ok.mpr ⟨plan', ?_, hlists (Or.inl hne), rfl⟩, ?_⟩
  · rw [hchanges]
    simpa using hne
  · rw [hchanges]
    exact hplan'
  · rw [hsame]

section Replays

variable {K : Type} [Scalar K]

variable {topology : TopologySnapshot K}

/-- The placement changes read off a patch place the same items. -/
theorem planPlacements_replay {changes : List (PlacementChange K)} {plan : PlacementPlan K}
    (h : planPlacements topology changes = .ok plan) :
    let replayed := placementChanges plan.lists.forwardUpsert plan.lists.forwardRemove
      plan.lists.inverseUpsert plan.lists.inverseRemove
    replayed ≠ [] ∧ ∃ plan', planPlacements topology replayed = .ok plan' ∧
      plan'.placedItems = plan.placedItems := by
  intro replayed
  obtain ⟨hchanged, before, after, htracks⟩ := planPlacements_tracks h
  obtain ⟨items, hitems, hmem, hpairs⟩ := htracks.lists.paired itemKey_injective (List.Perm.refl _)
    fun previous next => ({ previous := previous, next := next } : PlacementChange K)
  have hreplayed : replayed = items.map _ := hpairs
  have hne : items ≠ [] := by
    rintro rfl
    obtain ⟨item, hitem⟩ := ChangeLists.exists_names CanvasPlacement.item hchanged
    exact not_mem_nil ((hmem item).mpr ((htracks.lists.names_iff item).mp hitem))
  obtain ⟨plan', hplan', hplaced, hlists⟩ := foldlM_planPlacement hitems
    { placedItems := collectSet topology.placements }
    fun item hitem => ⟨by simp, htracks.valid item ((hmem item).mp hitem)⟩
  refine ⟨by simpa [hreplayed] using hne, plan', ?_, ?_⟩
  · rw [planPlacements_eq_ok, hreplayed]
    exact ⟨hplan', hlists (Or.inl hne)⟩
  · ext item
    rw [hplaced]
    by_cases hitem : after item = before item
    · rw [htracks.kept item hitem, if_neg (by rw [hmem]; exact not_not.mpr hitem)]
    · rw [htracks.placed item hitem, if_pos ((hmem item).mpr hitem)]

variable {engine next : Engine K}
variable {patches : CommandPatchSet K}

/-- Two lists of placement changes that place the same items take the engine to
the same state. -/
theorem Engine.updatePlacements_congr {changes changes' : List (PlacementChange K)}
    {plan plan' : PlacementPlan K}
    (hplan : planPlacements engine.topology.snapshot changes = .ok plan)
    (hplan' : planPlacements engine.topology.snapshot changes' = .ok plan')
    (hplaced : plan'.placedItems = plan.placedItems) (hne : changes' ≠ [])
    (h : engine.updatePlacements changes = (next, .patch patches)) :
    ∃ patches', engine.updatePlacements changes' = (next, .patch patches') := by
  obtain ⟨hchanges, havailable, -⟩ := updatePlacements_eq_patch h
  unfold updatePlacements at h ⊢
  rw [if_neg (by simpa using hchanges), if_neg havailable, hplan] at h
  rw [if_neg (by simpa using hne), if_neg havailable, hplan']
  dsimp only at h ⊢
  rw [hplaced]
  split at h
  · rename_i hmoved
    rw [if_pos hmoved]
    rw [install_eq_patch havailable] at h
    exact ⟨_, (install_eq_patch havailable).mpr ⟨havailable, h.state, rfl⟩⟩
  · rename_i hmoved
    rw [if_neg hmoved]
    rw [advance, Prod.mk.injEq] at h
    exact ⟨_, Prod.ext h.1 rfl⟩

variable {operation : Operation K}

theorem Engine.updatePlacements_replay
    {changes : List (PlacementChange K)}
    (h : engine.updatePlacements changes = (next, .patch patches))
    (hoperation : operationForCommittedPatch patches.forward (some patches.inverse) =
      some operation) :
    ∃ patches', engine.perform operation = (next, .patch patches') := by
  obtain ⟨-, -, plan, placements, hplan, -, hcommit⟩ := updatePlacements_eq_patch h
  obtain ⟨hne, plan', hplan', hplaced⟩ := planPlacements_replay hplan
  rw [hcommit.answer, operationForCommittedPatch, Option.some.injEq] at hoperation
  subst hoperation
  exact updatePlacements_congr hplan hplan' hplaced hne h

/-! ## Replaying batches of routes -/

/-- A list of finite points compares equal to itself. -/
theorem beq_self_of_isFinite {points : List (Point K)}
    (h : points.any (!·.isFinite) = false) : (points == points) = true := by
  induction points with
  | nil => rfl
  | cons point rest ih =>
    rw [any_cons, Bool.or_eq_false_iff, Bool.not_eq_false', Point.isFinite,
      Bool.and_eq_true] at h
    obtain ⟨⟨hx, hy⟩, hrest⟩ := h
    have hpoint : (point == point) = true := by
      have hxx := Scalar.beq_self_of_isFinite point.x hx
      have hyy := Scalar.beq_self_of_isFinite point.y hy
      simp only [BEq.beq, instBEqPoint.beq, Bool.and_eq_true]
      exact ⟨hxx, hyy⟩
    rw [cons_beq_cons, hpoint, ih hrest]
    rfl

/-- The bends of a route, none when there is no route. -/
def bendsOf (route : Option (ConnectionRoute K)) : List (Point K) :=
  (route.map (·.bendPoints)).getD []

omit [Scalar K] in
theorem filterMap_route?_forwardRoute
    (entries : List (TopologyConnection K × Option (ConnectionRoute K))) :
    (entries.map forwardRoute).filterMap ProjectPatch.route? =
      entries.map fun entry => (entry.1.id, entry.2) := by
  rw [filterMap_map, ← filterMap_eq_map]
  rfl

variable {entries : List (TopologyConnection K × Option (ConnectionRoute K))}

omit [Scalar K] in
/-- The inverse of a batch gives each connection the route it had. -/
theorem get?_routesOf_inverseRoute (hnodup : (entries.map (·.1.id)).Nodup)
    {entry : TopologyConnection K × Option (ConnectionRoute K)} (hentry : entry ∈ entries) :
    get? (routesOf (entries.map inverseRoute).reverse) entry.1.id =
      some entry.1.route := by
  have hroutes : (entries.map inverseRoute).reverse.filterMap ProjectPatch.route? =
      (entries.map fun entry => (entry.1.id, entry.1.route)).reverse := by
    rw [filterMap_reverse, filterMap_map, ← filterMap_eq_map]
    rfl
  rw [routesOf, hroutes, get?_ofEntries_eq_some]
  · exact mem_reverse.mpr (mem_map.mpr ⟨entry, hentry, rfl⟩)
  · rw [map_reverse, nodup_reverse, List.map_map]
    exact hnodup

omit [Scalar K] in
/-- The repairs read off a batch of routes, with the bends each route had. -/
theorem bendRepairs_eq (hnodup : (entries.map (·.1.id)).Nodup) :
    bendRepairs (entries.map forwardRoute) (entries.map inverseRoute).reverse =
      entries.map fun entry =>
        { connectionId := entry.1.id
          expectedBendPoints := bendsOf entry.1.route
          bendPoints := bendsOf entry.2 } := by
  rw [bendRepairs, filterMap_route?_forwardRoute, List.map_map]
  apply map_congr_left
  intro entry hentry
  simp only [Function.comp_apply, get?_routesOf_inverseRoute hnodup hentry, join_some]
  rfl

theorem isSome_of_bends {previous next : Option (ConnectionRoute K)}
    (hbends : routesEqualExceptBends (some previous) next = true)
    (hdiffers : (previous == next) = false) : next.isSome = true := by
  cases previous with
  | some previous =>
    cases next with
    | some next => rfl
    | none => cases hbends
  | none =>
    cases next with
    | some next => rfl
    | none => cases hdiffers

variable {connectionId : ℕ}

/-- Repairing the bends of a route gives the route that differs only in them. -/
theorem canonicalizedRoute_of_bends {previous next : Option (ConnectionRoute K)}
    (hbends : routesEqualExceptBends (some previous) next = true)
    (hdiffers : (previous == next) = false)
    (hfinite : (bendsOf previous).any (!·.isFinite) = false) :
    canonicalizedRoute
      { connectionId := connectionId
        expectedBendPoints := bendsOf previous
        bendPoints := bendsOf next } previous = .ok next := by
  have hfresh : ((previous.map (·.bendPoints)).getD [] != bendsOf previous) = false := by
    rw [bne, Bool.not_eq_false']
    exact beq_self_of_isFinite hfinite
  rw [canonicalizedRoute, if_neg (Bool.not_eq_true _ ▸ hfresh)]
  cases previous with
  | none =>
    cases next with
    | none => cases hdiffers
    | some next => cases hbends
  | some previous =>
    cases next with
    | none => cases hbends
    | some next =>
      simp only [routesEqualExceptBends, Bool.and_eq_true, beq_iff_eq] at hbends
      obtain ⟨⟨hsource, htarget⟩, havoid⟩ := hbends
      have hroute : { previous with bendPoints := next.bendPoints } = next := by
        rw [hsource, htarget, havoid]
      rw [changedRoute]
      simp only [bendsOf, map_some, getD_some, hroute, hdiffers]
      rfl

/-- Repairing the bends of routes that differ in nothing else sets the routes. -/
theorem foldlM_canonicalizedRoute (missing : String) (plan : RoutePlan K)
    (hchain : RouteChain plan.connections entries)
    (hentries : ∀ entry ∈ entries,
      routesEqualExceptBends (some entry.1.route) entry.2 = true ∧ RouteDiffers entry ∧
        (bendsOf entry.1.route).any (!·.isFinite) = false) :
    (entries.map fun entry =>
        ({ connectionId := entry.1.id
           expectedBendPoints := bendsOf entry.1.route
           bendPoints := bendsOf entry.2 } : ConnectionRouteCanonicalization K)).foldlM
      (planRoute (·.connectionId) missing canonicalizedRoute) plan = .ok (plan.extend entries) := by
  induction entries generalizing plan with
  | nil => simp [RoutePlan.extend, setRoutes]
  | cons entry rest ih =>
    obtain ⟨connection, route⟩ := entry
    obtain ⟨hlookup, hrest⟩ := hchain
    obtain ⟨hbends, hdiffers, hfinite⟩ := hentries _ mem_cons_self
    -- the route is there before and after, so the repair sets exactly the new route
    have hstep : planRoute (·.connectionId) missing canonicalizedRoute plan
        { connectionId := connection.id
          expectedBendPoints := bendsOf connection.route
          bendPoints := bendsOf route } = .ok (plan.setRoute connection route) := by
      rw [planRoute, find?_id_eq_lookup, hlookup]
      dsimp only
      rw [canonicalizedRoute_of_bends hbends hdiffers hfinite]
      obtain ⟨next, rfl⟩ := isSome_iff_exists.mp (isSome_of_bends hbends hdiffers)
      rfl
    rw [map_cons, RoutePlan.extend_cons]
    refine foldlM_cons_eq_ok.mpr ⟨_, hstep, ?_⟩
    exact ih _ hrest fun entry hentry => hentries entry (mem_cons_of_mem _ hentry)

/-- The bends of a valid route are finite. -/
theorem bendsOf_finite {route : Option (ConnectionRoute K)}
    (h : route.any invalidRoute = false) : (bendsOf route).any (!·.isFinite) = false := by
  cases route with
  | none => rfl
  | some route =>
    simpa [bendsOf, invalidRoute, Point.isFinite, ← imp_iff_not_or] using h

variable {change : TopologyChange K}

/-- A batch of at least two routes that differ in nothing but their bends is
replayed by a repair of the bends. -/
theorem RouteBatch.replay_bends (h : RouteBatch topology change entries) (hbefore : topology.Valid)
    (hafter : change.snapshot.Valid)
    (hbends : ∀ entry ∈ entries, routesEqualExceptBends (some entry.1.route) entry.2 = true) :
    ∃ change', prepareCanonicalization topology
        (bendRepairs (entries.map forwardRoute) (entries.map inverseRoute).reverse) =
          .ok change' ∧ change'.snapshot = change.snapshot := by
  obtain ⟨hlookups, -⟩ := h.chain.lookups h.nodup
  have hsnapshot : change.snapshot =
      { topology with connections := setRoutes topology.connections entries } := by
    rw [h.change_eq]
  have hpreviousFinite : ∀ entry ∈ entries, (bendsOf entry.1.route).any (!·.isFinite) = false := by
    intro entry hentry
    exact bendsOf_finite (hbefore.routes_finite _ (lookup_eq_some (hlookups entry hentry).1).1)
  have hnextFinite : ∀ entry ∈ entries, (bendsOf entry.2).any (!·.isFinite) = false := by
    intro entry hentry
    have hmem := (lookup_eq_some (hlookups entry hentry).2).1
    rw [hsnapshot] at hafter
    exact bendsOf_finite (hafter.routes_finite _ hmem)
  have hplan := foldlM_canonicalizedRoute "A cable selected for route repair no longer exists."
    { connections := topology.connections } h.chain
    fun entry hentry =>
      ⟨hbends entry hentry, h.differs entry hentry, hpreviousFinite entry hentry⟩
  refine ⟨
    { snapshot := { topology with connections := setRoutes topology.connections entries }
      forward := batchPatch (entries.map forwardRoute)
      inverse := batchPatch (entries.map inverseRoute).reverse }, ?_, hsnapshot.symm⟩
  rw [bendRepairs_eq h.nodup]
  simp only [prepareCanonicalization, bind_eq_ok, failIf_eq_ok]
  refine ⟨(), ?_, (), ?_, _, hplan, ?_⟩
  · simpa using h.nonempty
  · rw [not_or, not_not]
    refine ⟨?_, ?_⟩
    · rw [List.map_map]
      exact h.nodup
    · rw [Bool.not_eq_true, List.any_eq_false]
      intro repair hrepair
      obtain ⟨entry, hentry, rfl⟩ := mem_map.mp hrepair
      rw [any_append, hpreviousFinite entry hentry, hnextFinite entry hentry]
      decide
  · simp only [RoutePlan.change, bind_eq_ok, failIf_eq_ok]
    refine ⟨(), ?_, rfl⟩
    simpa [RoutePlan.extend] using h.nonempty

/-- Whatever operation is read off a batch of routes sets the same routes. -/
theorem RouteBatch.replay (h : RouteBatch engine.topology.snapshot change entries)
    (hcommit : engine.CommitOf change next patches)
    (hoperation : operationForCommittedPatch patches.forward (some patches.inverse) =
      some operation) :
    ∃ patches', engine.perform operation = (next, .patch patches') := by
  have hbefore := engine.topology.valid
  have hafter : change.snapshot.Valid := hcommit.snapshot_eq ▸ next.topology.valid
  rw [hcommit.answer, h.change_eq] at hoperation
  dsimp only at hoperation
  match entries, h with
  | [], h => exact absurd rfl h.nonempty
  | [(connection, route)], h =>
    obtain ⟨hlookup, -⟩ := h.chain
    have hforward : batchPatch (List.map forwardRoute [(connection, route)]) =
      .setConnectionRoute connection.id route := rfl
    rw [hforward, operationForCommittedPatch, Option.some.injEq] at hoperation
    subst hoperation
    obtain ⟨change', hprepare, hsnapshot⟩ : ∃ change',
        prepareRoute engine.topology.snapshot connection.id route = .ok change' ∧
          change'.snapshot = change.snapshot := by
      rw [prepareRoute, find?_id_eq_lookup, hlookup, h.change_eq]
      exact ⟨_, rfl, rfl⟩
    exact hcommit.commitPrepared hprepare hsnapshot
  | first :: second :: rest, h =>
    have hforward : batchPatch (List.map forwardRoute (first :: second :: rest)) =
      .batch (List.map forwardRoute (first :: second :: rest)) := rfl
    have hinverse : batchPatch (List.map inverseRoute (first :: second :: rest)).reverse =
        .batch (List.map inverseRoute (first :: second :: rest)).reverse := by
      rw [batchPatch]
      intro patch hsingle
      have hlength := congrArg List.length hsingle
      simp at hlength
    rw [hforward, hinverse, operationForCommittedPatch, ProjectPatch.children] at hoperation
    split at hoperation
    · rename_i hbend
      rw [Option.some.injEq] at hoperation
      subst hoperation
      have hbends : ∀ entry ∈ first :: second :: rest,
          routesEqualExceptBends (some entry.1.route) entry.2 = true := by
        intro entry hentry
        rw [bendOnlyRouteBatch, Bool.and_eq_true, List.all_eq_true] at hbend
        have hchild := hbend.2 (forwardRoute entry) (mem_map_of_mem hentry)
        have hroute : (forwardRoute entry).route? = some (entry.1.id, entry.2) := rfl
        rw [hroute, any_some, get?_routesOf_inverseRoute h.nodup hentry] at hchild
        exact hchild
      obtain ⟨change', hprepare, hsnapshot⟩ := h.replay_bends hbefore hafter hbends
      exact hcommit.commitPrepared hprepare hsnapshot
    · rw [if_pos] at hoperation
      · cases hoperation
      · rw [List.all_eq_true]
        intro patch hpatch
        obtain ⟨entry, -, rfl⟩ := mem_map.mp hpatch
        rfl

/-! ## Replaying commands -/

omit [Scalar K] in
/-- A batch that starts with a patch other than a route is replayed as that patch. -/
theorem operationForCommittedPatch_cons {patch : ProjectPatch K} {rest : List (ProjectPatch K)}
    {inverse : Option (ProjectPatch K)} (hroute : patch.route? = none)
    (hpatch : ∀ inverse, operationForCommittedPatch patch inverse = some operation) :
    operationForCommittedPatch (batchPatch (patch :: rest)) inverse = some operation := by
  cases rest with
  | nil => exact hpatch inverse
  | cons second rest =>
    have hbatch : batchPatch (patch :: second :: rest) = .batch (patch :: second :: rest) := rfl
    have hbend : ∀ inverses, bendOnlyRouteBatch (patch :: second :: rest) inverses = false := by
      intro inverses
      simp [bendOnlyRouteBatch, hroute]
    rw [hbatch, operationForCommittedPatch]
    simp only [hbend, all_cons, hroute, isSome_none, Bool.false_and,
      Bool.false_eq_true, if_false]
    rw [firstOperation, hpatch]

omit [Scalar K] in
/-- The trimmed, non-empty label is kept by trimming it again. -/
theorem trim_label (label : Option String) :
    (((label.map trim).filter (!·.isEmpty)).map trim).filter (!·.isEmpty) =
      (label.map trim).filter (!·.isEmpty) := by
  cases label with
  | none => rfl
  | some label =>
    by_cases hempty : (trim label).isEmpty = true
    · simp [Option.filter, hempty]
    · simp [Option.filter, hempty, trim_trim]

/-- The cable that was created, created once more: its ends are in the order in
which they were stored, so they are not turned around again. -/
theorem prepareCreation_replay {topology : TopologyIndex K} {nextConnectionId : Option ℕ}
    {source target : EndpointRef} {createdAt : String} {id : ℕ}
    (h : prepareCreation topology nextConnectionId source target createdAt = .ok (id, change)) :
    ∃ connection rest, change.forward = batchPatch (.addConnection connection :: rest) ∧
      connection.createdAt = createdAt ∧
      prepareCreation topology nextConnectionId connection.source connection.target createdAt =
        .ok (id, change) := by
  obtain ⟨sourceDescriptor, targetDescriptor, hvalid, hsource, htarget, hid, hcreated, hadd⟩ :=
    prepareCreation_eq_ok.mp h
  have hfresh := allocateConnectionId_eq_ok hid
  obtain ⟨index, snapshot, -, -, hchange⟩ :=
    prepareAddition_eq_ok (fun other hother => (hfresh other hother).ne) hadd
  refine ⟨_, _, by rw [hchange], rfl, ?_⟩
  obtain ⟨-, _, _, hsource', htarget', -, hpair, -⟩ := TopologyIndex.validateConnection_ok.mp hvalid
  rw [hsource, Option.some.injEq] at hsource'
  rw [htarget, Option.some.injEq] at htarget'
  subst hsource' htarget'
  simp only [TopologyConnection.withDerived]
  rcases @orientConnection_cases source target _ _ hpair with
    ⟨hfirst, hsecond⟩ | ⟨hfirst, hsecond, hturned⟩
  · rw [hfirst, hsecond]
    exact h
  · rw [hfirst, hsecond, prepareCreation_eq_ok]
    refine ⟨targetDescriptor, sourceDescriptor, TopologyIndex.validateConnection_swap hvalid,
      htarget, hsource, hid, hcreated, ?_⟩
    rw [hturned]
    exact hadd

/-- Renaming a project to its trimmed name once more. -/
theorem Engine.updateProjectMetadata_replay {name : String} (hname : (trim name).isEmpty = false)
    (havailable : engine.revision ≠ u32Max) :
    ∃ patches', engine.updateProjectMetadata (trim name) =
      ({ engine with projectName := trim name, revision := engine.revision + 1 },
        .patch patches') := by
  refine ⟨_, updateProjectMetadata_eq_patch.mpr ⟨?_, havailable, ?_, rfl⟩⟩
  · rw [trim_trim]
    exact hname
  · rw [trim_trim]

omit [Scalar K] in
/-- Labelling a connection with its trimmed label once more. -/
theorem prepareLabel_replay {label : Option String}
    (h : prepareLabel topology connectionId label = .ok change) :
    ∃ label', change.forward = .setConnectionLabel connectionId label' ∧
      prepareLabel topology connectionId label' = .ok change := by
  refine ⟨(label.map trim).filter (!·.isEmpty), ?_, ?_⟩
  · unfold prepareLabel at h
    dsimp only at h
    split at h
    · cases h
    · cases h
      rfl
  · rw [← h, prepareLabel, prepareLabel, trim_label]

omit [Scalar K] in
theorem prepareRoute_forward {route : Option (ConnectionRoute K)}
    (h : prepareRoute topology connectionId route = .ok change) :
    change.forward = .setConnectionRoute connectionId route := by
  unfold prepareRoute at h
  split at h
  · cases h
  · cases h
    rfl

/-- Whatever operation is read off the patches of a command takes the engine to the
same state as the command. -/
theorem Engine.perform_replay {committed : Operation K}
    (h : engine.perform committed = (next, .patch patches))
    (hoperation : operationForCommittedPatch patches.forward (some patches.inverse) =
      some operation) :
    ∃ patches', engine.perform operation = (next, .patch patches') := by
  have hvalid := engine.topology.valid
  cases perform_commits h with
  | created hprepare hcommit hnext =>
    obtain rfl := hnext
    obtain ⟨connection, rest, hforward, hcreated, hreplay⟩ := prepareCreation_replay hprepare
    rw [hcommit.answer, hforward,
      operationForCommittedPatch_cons rfl fun inverse => by rw [operationForCommittedPatch],
      Option.some.injEq] at hoperation
    subst hoperation
    rw [hcreated]
    exact ⟨_, createConnection_eq_patch.mpr ⟨_, _, _, hreplay, hcommit, rfl⟩⟩
  | removed hprepare hcommit =>
    obtain ⟨connection, snapshot, hlookup, -, rfl⟩ := prepareRemoval_eq_ok hprepare
    rw [hcommit.answer,
      operationForCommittedPatch_cons rfl fun inverse => by rw [operationForCommittedPatch],
      Option.some.injEq] at hoperation
    subst hoperation
    rw [(lookup_eq_some hlookup).2]
    exact hcommit.commitPrepared hprepare rfl
  | labelled hprepare hcommit =>
    obtain ⟨label', hforward, hreplay⟩ := prepareLabel_replay hprepare
    rw [hcommit.answer, hforward, operationForCommittedPatch, Option.some.injEq] at hoperation
    subst hoperation
    exact hcommit.commitPrepared hreplay rfl
  | routed hprepare hcommit =>
    rw [hcommit.answer, prepareRoute_forward hprepare, operationForCommittedPatch,
      Option.some.injEq] at hoperation
    subst hoperation
    exact hcommit.commitPrepared hprepare rfl
  | batch _ hbatch hcommit => exact hbatch.replay hcommit hoperation
  | renamed h =>
    obtain ⟨hname, havailable, rfl, rfl⟩ := updateProjectMetadata_eq_patch.mp h
    rw [operationForCommittedPatch, Option.some.injEq] at hoperation
    subst hoperation
    obtain ⟨patches', hreplay⟩ := updateProjectMetadata_replay hname havailable
    exact ⟨patches', hreplay⟩
  | assigned _ hprepare hcommit =>
    rw [hcommit.answer] at hoperation
    obtain ⟨replayed, change', rfl, hne, hreplay, hsnapshot⟩ :=
      prepareAssignments_replay hvalid.assignments_nodup hprepare hoperation
    have hcommit' := hcommit.of_snapshot hsnapshot
    exact ⟨_, updateAssignments_eq_patch.mpr ⟨hne, change', hreplay, hcommit'⟩⟩
  | placed _ h => exact updatePlacements_replay h hoperation

/-- **A committed patch is replayed exactly.** When a request is answered with a
patch and an operation can be read off it, a copy of the engine answers that
operation with a patch too, and ends in the very state of the authority. -/
theorem Engine.dispatch_replay (engine : Engine K) (request : EngineRequest K)
    {patches : CommandPatchSet K} (hpatch : (engine.dispatch request).2.result = .patch patches)
    {operation : Operation K}
    (hoperation : operationForCommittedPatch patches.forward (some patches.inverse) =
      some operation) (requestId : ℕ) :
    let copy := engine.dispatch
      { protocolVersion := protocolVersion
        requestId := requestId
        baseRevision := engine.revision
        operation := operation }
    (∃ patches', copy.2.result = .patch patches') ∧ copy.1 = (engine.dispatch request).1 := by
  intro copy
  obtain ⟨-, -, hperform⟩ := dispatch_eq_patch hpatch
  obtain ⟨patches', hreplay⟩ := perform_replay hperform hoperation
  have hhandle : engine.handle
      { protocolVersion := protocolVersion
        requestId := requestId
        baseRevision := engine.revision
        operation := operation } = ((engine.dispatch request).1, .patch patches') := by
    rw [handle, if_neg (not_not.mpr rfl), if_neg (not_not.mpr rfl)]
    exact hreplay
  refine ⟨⟨patches', ?_⟩, ?_⟩
  · exact (congrArg Prod.snd hhandle :)
  · exact (congrArg Prod.fst hhandle :)

/-- Connecting the switch, which settles the speed of the other cable too, is replayed on a copy. -/
theorem Engine.dispatch_replay_patched : ∃ (engine : Engine ℚ) (operation : Operation ℚ),
    engine.topology.snapshot = halfPatched ∧
      (engine.dispatch connectSwitch).1.topology.snapshot.connections.map
        (·.negotiatedSpeedBps) = [some 1000000000, some 1000000000] ∧
      (engine.dispatch
        { protocolVersion := protocolVersion
          requestId := 8
          baseRevision := 0
          operation := operation }).1 = (engine.dispatch connectSwitch).1 := by
  obtain ⟨topology, hbuild, hread, hspeeds⟩ : ∃ topology,
      TopologyIndex.build halfPatched = .ok topology ∧
      (((openedEngine 2 topology).dispatch connectSwitch).2.result.patches?.bind fun patches =>
        operationForCommittedPatch patches.forward (some patches.inverse)).isSome = true ∧
      ((openedEngine 2 topology).dispatch connectSwitch).1.topology.snapshot.connections.map
        (·.negotiatedSpeedBps) = [some 1000000000, some 1000000000] :=
    exists_ok_of_any (by decide +kernel)
  obtain ⟨operation, hread⟩ := Option.isSome_iff_exists.mp hread
  obtain ⟨patches, hpatches, hoperation⟩ := Option.bind_eq_some_iff.mp hread
  exact ⟨openedEngine 2 topology, operation, TopologyIndex.build_eq_ok.mp hbuild, hspeeds,
    (Engine.dispatch_replay _ _ (ResponseBody.patches?_eq_some.mp hpatches) hoperation 8).2⟩

end Replays

end HomelabInventory
