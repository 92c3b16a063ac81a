import HomelabInventory.EngineCommits
import HomelabInventory.InsertionMap

/-!
# Tracked changes

The lists of upserts and removals that a run of assignment or placement changes
records, and what they say: they lead from the entries before the run to those
after it, their inverses lead back, and they name exactly what has changed.
-/

namespace HomelabInventory

open List Option

/-! ## Lists that lead from one state to another -/

section Leads

variable {α κ : Type} {key : α → κ} {before after : κ → Option α}

/-- Upserts and removals that lead from one state of entries to another. -/
structure Leads (key : α → κ) (upsert : List α) (remove : List κ) (before after : κ → Option α) :
    Prop where
  upserted : ∀ a ∈ upsert, after (key a) = some a
  removed : ∀ k ∈ remove, after k = none
  kept : ∀ k, k ∉ remove → (∀ a ∈ upsert, key a ≠ k) → after k = before k

/-- Only the members of the lists count. -/
theorem Leads.congr {upsert upsert' : List α} {remove remove' : List κ}
    (h : Leads key upsert remove before after) (hupsert : ∀ a, a ∈ upsert' ↔ a ∈ upsert)
    (hremove : ∀ k, k ∈ remove' ↔ k ∈ remove) : Leads key upsert' remove' before after where
  upserted a ha := h.upserted a ((hupsert a).mp ha)
  removed k hk := h.removed k ((hremove k).mp hk)
  kept k hk hfree := h.kept k (fun hmem => hk ((hremove k).mpr hmem))
    fun a ha => hfree a ((hupsert a).mpr ha)

/-- The state after, computed from the lists and the state before. -/
theorem Leads.apply_eq [DecidableEq κ] {upsert : List α} {remove : List κ}
    (h : Leads key upsert remove before after) (k : κ) :
    (InsertionMap.get? (InsertionMap.ofEntries (upsert.map fun a => (key a, a))) k).or
      (if k ∈ remove then none else before k) = after k := by
  cases hget : InsertionMap.get? (InsertionMap.ofEntries (upsert.map fun a => (key a, a))) k with
  | some a =>
    have hmem := InsertionMap.mem_ofEntries (InsertionMap.mem_of_get?_eq_some hget)
    obtain ⟨b, hb, heq⟩ := mem_map.mp hmem
    cases heq
    exact (h.upserted a hb).symm
  | none =>
    rw [none_or]
    by_cases hk : k ∈ remove
    · rw [if_pos hk, h.removed k hk]
    · rw [if_neg hk]
      refine (h.kept k hk ?_).symm
      rintro a ha rfl
      rw [InsertionMap.get?_ofEntries, InsertionMap.get?_eq_none] at hget
      exact hget (key a, a) (mem_reverse.mpr (mem_map_of_mem ha)) rfl

/-- One of the change lists names the key. -/
def ChangeLists.Names (key : α → κ) (lists : ChangeLists α κ) (k : κ) : Prop :=
  ((∃ a ∈ lists.forwardUpsert, key a = k) ∨ k ∈ lists.forwardRemove) ∨
    (∃ a ∈ lists.inverseUpsert, key a = k) ∨ k ∈ lists.inverseRemove

/-- Change lists that lead to a state and back; they name only keys that were
seen and whose entries have changed. -/
structure ChangeLists.Tracks (key : α → κ) (lists : ChangeLists α κ) (seen : κ → Prop)
    (before after : κ → Option α) : Prop where
  forward : Leads key lists.forwardUpsert lists.forwardRemove before after
  inverse : Leads key lists.inverseUpsert lists.inverseRemove after before
  named_seen : ∀ k, lists.Names key k → seen k
  named_changed : ∀ k, lists.Names key k → after k ≠ before k

/-- One more change after lists that lead from one state to another. The key is
new to the lists, so they still say what they said about the others. -/
theorem Leads.record {upsert : List α} {remove : List κ} (h : Leads key upsert remove before after)
    {k : κ} {entry : Option α} (hupsert : ∀ a ∈ upsert, key a ≠ k) (hremove : k ∉ remove)
    (hkey : ∀ a, entry = some a → key a = k) {before' after' : κ → Option α}
    (hbefore : ∀ j, j ≠ k → before' j = before j) (hafter : ∀ j, j ≠ k → after' j = after j)
    (hentry : after' k = entry) :
    Leads key (upsert ++ entry.toList) (remove ++ if entry.isNone then [k] else []) before'
      after' where
  upserted := by
    intro a ha
    rcases mem_append.mp ha with ha | ha
    · rw [hafter _ (hupsert a ha)]
      exact h.upserted a ha
    · obtain rfl := mem_toList.mp ha
      rw [hkey a rfl]
      exact hentry
  removed := by
    intro j hj
    rcases mem_append.mp hj with hj | hj
    · rw [hafter j fun heq => hremove (heq ▸ hj)]
      exact h.removed j hj
    · cases entry with
      | none =>
        rw [mem_singleton.mp hj]
        exact hentry
      | some a => cases hj
  kept := by
    intro j hj hfree
    by_cases hjk : j = k
    · subst hjk
      cases entry with
      | none => exact absurd (mem_append_right _ (mem_singleton.mpr rfl)) hj
      | some a =>
        exact absurd (hkey a rfl) (hfree a (mem_append_right _ (by simp)))
    · rw [hafter j hjk, hbefore j hjk]
      exact h.kept j (fun hmem => hj (mem_append_left _ hmem))
        fun a ha => hfree a (mem_append_left _ ha)

namespace ChangeLists

variable {lists : ChangeLists α κ} {seen : κ → Prop}

/-- A recorded change names its key and no other new one. -/
theorem Names.of_record {k j : κ} {previous next : Option α}
    (hprevious : ∀ a, previous = some a → key a = k) (hnext : ∀ a, next = some a → key a = k)
    (h : (lists.record k previous next).Names key j) : lists.Names key j ∨ j = k := by
  have hside : ∀ (upsert : List α) (remove : List κ) (entry : Option α),
      (∀ a, entry = some a → key a = k) →
      ((∃ a ∈ upsert ++ entry.toList, key a = j) ∨
        j ∈ remove ++ if entry.isNone then [k] else []) →
      ((∃ a ∈ upsert, key a = j) ∨ j ∈ remove) ∨ j = k := by
    rintro upsert remove entry hentry (⟨a, ha, rfl⟩ | hj)
    · rcases mem_append.mp ha with ha | ha
      · exact Or.inl (Or.inl ⟨a, ha, rfl⟩)
      · exact Or.inr (hentry a (mem_toList.mp ha))
    · rcases mem_append.mp hj with hj | hj
      · exact Or.inl (Or.inr hj)
      · cases entry with
        | none => exact Or.inr (mem_singleton.mp hj)
        | some a => cases hj
  rcases h with h | h
  · exact (hside _ _ next hnext h).imp_left Or.inl
  · exact (hside _ _ previous hprevious h).imp_left Or.inr

namespace Tracks

theorem start (key : α → κ) (state : κ → Option α) :
    ChangeLists.Tracks key {} (fun _ => False) state state where
  forward := ⟨by simp, by simp, fun _ _ _ => rfl⟩
  inverse := ⟨by simp, by simp, fun _ _ _ => rfl⟩
  named_seen := by simp [Names]
  named_changed := by simp [Names]

/-- A key that is seen without being changed. -/
theorem see (h : lists.Tracks key seen before after) {seen' : κ → Prop}
    (hseen : ∀ k, seen k → seen' k) : lists.Tracks key seen' before after where
  forward := h.forward
  inverse := h.inverse
  named_seen k hk := hseen k (h.named_seen k hk)
  named_changed := h.named_changed

/-- A change of a key that was not seen before. -/
theorem record (h : lists.Tracks key seen before after) {k : κ} (hk : ¬seen k)
    {previous next : Option α} (hprevious : ∀ a, previous = some a → key a = k)
    (hnext : ∀ a, next = some a → key a = k) (hdiffers : next ≠ previous)
    {before' after' : κ → Option α} (hbefore : ∀ j, j ≠ k → before' j = before j)
    (hafter : ∀ j, j ≠ k → after' j = after j) (hbeforeKey : before' k = previous)
    (hafterKey : after' k = next) {seen' : κ → Prop} (hseen : ∀ j, seen' j ↔ seen j ∨ j = k) :
    (lists.record k previous next).Tracks key seen' before' after' := by
  have hnew : ¬lists.Names key k := fun hnames => hk (h.named_seen k hnames)
  simp only [Names, not_or, not_exists, not_and] at hnew
  obtain ⟨⟨hupsert, hremove⟩, hinverseUpsert, hinverseRemove⟩ := hnew
  refine ⟨h.forward.record hupsert hremove hnext hbefore hafter hafterKey,
    h.inverse.record hinverseUpsert hinverseRemove hprevious hafter hbefore hbeforeKey, ?_, ?_⟩
  · intro j hj
    exact (hseen j).mpr ((hj.of_record hprevious hnext).imp_left (h.named_seen j))
  · intro j hj
    by_cases hjk : j = k
    · rw [hjk, hbeforeKey, hafterKey]
      exact hdiffers
    · rw [hbefore j hjk, hafter j hjk]
      exact h.named_changed j ((hj.of_record hprevious hnext).resolve_right hjk)

/-- The lists name exactly the keys whose entries have changed. -/
theorem names_iff (h : lists.Tracks key seen before after) (k : κ) :
    lists.Names key k ↔ after k ≠ before k := by
  refine ⟨h.named_changed k, ?_⟩
  intro hchanged
  by_contra hnew
  simp only [Names, not_or, not_exists, not_and] at hnew
  exact hchanged (h.forward.kept k hnew.1.2 hnew.1.1)

end Tracks

end ChangeLists

end Leads

/-! ## Runs of assignment changes -/

/-- The assignments of a plan know their identifiers, its lists track the changes
since `before`, and the identifiers it has seen are positive. -/
structure AssignmentPlan.Tracks (before : ℕ → Option TopologyAssignment) (plan : AssignmentPlan) :
    Prop where
  keyed : ∀ (id : ℕ) assignment, plan.assignments[id]? = some assignment → assignment.id = id
  lists : plan.lists.Tracks TopologyAssignment.id (· ∈ plan.seen) before (plan.assignments[·]?)
  positive : ∀ id ∈ plan.seen, id ≠ 0
  unseen : ∀ id, id ∉ plan.seen → plan.assignments[id]? = before id

theorem mem_insert_iff {κ : Type} [Ord κ] [Std.TransOrd κ] [Std.LawfulEqOrd κ] {seen : BTreeSet κ}
    {k j : κ} : j ∈ seen.insert k ↔ j ∈ seen ∨ j = k := by
  rw [Std.ExtTreeSet.mem_insert, Std.LawfulEqOrd.compare_eq_iff_eq, or_comm, eq_comm]

theorem planAssignment_tracks {before : ℕ → Option TopologyAssignment}
    {plan plan' : AssignmentPlan} {change : AssignmentChange} (h : plan.Tracks before)
    (hplan : planAssignment plan change = .ok plan') : plan'.Tracks before := by
  obtain ⟨id, ⟨hprevious, hnext, -⟩, ⟨hpos, hfresh⟩, hcurrent, rfl⟩ := planAssignment_eq_ok.mp hplan
  have hpositive : ∀ j ∈ plan.seen.insert id, j ≠ 0 := by
    intro j hj
    rcases mem_insert_iff.mp hj with hj | rfl
    · exact h.positive j hj
    · exact hpos
  split
  · refine ⟨h.keyed, h.lists.see fun j hj => mem_insert_iff.mpr (Or.inl hj), hpositive, ?_⟩
    intro j hj
    exact h.unseen j fun hmem => hj (mem_insert_iff.mpr (Or.inl hmem))
  · rename_i hdiffers
    refine ⟨?_, h.lists.record hfresh hprevious hnext (Ne.symm hdiffers) (fun _ _ => rfl) ?_ ?_ ?_
      fun _ => mem_insert_iff, hpositive, ?_⟩
    · intro j assignment hget
      rw [getElem?_setEntry] at hget
      split at hget
      · rename_i hj
        rw [hj]
        exact hnext assignment hget
      · exact h.keyed j assignment hget
    · intro j hj
      rw [getElem?_setEntry, if_neg hj]
    · exact (h.unseen id hfresh).symm.trans hcurrent
    · rw [getElem?_setEntry, if_pos rfl]
    · intro j hj
      rw [mem_insert_iff, not_or] at hj
      rw [getElem?_setEntry, if_neg hj.2]
      exact h.unseen j hj.1

theorem prepareAssignments_tracks {K : Type} {topology : TopologySnapshot K}
    (hnodup : (topology.assignments.map (·.id)).Nodup) {changes : List AssignmentChange}
    {plan : AssignmentPlan}
    (h : changes.foldlM planAssignment
      { assignments := collectEntries (topology.assignments.map fun assignment =>
          (assignment.id, assignment)) } = .ok plan) :
    plan.Tracks (lookup TopologyAssignment.id topology.assignments) := by
  refine foldlM_invariant h ?_ fun plan change _ plan' hplan hstep =>
    planAssignment_tracks hplan hstep
  have hlookup := fun id => getElem?_collectEntries_map hnodup id
  refine ⟨?_, ?_, by simp, fun id _ => hlookup id⟩
  · intro id assignment hget
    rw [hlookup] at hget
    exact (lookup_eq_some hget).2
  · have hstart := ChangeLists.Tracks.start TopologyAssignment.id
      (lookup TopologyAssignment.id topology.assignments)
    have hstate : (fun id : ℕ => (collectEntries (topology.assignments.map fun assignment =>
        (assignment.id, assignment)))[id]?) =
        lookup TopologyAssignment.id topology.assignments := funext hlookup
    rw [hstate]
    exact hstart.see (by simp)

/-! ## Runs of placement changes -/

section Placements

variable {K : Type} [Scalar K]

/-- A recorded placement change passes the checks of every change: the item is
known, the coordinates are finite, and the two placements do not compare equal. -/
structure ValidPlacementChange (knownItems : BTreeSet ItemRef) (item : ItemRef)
    (previous next : Option (CanvasPlacement K)) : Prop where
  valid_item : item.validate.isOk = true
  known : item ∈ knownItems
  previous_item : ∀ placement, previous = some placement → placement.item = item
  next_item : ∀ placement, next = some placement → placement.item = item
  previous_finite : previous.any (!validCanvasPlacement ·) = false
  next_finite : next.any (!validCanvasPlacement ·) = false
  differs : (previous == next) = false

/-- The lists of a placement plan, against the placements that its changes name. -/
structure PlacementPlan.Tracks (knownItems initial : BTreeSet ItemRef)
    (before after : ItemRef → Option (CanvasPlacement K)) (plan : PlacementPlan K) : Prop where
  lists : plan.lists.Tracks CanvasPlacement.item (· ∈ plan.seen) before after
  valid : ∀ item, after item ≠ before item →
    ValidPlacementChange knownItems item (before item) (after item)
  placed : ∀ item, after item ≠ before item →
    (item ∈ plan.placedItems ↔ (after item).isSome = true)
  kept : ∀ item, after item = before item → (item ∈ plan.placedItems ↔ item ∈ initial)

/-- A valid placement compares equal to itself. -/
theorem beq_self_of_valid {placement : Option (CanvasPlacement K)}
    (h : placement.any (!validCanvasPlacement ·) = false) : (placement == placement) = true := by
  cases placement with
  | none => rfl
  | some placement =>
    simp only [any_some, validCanvasPlacement, Bool.not_eq_false', Bool.and_eq_true] at h
    have hx := Scalar.beq_self_of_isFinite placement.x h.1.2
    have hy := Scalar.beq_self_of_isFinite placement.y h.2
    rw [some_beq_some]
    simp only [BEq.beq, instBEqCanvasPlacement.beq, Bool.and_eq_true]
    exact ⟨beq_self_eq_true placement.item, hx, hy⟩

/-- The placed items after a change of one of them. -/
theorem mem_placedItems {placedItems : BTreeSet ItemRef} {item j : ItemRef} {placed : Bool} :
    j ∈ (if placed then placedItems.insert item else placedItems.erase item) ↔
      if j = item then placed = true else j ∈ placedItems := by
  cases placed with
  | true =>
    rw [if_pos rfl, mem_insert_iff]
    by_cases hj : j = item <;> simp [hj]
  | false =>
    rw [if_neg Bool.false_ne_true, Std.ExtTreeSet.mem_erase, ne_eq,
      Std.LawfulEqOrd.compare_eq_iff_eq]
    by_cases hj : j = item
    · simp [hj]
    · have hne : ¬item = j := fun heq => hj heq.symm
      simp [hj, hne]

theorem planPlacement_tracks {knownItems initial : BTreeSet ItemRef}
    {before after : ItemRef → Option (CanvasPlacement K)} {plan plan' : PlacementPlan K}
    {change : PlacementChange K} (h : plan.Tracks knownItems initial before after)
    (hplan : planPlacement knownItems plan change = .ok plan') :
    ∃ before' after', plan'.Tracks knownItems initial before' after' := by
  obtain ⟨item, ⟨hprevious, hnext, -⟩, ⟨hvalid, hknown, hfresh⟩, ⟨hpreviousFinite, hnextFinite⟩,
    rfl⟩ := planPlacement_eq_ok.mp hplan
  split
  · exact ⟨before, after, h.lists.see fun j hj => mem_insert_iff.mpr (Or.inl hj), h.valid,
      h.placed, h.kept⟩
  · rename_i hsame
    rw [Bool.not_eq_true] at hsame
    have hdiffers : change.next ≠ change.previous := by
      intro heq
      rw [heq, beq_self_of_valid hpreviousFinite] at hsame
      cases hsame
    refine ⟨Function.update before item change.previous, Function.update after item change.next,
      h.lists.record hfresh hprevious hnext hdiffers
        (fun j hj => Function.update_of_ne hj _ _) (fun j hj => Function.update_of_ne hj _ _)
        (Function.update_self _ _ _) (Function.update_self _ _ _) fun _ => mem_insert_iff,
      ?_, ?_, ?_⟩
    · intro j hj
      by_cases hitem : j = item
      · subst hitem
        rw [Function.update_self, Function.update_self]
        exact ⟨hvalid, hknown, hprevious, hnext, hpreviousFinite, hnextFinite, hsame⟩
      · rw [Function.update_of_ne hitem, Function.update_of_ne hitem] at hj ⊢
        exact h.valid j hj
    · intro j hj
      rw [mem_placedItems]
      by_cases hitem : j = item
      · subst hitem
        rw [if_pos rfl, Function.update_self]
      · rw [Function.update_of_ne hitem, Function.update_of_ne hitem] at hj
        rw [if_neg hitem, Function.update_of_ne hitem]
        exact h.placed j hj
    · intro j hj
      rw [mem_placedItems]
      by_cases hitem : j = item
      · subst hitem
        rw [Function.update_self, Function.update_self] at hj
        exact absurd hj hdiffers
      · rw [Function.update_of_ne hitem, Function.update_of_ne hitem] at hj
        rw [if_neg hitem]
        exact h.kept j hj

/-- A run of placement changes records valid changes of distinct items. -/
theorem planPlacements_tracks {topology : TopologySnapshot K} {changes : List (PlacementChange K)}
    {plan : PlacementPlan K} (h : planPlacements topology changes = .ok plan) :
    plan.lists.isEmpty = false ∧ ∃ before after,
      plan.Tracks (collectSet (topology.items.map (·.item))) (collectSet topology.placements)
        before after := by
  obtain ⟨hplan, hchanged⟩ := planPlacements_eq_ok.mp h
  refine ⟨hchanged, ?_⟩
  apply foldlM_invariant (P := fun plan : PlacementPlan K => ∃ before after,
    plan.Tracks (collectSet (topology.items.map (·.item))) (collectSet topology.placements)
      before after) hplan
  · refine ⟨fun _ => none, fun _ => none, ?_, ?_, ?_, ?_⟩
    · exact (ChangeLists.Tracks.start CanvasPlacement.item fun _ => none).see (by simp)
    · intro item hitem
      exact absurd rfl hitem
    · intro item hitem
      exact absurd rfl hitem
    · exact fun _ _ => Iff.rfl
  · rintro plan change - plan' ⟨before, after, htracks⟩ hstep
    exact planPlacement_tracks htracks hstep

end Placements

end HomelabInventory
