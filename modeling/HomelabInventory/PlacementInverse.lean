import HomelabInventory.CommittedReplay
import HomelabInventory.PatchInverse
import HomelabInventory.WiringIntegrity

/-!
# Undoing placement commands

A command on placements answers with a patch and its inverse. The engine knows which items are
placed, not where; the inverse is made from what the caller says about the placements before. It
restores the placed items exactly when the caller says of no item that it was placed when it was
not, or the other way round.
-/

namespace HomelabInventory

open List Option

variable {K : Type}

/-! ## Placed items -/

/-- A document has a placement of an item. -/
def ProjectDocument.Places (document : ProjectDocument K) (key : String) : Prop :=
  ∃ placement ∈ document.placements, placement.serverId = key

/-- The placed items after a patch. -/
def ProjectPatch.Places (placed : ItemRef → Prop) : ProjectPatch K → ItemRef → Prop
  | .patchPlacements upsert removeItems, item =>
    (∃ placement ∈ upsert, placement.item = item) ∨ placed item ∧ item ∉ removeItems
  | _, item => placed item

/-- The item that a change is about. -/
def PlacementChange.item? (change : PlacementChange K) : Option ItemRef :=
  (change.previous.or change.next).map (·.item)

section Documents

variable (parses : String → Bool)

/-- The key of an item is a placed key exactly when the item is placed. -/
theorem lookup_isSome_iff {document : ProjectDocument K} {key : String} :
    (lookup RuntimePlacement.serverId document.placements key).isSome = true ↔
      document.Places key := by
  constructor
  · intro h
    obtain ⟨placement, hplacement⟩ := isSome_iff_exists.mp h
    exact ⟨placement, lookup_eq_some hplacement⟩
  · rintro ⟨placement, hmem, hkey⟩
    by_contra h
    rw [Bool.not_eq_true, isSome_eq_false_iff, isNone_iff_eq_none,
      lookup_eq_none] at h
    exact h placement hmem hkey

/-- A patch of placements changes the placed items of a document as it changes those of an
engine. -/
theorem applyProjectPatch_places {document : ProjectDocument K} {placed : ItemRef → Prop}
    (hdocument : ∀ key, document.Places key ↔ ∃ item, placed item ∧ itemKey item = key)
    {upsert : List (CanvasPlacement K)} {removeItems : List ItemRef}
    (hupsert : ∀ placement ∈ upsert, parses (itemKey placement.item) = true)
    (hremove : ∀ item ∈ removeItems, parses (itemKey item) = true) (revision : ℕ) :
    ∃ next, applyProjectPatch parses document revision (.patchPlacements upsert removeItems) =
        some next ∧
      ∀ key, next.Places key ↔
        ∃ item, (ProjectPatch.patchPlacements upsert removeItems).Places placed item ∧
          itemKey item = key := by
  have hparse : ((ProjectPatch.patchPlacements upsert removeItems).itemRefs.all fun item =>
      parses (itemKey item)) = true := by
    rw [List.all_eq_true]
    intro item hitem
    obtain hitem | hitem := mem_append.mp hitem
    · obtain ⟨placement, hplacement, rfl⟩ := mem_map.mp hitem
      exact hupsert placement hplacement
    · exact hremove item hitem
  refine ⟨_, by rw [applyProjectPatch, if_pos hparse]; rintro _ ⟨⟩, ?_⟩
  intro key
  rw [← lookup_isSome_iff]
  simp only [ProjectDocument.applyLeaf]
  rw [lookup_patchEntries (by
    intro entry hentry
    obtain ⟨placement, -, rfl⟩ := mem_map.mp hentry
    rfl), isSome_or, Bool.or_eq_true, isSome_map]
  have hupserted : (InsertionMap.get? (InsertionMap.ofEntries
      (upsert.map fun placement => (itemKey placement.item, placement))) key).isSome = true ↔
      ∃ placement ∈ upsert, itemKey placement.item = key := by
    rw [InsertionMap.get?_ofEntries, isSome_iff_ne_none, Ne, InsertionMap.get?_eq_none]
    simp
  have hkept : (if key ∈ removeItems.map itemKey then none
      else lookup RuntimePlacement.serverId document.placements key).isSome = true ↔
      ∃ item, (placed item ∧ item ∉ removeItems) ∧ itemKey item = key := by
    split
    · rename_i hmem
      obtain ⟨item, hitem, rfl⟩ := mem_map.mp hmem
      simp only [isSome_none, Bool.false_eq_true, false_iff, not_exists, not_and]
      rintro other ⟨-, hother⟩ hkey
      exact hother (itemKey_injective hkey ▸ hitem)
    · rename_i hmem
      rw [lookup_isSome_iff, hdocument]
      constructor
      · rintro ⟨item, hitem, rfl⟩
        exact ⟨item, ⟨hitem, fun hremoved => hmem (mem_map_of_mem hremoved)⟩, rfl⟩
      · rintro ⟨item, ⟨hitem, -⟩, rfl⟩
        exact ⟨item, hitem, rfl⟩
  rw [hupserted, hkept]
  constructor
  · rintro (⟨placement, hplacement, rfl⟩ | ⟨item, hitem, rfl⟩)
    · exact ⟨_, .inl ⟨placement, hplacement, rfl⟩, rfl⟩
    · exact ⟨item, .inr hitem, rfl⟩
  · rintro ⟨item, ⟨placement, hplacement, rfl⟩ | hitem, rfl⟩
    · exact .inl ⟨placement, hplacement, rfl⟩
    · exact .inr ⟨item, hitem, rfl⟩

end Documents

variable [Scalar K]

/-! ## What a run of changes records -/

/-- A change that changes something. -/
def PlacementChange.IsEffective (change : PlacementChange K) : Prop :=
  (change.previous == change.next) = false

/-- The lists of a plan after some changes: every change that changes something is in one forward
list, by what it says about afterwards, and in one inverse list, by what it says about before. -/
structure PlacementPlan.Records (initial : BTreeSet ItemRef) (changes : List (PlacementChange K))
    (plan : PlacementPlan K) : Prop where
  items : ∀ change ∈ changes, ∃ item ∈ plan.seen, change.item? = some item ∧
    ∀ placement, change.previous = some placement ∨ change.next = some placement →
      placement.item = item
  forwardUpsert : ∀ placement, placement ∈ plan.lists.forwardUpsert ↔
    ∃ change ∈ changes, change.IsEffective ∧ change.next = some placement
  forwardRemove : ∀ item, item ∈ plan.lists.forwardRemove ↔
    ∃ change ∈ changes, change.IsEffective ∧ change.next = none ∧ change.item? = some item
  inverseUpsert : ∀ placement, placement ∈ plan.lists.inverseUpsert ↔
    ∃ change ∈ changes, change.IsEffective ∧ change.previous = some placement
  inverseRemove : ∀ item, item ∈ plan.lists.inverseRemove ↔
    ∃ change ∈ changes, change.IsEffective ∧ change.previous = none ∧ change.item? = some item
  placed : ∀ item, item ∈ plan.placedItems ↔
    (∃ placement ∈ plan.lists.forwardUpsert, placement.item = item) ∨
      item ∈ initial ∧ item ∉ plan.lists.forwardRemove

section Recording

variable {knownItems initial : BTreeSet ItemRef} {plan plan' : PlacementPlan K}
  {changes : List (PlacementChange K)} {change : PlacementChange K}

omit [Scalar K] in
/-- A change about an item is about the item of its placements. -/
theorem PlacementChange.item?_eq_some {item : ItemRef}
    (hprevious : ∀ placement, change.previous = some placement → placement.item = item)
    (hnext : ∀ placement, change.next = some placement → placement.item = item)
    (h : change.previous.isSome ∨ change.next.isSome) : change.item? = some item := by
  rw [item?]
  cases hbefore : change.previous with
  | some placement => exact congrArg some (hprevious placement hbefore)
  | none =>
    rw [none_or]
    cases hafter : change.next with
    | some placement => exact congrArg some (hnext placement hafter)
    | none => simp [hbefore, hafter] at h

theorem PlacementPlan.Records.step (h : plan.Records initial changes)
    (hplan : planPlacement knownItems plan change = .ok plan') :
    plan'.Records initial (changes ++ [change]) := by
  obtain ⟨item, ⟨hprevious, hnext, hsome⟩, ⟨-, -, hfresh⟩, -, rfl⟩ := planPlacement_eq_ok.mp hplan
  have hitem := PlacementChange.item?_eq_some hprevious hnext hsome
  have hitems : ∀ seen : BTreeSet ItemRef, (∀ other, other ∈ seen ↔ other ∈ plan.seen ∨ other = item) →
      ∀ other ∈ changes ++ [change], ∃ i ∈ seen, other.item? = some i ∧
        ∀ placement, other.previous = some placement ∨ other.next = some placement →
          placement.item = i := by
    intro seen hseen other hother
    obtain hother | hother := mem_append.mp hother
    · obtain ⟨i, hi, hrest⟩ := h.items other hother
      exact ⟨i, (hseen i).mpr (.inl hi), hrest⟩
    · obtain rfl := mem_singleton.mp hother
      exact ⟨item, (hseen item).mpr (.inr rfl), hitem,
        fun placement hplacement => hplacement.elim (hprevious placement) (hnext placement)⟩
  -- a change is recorded among the others exactly when it changes something
  have hlast : ∀ {p : PlacementChange K → Prop},
      (∃ other ∈ changes ++ [change], other.IsEffective ∧ p other) ↔
      (∃ other ∈ changes, other.IsEffective ∧ p other) ∨ change.IsEffective ∧ p change := by
    intro p
    simp only [mem_append, mem_singleton, or_and_right, exists_or, exists_eq_left]
  split
  · rename_i hsame
    have hkept : ¬change.IsEffective := by simp [PlacementChange.IsEffective, hsame]
    refine ⟨hitems _ fun _ => mem_insert_iff, ?_, ?_, ?_, ?_, h.placed⟩
    · intro placement
      rw [hlast, h.forwardUpsert]
      exact ⟨.inl, fun hor => hor.resolve_right fun hchange => hkept hchange.1⟩
    · intro other
      rw [hlast, h.forwardRemove]
      exact ⟨.inl, fun hor => hor.resolve_right fun hchange => hkept hchange.1⟩
    · intro placement
      rw [hlast, h.inverseUpsert]
      exact ⟨.inl, fun hor => hor.resolve_right fun hchange => hkept hchange.1⟩
    · intro other
      rw [hlast, h.inverseRemove]
      exact ⟨.inl, fun hor => hor.resolve_right fun hchange => hkept hchange.1⟩
  · rename_i hsame
    have heffective : change.IsEffective := (Bool.not_eq_true _).mp hsame
    have hremoved : ∀ {entry : Option (CanvasPlacement K)} {other : ItemRef},
        other ∈ (if entry.isNone then [item] else []) ↔
          entry = none ∧ change.item? = some other := by
      intro entry other
      rw [hitem, Option.some.injEq, eq_comm (a := item)]
      cases entry <;> simp
    refine ⟨hitems _ fun _ => mem_insert_iff, ?_, ?_, ?_, ?_, ?_⟩
    · intro placement
      rw [hlast, ← h.forwardUpsert, and_iff_right heffective]
      exact mem_append.trans (or_congr_right mem_toList)
    · intro other
      rw [hlast, ← h.forwardRemove, and_iff_right heffective]
      exact mem_append.trans (or_congr_right hremoved)
    · intro placement
      rw [hlast, ← h.inverseUpsert, and_iff_right heffective]
      exact mem_append.trans (or_congr_right mem_toList)
    · intro other
      rw [hlast, ← h.inverseRemove, and_iff_right heffective]
      exact mem_append.trans (or_congr_right hremoved)
    · intro other
      rw [mem_placedItems]
      simp only [ChangeLists.record, mem_append, mem_toList, hremoved, hitem,
        Option.some.injEq]
      by_cases hother : other = item
      · -- nothing about a fresh item has been recorded before
        subst hother
        have hnew : ∀ placement ∈ plan.lists.forwardUpsert, placement.item ≠ other := by
          rintro placement hplacement rfl
          obtain ⟨earlier, hearlier, -, hafter⟩ := (h.forwardUpsert placement).mp hplacement
          obtain ⟨i, hi, -, hsame⟩ := h.items earlier hearlier
          exact hfresh (hsame placement (.inr hafter) ▸ hi)
        rw [if_pos rfl]
        cases hafter : change.next with
        | none =>
          simp only [isSome_none, Bool.false_eq_true, reduceCtorEq, or_false, false_iff]
          rintro (⟨placement, hplacement, hitem⟩ | ⟨-, hkept⟩)
          · exact hnew placement hplacement hitem
          · exact hkept (.inr ⟨trivial, trivial⟩)
        | some placement =>
          simp only [isSome_some, true_iff]
          exact .inl ⟨placement, .inr rfl, hnext placement hafter⟩
      · rw [if_neg hother, h.placed other]
        refine or_congr ?_ (and_congr_right fun _ => not_congr ?_)
        · constructor
          · rintro ⟨placement, hplacement, hitem⟩
            exact ⟨placement, .inl hplacement, hitem⟩
          · rintro ⟨placement, hplacement | hafter, rfl⟩
            · exact ⟨placement, hplacement, rfl⟩
            · exact absurd (hnext placement hafter) hother
        · exact ⟨.inl, fun hor => hor.resolve_right fun hlast => hother hlast.2.symm⟩

theorem planPlacements_records {rest : List (PlacementChange K)} (h : plan.Records initial changes)
    (hrun : rest.foldlM (planPlacement knownItems) plan = .ok plan') :
    plan'.Records initial (changes ++ rest) := by
  induction rest generalizing plan changes with
  | nil =>
    obtain rfl := pure_eq_ok.mp hrun
    rw [append_nil]
    exact h
  | cons change rest ih =>
    obtain ⟨next, hstep, hrest⟩ := foldlM_cons_eq_ok.mp hrun
    have hrecords := ih (h.step hstep) hrest
    rw [append_assoc, singleton_append] at hrecords
    exact hrecords

/-- The changes of a run are about different items of the inventory. -/
theorem planPlacements_items (hrun : changes.foldlM (planPlacement knownItems) plan = .ok plan') :
    (changes.map (·.item?)).Nodup ∧
      ∀ change ∈ changes, ∃ item ∈ knownItems, change.item? = some item := by
  constructor
  · refine (nodup_of_foldlM (·.item?) (fun plan key => ∃ item ∈ plan.seen, key = some item) hrun
      ?_).1
    intro plan change next hstep
    obtain ⟨item, ⟨hprevious, hnext, hsome⟩, ⟨-, -, hfresh⟩, -, rfl⟩ := planPlacement_eq_ok.mp hstep
    have hitem := PlacementChange.item?_eq_some hprevious hnext hsome
    have hseen : ∀ seen : BTreeSet ItemRef,
        (∀ other, other ∈ seen ↔ other ∈ plan.seen ∨ other = item) → ∀ key,
        (∃ i ∈ seen, key = some i) ↔ (∃ i ∈ plan.seen, key = some i) ∨ key = change.item? := by
      intro seen hseen key
      rw [hitem]
      constructor
      · rintro ⟨i, hi, rfl⟩
        exact ((hseen i).mp hi).imp (fun hi => ⟨i, hi, rfl⟩) (congrArg some)
      · rintro (⟨i, hi, rfl⟩ | rfl)
        · exact ⟨i, (hseen i).mpr (.inl hi), rfl⟩
        · exact ⟨item, (hseen item).mpr (.inr rfl), rfl⟩
    refine ⟨?_, ?_⟩
    · rw [hitem]
      rintro ⟨i, hi, heq⟩
      exact hfresh (Option.some.inj heq ▸ hi)
    · split <;> exact hseen _ fun _ => mem_insert_iff
  · refine forall_of_foldlM hrun ?_
    intro plan change next hstep
    obtain ⟨item, ⟨hprevious, hnext, hsome⟩, ⟨-, hknown, -⟩, -, -⟩ := planPlacement_eq_ok.mp hstep
    exact ⟨item, hknown, PlacementChange.item?_eq_some hprevious hnext hsome⟩

/-- A change is right about its item: one that names a previous placement is about an item that is
placed, and one that names none and places an item is about one that is not. -/
def PlacementChange.Truthful (placed : ItemRef → Prop) (change : PlacementChange K) : Prop :=
  (∀ placement, change.previous = some placement → placed placement.item) ∧
    (change.previous = none → ∀ placement, change.next = some placement → ¬placed placement.item)

/-- **The inverse restores the placed items exactly when the changes are truthful.** -/
theorem PlacementPlan.Records.restores_iff (h : plan.Records initial changes)
    (hnodup : (changes.map (·.item?)).Nodup) :
    (∀ item, (ProjectPatch.patchPlacements plan.lists.inverseUpsert plan.lists.inverseRemove).Places
        (· ∈ plan.placedItems) item ↔ item ∈ initial) ↔
      ∀ change ∈ changes, change.IsEffective → change.Truthful (· ∈ initial) := by
  have hitem : ∀ change ∈ changes, ∀ placement,
      change.previous = some placement ∨ change.next = some placement →
        change.item? = some placement.item := by
    intro change hchange placement hplacement
    obtain ⟨item, -, hitem, hsame⟩ := h.items change hchange
    rw [hitem, hsame placement hplacement]
  have hunique : ∀ change ∈ changes, ∀ other ∈ changes, change.item? = other.item? →
      change = other := fun change hchange other hother heq =>
    inj_on_of_nodup_map hnodup hchange hother heq
  constructor
  · intro hrestores change hchange heffective
    refine ⟨fun placement hprevious => ?_, fun hprevious placement hnext hplaced => ?_⟩
    · exact (hrestores placement.item).mp
        (.inl ⟨placement, (h.inverseUpsert _).mpr ⟨change, hchange, heffective, hprevious⟩, rfl⟩)
    · obtain ⟨other, hother, hsame⟩ | ⟨-, hkept⟩ := (hrestores placement.item).mpr hplaced
      · -- a change of the same item is the same change, which has no placement before
        obtain ⟨change', hchange', -, hprevious'⟩ := (h.inverseUpsert other).mp hother
        have heq := hunique change hchange change' hchange' (by
          rw [hitem change hchange placement (.inr hnext),
            hitem change' hchange' other (.inl hprevious'), hsame])
        rw [heq, hprevious'] at hprevious
        cases hprevious
      · exact hkept ((h.inverseRemove _).mpr ⟨change, hchange, heffective, hprevious,
          hitem change hchange placement (.inr hnext)⟩)
  · intro htruthful item
    constructor
    · rintro (⟨placement, hplacement, rfl⟩ | ⟨hplaced, hkept⟩)
      · obtain ⟨change, hchange, heffective, hprevious⟩ := (h.inverseUpsert placement).mp hplacement
        exact (htruthful change hchange heffective).1 placement hprevious
      · obtain ⟨placement, hplacement, rfl⟩ | ⟨hinitial, -⟩ := (h.placed item).mp hplaced
        · obtain ⟨change, hchange, heffective, hnext⟩ := (h.forwardUpsert placement).mp hplacement
          cases hprevious : change.previous with
          | none =>
            exact absurd ((h.inverseRemove _).mpr ⟨change, hchange, heffective, hprevious,
              hitem change hchange placement (.inr hnext)⟩) hkept
          | some before =>
            have hsame := (hitem change hchange before (.inl hprevious)).symm.trans
              (hitem change hchange placement (.inr hnext))
            rw [← Option.some.inj hsame]
            exact (htruthful change hchange heffective).1 before hprevious
        · exact hinitial
    · intro hinitial
      by_cases hbefore : ∃ placement ∈ plan.lists.inverseUpsert, placement.item = item
      · exact .inl hbefore
      · refine .inr ⟨(h.placed item).mpr (.inr ⟨hinitial, ?_⟩), ?_⟩
        · intro hremoved
          obtain ⟨change, hchange, heffective, hnext, habout⟩ := (h.forwardRemove item).mp hremoved
          obtain ⟨placement, hprevious⟩ : ∃ placement, change.previous = some placement := by
            cases hprevious : change.previous with
            | none => simp [PlacementChange.item?, hprevious, hnext] at habout
            | some placement => exact ⟨placement, rfl⟩
          have hsame := (hitem change hchange placement (.inl hprevious)).symm.trans habout
          exact hbefore ⟨placement, (h.inverseUpsert _).mpr ⟨change, hchange, heffective, hprevious⟩,
            Option.some.inj hsame⟩
        · intro hremoved
          obtain ⟨change, hchange, heffective, hprevious, habout⟩ :=
            (h.inverseRemove item).mp hremoved
          obtain ⟨placement, hnext⟩ : ∃ placement, change.next = some placement := by
            cases hnext : change.next with
            | none => simp [PlacementChange.item?, hprevious, hnext] at habout
            | some placement => exact ⟨placement, rfl⟩
          have hsame := (hitem change hchange placement (.inr hnext)).symm.trans habout
          exact (htruthful change hchange heffective).2 hprevious placement hnext
            (Option.some.inj hsame ▸ hinitial)

end Recording

/-! ## Commands -/

namespace Engine

/-- An item is placed in an engine. -/
def Places (engine : Engine K) (item : ItemRef) : Prop :=
  item ∈ engine.topology.snapshot.placements

section Commands

variable {parses : String → Bool} {engine next : Engine K} {patches : CommandPatchSet K}
  {document : ProjectDocument K}

/-- A document with the placed items of an engine, whose client knows the types of the items. -/
structure ShownBy (engine : Engine K) (parses : String → Bool) (document : ProjectDocument K) :
    Prop where
  parses : ∀ item ∈ engine.topology.snapshot.items, parses (itemKey item.item) = true
  places : ∀ key, document.Places key ↔ ∃ item, engine.Places item ∧ itemKey item = key

/-- The patch of a command changes the placed items as the engine does, and the inverse takes the
document back to the placed items before; the changes say truly what was placed before. -/
structure InvertsPlacements (engine next : Engine K) (patches : CommandPatchSet K)
    (changes : List (PlacementChange K)) (parses : String → Bool)
    (document : ProjectDocument K) : Prop where
  forward : ∀ item, next.Places item ↔ patches.forward.Places engine.Places item
  restores : ∀ revision revision', ∃ after restored,
    applyProjectPatch parses document revision patches.forward = some after ∧
    next.ShownBy parses after ∧
    applyProjectPatch parses after revision' patches.inverse = some restored ∧
    ∀ key, restored.Places key ↔ document.Places key
  truthful : ∀ change ∈ changes, change.Truthful engine.Places

/-- The placed items after a change of placements are those of its plan. -/
theorem updatePlacements_records {changes : List (PlacementChange K)}
    (h : engine.updatePlacements changes = (next, .patch patches)) :
    ∃ plan : PlacementPlan K, plan.Records (collectSet engine.topology.snapshot.placements) changes ∧
      (changes.map (·.item?)).Nodup ∧
      (∀ change ∈ changes, ∃ item ∈ engine.topology.snapshot.items, change.item? = some item.item) ∧
      next.topology.snapshot.items = engine.topology.snapshot.items ∧
      (∀ item, next.Places item ↔ item ∈ plan.placedItems) ∧
      patches.forward = .patchPlacements plan.lists.forwardUpsert plan.lists.forwardRemove ∧
      patches.inverse = .patchPlacements plan.lists.inverseUpsert plan.lists.inverseRemove := by
  obtain ⟨-, -, plan, placements, hplan, hplacements, hcommit⟩ := updatePlacements_eq_patch h
  obtain ⟨hrun, -⟩ := planPlacements_eq_ok.mp hplan
  have hrecords : plan.Records (collectSet engine.topology.snapshot.placements) ([] ++ changes) := by
    refine planPlacements_records ?_ hrun
    constructor <;> simp
  obtain ⟨hnodup, hknown⟩ := planPlacements_items hrun
  refine ⟨plan, hrecords, hnodup, ?_, ?_, ?_, ?_, ?_⟩
  · intro change hchange
    obtain ⟨item, hitem, habout⟩ := hknown change hchange
    obtain ⟨known, hmem, rfl⟩ := mem_map.mp (mem_collectSet.mp hitem)
    exact ⟨known, hmem, habout⟩
  · rw [hcommit.snapshot_eq]
  · intro item
    rw [Places, hcommit.snapshot_eq]
    obtain ⟨rfl, hsame⟩ | ⟨rfl, -⟩ := hplacements
    · rw [← Std.ExtTreeSet.mem_toList, hsame, Std.ExtTreeSet.mem_toList, mem_collectSet]
    · exact Std.ExtTreeSet.mem_toList
  · rw [hcommit.answer]
  · rw [hcommit.answer]

/-- A change of placements is inverted exactly when its changes are truthful. -/
theorem updatePlacements_inverts {changes : List (PlacementChange K)}
    (h : engine.updatePlacements changes = (next, .patch patches))
    (hshown : engine.ShownBy parses document) :
    engine.InvertsPlacements next patches changes parses document ↔
      ∀ change ∈ changes, change.Truthful engine.Places := by
  refine ⟨fun hinverts => hinverts.truthful, fun htruthful => ?_⟩
  obtain ⟨plan, hrecords, hnodup, hknown, hitems, hplaced, hforward, hinverse⟩ :=
    updatePlacements_records h
  have hparses : ∀ change ∈ changes, ∀ item, change.item? = some item →
      parses (itemKey item) = true := by
    intro change hchange item habout
    obtain ⟨known, hmem, hitem⟩ := hknown change hchange
    obtain rfl := Option.some.inj (habout.symm.trans hitem)
    exact hshown.parses known hmem
  have hplacement : ∀ change ∈ changes, ∀ placement,
      change.previous = some placement ∨ change.next = some placement →
        parses (itemKey placement.item) = true := by
    intro change hchange placement hplacement
    obtain ⟨item, -, habout, hsame⟩ := hrecords.items change hchange
    rw [hsame placement hplacement]
    exact hparses change hchange item habout
  have hadvanced : ∀ item, next.Places item ↔ patches.forward.Places engine.Places item := by
    intro item
    rw [hplaced, hrecords.placed, hforward]
    exact or_congr_right (and_congr_left fun _ => mem_collectSet)
  have hforwardKeys : ∀ placement ∈ plan.lists.forwardUpsert,
      parses (itemKey placement.item) = true := by
    intro placement hmem
    obtain ⟨change, hchange, -, hnext⟩ := (hrecords.forwardUpsert placement).mp hmem
    exact hplacement change hchange placement (.inr hnext)
  have hforwardItems : ∀ item ∈ plan.lists.forwardRemove, parses (itemKey item) = true := by
    intro item hmem
    obtain ⟨change, hchange, -, -, habout⟩ := (hrecords.forwardRemove item).mp hmem
    exact hparses change hchange item habout
  have hinverseKeys : ∀ placement ∈ plan.lists.inverseUpsert,
      parses (itemKey placement.item) = true := by
    intro placement hmem
    obtain ⟨change, hchange, -, hprevious⟩ := (hrecords.inverseUpsert placement).mp hmem
    exact hplacement change hchange placement (.inl hprevious)
  have hinverseItems : ∀ item ∈ plan.lists.inverseRemove, parses (itemKey item) = true := by
    intro item hmem
    obtain ⟨change, hchange, -, -, habout⟩ := (hrecords.inverseRemove item).mp hmem
    exact hparses change hchange item habout
  refine ⟨hadvanced, fun revision revision' => ?_, htruthful⟩
  obtain ⟨after, hafter, hshows⟩ :=
    applyProjectPatch_places parses hshown.places hforwardKeys hforwardItems revision
  have hnext : ∀ key, after.Places key ↔ ∃ item, next.Places item ∧ itemKey item = key := by
    intro key
    rw [hshows]
    refine exists_congr fun item => and_congr_left fun _ => ?_
    rw [hadvanced, hforward]
  obtain ⟨restored, hrestored, hshowsAgain⟩ :=
    applyProjectPatch_places parses hnext hinverseKeys hinverseItems revision'
  refine ⟨after, restored, hforward ▸ hafter, ⟨?_, hnext⟩, hinverse ▸ hrestored, ?_⟩
  · rw [hitems]
    exact hshown.parses
  · intro key
    have hrestores := (hrecords.restores_iff hnodup).mpr fun change hchange _ => by
      simp only [mem_collectSet]
      exact htruthful change hchange
    rw [hshowsAgain, hshown.places]
    refine exists_congr fun item => and_congr_left fun _ => ?_
    rw [show next.Places = (· ∈ plan.placedItems) from funext fun item => propext (hplaced item),
      hrestores, mem_collectSet]
    rfl

end Commands

end Engine

/-- The changes that align the placed items say that they are placed. -/
theorem truthful_snapChanges {topology : TopologySnapshot K} {nodes : List (GeometryNode K)}
    {gridSize : K} {maxRings : ℕ} {changes : List (PlacementChange K)}
    (h : snapChanges topology nodes gridSize maxRings = .ok changes) :
    ∀ change ∈ changes, change.Truthful (· ∈ topology.placements) := by
  simp only [snapChanges, bind_eq_ok, pure_eq_ok] at h
  obtain ⟨_, -, _, -, planned, -, _, -, rfl⟩ := h
  intro change hchange
  obtain ⟨node, -, hnode⟩ := mem_filterMap.mp hchange
  simp only [bind_eq_bind, bind_eq_some_iff] at hnode
  obtain ⟨_, -, _, -, item, hitem, hchange⟩ := hnode
  obtain rfl := Option.some.inj hchange
  have hplaced : item ∈ topology.placements := by
    obtain ⟨found, hfound, hget⟩ | ⟨-, hget⟩ := getElem?_insertEntries ∅
      (topology.placements.map fun item => (itemKey item, item)) node.itemId
    · obtain ⟨placed, hplaced, heq⟩ := mem_map.mp hfound
      obtain rfl := Option.some.inj (hget.symm.trans hitem)
      exact (Prod.mk.inj heq).2 ▸ hplaced
    · rw [collectEntries, hget] at hitem
      simp at hitem
  refine ⟨?_, (by rintro ⟨⟩)⟩
  rintro placement hplacement
  obtain rfl := Option.some.inj hplacement
  exact hplaced

/-- The placement changes that a request states. -/
def Operation.placementChanges : Operation K → List (PlacementChange K)
  | .updatePlacements changes => changes
  | _ => []

section Dispatch

variable (parses : String → Bool)

/-- **Placement commands and their inverses.** When a command on placements is answered with a
patch, the patch and its inverse are exact, and no change was wrong about what was placed, exactly
when the changes that the request states are truthful; the alignment to the grid always is. -/
theorem Engine.dispatch_invertsPlacements (engine : Engine K) (request : EngineRequest K)
    (hoperation : request.operation.changesPlacements = true) {patches : CommandPatchSet K}
    (hpatch : (engine.dispatch request).2.result = .patch patches) {document : ProjectDocument K}
    (hshown : engine.ShownBy parses document) :
    engine.InvertsPlacements (engine.dispatch request).1 patches
        request.operation.placementChanges parses document ↔
      ∀ change ∈ request.operation.placementChanges, change.Truthful engine.Places := by
  obtain ⟨-, -, hperform⟩ := dispatch_eq_patch hpatch
  cases hrequest : request.operation with
  | updatePlacements changes =>
    rw [hrequest] at hperform
    exact updatePlacements_inverts hperform hshown
  | snapPlacementsToGrid nodes gridSize maxRings =>
    rw [hrequest] at hperform
    obtain ⟨changes, hchanges, hupdate⟩ := snapPlacementsToGrid_eq_patch.mp hperform
    have hinverts := (updatePlacements_inverts hupdate hshown).mpr (truthful_snapChanges hchanges)
    refine iff_of_true ⟨hinverts.forward, hinverts.restores, ?_⟩ ?_ <;>
      exact fun change hchange => nomatch hchange
  | _ =>
    rw [hrequest] at hoperation
    cases hoperation

end Dispatch

/-! ## A desk -/

/-- Move the monitor, saying where it was before. -/
def moveMonitor (previous : Option (CanvasPlacement ℚ)) : EngineRequest ℚ where
  protocolVersion := 1
  requestId := 1
  baseRevision := 0
  operation := .updatePlacements [{ previous := previous, next := some ⟨⟨"monitor", 1⟩, 40, 0⟩ }]

/-- The document of the desk, on which the monitor is placed. -/
def deskDocument : ProjectDocument ℚ where
  revision := 0
  name := "Desk"
  connections := []
  assignments := []
  placements := [⟨"monitor:1", 0, 0⟩]

theorem shownBy_deskDocument {engine : Engine ℚ} (h : engine.topology.snapshot = poweredDesk) :
    engine.ShownBy (fun _ => true) deskDocument where
  parses _ _ := rfl
  places key := by
    simp only [ProjectDocument.Places, deskDocument, Engine.Places, h, poweredDesk,
      mem_singleton, exists_eq_left]
    exact Iff.rfl

/-- Moving the monitor truthfully is undone by the inverse. -/
theorem Engine.dispatch_invertsPlacements_desk : ∃ (engine : Engine ℚ) (patches : CommandPatchSet ℚ),
    engine.topology.snapshot = poweredDesk ∧
    (engine.dispatch (moveMonitor (some ⟨⟨"monitor", 1⟩, 0, 0⟩))).2.result = .patch patches ∧
    engine.InvertsPlacements (engine.dispatch (moveMonitor (some ⟨⟨"monitor", 1⟩, 0, 0⟩))).1 patches
      (moveMonitor (some ⟨⟨"monitor", 1⟩, 0, 0⟩)).operation.placementChanges (fun _ => true)
      deskDocument := by
  obtain ⟨topology, hbuild, hpatch⟩ : ∃ topology,
      TopologyIndex.build poweredDesk = .ok topology ∧
      ((openedEngine 1 topology).dispatch
        (moveMonitor (some ⟨⟨"monitor", 1⟩, 0, 0⟩))).2.result.patches?.isSome = true :=
    exists_ok_of_any (by decide +kernel)
  have hsnapshot : topology.snapshot = poweredDesk := TopologyIndex.build_eq_ok.mp hbuild
  obtain ⟨patches, hpatches⟩ := Option.isSome_iff_exists.mp hpatch
  have hresult := ResponseBody.patches?_eq_some.mp hpatches
  refine ⟨openedEngine 1 topology, patches, hsnapshot, hresult,
    ((openedEngine 1 topology).dispatch_invertsPlacements (fun _ => true) _ rfl hresult
      (shownBy_deskDocument hsnapshot)).mpr ?_⟩
  intro change hchange
  obtain rfl := mem_singleton.mp hchange
  refine ⟨?_, nofun⟩
  rintro placement hplacement
  obtain rfl := Option.some.inj hplacement
  show _ ∈ topology.snapshot.placements
  rw [hsnapshot]
  decide

/-- **An inverse can remove an item that was placed before.** The monitor is placed, the caller
says it is not; the command is accepted, and undoing it takes the monitor off the document. -/
theorem Engine.dispatch_invertsPlacements_untruthful :
    ∃ (engine : Engine ℚ) (patches : CommandPatchSet ℚ) (after restored : ProjectDocument ℚ),
      engine.topology.snapshot = poweredDesk ∧ engine.ShownBy (fun _ => true) deskDocument ∧
      (engine.dispatch (moveMonitor none)).2.result = .patch patches ∧
      applyProjectPatch (fun _ => true) deskDocument 1 patches.forward = some after ∧
      applyProjectPatch (fun _ => true) after 2 patches.inverse = some restored ∧
      deskDocument.Places "monitor:1" ∧ ¬restored.Places "monitor:1" := by
  obtain ⟨topology, hbuild, hundone⟩ : ∃ topology,
      TopologyIndex.build poweredDesk = .ok topology ∧
      ((openedEngine 1 topology).dispatch (moveMonitor none)).2.result.patches?.bind (fun patches =>
        (applyProjectPatch (fun _ => true) deskDocument 1 patches.forward).bind fun after =>
          (applyProjectPatch (fun _ => true) after 2 patches.inverse).map (·.placements)) =
        some [] := exists_ok_of_any (by decide +kernel)
  have hsnapshot : topology.snapshot = poweredDesk := TopologyIndex.build_eq_ok.mp hbuild
  obtain ⟨patches, hpatches, hundone⟩ := bind_eq_some_iff.mp hundone
  obtain ⟨after, hafter, hundone⟩ := bind_eq_some_iff.mp hundone
  obtain ⟨restored, hrestored, hnone⟩ := map_eq_some_iff.mp hundone
  refine ⟨openedEngine 1 topology, patches, after, restored, hsnapshot,
    shownBy_deskDocument hsnapshot, ResponseBody.patches?_eq_some.mp hpatches, hafter, hrestored,
    ⟨_, mem_singleton.mpr rfl, rfl⟩, ?_⟩
  rintro ⟨placement, hplacement, -⟩
  rw [hnone] at hplacement
  cases hplacement

end HomelabInventory
