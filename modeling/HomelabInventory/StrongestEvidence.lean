import HomelabInventory.HardwareMatching
import HomelabInventory.StableSorting
import Mathlib.Data.List.Perm.Subperm

/-!
# The strongest evidence

No assigned item is taken for two detected components and no component is forgotten. An item
whose fingerprint one component has is taken for that component when there is room for all: when
no component whose turn comes earlier has to guess it from a label or from its position.
-/

namespace HomelabInventory.HardwareMatching

open List Option

/-! ## Groups of a list -/

section Groups

variable {α κ : Type*} [DecidableEq κ]

theorem nodup_eraseDups (keys : List κ) : keys.eraseDups.Nodup := by
  induction hn : keys.length using Nat.strong_induction_on generalizing keys with
  | _ n ih =>
    cases keys with
    | nil => simp
    | cons key keys =>
      rw [eraseDups_cons, nodup_cons]
      have hlength := length_filter_le (fun other => !other == key) keys
      refine ⟨?_, ih _ ?_ _ rfl⟩
      · simp [mem_eraseDups]
      · rw [length_cons] at hn
        omega

/-- The groups by distinct keys are what has one of the keys. -/
theorem perm_flatMap_filter (key : α → κ) (l : List α) {keys : List κ} (hkeys : keys.Nodup) :
    (keys.flatMap fun k => l.filter fun a => key a == k).Perm
      (l.filter fun a => decide (key a ∈ keys)) := by
  induction keys with
  | nil => simp
  | cons k keys ih =>
    obtain ⟨hk, hkeys⟩ := nodup_cons.mp hkeys
    rw [flatMap_cons]
    refine List.Perm.trans ((ih hkeys).append_left _) ?_
    refine List.Perm.trans (List.Perm.of_eq ?_) (filter_append_perm (fun a => key a == k) _)
    rw [List.filter_filter, List.filter_filter]
    congr 1
    · refine filter_congr fun a _ => ?_
      by_cases ha : key a = k <;> simp [ha]
    · refine filter_congr fun a _ => ?_
      by_cases ha : key a = k
      · simp [ha, hk]
      · simp [ha]

/-- The groups by the keys that occur are all there is. -/
theorem perm_flatMap_eraseDups (key : α → κ) (l : List α) (keys : List κ)
    (hall : ∀ a ∈ l, key a ∈ keys) :
    (keys.eraseDups.flatMap fun k => l.filter fun a => key a == k).Perm l := by
  refine (perm_flatMap_filter key l (nodup_eraseDups keys)).trans (List.Perm.of_eq ?_)
  rw [filter_eq_self]
  intro a ha
  simpa [mem_eraseDups] using hall a ha

end Groups

variable {rules : TextRules} {itemType : String} {safe : Bool}

/-! ## Correct matching -/

/-- The kinds of components that are listed. -/
def isKnown (kind : String) : Bool :=
  hostKinds.contains kind || (itemTypeOf kind).isSome

/-- The items that are taken for components of the kinds in `COMPONENT_ITEM_TYPES`. -/
def takenItems (found : List Match) : List (String × ℕ) :=
  (found.filter fun match' => (itemTypeOf match'.component.kind).isSome).filterMap fun match' =>
    match'.item.map fun item => (match'.itemType, item.id)

/-- A fingerprint that one component alone and one target alone have. -/
structure Identifies (components : List Component) (targets : List Target) (fingerprint : String)
    (component : Component) (target : Target) : Prop where
  nonempty : fingerprint ≠ ""
  one_component :
    components.filter (fun component => component.opaqueFingerprint = some fingerprint) =
      [component]
  one_target :
    targets.filter (fun target => target.item.agentHardwareFingerprint = some fingerprint) =
      [target]

/-- **What matching is for.** No item is taken twice, every component of a known kind is listed
once, and an item that a fingerprint identifies is taken for the component that has it. -/
structure Correct (rules : TextRules) (snapshot : Snapshot) (inventory : Inventory)
    (assignments : List Assignment) : Prop where
  injective : (takenItems (matchComponents rules snapshot inventory assignments)).Nodup
  complete : ((matchComponents rules snapshot inventory assignments).map (·.component)).Perm
    (snapshot.components.filter fun component => isKnown component.kind)
  identified : ∀ kind itemType, itemTypeOf kind = some itemType →
    ∀ fingerprint component target,
      Identifies (snapshot.components.filter fun component => component.kind == kind)
        (assignedTargets inventory assignments snapshot itemType) fingerprint component target →
      (⟨component, itemType, some target.item, .opaqueFingerprint⟩ : Match) ∈
        matchComponents rules snapshot inventory assignments

/-- The targets assigned to the host have distinct items. -/
def DistinctItems (snapshot : Snapshot) (inventory : Inventory) (assignments : List Assignment) :
    Prop :=
  ∀ kind itemType, itemTypeOf kind = some itemType →
    ((assignedTargets inventory assignments snapshot itemType).map (·.item.id)).Nodup

/-! ## One component after the other -/

/-- The targets that a component leaves. -/
def takeTarget (rules : TextRules) (safe : Bool) (available : List Target)
    (component : Component) : List Target :=
  match findTarget rules safe available component with
  | none => available
  | some (index, _) => available.eraseIdx index

/-- The target that a component takes, and how it was found. -/
def takenFor (rules : TextRules) (safe : Bool) (available : List Target)
    (component : Component) : Option Target × Method :=
  match findTarget rules safe available component with
  | none => (none, .ambiguous)
  | some (index, method) => (available[index]?, method)

/-- A component is matched, and then the others with what it leaves. -/
theorem matchKind_cons (available : List Target) (component : Component) (rest : List Component) :
    matchKind rules itemType safe available (component :: rest) =
      ⟨component, itemType, (takenFor rules safe available component).1.map (·.item),
          (takenFor rules safe available component).2⟩ ::
        matchKind rules itemType safe (takeTarget rules safe available component) rest := by
  rw [matchKind, takenFor, takeTarget]
  cases findTarget rules safe available component <;> rfl

/-- How weak the evidence is that a target is a component: its fingerprint, its label, or no more
than a position. -/
def weakness (rules : TextRules) (component : Component) (target : Target) : ℕ :=
  if sameFingerprint component target then 0 else if sameLocator rules component target then 1 else 2

/-- A component would rather have one target than another: the evidence is stronger, or it is as
strong and the target comes first. -/
def Prefers (rules : TextRules) (targets : List Target) (component : Component)
    (target other : Target) : Prop :=
  weakness rules component target < weakness rules component other ∨
    weakness rules component target = weakness rules component other ∧
      targets.idxOf target < targets.idxOf other

/-- A component spares another target: it would rather have its own, or it has none, the other has
neither its fingerprint nor its label, and to go by the position is not safe. -/
def Spares (rules : TextRules) (safe : Bool) (targets : List Target) (component : Component)
    (other : Target) : Option Target → Prop
  | some own => Prefers rules targets component own other
  | none => safe = false ∧ weakness rules component other = 2

/-- Components in their turn, each with a target of its own or with none, so that none has a use
for the target of a later one. -/
structure Peaceful (rules : TextRules) (safe : Bool) (targets : List Target)
    (pairs : List (Component × Option Target)) : Prop where
  own : ∀ pair ∈ pairs, ∀ target, pair.2 = some target → target ∈ targets
  spares : pairs.Pairwise fun earlier later =>
    ∀ target, later.2 = some target → Spares rules safe targets earlier.1 target earlier.2

/-- **There is room for all**: the components of a kind can be given targets of their own, those
that a fingerprint identifies to their components, so that no component has a use for the target
of one whose turn comes later. -/
def RoomForAll (rules : TextRules) (snapshot : Snapshot) (inventory : Inventory)
    (assignments : List Assignment) : Prop :=
  ∀ kind itemType, itemTypeOf kind = some itemType →
    ∀ components targets,
      components = orderComponents rules kind
        (snapshot.components.filter fun component => component.kind == kind) →
      targets = assignedTargets inventory assignments snapshot itemType →
      ∃ pairs, pairs.map (·.1) = components ∧
        Peaceful rules (targets.length == components.length) targets pairs ∧
        ∀ fingerprint component target, Identifies components targets fingerprint component target →
          (component, some target) ∈ pairs

/-! ## How a target is found -/

variable {component : Component}
variable {target : Target}

theorem sameFingerprint_iff :
    sameFingerprint component target = true ↔ ∃ fingerprint, fingerprint ≠ "" ∧
      target.item.agentHardwareFingerprint = some fingerprint ∧
      component.opaqueFingerprint = some fingerprint := by
  rw [sameFingerprint, Option.any_eq_true]
  constructor
  · rintro ⟨fingerprint, htarget, h⟩
    rw [Bool.and_eq_true, bne_iff_ne, beq_iff_eq] at h
    exact ⟨fingerprint, h.1, htarget, h.2⟩
  · rintro ⟨fingerprint, hne, htarget, hcomponent⟩
    refine ⟨fingerprint, htarget, ?_⟩
    rw [Bool.and_eq_true, bne_iff_ne, beq_iff_eq]
    exact ⟨hne, hcomponent⟩

theorem weakness_eq_zero_iff :
    weakness rules component target = 0 ↔ sameFingerprint component target = true := by
  rw [weakness]
  split_ifs with h <;> simp [h]

variable {available targets : List Target}

/-- Targets in the order in which they are tried. -/
def InOrder (targets available : List Target) : Prop :=
  available.Pairwise fun target other => targets.idxOf target < targets.idxOf other

theorem inOrder_self (h : targets.Nodup) : InOrder targets targets := by
  refine pairwise_iff_getElem.mpr fun i j hi hj hij => ?_
  rwa [h.idxOf_getElem, h.idxOf_getElem]

/-- The first target with the least weakness is preferred to all others. -/
theorem InOrder.prefers (h : InOrder targets available) {index : ℕ} (hindex : index < available.length)
    (hleast : ∀ other ∈ available,
      weakness rules component available[index] ≤ weakness rules component other)
    (hfirst : ∀ (i : ℕ) (hi : i < available.length), i < index →
      weakness rules component available[i] ≠ weakness rules component available[index]) :
    ∀ other ∈ available, other = available[index] ∨
      Prefers rules targets component available[index] other := by
  intro other hother
  obtain ⟨i, hi, rfl⟩ := mem_iff_getElem.mp hother
  have hle := hleast _ hother
  rcases Nat.lt_trichotomy i index with hlt | rfl | hgt
  · exact Or.inr (Or.inl (lt_of_le_of_ne hle (hfirst i hi hlt).symm))
  · exact Or.inl rfl
  · have hordered := pairwise_iff_getElem.mp h index i hindex hi hgt
    rcases hle.lt_or_eq with hlt | heq
    · exact Or.inr (Or.inl hlt)
    · exact Or.inr (Or.inr ⟨heq, hordered⟩)

variable (rules safe) in
/-- **How a component finds its target**: it takes the one that it would rather have than all
others, by the fingerprint if that is the evidence, or it has no use for any. -/
theorem takenFor_cases (available : List Target) (component : Component) :
    (∃ index target method, available[index]? = some target ∧
      (∀ targets, InOrder targets available →
        ∀ other ∈ available, other = target ∨ Prefers rules targets component target other) ∧
      (safe = true ∨ weakness rules component target ≠ 2) ∧
      (weakness rules component target = 0 → method = .opaqueFingerprint) ∧
      takenFor rules safe available component = (some target, method) ∧
      takeTarget rules safe available component = available.eraseIdx index) ∨
    ((∀ target ∈ available, safe = false ∧ weakness rules component target = 2) ∧
      (takenFor rules safe available component).1 = none ∧
      takeTarget rules safe available component = available) := by
  unfold takenFor takeTarget findTarget
  cases hfingerprint : available.findIdx? (sameFingerprint component) with
  | some index =>
    obtain ⟨hindex, hsame, hfirst⟩ := findIdx?_eq_some_iff_getElem.mp hfingerprint
    have hzero : weakness rules component available[index] = 0 := weakness_eq_zero_iff.mpr hsame
    refine Or.inl ⟨index, available[index], _, getElem?_eq_getElem hindex, fun targets h => ?_,
      Or.inr (by omega), fun _ => rfl, Prod.ext (getElem?_eq_getElem hindex) rfl, rfl⟩
    refine h.prefers hindex (fun other _ => hzero ▸ Nat.zero_le _) fun i _ hi heq => ?_
    rw [hzero, weakness_eq_zero_iff] at heq
    exact hfirst i hi heq
  | none =>
    have hnone := findIdx?_eq_none_iff.mp hfingerprint
    have hweak : ∀ other ∈ available, weakness rules component other =
        if sameLocator rules component other then 1 else 2 := by
      intro other hother
      rw [weakness, hnone other hother]
      rfl
    cases hlocator : available.findIdx? (sameLocator rules component) with
    | some index =>
      obtain ⟨hindex, hsame, hfirst⟩ := findIdx?_eq_some_iff_getElem.mp hlocator
      have hone := hweak _ (getElem_mem hindex)
      rw [if_pos hsame] at hone
      refine Or.inl ⟨index, available[index], _, getElem?_eq_getElem hindex, fun targets h => ?_,
        Or.inr (by omega), fun hzero => by omega, Prod.ext (getElem?_eq_getElem hindex) rfl, rfl⟩
      refine h.prefers hindex (fun other hother => ?_) fun i _ hi heq => ?_
      · rw [hone, hweak other hother]
        split_ifs <;> omega
      · rw [hone, hweak _ (getElem_mem _), if_neg (hfirst i hi)] at heq
        omega
    | none =>
      have htwo : ∀ other ∈ available, weakness rules component other = 2 := by
        intro other hother
        rw [hweak other hother, findIdx?_eq_none_iff.mp hlocator other hother]
        rfl
      cases safe with
      | false => exact Or.inr ⟨fun target htarget => ⟨rfl, htwo target htarget⟩, rfl, rfl⟩
      | true =>
        cases available with
        | nil => exact Or.inr ⟨nofun, rfl, rfl⟩
        | cons first others =>
          have hfirst := htwo first mem_cons_self
          refine Or.inl ⟨0, first, .oneToOnePosition, rfl, fun targets h => ?_, Or.inl rfl,
            fun hzero => by omega, rfl, rfl⟩
          exact h.prefers (Nat.zero_lt_succ _) (fun other hother => (hfirst.trans
            (htwo other hother).symm).le) fun i _ hi => absurd hi (Nat.not_lt_zero i)

/-! ## Components of one kind -/

variable (rules itemType safe) in
/-- The items taken for components of a kind are among those of the targets. -/
theorem subperm_matchKind (available : List Target) (components : List Component) :
    ((matchKind rules itemType safe available components).filterMap fun found =>
      found.item.map (·.id)).Subperm (available.map (·.item.id)) := by
  induction components generalizing available with
  | nil => exact nil_subperm
  | cons component rest ih =>
    rw [matchKind_cons]
    rcases takenFor_cases rules safe available component with
      ⟨index, target, method, hget, -, -, -, hitem, htaken⟩ | ⟨-, hitem, htaken⟩
    · obtain ⟨hindex, rfl⟩ := List.getElem?_eq_some_iff.mp hget
      have hperm := (getElem_cons_eraseIdx_perm hindex).map fun target => target.item.id
      rw [map_cons] at hperm
      rw [hitem, htaken]
      exact (subperm_cons _ |>.mpr (ih _)).trans hperm.subperm
    · rw [filterMap_cons_none (by simp only [hitem, map_none]), htaken]
      exact ih _

theorem map_component_matchKind (available : List Target) (components : List Component) :
    (matchKind rules itemType safe available components).map (·.component) = components := by
  induction components generalizing available with
  | nil => rfl
  | cons component rest ih => rw [matchKind_cons, map_cons, ih]

variable {components : List Component}

/-- Each match is of the type that the kind is. -/
theorem itemType_of_mem_matchKind {found : Match}
    (hfound : found ∈ matchKind rules itemType safe available components) :
    found.itemType = itemType := by
  induction components generalizing available with
  | nil => simp [matchKind] at hfound
  | cons component rest ih =>
    rw [matchKind_cons, mem_cons] at hfound
    rcases hfound with rfl | hfound
    · rfl
    · exact ih hfound

variable {fingerprint : String}

variable (rules safe) in
/-- What a component leaves is in order. -/
theorem InOrder.takeTarget (h : InOrder targets available) (component : Component) :
    InOrder targets (takeTarget rules safe available component) ∧
      takeTarget rules safe available component ⊆ available := by
  rcases takenFor_cases rules safe available component with
    ⟨index, -, -, -, -, -, -, -, htaken⟩ | ⟨-, -, htaken⟩ <;> rw [htaken]
  · exact ⟨List.Pairwise.sublist (eraseIdx_sublist _ _) h, fun _ hmem => mem_of_mem_eraseIdx hmem⟩
  · exact ⟨h, Subset.refl _⟩

/-- A component leaves the targets that it has no use for. -/
theorem mem_takeTarget (h : InOrder targets available) {own : Option Target} {other : Target}
    (hown : ∀ target, own = some target → target ∈ available)
    (hspares : Spares rules safe targets component other own) (hother : other ∈ available) :
    other ∈ HardwareMatching.takeTarget rules safe available component := by
  rcases takenFor_cases rules safe available component with
    ⟨index, target, method, hget, hprefers, huse, -, -, htaken⟩ | ⟨-, -, htaken⟩
  · obtain ⟨hindex, rfl⟩ := List.getElem?_eq_some_iff.mp hget
    rw [htaken]
    rcases mem_cons.mp ((getElem_cons_eraseIdx_perm hindex).mem_iff.mpr hother) with rfl | hmem
    · exfalso
      cases own with
      | none =>
        rw [Spares] at hspares
        rcases huse with huse | huse
        · rw [hspares.1] at huse
          cases huse
        · exact huse hspares.2
      | some own =>
        rw [Spares, Prefers] at hspares
        rcases hprefers targets h own (hown own rfl) with rfl | hprefers
        · omega
        · rw [Prefers] at hprefers
          omega
    · exact hmem
  · rwa [htaken]

/-- **When there is room for all, an identified target is taken for its component.** -/
theorem mem_matchKind_of_peaceful (h : InOrder targets available)
    {pairs : List (Component × Option Target)}
    (hown : ∀ pair ∈ pairs, ∀ target, pair.2 = some target → target ∈ available)
    (hspares : pairs.Pairwise fun earlier later =>
      ∀ target, later.2 = some target → Spares rules safe targets earlier.1 target earlier.2)
    (hsame : sameFingerprint component target = true)
    (honly : ∀ other ∈ available, sameFingerprint component other = true → other = target)
    (hpair : (component, some target) ∈ pairs) :
    (⟨component, itemType, some target.item, .opaqueFingerprint⟩ : Match) ∈
      matchKind rules itemType safe available (pairs.map (·.1)) := by
  induction pairs generalizing available with
  | nil => exact absurd hpair not_mem_nil
  | cons pair rest ih =>
    rw [map_cons, matchKind_cons]
    have hmem : target ∈ available := hown _ hpair target rfl
    rcases mem_cons.mp hpair with rfl | hrest
    · -- the turn of the component itself, which takes nothing else
      have hzero : weakness rules component target = 0 := weakness_eq_zero_iff.mpr hsame
      rcases takenFor_cases rules safe available component with
        ⟨index, taken, method, hget, hprefers, -, hmethod, hitem, -⟩ | ⟨hnone, -⟩
      · have htaken : weakness rules component taken = 0 := by
          rcases hprefers targets h target hmem with rfl | hprefers
          · exact hzero
          · rw [Prefers] at hprefers
            omega
        rw [hitem, hmethod htaken,
          honly taken (mem_of_getElem? hget) (weakness_eq_zero_iff.mp htaken)]
        exact mem_cons_self
      · have := (hnone target hmem).2
        omega
    · -- the turn of another component, which leaves the targets of the later ones
      obtain ⟨hfirst, hspares⟩ := pairwise_cons.mp hspares
      obtain ⟨hordered, hsubset⟩ := h.takeTarget rules safe pair.1
      refine mem_cons_of_mem _ (ih hordered (fun other hother own heq => ?_) hspares
        (fun other hother => honly other (hsubset hother)) hrest)
      exact mem_takeTarget h (hown pair mem_cons_self) (hfirst other hother own heq)
        (hown other (mem_cons_of_mem _ hother) own heq)

/-- The targets that the components of a kind take, one after the other. -/
def takenPairs (rules : TextRules) (safe : Bool) :
    List Target → List Component → List (Component × Option Target)
  | _, [] => []
  | available, component :: rest =>
    (component, (takenFor rules safe available component).1) ::
      takenPairs rules safe (takeTarget rules safe available component) rest

variable (rules safe) in
theorem map_fst_takenPairs (available : List Target) (components : List Component) :
    (takenPairs rules safe available components).map (·.1) = components := by
  induction components generalizing available with
  | nil => rfl
  | cons component rest ih => rw [takenPairs, map_cons, ih]

/-- A match is made by taking a target. -/
theorem exists_pair_of_mem_matchKind {found : Match}
    (hfound : found ∈ matchKind rules itemType safe available components) :
    ∃ own, (found.component, own) ∈ takenPairs rules safe available components ∧
      found.item = own.map (·.item) := by
  induction components generalizing available with
  | nil => simp [matchKind] at hfound
  | cons component rest ih =>
    rw [matchKind_cons, mem_cons] at hfound
    rcases hfound with rfl | hfound
    · exact ⟨_, mem_cons_self, rfl⟩
    · obtain ⟨own, hmem, hitem⟩ := ih hfound
      exact ⟨own, mem_cons_of_mem _ hmem, hitem⟩

variable (rules safe) in
/-- No component has a use for a target that a later one takes. -/
theorem peaceful_takenPairs (h : InOrder targets available) (components : List Component) :
    (∀ pair ∈ takenPairs rules safe available components, ∀ target, pair.2 = some target →
        target ∈ available) ∧
      (takenPairs rules safe available components).Pairwise fun earlier later =>
        ∀ target, later.2 = some target → Spares rules safe targets earlier.1 target earlier.2 := by
  induction components generalizing available with
  | nil => exact ⟨nofun, .nil⟩
  | cons component rest ih =>
    obtain ⟨hordered, hsubset⟩ := h.takeTarget rules safe component
    obtain ⟨hown, hspares⟩ := ih hordered
    rw [takenPairs, pairwise_cons]
    refine ⟨?_, ?_, hspares⟩
    · intro pair hpair target htarget
      rcases mem_cons.mp hpair with rfl | hpair
      · rcases takenFor_cases rules safe available component with
          ⟨index, taken, method, hget, -, -, -, hitem, -⟩ | ⟨-, hitem, -⟩
        · rw [hitem] at htarget
          obtain rfl := Option.some.inj htarget
          exact mem_of_getElem? hget
        · rw [hitem] at htarget
          cases htarget
      · exact hsubset (hown pair hpair target htarget)
    · intro later hlater target htarget
      have hleft := hown later hlater target htarget
      rcases takenFor_cases rules safe available component with
        ⟨index, taken, method, hget, hprefers, -, -, hitem, htaken⟩ | ⟨hnone, hitem, -⟩
      · rw [hitem]
        rcases hprefers targets h target (hsubset hleft) with rfl | hprefers
        · -- what is taken is not left
          obtain ⟨hindex, rfl⟩ := List.getElem?_eq_some_iff.mp hget
          rw [htaken] at hleft
          have hperm := getElem_cons_eraseIdx_perm hindex
          have hnodup : available.Nodup := h.imp fun hlt heq => by rw [heq] at hlt; omega
          exact absurd hleft (nodup_cons.mp (hperm.nodup_iff.mpr hnodup)).1
        · exact hprefers
      · rw [hitem]
        exact hnone target (hsubset hleft)

/-! ## The kinds one after the other -/

section Kinds

variable {snapshot : Snapshot} {inventory : Inventory} {assignments : List Assignment}
  {kind : String}

variable (h : itemTypeOf kind = some itemType)
include h

theorem itemTypeOf_eq_some :
    (kind, itemType) ∈ componentItemTypes := by
  obtain ⟨before, later, hsplit, -⟩ := List.lookup_eq_some_iff.mp h
  rw [hsplit]
  exact mem_append_right _ mem_cons_self

/-- Kinds of the host are no kinds of items. -/
theorem not_hostKinds : hostKinds.contains kind = false := by
  have hall : ∀ entry ∈ componentItemTypes, hostKinds.contains entry.1 = false := by
    decide
  exact hall _ (itemTypeOf_eq_some h)

/-- Each type of item belongs to one kind. -/
theorem itemTypeOf_injective {other : String} (hother : itemTypeOf other = some itemType) :
    kind = other := by
  have hall : ∀ entry ∈ componentItemTypes, ∀ entry' ∈ componentItemTypes,
      entry.2 = entry'.2 → entry.1 = entry'.1 := by decide
  exact hall _ (itemTypeOf_eq_some h) _ (itemTypeOf_eq_some hother) rfl

omit h in
theorem perm_orderComponents (rules : TextRules) (kind : String) (components : List Component) :
    (orderComponents rules kind components).Perm components := by
  rw [orderComponents]
  by_cases hkind : kind = "memory"
  · rw [if_pos hkind]
    exact perm_sortBy _ _
  · rw [if_neg hkind]

/-- A group of a kind of items is matched with the targets of its type. -/
theorem matchGroup_of_itemType (components : List Component) :
    matchGroup rules inventory assignments snapshot kind components =
      matchKind rules itemType
        ((assignedTargets inventory assignments snapshot itemType).length ==
          (orderComponents rules kind components).length)
        (assignedTargets inventory assignments snapshot itemType)
        (orderComponents rules kind components) := by
  rw [matchGroup, not_hostKinds h, h]
  rfl

omit h in
theorem map_component_matchGroup (components : List Component) :
    (matchGroup rules inventory assignments snapshot kind components).map (·.component) =
      if isKnown kind then orderComponents rules kind components else [] := by
  rw [matchGroup, isKnown]
  cases hhost : hostKinds.contains kind with
  | true =>
    simp only [if_true, Bool.true_or, List.map_map]
    exact map_id _
  | false =>
    cases htype : itemTypeOf kind with
    | none => rfl
    | some itemType => simp [map_component_matchKind]

omit h in
/-- What is found for a kind is found for a component of the kind. -/
theorem kind_of_mem_matchGroup {found : Match}
    (hfound : found ∈ matchGroup rules inventory assignments snapshot kind
      (snapshot.components.filter fun component => component.kind == kind)) :
    found.component ∈ snapshot.components ∧ found.component.kind = kind := by
  have hmem := mem_map_of_mem (f := (·.component)) hfound
  rw [map_component_matchGroup] at hmem
  by_cases hknown : isKnown kind = true
  · rw [if_pos hknown, (perm_orderComponents _ _ _).mem_iff, mem_filter, beq_iff_eq] at hmem
    exact hmem
  · rw [if_neg hknown] at hmem
    exact absurd hmem not_mem_nil

omit h in
/-- A match is one of the group of its kind. -/
theorem mem_matchComponents_iff {found : Match} :
    found ∈ matchComponents rules snapshot inventory assignments ↔
      found ∈ matchGroup rules inventory assignments snapshot found.component.kind
        (snapshot.components.filter fun component => component.kind == found.component.kind) := by
  rw [matchComponents, groupByKind, flatMap_map, mem_flatMap]
  constructor
  · rintro ⟨kind, -, hfound⟩
    rw [(kind_of_mem_matchGroup hfound).2]
    exact hfound
  · intro hfound
    refine ⟨found.component.kind, mem_eraseDups.mpr ?_, hfound⟩
    exact mem_map_of_mem (kind_of_mem_matchGroup hfound).1

theorem takenItems_matchGroup :
    takenItems (matchGroup rules inventory assignments snapshot kind
        (snapshot.components.filter fun component => component.kind == kind)) =
      ((matchGroup rules inventory assignments snapshot kind
        (snapshot.components.filter fun component => component.kind == kind)).filterMap
          fun found => found.item.map (·.id)).map ((itemType, ·)) := by
  rw [takenItems, map_filterMap, filter_eq_self.mpr]
  · refine filterMap_congr fun found hfound => ?_
    have htype : found.itemType = itemType := by
      rw [matchGroup_of_itemType h] at hfound
      exact itemType_of_mem_matchKind hfound
    rw [htype]
    cases found.item <;> rfl
  · intro found hfound
    rw [(kind_of_mem_matchGroup hfound).2, h]
    rfl

omit h in
/-- What is taken for a kind is of its type. -/
theorem itemType_of_mem_takenItems {taken : String × ℕ}
    (htaken : taken ∈ takenItems (matchGroup rules inventory assignments snapshot kind
      (snapshot.components.filter fun component => component.kind == kind))) :
    itemTypeOf kind = some taken.1 := by
  cases htype : itemTypeOf kind with
  | none =>
    rw [takenItems, mem_filterMap] at htaken
    obtain ⟨found, hfound, -⟩ := htaken
    rw [mem_filter] at hfound
    have := hfound.2
    rw [(kind_of_mem_matchGroup hfound.1).2, htype] at this
    exact absurd this (by simp)
  | some itemType =>
    rw [takenItems_matchGroup htype, List.mem_map] at htaken
    obtain ⟨id, -, rfl⟩ := htaken
    rfl

omit h in
/-- **No item is taken twice.** -/
theorem nodup_takenItems (hdistinct : DistinctItems snapshot inventory assignments) :
    (takenItems (matchComponents rules snapshot inventory assignments)).Nodup := by
  rw [takenItems, matchComponents, groupByKind, flatMap_map, filter_flatMap,
    filterMap_flatMap, nodup_flatMap]
  constructor
  · intro kind _
    change (takenItems _).Nodup
    cases htype : itemTypeOf kind with
    | none =>
      have hnil : takenItems (matchGroup rules inventory assignments snapshot kind
          (snapshot.components.filter fun component => component.kind == kind)) = [] := by
        refine eq_nil_iff_forall_not_mem.mpr fun taken htaken => ?_
        rw [itemType_of_mem_takenItems htaken] at htype
        exact absurd htype (by simp)
      rw [hnil]
      exact nodup_nil
    | some itemType =>
      rw [takenItems_matchGroup htype, matchGroup_of_itemType htype]
      refine List.Nodup.map (fun _ _ h => (Prod.mk.inj h).2) ?_
      obtain ⟨l, hperm, hsublist⟩ := subperm_matchKind rules itemType
        ((assignedTargets inventory assignments snapshot itemType).length ==
          (orderComponents rules kind (snapshot.components.filter
            fun component => component.kind == kind)).length)
        (assignedTargets inventory assignments snapshot itemType)
        (orderComponents rules kind (snapshot.components.filter
            fun component => component.kind == kind))
      exact hperm.nodup_iff.mp ((hdistinct kind itemType htype).sublist hsublist)
  · refine (nodup_eraseDups _).imp fun {kind other} hne => ?_
    intro taken htaken hother
    exact hne (itemTypeOf_injective (itemType_of_mem_takenItems htaken)
      (itemType_of_mem_takenItems hother))

omit h in
/-- **No component is forgotten.** -/
theorem perm_map_component_matchComponents :
    ((matchComponents rules snapshot inventory assignments).map (·.component)).Perm
      (snapshot.components.filter fun component => isKnown component.kind) := by
  rw [matchComponents, groupByKind, flatMap_map, map_flatMap]
  refine List.Perm.trans (List.Perm.flatMap_left _ fun kind _ => ?_)
    (perm_flatMap_eraseDups (·.kind) _ (snapshot.components.map (·.kind))
      fun component hcomponent => ?_)
  · rw [map_component_matchGroup]
    by_cases hknown : isKnown kind = true
    · rw [if_pos hknown]
      refine (perm_orderComponents _ _ _).trans (List.Perm.of_eq ?_)
      rw [List.filter_filter]
      refine filter_congr fun component _ => ?_
      by_cases hkind : component.kind = kind
      · simp [hkind, hknown]
      · simp [hkind]
    · rw [if_neg hknown]
      refine List.Perm.of_eq (filter_eq_nil_iff.mpr fun component hcomponent hkind => ?_).symm
      rw [beq_iff_eq] at hkind
      exact hknown (hkind ▸ (mem_filter.mp hcomponent).2)
  · exact mem_map_of_mem (mem_filter.mp hcomponent).1

end Kinds

/-! ## The strongest evidence -/

/-- A fingerprint identifies the same in each order of the components. -/
theorem Identifies.of_perm {components components' : List Component}
    (h : Identifies components targets fingerprint component target)
    (hperm : components'.Perm components) :
    Identifies components' targets fingerprint component target := by
  refine ⟨h.nonempty, ?_, h.one_target⟩
  have := hperm.filter fun component => component.opaqueFingerprint = some fingerprint
  rw [h.one_component] at this
  exact perm_singleton.mp this

theorem Identifies.component_mem (h : Identifies components targets fingerprint component target) :
    component ∈ components := by
  have : component ∈ [component] := mem_singleton.mpr rfl
  rw [← h.one_component] at this
  exact (mem_filter.mp this).1

theorem Identifies.target_mem (h : Identifies components targets fingerprint component target) :
    target ∈ targets ∧ target.item.agentHardwareFingerprint = some fingerprint := by
  have : target ∈ [target] := mem_singleton.mpr rfl
  rw [← h.one_target, mem_filter] at this
  exact ⟨this.1, by simpa using this.2⟩

/-- A fingerprint that identifies a component identifies its target among all. -/
theorem Identifies.same (h : Identifies components targets fingerprint component target) :
    sameFingerprint component target = true ∧
      ∀ other ∈ targets, sameFingerprint component other = true → other = target := by
  have hcomponent : component ∈ components.filter
      fun component => component.opaqueFingerprint = some fingerprint := by
    rw [h.one_component]
    exact mem_singleton.mpr rfl
  have hfingerprint : component.opaqueFingerprint = some fingerprint := by
    simpa using (mem_filter.mp hcomponent).2
  refine ⟨sameFingerprint_iff.mpr ⟨fingerprint, h.nonempty, h.target_mem.2, hfingerprint⟩, ?_⟩
  intro other hother hsame
  obtain ⟨fingerprint', -, htarget, hcomponent'⟩ := sameFingerprint_iff.mp hsame
  rw [hfingerprint, Option.some.injEq] at hcomponent'
  have : other ∈ [target] := by
    rw [← h.one_target, mem_filter]
    exact ⟨hother, by simpa [hcomponent'] using htarget⟩
  exact mem_singleton.mp this

/-- **Hardware is matched by the strongest evidence exactly when there is room for all**: when the
components of each kind can be given targets of their own, those that a fingerprint identifies to
their components, so that each would rather have its own than that of a component whose turn comes
later, by the fingerprint, then by the label and then by the order of the targets. -/
theorem correct_iff_roomForAll (rules : TextRules) (snapshot : Snapshot) (inventory : Inventory)
    (assignments : List Assignment) (hdistinct : DistinctItems snapshot inventory assignments) :
    Correct rules snapshot inventory assignments ↔
      RoomForAll rules snapshot inventory assignments := by
  constructor
  · rintro ⟨-, -, hidentified⟩ kind itemType htype components targets rfl rfl
    have hids := hdistinct kind itemType htype
    have hordered := inOrder_self hids.of_map
    obtain ⟨hown, hspares⟩ := peaceful_takenPairs rules _ hordered _
    refine ⟨_, map_fst_takenPairs rules _ _ _, ⟨hown, hspares⟩, ?_⟩
    intro fingerprint component target hidentifies
    have hkind := hidentifies.component_mem
    rw [(perm_orderComponents _ _ _).mem_iff, mem_filter, beq_iff_eq] at hkind
    have hfound := hidentified kind itemType htype fingerprint component target
      (hidentifies.of_perm (perm_orderComponents _ _ _).symm)
    rw [mem_matchComponents_iff] at hfound
    change _ ∈ matchGroup rules inventory assignments snapshot component.kind _ at hfound
    rw [hkind.2, matchGroup_of_itemType htype] at hfound
    obtain ⟨own, hpair, hitem⟩ := exists_pair_of_mem_matchKind hfound
    cases own with
    | none => cases hitem
    | some own =>
      have hmem := hown _ hpair own rfl
      rw [inj_on_of_nodup_map hids hidentifies.target_mem.1 hmem
        (congrArg Item.id (Option.some.inj hitem))]
      exact hpair
  · intro hroom
    refine ⟨nodup_takenItems hdistinct, perm_map_component_matchComponents, ?_⟩
    intro kind itemType htype fingerprint component target hidentifies
    have hkind := hidentifies.component_mem
    rw [mem_filter, beq_iff_eq] at hkind
    have hordered := hidentifies.of_perm (perm_orderComponents rules kind _)
    rw [mem_matchComponents_iff]
    change _ ∈ matchGroup rules inventory assignments snapshot component.kind _
    rw [hkind.2, matchGroup_of_itemType htype]
    obtain ⟨pairs, hpairs, ⟨hown, hspares⟩, hall⟩ := hroom kind itemType htype _ _ rfl rfl
    rw [← hpairs] at hspares ⊢
    exact mem_matchKind_of_peaceful (inOrder_self (hdistinct kind itemType htype).of_map) hown
      hspares hordered.same.1 hordered.same.2 (hall _ _ _ hordered)

/-- The rules on texts that need no trimming, in lower case and in plain order. -/
def plainTexts : TextRules where
  normalize := id
  compareLocators := compare
  consistent := String.instTransOrd

/-- A server with two processors, the second of which alone has a fingerprint. -/
def twoProcessors : Snapshot where
  hostType := "server"
  hostId := 1
  components := [⟨"cpu", "cpu0", none⟩, ⟨"cpu", "cpu1", some "second"⟩]

/-- The processor with the fingerprint and another one. -/
def processors : Inventory := fun itemType =>
  if itemType = "cpu" then [⟨1, some "second"⟩, ⟨2, none⟩] else []

/-- Both processors are assigned to the server, in either order. -/
def processorAssignments (first second : ℕ) : List Assignment :=
  [⟨10, "server", 1, "cpu", first, none, none, none, some 0⟩,
    ⟨11, "server", 1, "cpu", second, none, none, none, some 1⟩]

/-- The two processors are distinct items. -/
theorem distinctItems_processors :
    DistinctItems twoProcessors processors (processorAssignments 1 2) ∧
      DistinctItems twoProcessors processors (processorAssignments 2 1) := by
  have hall : ∀ entry ∈ componentItemTypes,
      ((assignedTargets processors (processorAssignments 1 2) twoProcessors entry.2).map
        (·.item.id)).Nodup ∧
      ((assignedTargets processors (processorAssignments 2 1) twoProcessors entry.2).map
        (·.item.id)).Nodup := by decide
  exact ⟨fun _ _ htype => (hall _ (itemTypeOf_eq_some htype)).1,
    fun _ _ htype => (hall _ (itemTypeOf_eq_some htype)).2⟩

/-- The two detected processors. -/
def detectedProcessors : List Component := [⟨"cpu", "cpu0", none⟩, ⟨"cpu", "cpu1", some "second"⟩]

/-- The target of the first assignment is the other processor. -/
def processorTargets : List Target :=
  [⟨⟨10, "server", 1, "cpu", 2, none, none, none, some 0⟩, ⟨2, none⟩⟩,
    ⟨⟨11, "server", 1, "cpu", 1, none, none, none, some 1⟩, ⟨1, some "second"⟩⟩]

/-- With the other processor first, the first component would rather have that one, by its
position, and leaves the one with the fingerprint. -/
theorem correct_iff_roomForAll_processors :
    RoomForAll plainTexts twoProcessors processors (processorAssignments 2 1) ∧
      Correct plainTexts twoProcessors processors (processorAssignments 2 1) := by
  have hroom : RoomForAll plainTexts twoProcessors processors (processorAssignments 2 1) := by
    rintro kind itemType htype components targets rfl rfl
    by_cases hkind : kind = "cpu"
    · subst hkind
      obtain rfl := Option.some.inj htype
      have hcomponents : orderComponents plainTexts "cpu"
          (twoProcessors.components.filter fun component => component.kind == "cpu") =
            detectedProcessors := by decide
      have htargets : assignedTargets processors (processorAssignments 2 1) twoProcessors "cpu" =
          processorTargets := by decide
      rw [hcomponents, htargets]
      refine ⟨detectedProcessors.zip (processorTargets.map some), rfl, ⟨?_, ?_⟩, ?_⟩
      · decide
      · refine pairwise_pair.mpr ?_
        rintro target ⟨⟩
        exact Or.inr ⟨by decide, by decide⟩
      · intro fingerprint component target hidentifies
        have hall : ∀ component ∈ detectedProcessors, ∀ target ∈ processorTargets,
            sameFingerprint component target = true →
              (component, some target) ∈ detectedProcessors.zip (processorTargets.map some) := by
          decide
        exact hall _ hidentifies.component_mem _ hidentifies.target_mem.1 hidentifies.same.1
    · have hcomponents : twoProcessors.components.filter (fun component => component.kind == kind) =
          [] := by simp [twoProcessors, Ne.symm hkind]
      have hnone : orderComponents plainTexts kind [] = [] := perm_nil.mp (perm_orderComponents _ _ _)
      rw [hcomponents, hnone]
      exact ⟨[], rfl, ⟨nofun, .nil⟩, fun _ _ _ h => absurd h.component_mem not_mem_nil⟩
  exact ⟨hroom, (correct_iff_roomForAll _ _ _ _ distinctItems_processors.2).mpr hroom⟩

/-- **A position steals an item that a fingerprint identifies**: the first processor is taken for
the item whose fingerprint the second one has. -/
theorem not_correct_processors :
    DistinctItems twoProcessors processors (processorAssignments 1 2) ∧
      ¬ Correct plainTexts twoProcessors processors (processorAssignments 1 2) := by
  refine ⟨distinctItems_processors.1, fun hcorrect => ?_⟩
  have hidentified := hcorrect.identified "cpu" "cpu" (by decide +kernel) "second"
    ⟨"cpu", "cpu1", some "second"⟩
    ⟨⟨10, "server", 1, "cpu", 1, none, none, none, some 0⟩, ⟨1, some "second"⟩⟩
    ⟨by decide +kernel, by decide +kernel, by decide +kernel⟩
  revert hidentified
  decide +kernel

end HomelabInventory.HardwareMatching
