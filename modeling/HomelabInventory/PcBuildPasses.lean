import HomelabInventory.ServerPlacement

/-!
# The passes of the PC build planner

A PC build is planned in one pass that ignores stored allocations: what it plans
is packed and fits, and it fails only where a memory module is evaluated against
a build whose motherboard, or the build itself, has no memory section.
-/

namespace HomelabInventory.Compatibility

open List Option

variable {planning : HostPlanning} {motherboard : Option InventoryItem}
  {capabilities : HostCapabilities} {state state' : Placing} {a : ComponentAssignment}

/-! ## One turn -/

/-- The host a component of a PC build is evaluated against. -/
def HostPlanning.metHost (planning : HostPlanning) (processed : List ComponentAssignment)
    (component : InventoryItem) : InventoryItem :=
  effectiveHostForAssignment planning.host processed planning.items (some component)

/-- What one turn does: the component is missing; or it has been read, and the
assignment is left without an allocation, or finds its resource used up, or is
given free positions. -/
inductive PcBuildOutcome (planning : HostPlanning) (motherboard : Option InventoryItem)
    (capabilities : HostCapabilities) (state : Placing) (a : ComponentAssignment) :
    Placing → Prop where
  | missing (results : List PlanResult) (hcomponent : itemLookup planning.items a.itemId = none) :
    PcBuildOutcome planning motherboard capabilities state a
      { state with
        plannedAssignments := state.plannedAssignments ++ [a.clean]
        results := results }
  | left (component : InventoryItem) (results : List PlanResult)
    (hcomponent : itemLookup planning.items a.itemId = some component)
    (hread : readsMissingMemory (planning.metHost state.processedAssignments component)
      component = false) :
    PcBuildOutcome planning motherboard capabilities state a
      { occupancy := state.occupancy
        plannedAssignments := state.plannedAssignments ++ [a.clean]
        results := results
        processedAssignments := state.processedAssignments ++ [a.clean] }
  | exhausted (component : InventoryItem) (resource : PcBuildResource) (results : List PlanResult)
    (hcomponent : itemLookup planning.items a.itemId = some component)
    (hread : readsMissingMemory (planning.metHost state.processedAssignments component)
      component = false)
    (hresource : pcBuildResourceDefinition planning.rules component motherboard capabilities =
      some resource)
    (hselect : selectPositions state.occupancy resource = none) :
    PcBuildOutcome planning motherboard capabilities state a
      { state with
        plannedAssignments := state.plannedAssignments ++ [a.clean]
        results := results }
  | placed (component : InventoryItem) (resource : PcBuildResource) (groupId : Option ℚ)
    (positions : List ℚ) (results : List PlanResult)
    (hcomponent : itemLookup planning.items a.itemId = some component)
    (hread : readsMissingMemory (planning.metHost state.processedAssignments component)
      component = false)
    (hresource : pcBuildResourceDefinition planning.rules component motherboard capabilities =
      some resource)
    (hselect : selectPositions state.occupancy resource = some (groupId, positions)) :
    PcBuildOutcome planning motherboard capabilities state a
      { occupancy := reservePositions state.occupancy ⟨resource.resourceType, groupId, positions⟩
        plannedAssignments := state.plannedAssignments ++
          [{ a with allocation := some ⟨resource.resourceType, groupId, positions⟩ }]
        results := results
        processedAssignments := state.processedAssignments ++
          [{ a with allocation := some ⟨resource.resourceType, groupId, positions⟩ }] }

/-- One turn of the PC build planner. -/
theorem pcBuildStep_outcome
    (h : pcBuildStep planning motherboard capabilities state a = .ok state') :
    PcBuildOutcome planning motherboard capabilities state a state' := by
  simp only [pcBuildStep] at h
  cases hcomponent : itemLookup planning.items a.itemId with
  | none =>
    simp only [hcomponent] at h
    obtain rfl := pure_eq_ok.mp h
    exact .missing _ hcomponent
  | some component =>
    simp only [hcomponent] at h
    obtain ⟨result, hresult, hnext⟩ := bind_eq_ok.mp h
    obtain ⟨hread, -⟩ := evaluate_eq_ok.mp hresult
    cases hresource :
        pcBuildResourceDefinition planning.rules component motherboard capabilities with
    | none =>
      simp only [hresource] at hnext
      obtain rfl := pure_eq_ok.mp hnext
      exact .left component _ hcomponent hread
    | some resource =>
      simp only [hresource] at hnext
      split at hnext
      · obtain rfl := pure_eq_ok.mp hnext
        exact .left component _ hcomponent hread
      · cases hselect : selectPositions state.occupancy resource with
        | none =>
          simp only [hselect] at hnext
          obtain rfl := pure_eq_ok.mp hnext
          exact .exhausted component resource _ hcomponent hread hresource hselect
        | some selected =>
          obtain ⟨groupId, positions⟩ := selected
          simp only [hselect] at hnext
          obtain rfl := pure_eq_ok.mp hnext
          exact .placed component resource groupId positions _ hcomponent hread hresource hselect

/-- A turn fails only when its component cannot be read. -/
theorem pcBuildStep_ok_iff :
    (∃ state', pcBuildStep planning motherboard capabilities state a = .ok state') ↔
      ∀ component, itemLookup planning.items a.itemId = some component →
        readsMissingMemory (planning.metHost state.processedAssignments component)
          component = false := by
  constructor
  · rintro ⟨state', h⟩ component hcomponent
    cases pcBuildStep_outcome h with
    | missing _ hmissing =>
      rw [hcomponent] at hmissing
      exact nomatch hmissing
    | left other _ hother hread =>
      rw [hcomponent, some.injEq] at hother
      exact hother ▸ hread
    | exhausted other _ _ hother hread =>
      rw [hcomponent, some.injEq] at hother
      exact hother ▸ hread
    | placed other _ _ _ _ hother hread =>
      rw [hcomponent, some.injEq] at hother
      exact hother ▸ hread
  · intro hread
    simp only [pcBuildStep]
    cases hcomponent : itemLookup planning.items a.itemId with
    | none => exact ⟨_, rfl⟩
    | some component =>
      have hevaluate : ∃ result,
          planning.evaluate component state.processedAssignments = .ok result :=
        ⟨_, evaluate_eq_ok.mpr ⟨hread component hcomponent, rfl⟩⟩
      obtain ⟨result, hresult⟩ := hevaluate
      dsimp only
      rw [hresult, bind_ok]
      repeat' split
      all_goals exact ⟨_, rfl⟩

/-! ## Resources -/

/-- The positions a PC build has of its own. -/
def pcBuildCount (motherboard : Option InventoryItem) (capabilities : HostCapabilities)
    (resourceType : ResourceType) : Option ℚ :=
  match resourceType with
  | .motherboard | .power | .case => some 1
  | .cpu | .cooling => capabilities.cpu.socketCount <|>
      motherboard.bind (·.specs.cpuSocketCount) <|>
        (if capabilities.cpu.sockets ≠ [] then some 1 else none)
  | .memory => capabilities.memory.bind (·.slots)
  | _ => none

variable {component : InventoryItem}
variable {rules : TextRules}

/-- The optional-module groups of a component are valid groups. -/
theorem mem_optionalModuleGroupsFor {group : ResourceGroup}
    (h : group ∈ optionalModuleGroupsFor rules capabilities component) :
    group ∈ validResourceGroups capabilities.optionalModuleSlots := by
  have hkinds : ∀ kinds : List String,
      (group ∈ if kinds = [] then []
        else (validResourceGroups capabilities.optionalModuleSlots).filter fun group =>
          (optionalStringArray group.acceptedModuleKinds).any fun kind => decide (kind ∈ kinds)) →
      group ∈ validResourceGroups capabilities.optionalModuleSlots := by
    intro kinds hmem
    split at hmem
    · exact nomatch hmem
    · exact (mem_filter.mp hmem).1
  rw [optionalModuleGroupsFor] at h
  cases hfamily : normalizedText rules component.requirements.interfaceFamily with
  | none =>
    simp only [hfamily, ne_eq, not_true_eq_false, if_false] at h
    exact hkinds _ h
  | some physicalFamily =>
    simp only [hfamily] at h
    split at h
    · exact (mem_filter.mp h).1
    · exact hkinds _ h

variable {resource : PcBuildResource}

/-- A resource of a PC build is made of valid groups, or of positions of its own. -/
theorem pcBuildResourceDefinition_eq_some
    (h : pcBuildResourceDefinition rules component motherboard capabilities = some resource) :
    match resource.groups with
    | some groups => ∀ group ∈ groups, group ∈ (requiredGroups capabilities resource.resourceType).2
    | none => resource.count = pcBuildCount motherboard capabilities resource.resourceType := by
  simp only [pcBuildResourceDefinition] at h
  split at h
  case h_7 =>
    obtain rfl := some.inj h
    exact fun group hgroup => (mem_filter.mp hgroup).1
  case h_8 =>
    split at h
    · split at h
      · obtain rfl := some.inj h
        exact fun group hgroup => mem_optionalModuleGroupsFor hgroup
      · obtain rfl := some.inj h
        exact fun group hgroup => (mem_filter.mp hgroup).1
    · exact nomatch h
  all_goals
    obtain rfl := some.inj h
    rfl

/-- The positions selected are free and within what the build offers. -/
theorem selectPositions_eq_some {occupancy : Occupancy} {groupId : Option ℚ} {positions : List ℚ}
    (hresource : pcBuildResourceDefinition rules component motherboard capabilities = some resource)
    (h : selectPositions occupancy resource = some (groupId, positions)) :
    positionsAreFree occupancy resource.resourceType groupId positions = true ∧
      ∃ count, Offers capabilities (pcBuildCount motherboard capabilities) resource.resourceType
          groupId count ∧ Occupies positions resource.size count := by
  have hdefinition := pcBuildResourceDefinition_eq_some hresource
  rw [selectPositions] at h
  cases hgroups : resource.groups with
  | some groups =>
    rw [hgroups] at h hdefinition
    obtain ⟨group, hgroup, hfirst⟩ := exists_of_findSome?_eq_some h
    obtain ⟨positions', hpositions, heq⟩ := map_eq_some_iff.mp hfirst
    obtain ⟨rfl, rfl⟩ := Prod.mk.inj heq
    obtain ⟨hfree, count, size, hcount, hsize, hoccupies⟩ :=
      firstConsecutivePositions_eq_some hpositions
    obtain rfl := some.inj hsize
    exact ⟨hfree, count, Or.inr ⟨group, hdefinition group hgroup, rfl, hcount⟩, hoccupies⟩
  | none =>
    rw [hgroups] at h hdefinition
    obtain ⟨positions', hpositions, heq⟩ := map_eq_some_iff.mp h
    obtain ⟨rfl, rfl⟩ := Prod.mk.inj heq
    obtain ⟨hfree, count, size, hcount, hsize, hoccupies⟩ :=
      firstConsecutivePositions_eq_some hpositions
    obtain rfl := some.inj hsize
    exact ⟨hfree, count, Or.inl ⟨rfl, hdefinition ▸ hcount⟩, hoccupies⟩

/-! ## A whole run -/

/-- What a component of a PC build needs. -/
def HostPlanning.pcBuildDemand (planning : HostPlanning) (motherboard : Option InventoryItem)
    (capabilities : HostCapabilities) (component : InventoryItem) : Option (ResourceType × ℚ) :=
  (pcBuildResourceDefinition planning.rules component motherboard capabilities).map
    fun resource => (resource.resourceType, resource.size)

/-- The allocation fits the PC build. -/
def HostPlanning.PcBuildFits (planning : HostPlanning) (motherboard : Option InventoryItem)
    (capabilities : HostCapabilities) :
    ComponentAssignment → CompatibilityAllocation → Prop :=
  AllocationFits planning.items (planning.pcBuildDemand motherboard capabilities)
    (Offers capabilities (pcBuildCount motherboard capabilities))

/-- The plan so far is sound, and its cells are taken. -/
structure PcBuildInvariant (planning : HostPlanning) (motherboard : Option InventoryItem)
    (capabilities : HostCapabilities) (asked : List ComponentAssignment) (state : Placing) :
    Prop where
  sound : SoundPlan (planning.PcBuildFits motherboard capabilities) asked
    state.plannedAssignments
  occupancy : state.occupancy = state.plannedAssignments.flatMap (·.cells)

variable {asked : List ComponentAssignment}

/-- An assignment planned without an allocation. -/
theorem SoundPlan.leave {fits : ComponentAssignment → CompatibilityAllocation → Prop}
    {planned : List ComponentAssignment} (h : SoundPlan fits asked planned) :
    SoundPlan fits (asked ++ [a]) (planned ++ [a.clean]) where
  same := by
    rw [map_append, map_append, h.same]
    rfl
  disjoint := by
    rw [pairwise_append]
    refine ⟨h.disjoint, pairwise_singleton _ _, ?_⟩
    intro b _ c hc
    rw [mem_singleton.mp hc]
    exact disjoint_nil_right _
  fits := by
    intro b hb allocation hallocation
    rcases mem_append.mp hb with hb | hb
    · exact h.fits b hb allocation hallocation
    · rw [mem_singleton.mp hb] at hallocation
      exact nomatch hallocation

/-- An assignment planned with an allocation that is free and fits. -/
theorem SoundPlan.place {fits : ComponentAssignment → CompatibilityAllocation → Prop}
    {planned : List ComponentAssignment} {allocation : CompatibilityAllocation}
    (h : SoundPlan fits asked planned)
    (hfree : (planned.flatMap (·.cells)).Disjoint allocation.cells)
    (hfits : fits { a with allocation := some allocation } allocation) :
    SoundPlan fits (asked ++ [a]) (planned ++ [{ a with allocation := some allocation }]) where
  same := by
    rw [map_append, map_append, h.same]
    rfl
  disjoint := by
    rw [pairwise_append]
    refine ⟨h.disjoint, pairwise_singleton _ _, ?_⟩
    intro b hb c hc
    rw [mem_singleton.mp hc]
    exact fun cell hcell hmem => hfree (mem_flatMap.mpr ⟨b, hb, hcell⟩) hmem
  fits := by
    intro b hb other hother
    rcases mem_append.mp hb with hb | hb
    · exact h.fits b hb other hother
    · obtain rfl := mem_singleton.mp hb
      obtain rfl := some.inj hother
      exact hfits

/-- Each turn keeps the plan sound. -/
theorem PcBuildInvariant.step (h : PcBuildInvariant planning motherboard capabilities asked state)
    (hstep : PcBuildOutcome planning motherboard capabilities state a state') :
    PcBuildInvariant planning motherboard capabilities (asked ++ [a]) state' := by
  have hleave : (state.plannedAssignments ++ [a.clean]).flatMap (·.cells) =
      state.plannedAssignments.flatMap (·.cells) := by
    rw [flatMap_append]
    exact append_nil _
  cases hstep with
  | missing _ _ => exact ⟨h.sound.leave, h.occupancy.trans hleave.symm⟩
  | left _ _ _ _ => exact ⟨h.sound.leave, h.occupancy.trans hleave.symm⟩
  | exhausted _ _ _ _ _ _ _ => exact ⟨h.sound.leave, h.occupancy.trans hleave.symm⟩
  | placed component resource groupId positions _ hcomponent _ hresource hselect =>
    obtain ⟨hfree, count, hoffers, hoccupies⟩ := selectPositions_eq_some hresource hselect
    refine ⟨h.sound.place ?_ ?_, ?_⟩
    · rw [← h.occupancy]
      intro cell hcell hmem
      obtain ⟨position, hposition, rfl⟩ := mem_map.mp hmem
      have hnot := all_eq_true.mp hfree position hposition
      exact (of_decide_eq_true hnot) hcell
    · exact ⟨component, resource.size, count, hcomponent,
        by rw [HostPlanning.pcBuildDemand, hresource]; rfl, hoffers, hoccupies⟩
    · rw [flatMap_append, ← h.occupancy, reservePositions]
      simp [ComponentAssignment.cells]

/-- A whole run keeps the plan sound. -/
theorem PcBuildInvariant.run {l : List ComponentAssignment} {final : Placing}
    (h : PcBuildInvariant planning motherboard capabilities asked state)
    (hrun : l.foldlM (pcBuildStep planning motherboard capabilities) state = .ok final) :
    PcBuildInvariant planning motherboard capabilities (asked ++ l) final := by
  induction l generalizing asked state with
  | nil =>
    obtain rfl := pure_eq_ok.mp hrun
    rw [append_nil]
    exact h
  | cons a rest ih =>
    obtain ⟨next, hstep, hrest⟩ := foldlM_cons_eq_ok.mp hrun
    have hnext := ih (h.step (pcBuildStep_outcome hstep)) hrest
    rw [append_assoc] at hnext
    exact hnext

/-! ## When planning a PC build fails -/

/-- The first motherboard among the assignments. -/
def firstMotherboard (items : InventoryItems) (assignments : List ComponentAssignment) :
    Option InventoryItem :=
  (assignments.filterMap fun a => itemLookup items a.itemId).find?
    fun item => decide (item.type = .motherboard)

/-- Every component can be read against the host the assignments before it make. -/
def PcBuildReadable (planning : HostPlanning) (asked l : List ComponentAssignment) : Prop :=
  ∀ before a after, l = before ++ a :: after → ∀ component,
    itemLookup planning.items a.itemId = some component →
      readsMissingMemory (planning.metHost (asked ++ before) component) component = false

/-- The planner has processed the first motherboard so far, and holds its place
free until there is one. -/
structure MotherboardInvariant (planning : HostPlanning) (asked : List ComponentAssignment)
    (state : Placing) : Prop where
  first : firstMotherboard planning.items state.processedAssignments =
    firstMotherboard planning.items asked
  free : firstMotherboard planning.items asked = none →
    ∀ cell ∈ state.occupancy, cell.1.1 ≠ .motherboard

theorem firstMotherboard_snoc (items : InventoryItems) (assignments : List ComponentAssignment)
    (a : ComponentAssignment) :
    firstMotherboard items (assignments ++ [a]) =
      (firstMotherboard items assignments).or
        ((itemLookup items a.itemId).filter fun item => decide (item.type = .motherboard)) := by
  have hlast : (([a].filterMap fun a => itemLookup items a.itemId).find?
      fun item => decide (item.type = .motherboard)) =
      (itemLookup items a.itemId).filter fun item => decide (item.type = .motherboard) := by
    rw [filterMap_cons]
    cases itemLookup items a.itemId with
    | none => rfl
    | some item => by_cases htype : item.type = .motherboard <;> simp [htype, Option.filter]
  rw [firstMotherboard, filterMap_append, find?_append, hlast]
  rfl

/-- The place of the motherboard is the only candidate for it. -/
theorem candidatePositions_one : candidatePositions (some 1) (some 1) = [[0]] := by
  decide +kernel

/-- A motherboard finds its resource used up only after another one. -/
theorem selectPositions_motherboard {occupancy : Occupancy} (htype : component.type = .motherboard)
    (hresource : pcBuildResourceDefinition rules component motherboard capabilities = some resource)
    (hfree : ∀ cell ∈ occupancy, cell.1.1 ≠ .motherboard) :
    selectPositions occupancy resource ≠ none := by
  simp only [pcBuildResourceDefinition, htype, some.injEq] at hresource
  subst hresource
  have hposition : ((ResourceType.motherboard, (none : Option ℚ)), (0 : ℚ)) ∉ occupancy :=
    fun hmem => hfree _ hmem rfl
  simp [selectPositions, firstConsecutivePositions_eq_find?, candidatePositions_one,
    positionsAreFree, hposition]

/-- Only motherboards occupy the place of the motherboard. -/
theorem type_of_motherboard_resource
    (hresource : pcBuildResourceDefinition rules component motherboard capabilities = some resource)
    (htype : resource.resourceType = .motherboard) : component.type = .motherboard := by
  simp only [pcBuildResourceDefinition] at hresource
  split at hresource
  case h_1 hcomponent => exact hcomponent
  case h_8 =>
    split at hresource
    · split at hresource
      · obtain rfl := some.inj hresource
        exact nomatch htype
      · obtain rfl := some.inj hresource
        exact nomatch htype
    · exact nomatch hresource
  all_goals
    obtain rfl := some.inj hresource
    exact nomatch htype

theorem MotherboardInvariant.step (h : MotherboardInvariant planning asked state)
    (hstep : PcBuildOutcome planning motherboard capabilities state a state') :
    MotherboardInvariant planning (asked ++ [a]) state' := by
  have hsnoc := firstMotherboard_snoc planning.items asked a
  have hearlier : firstMotherboard planning.items (asked ++ [a]) = none →
      firstMotherboard planning.items asked = none := by
    intro hnone
    rw [hsnoc, or_eq_none_iff] at hnone
    exact hnone.1
  cases hstep with
  | missing _ hcomponent =>
    have hsame : firstMotherboard planning.items (asked ++ [a]) =
        firstMotherboard planning.items asked := by
      rw [hsnoc, hcomponent]
      exact or_none
    exact ⟨h.first.trans hsame.symm, fun hnone => h.free (hearlier hnone)⟩
  | left component _ _ _ =>
    refine ⟨?_, fun hnone => h.free (hearlier hnone)⟩
    rw [hsnoc, ← h.first]
    exact firstMotherboard_snoc _ _ _
  | exhausted component resource _ hcomponent _ hresource hselect =>
    have hsame : firstMotherboard planning.items (asked ++ [a]) =
        firstMotherboard planning.items asked := by
      rw [hsnoc, hcomponent]
      cases hfirst : firstMotherboard planning.items asked with
      | some item => rfl
      | none =>
        have htype : component.type ≠ .motherboard := fun htype =>
          selectPositions_motherboard htype hresource (h.free hfirst) hselect
        simp [htype]
    exact ⟨h.first.trans hsame.symm, fun hnone => h.free (hearlier hnone)⟩
  | placed component resource groupId positions _ hcomponent _ hresource _ =>
    refine ⟨?_, ?_⟩
    · rw [hsnoc, ← h.first]
      exact firstMotherboard_snoc _ _ _
    · intro hnone cell hcell
      have htype : component.type ≠ .motherboard := by
        intro htype
        rw [hsnoc, hcomponent, or_eq_none_iff] at hnone
        simp [htype] at hnone
      rcases mem_append.mp hcell with hcell | hcell
      · exact h.free (hearlier hnone) cell hcell
      · obtain ⟨position, -, rfl⟩ := mem_map.mp hcell
        exact fun heq => htype (type_of_motherboard_resource hresource heq)

/-- The host a component other than a motherboard meets depends on the first
motherboard only. -/
theorem metHost_congr {processed processed' : List ComponentAssignment}
    (hlookup : itemLookup planning.items a.itemId = some component)
    (htype : component.type ≠ .motherboard)
    (hfirst : firstMotherboard planning.items processed =
      firstMotherboard planning.items processed') :
    planning.metHost processed component = planning.metHost processed' component := by
  have hcomponent : ∀ item, some component = some item →
      ∃ id, itemLookup planning.items id = some item := by
    rintro item ⟨⟩
    exact ⟨a.itemId, hlookup⟩
  have hmotherboard : ∀ l : List ComponentAssignment,
      assignedItemOfType l planning.items .motherboard (some component) =
        firstMotherboard planning.items l := by
    intro l
    rw [assignedItemOfType_eq_find? l _ hcomponent, find?_append, firstMotherboard]
    simp [htype]
  rw [HostPlanning.metHost, HostPlanning.metHost, effectiveHostForAssignment,
    effectiveHostForAssignment, hmotherboard, hmotherboard, hfirst]

/-- A run succeeds exactly when every component can be read at its turn. -/
theorem pcBuildLoop_ok_iff {l : List ComponentAssignment}
    (h : MotherboardInvariant planning asked state) :
    (∃ final, l.foldlM (pcBuildStep planning motherboard capabilities) state = .ok final) ↔
      PcBuildReadable planning asked l := by
  induction l generalizing asked state with
  | nil =>
    refine ⟨fun _ => ?_, fun _ => ⟨state, rfl⟩⟩
    intro before a after hnil
    exact absurd hnil (by simp)
  | cons a rest ih =>
    have hread : ∀ component, itemLookup planning.items a.itemId = some component →
        (readsMissingMemory (planning.metHost state.processedAssignments component)
            component = false ↔
          readsMissingMemory (planning.metHost asked component) component = false) := by
      intro component hcomponent
      by_cases htype : component.type = .motherboard
      · simp [readsMissingMemory, htype]
      · rw [metHost_congr hcomponent htype h.first]
    constructor
    · rintro ⟨final, hrun⟩
      obtain ⟨next, hstep, hrest⟩ := foldlM_cons_eq_ok.mp hrun
      have hnext := (ih (h.step (pcBuildStep_outcome hstep))).mp ⟨final, hrest⟩
      intro before b after hsplit component hcomponent
      cases before with
      | nil =>
        obtain ⟨rfl, -⟩ := List.cons.inj hsplit
        rw [append_nil]
        exact (hread component hcomponent).mp (pcBuildStep_ok_iff.mp ⟨next, hstep⟩ component
          hcomponent)
      | cons c before =>
        obtain ⟨rfl, htail⟩ := List.cons.inj hsplit
        have hlater := hnext before b after htail component hcomponent
        rw [append_assoc] at hlater
        exact hlater
    · intro hreadable
      have hstep : ∃ next, pcBuildStep planning motherboard capabilities state a = .ok next := by
        rw [pcBuildStep_ok_iff]
        intro component hcomponent
        rw [hread component hcomponent]
        have hfirst := hreadable [] a rest rfl component hcomponent
        rw [append_nil] at hfirst
        exact hfirst
      obtain ⟨next, hstep⟩ := hstep
      have hlater : PcBuildReadable planning (asked ++ [a]) rest := by
        intro before b after hsplit component hcomponent
        rw [append_assoc]
        exact hreadable (a :: before) b after (by rw [hsplit]; rfl) component hcomponent
      obtain ⟨final, hrest⟩ := (ih (h.step (pcBuildStep_outcome hstep))).mpr hlater
      exact ⟨final, foldlM_cons_eq_ok.mpr ⟨next, hstep, hrest⟩⟩

end HomelabInventory.Compatibility
