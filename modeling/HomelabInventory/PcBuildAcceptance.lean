import HomelabInventory.AcceptedGroups

/-!
# When the groups of a PC build accept what is planned in them

The planner of a PC build evaluates a component against the build as a whole and then takes the first
group that passes a coarse filter and has room. When the groups of the filter are those that the
evaluation accepts, that group accepts the component, and an accepting group with room is found.
-/

namespace HomelabInventory.Compatibility

open List Option

/-! ## One turn and its result -/

section

variable {planning : HostPlanning} {motherboard : Option InventoryItem}
  {capabilities : HostCapabilities} {state state' : Placing} {a : ComponentAssignment}

/-- The result of a component next to the assignments processed before it. -/
def HostPlanning.processedResult (planning : HostPlanning) (state : Placing)
    (component : InventoryItem) : CompatibilityResult :=
  planning.evaluation.result (inputOf planning.host component state.processedAssignments
    planning.items planning.useVerifiedMemoryLimits)

/-- What the result of a turn says, with checks on: a component that is not compatible gets no
allocation, any other the positions selected for it. -/
def TurnOutcome (planning : HostPlanning) (state : Placing) (component : InventoryItem)
    (resource : PcBuildResource) (outcome : PlanResult) : Prop :=
  if (planning.processedResult state component).status = .compatible then
    outcome.allocation = (selectPositions state.occupancy resource).map
        (fun selected => ⟨resource.resourceType, selected.1, selected.2⟩) ∧
      (outcome.allocation.isSome = true → outcome.status = .compatible)
  else outcome.allocation = none

variable (henabled : planning.compatibilityEnabled = true)
include henabled

/-- One turn of the planner has one result, and may put its component in place. -/
theorem pcBuildStep_result
    (h : pcBuildStep planning motherboard capabilities state a = .ok state') :
    ∃ outcome, state'.results = state.results ++ [outcome] ∧
      (state'.processedAssignments.map (·.itemId)).Sublist
        (state.processedAssignments.map (·.itemId) ++ [a.itemId]) ∧
      ∀ component resource, itemLookup planning.items a.itemId = some component →
        pcBuildResourceDefinition planning.rules component motherboard capabilities =
          some resource →
        TurnOutcome planning state component resource outcome := by
  simp only [pcBuildStep] at h
  cases hcomponent : itemLookup planning.items a.itemId with
  | none =>
    simp only [hcomponent] at h
    obtain rfl := pure_eq_ok.mp h
    exact ⟨_, rfl, sublist_append_left _ _, fun _ _ hsome => by cases hsome⟩
  | some component =>
    simp only [hcomponent] at h
    obtain ⟨result, hresult, hnext⟩ := bind_eq_ok.mp h
    have heq : planning.processedResult state component = result := (evaluate_eq_ok.mp hresult).2
    have hleave : ((state.leave a result).processedAssignments.map (·.itemId)).Sublist
        (state.processedAssignments.map (·.itemId) ++ [a.itemId]) := by
      rw [Placing.leave, map_append]
      rfl
    cases hresource :
        pcBuildResourceDefinition planning.rules component motherboard capabilities with
    | none =>
      simp only [hresource] at hnext
      obtain rfl := pure_eq_ok.mp hnext
      refine ⟨_, rfl, hleave, fun other resource hother hdefined => ?_⟩
      obtain rfl := some.inj hother
      cases hresource.symm.trans hdefined
    | some resource =>
      simp only [hresource, henabled] at hnext
      have hsame : ∀ other defined, some component = some other →
          pcBuildResourceDefinition planning.rules other motherboard capabilities = some defined →
          other = component ∧ defined = resource := by
        intro other defined hother hdefined
        obtain rfl := some.inj hother
        exact ⟨rfl, (some.inj (hresource.symm.trans hdefined)).symm⟩
      split at hnext
      · rename_i hrefused
        obtain rfl := pure_eq_ok.mp hnext
        refine ⟨_, rfl, hleave, fun other defined hother hdefined => ?_⟩
        obtain ⟨rfl, rfl⟩ := hsame other defined hother hdefined
        have hstatus : (planning.processedResult state other).status ≠ .compatible := by
          intro hcompatible
          rw [← heq, resultCanOccupyResource, hcompatible] at hrefused
          cases hrefused
        rw [TurnOutcome, if_neg hstatus]
        rfl
      · rename_i haccepted
        rw [Bool.not_eq_true', Bool.not_eq_false] at haccepted
        have hstatus : (planning.processedResult state component).status = .compatible := by
          rw [heq]
          simpa [resultCanOccupyResource] using haccepted
        cases hselect : selectPositions state.occupancy resource with
        | none =>
          simp only [hselect] at hnext
          obtain rfl := pure_eq_ok.mp hnext
          refine ⟨_, rfl, sublist_append_left _ _, fun other defined hother hdefined => ?_⟩
          obtain ⟨rfl, rfl⟩ := hsame other defined hother hdefined
          rw [TurnOutcome, if_pos hstatus, hselect]
          exact ⟨rfl, fun hsome => by cases hsome⟩
        | some selected =>
          obtain ⟨groupId, positions⟩ := selected
          simp only [hselect] at hnext
          obtain rfl := pure_eq_ok.mp hnext
          refine ⟨_, rfl, by rw [map_append]; rfl, fun other defined hother hdefined => ?_⟩
          obtain ⟨rfl, rfl⟩ := hsame other defined hother hdefined
          rw [TurnOutcome, if_pos hstatus, hselect]
          refine ⟨rfl, fun _ => ?_⟩
          rw [heq] at hstatus
          exact hstatus

/-- The loop has one result for each assignment, keeps those it has, and puts some of the components
in place. -/
theorem pcBuildLoop_results {l : List ComponentAssignment} {final : Placing}
    (h : l.foldlM (pcBuildStep planning motherboard capabilities) state = .ok final) :
    ∃ results, final.results = state.results ++ results ∧ results.length = l.length ∧
      (final.processedAssignments.map (·.itemId)).Sublist
        (state.processedAssignments.map (·.itemId) ++ l.map (·.itemId)) := by
  induction l generalizing state with
  | nil =>
    obtain rfl := pure_eq_ok.mp h
    exact ⟨[], (append_nil _).symm, rfl, sublist_append_left _ _⟩
  | cons a rest ih =>
    obtain ⟨next, hstep, hrest⟩ := foldlM_cons_eq_ok.mp h
    obtain ⟨outcome, houtcome, hplaced, -⟩ := pcBuildStep_result henabled hstep
    obtain ⟨results, hresults, hlength, hprocessed⟩ := ih hrest
    refine ⟨outcome :: results, ?_, by rw [length_cons, length_cons, hlength], ?_⟩
    · rw [hresults, houtcome, append_assoc]
      rfl
    · refine hprocessed.trans ((hplaced.append_right _).trans ?_)
      rw [append_assoc]
      rfl

/-- The result of a plan at the place of a turn is the result of the turn. -/
theorem turnOutcome_of_run {before after : List ComponentAssignment} {final : Placing}
    {outcome : PlanResult}
    (hbefore : before.foldlM (pcBuildStep planning motherboard capabilities) ⟨[], [], [], []⟩ =
      .ok state)
    (h : (before ++ a :: after).foldlM (pcBuildStep planning motherboard capabilities)
      ⟨[], [], [], []⟩ = .ok final)
    (houtcome : final.results[before.length]? = some outcome) {component : InventoryItem}
    {resource : PcBuildResource} (hcomponent : itemLookup planning.items a.itemId = some component)
    (hresource : pcBuildResourceDefinition planning.rules component motherboard capabilities =
      some resource) :
    TurnOutcome planning state component resource outcome := by
  rw [foldlM_append, hbefore, bind_ok] at h
  obtain ⟨next, hstep, hrest⟩ := foldlM_cons_eq_ok.mp h
  obtain ⟨found, hfound, -, hturn⟩ := pcBuildStep_result henabled hstep
  obtain ⟨done, hdone, hlength, -⟩ := pcBuildLoop_results henabled hbefore
  obtain ⟨more, hmore, -⟩ := pcBuildLoop_results henabled hrest
  rw [hmore, hfound, hdone, nil_append, append_assoc, ← hlength,
    getElem?_append_right (Nat.le_refl _), Nat.sub_self] at houtcome
  obtain rfl := some.inj houtcome
  exact hturn component resource hcomponent hresource

end

/-! ## The group selected -/

/-- The group has room for the resource. -/
def hasRoom (occupancy : Occupancy) (resource : PcBuildResource) (group : ResourceGroup) : Bool :=
  (firstConsecutivePositions occupancy resource.resourceType group.id group.count
    (some resource.size)).isSome

/-- The first group with room is selected. -/
theorem selectPositions_groups {occupancy : Occupancy} {resource : PcBuildResource}
    {groups : List ResourceGroup} (h : resource.groups = some groups) :
    (selectPositions occupancy resource).map (·.1) =
      (groups.find? (hasRoom occupancy resource)).map (·.id) := by
  rw [selectPositions, h]
  clear h
  dsimp only
  induction groups with
  | nil => rfl
  | cons group rest ih =>
    rw [findSome?_cons, find?_cons]
    cases hfirst : firstConsecutivePositions occupancy resource.resourceType group.id group.count
        (some resource.size) with
    | none =>
      have hroom : hasRoom occupancy resource group = false := by rw [hasRoom, hfirst]; rfl
      rw [hroom]
      exact ih
    | some positions =>
      have hroom : hasRoom occupancy resource group = true := by rw [hasRoom, hfirst]; rfl
      rw [hroom]
      rfl

variable {rules : EvaluationRules} {component : InventoryItem} {motherboard : Option InventoryItem}
  {capabilities : HostCapabilities} {resource : PcBuildResource} {groups : List ResourceGroup}

/-- The storage groups of a PC build list the interface and the form factor as they are written. -/
theorem pcBuildResource_storage
    (h : pcBuildResourceDefinition rules.text component motherboard capabilities = some resource)
    (htype : resource.resourceType = .storage) (hgroups : resource.groups = some groups) :
    component.type = .storage ∧
      ∀ group ∈ groups,
        ((component.requirements.interface.isNone ||
          includesNormalized rules.text group.interfaces component.requirements.interface) &&
        (component.requirements.formFactor.isNone ||
          includesNormalized rules.text group.formFactors component.requirements.formFactor)) =
            true := by
  simp only [pcBuildResourceDefinition] at h
  split at h
  case h_7 hcomponent =>
    obtain rfl := some.inj h
    obtain rfl := some.inj hgroups
    exact ⟨hcomponent, fun group hgroup => (List.mem_filter.mp hgroup).2⟩
  case h_8 =>
    split at h
    · split at h
      · obtain rfl := some.inj h
        cases htype
      · obtain rfl := some.inj h
        cases htype
    · cases h
  all_goals
    obtain rfl := some.inj h
    cases htype

/-- The expansion groups of a PC build are those of the interface family of the card. -/
theorem pcBuildResource_expansion
    (h : pcBuildResourceDefinition rules.text component motherboard capabilities = some resource)
    (htype : resource.resourceType = .expansion) (hgroups : resource.groups = some groups) :
    isExpansion component.type = true ∧
      groups = (validResourceGroups capabilities.expansionSlots).filter fun group =>
        component.requirements.interfaceFamily.isNone ||
          decide (group.interfaceFamily = component.requirements.interfaceFamily) := by
  simp only [pcBuildResourceDefinition] at h
  split at h
  case h_8 =>
    split at h
    · rename_i hexpansion
      split at h
      · obtain rfl := some.inj h
        cases htype
      · obtain rfl := some.inj h
        exact ⟨hexpansion, (some.inj hgroups).symm⟩
    · cases h
  all_goals
    obtain rfl := some.inj h
    cases htype

/-- A form factor that is listed as it is written is listed. -/
theorem listsFormFactor_of_includes {group : ResourceGroup} {formFactor : String}
    (h : includesNormalized rules.text group.formFactors (some formFactor) = true) :
    listsFormFactor rules formFactor group = true := by
  rw [includesNormalized] at h
  split at h
  · exact nomatch h
  · rename_i expected hexpected
    obtain ⟨entry, hentry, hsame⟩ := any_eq_true.mp h
    refine any_eq_true.mpr ⟨entry, hentry, ?_⟩
    rw [beq_iff_eq] at hsame
    rw [normalizeStorageFormFactor, normalizeStorageFormFactor, hsame, hexpected, beq_iff_eq]

/-! ## Turns of a plan -/

section

variable (rules : EvaluationRules) (project : Project) (hostId : String) (host : InventoryItem)

/-- A turn of the planner of a PC build: the state before it, the component of its assignment, the
resource and groups that the planner goes by, and its result. -/
structure PcBuildTurn where
  state : Placing
  component : InventoryItem
  resource : PcBuildResource
  groups : List ResourceGroup
  outcome : PlanResult

/-- The turn is one of the plan, and its component needs storage or expansion slots. -/
structure PcBuildTurn.Of (plan : AllocationPlan) (turn : PcBuildTurn) : Prop where
  reached : ∃ before a after, plannedOrder rules.text project host hostId = before ++ a :: after ∧
    before.foldlM (pcBuildStep (planningOf rules.text (evaluationOf rules) project hostId host)
      (hostMotherboard rules.text project hostId host)
      (hostCapabilities rules.text project hostId host)) ⟨[], [], [], []⟩ = .ok turn.state ∧
    plan.results[before.length]? = some turn.outcome ∧
    itemLookup project.items a.itemId = some turn.component
  resource : pcBuildResourceDefinition rules.text turn.component
    (hostMotherboard rules.text project hostId host)
    (hostCapabilities rules.text project hostId host) = some turn.resource
  groups : turn.resource.groups = some turn.groups
  kind : turn.resource.resourceType = .storage ∨ turn.resource.resourceType = .expansion

/-- What the evaluation of a turn reads. -/
def PcBuildTurn.input (turn : PcBuildTurn) : EvaluationInput :=
  inputOf host turn.component turn.state.processedAssignments project.items
    (isVerifiedMemoryLimitEnabled project hostId)

/-- The host the component of a turn is evaluated against. -/
def PcBuildTurn.metHost (turn : PcBuildTurn) : InventoryItem :=
  effectiveHostForAssignment host turn.state.processedAssignments project.items
    (some turn.component)

/-- The status of the component against the whole host. -/
def PcBuildTurn.hostStatus (turn : PcBuildTurn) : CompatibilityStatus :=
  statusFor (findingsWith rules (turn.metHost project host).capabilities
    (turn.input project hostId host))

/-- The status of the component against the host narrowed to one group. -/
def PcBuildTurn.groupStatus (turn : PcBuildTurn) (group : ResourceGroup) : CompatibilityStatus :=
  statusFor (findingsWith rules
    (candidateHost (turn.metHost project host) turn.resource.resourceType group).capabilities
    (turn.input project hostId host))

/-- The valid groups of the resource that a turn is about. -/
def PcBuildTurn.validGroups (turn : PcBuildTurn) : List ResourceGroup :=
  (requiredGroups (hostCapabilities rules.text project hostId host)
    turn.resource.resourceType).2

/-- A component is placed in a group only when it is compatible with that group alone; and it is
placed whenever it is compatible with the host and with a group that has room. -/
structure PcBuildTurn.PlacedRight (turn : PcBuildTurn) : Prop where
  sound : ∀ allocation group, turn.outcome.allocation = some allocation →
    turn.outcome.status = .compatible → group ∈ turn.validGroups rules project hostId host →
    group.id = allocation.groupId → turn.groupStatus rules project hostId host group = .compatible
  complete : turn.hostStatus rules project hostId host = .compatible →
    ∀ group ∈ turn.validGroups rules project hostId host,
      turn.groupStatus rules project hostId host group = .compatible →
      hasRoom turn.state.occupancy turn.resource group = true →
      turn.outcome.allocation.isSome = true

/-- A turn that the project allows: some of the components assigned before it are in place. -/
structure PcBuildTurn.Possible (turn : PcBuildTurn) : Prop where
  inPlace : ∃ before a after, plannedOrder rules.text project host hostId = before ++ a :: after ∧
    itemLookup project.items a.itemId = some turn.component ∧
    (turn.state.processedAssignments.map (·.itemId)).Sublist (before.map (·.itemId))
  resource : pcBuildResourceDefinition rules.text turn.component
    (hostMotherboard rules.text project hostId host)
    (hostCapabilities rules.text project hostId host) = some turn.resource
  groups : turn.resource.groups = some turn.groups

/-- The groups of the filter are those that the evaluation accepts: every valid group that lists the
interface of storage, and its form factor by any of its names, passes the filter; every group of the
family of a card accepts it; and when the evaluation takes the card for an optional module that the
planner does not, every valid group is of its family. -/
structure PcBuildTurn.FilterFits (turn : PcBuildTurn) : Prop where
  storage : turn.resource.resourceType = .storage →
    ∀ group ∈ turn.validGroups rules project hostId host,
      StorageAccepts rules turn.component.requirements group → group ∈ turn.groups
  expansion : turn.resource.resourceType = .expansion →
    optionalModuleGroupsFor rules.text (turn.metHost project host).capabilities turn.component =
      [] →
    ∀ group ∈ turn.groups,
      ExpansionAccepts rules (turn.metHost project host).capabilities turn.component.requirements
        (populatedCpuSockets turn.state.processedAssignments project.items) group
  optionalModule : turn.resource.resourceType = .expansion →
    optionalModuleGroupsFor rules.text (turn.metHost project host).capabilities turn.component ≠
      [] →
    ∀ group ∈ turn.validGroups rules project hostId host, group ∈ turn.groups

/-- **The filters of a project fit**: for every component that is assigned to the PC build,
whichever of those assigned before it are in place, when it is compatible with the build next to
them the groups of the filter are those that the evaluation accepts. -/
def FiltersFit : Prop :=
  ∀ turn : PcBuildTurn, turn.Possible rules project hostId host →
    turn.hostStatus rules project hostId host = .compatible →
    turn.FilterFits rules project hostId host

end

variable {project : Project} {hostId : String} {host : InventoryItem} {plan : AllocationPlan}
  {turn : PcBuildTurn} {group : ResourceGroup}

/-! ## Narrowing to one group -/

/-- The status against the whole host is that of the evaluation. -/
theorem hostStatus_eq :
    turn.hostStatus rules project hostId host =
      ((planningOf rules.text (evaluationOf rules) project hostId host).processedResult turn.state
        turn.component).status := by
  have hcapabilities : (turn.input project hostId host).capabilities =
      (turn.metHost project host).capabilities :=
    capabilities_inputOf host turn.component turn.state.processedAssignments project.items _
  rw [PcBuildTurn.hostStatus, ← hcapabilities]
  rfl

/-- Storage that is compatible with the host is compatible with a group that accepts it. -/
theorem groupStatus_storage (htype : turn.resource.resourceType = .storage)
    (hcomponent : turn.component.type = .storage)
    (hhost : turn.hostStatus rules project hostId host = .compatible) :
    (∃ group, StorageAccepts rules turn.component.requirements group) ∧
      ∀ group, turn.groupStatus rules project hostId host group = .compatible ↔
        StorageAccepts rules turn.component.requirements group := by
  have hfindings : ∀ capabilities,
      resourceFindings rules capabilities (turn.input project hostId host) =
        evaluateStorage rules capabilities.storageSlots turn.component.requirements :=
    fun capabilities => resourceFindings_storage hcomponent
  have hgraded : ∀ capabilities,
      Graded (resourceFindings rules capabilities (turn.input project hostId host)) :=
    fun capabilities => hfindings capabilities ▸ graded_evaluateStorage
  obtain ⟨hresource, hcase⟩ := (statusFor_findingsWith (hgraded _)).mp hhost
  rw [hfindings, onlyWarnings_evaluateStorage] at hresource
  obtain ⟨accepting, -, haccepts⟩ := hresource
  refine ⟨⟨accepting, haccepts⟩, fun group => ?_⟩
  have hnarrowed : (candidateHost (turn.metHost project host) turn.resource.resourceType
      group).capabilities.storageSlots = [group] := by
    rw [htype]
    rfl
  rw [PcBuildTurn.groupStatus, statusFor_findingsWith (hgraded _), hfindings, hnarrowed,
    onlyWarnings_evaluateStorage]
  constructor
  · rintro ⟨⟨other, hother, haccepts⟩, -⟩
    exact mem_singleton.mp hother ▸ haccepts
  · intro haccepts
    exact ⟨⟨group, mem_singleton.mpr rfl, haccepts⟩, hcase⟩

/-- A card that is compatible with the host is compatible with a group that accepts it. -/
theorem groupStatus_expansion (htype : turn.resource.resourceType = .expansion)
    (hcomponent : isExpansion turn.component.type = true)
    (hoptional : optionalModuleGroupsFor rules.text (turn.metHost project host).capabilities
      turn.component = [])
    (hhost : turn.hostStatus rules project hostId host = .compatible) :
    turn.groupStatus rules project hostId host group = .compatible ↔
      ExpansionAccepts rules (turn.metHost project host).capabilities turn.component.requirements
        (populatedCpuSockets turn.state.processedAssignments project.items) group := by
  have hwide : resourceFindings rules (turn.metHost project host).capabilities
      (turn.input project hostId host) = evaluateExpansion rules
        (turn.metHost project host).capabilities (turn.input project hostId host) :=
    resourceFindings_expansion hcomponent hoptional
  have hnarrowed : (candidateHost (turn.metHost project host) turn.resource.resourceType
      group).capabilities =
        { (turn.metHost project host).capabilities with expansionSlots := [group] } := by
    rw [htype]
    rfl
  have hnarrow : resourceFindings rules
      { (turn.metHost project host).capabilities with expansionSlots := [group] }
      (turn.input project hostId host) = evaluateExpansion rules
        { (turn.metHost project host).capabilities with expansionSlots := [group] }
        (turn.input project hostId host) :=
    resourceFindings_expansion hcomponent hoptional
  obtain ⟨hresource, hcase⟩ := (statusFor_findingsWith (hwide ▸ graded_evaluateExpansion)).mp hhost
  rw [hwide, evaluateExpansion, onlyWarnings_append] at hresource
  -- the power of all the cards does not depend on the slots
  have hpower : OnlyWarnings (evaluateExpansionPower rules
      { (turn.metHost project host).capabilities with expansionSlots := [group] }
      (turn.input project hostId host)) := hresource.2
  have hslots := @onlyWarnings_evaluateExpansionSlots rules group
    (turn.metHost project host).capabilities (turn.input project hostId host)
  rw [PcBuildTurn.input, populatedCpuSockets_inputOf] at hslots
  rw [PcBuildTurn.groupStatus, hnarrowed,
    statusFor_findingsWith (hnarrow ▸ graded_evaluateExpansion), hnarrow, evaluateExpansion,
    onlyWarnings_append]
  constructor
  · rintro ⟨⟨hgroup, -⟩, -⟩
    exact hslots.mp hgroup
  · intro haccepts
    exact ⟨⟨hslots.mpr haccepts, hpower⟩, hcase⟩

/-- A card that is evaluated as an optional module is compatible with any group of expansion slots
when it is compatible with the host. -/
theorem groupStatus_optionalModule (htype : turn.resource.resourceType = .expansion)
    (hcomponent : isExpansion turn.component.type = true)
    (hoptional : optionalModuleGroupsFor rules.text (turn.metHost project host).capabilities
      turn.component ≠ []) :
    turn.groupStatus rules project hostId host group = turn.hostStatus rules project hostId host := by
  have hkind : turn.component.type ≠ .cpu ∧ turn.component.type ≠ .ram ∧
      turn.component.type ≠ .storage := by
    refine ⟨?_, ?_, ?_⟩ <;>
    · intro heq
      rw [heq] at hcomponent
      exact nomatch hcomponent
  have hmodule : ∀ capabilities, optionalModuleGroupsFor rules.text capabilities turn.component ≠
      [] → resourceFindings rules capabilities (turn.input project hostId host) =
        evaluateOptionalModule rules capabilities turn.component := by
    intro capabilities hne
    have hinput : (turn.input project hostId host).component = turn.component := rfl
    simp [resourceFindings, hinput, hkind, hne]
  have hnarrowed : (candidateHost (turn.metHost project host) turn.resource.resourceType
      group).capabilities =
        { (turn.metHost project host).capabilities with expansionSlots := [group] } := by
    rw [htype]
    rfl
  have hnarrow : resourceFindings rules
      { (turn.metHost project host).capabilities with expansionSlots := [group] }
      (turn.input project hostId host) =
        evaluateOptionalModule rules (turn.metHost project host).capabilities turn.component :=
    hmodule { (turn.metHost project host).capabilities with expansionSlots := [group] } hoptional
  rw [PcBuildTurn.groupStatus, PcBuildTurn.hostStatus, findingsWith, findingsWith, hnarrowed,
    hnarrow, hmodule _ hoptional]

/-! ## Turns that place right -/

/-- Something is selected exactly when a group has room. -/
theorem isSome_selectPositions {occupancy : Occupancy} (h : resource.groups = some groups) :
    (selectPositions occupancy resource).isSome = true ↔
      ∃ group ∈ groups, hasRoom occupancy resource group = true := by
  rw [← isSome_map (f := (·.1)), selectPositions_groups h, isSome_map,
    find?_isSome]

/-- The group of an allocation that was selected is the first one with room. -/
theorem find?_of_allocation {occupancy : Occupancy} {allocation : CompatibilityAllocation}
    (h : resource.groups = some groups)
    (hallocation : (selectPositions occupancy resource).map
      (fun selected => (⟨resource.resourceType, selected.1, selected.2⟩ :
        CompatibilityAllocation)) = some allocation) :
    ∃ group, groups.find? (hasRoom occupancy resource) = some group ∧
      group.id = allocation.groupId := by
  obtain ⟨selected, hselected, rfl⟩ := map_eq_some_iff.mp hallocation
  have hid := @selectPositions_groups occupancy _ _ h
  rw [hselected, map_some] at hid
  obtain ⟨group, hgroup, hsame⟩ := map_eq_some_iff.mp hid.symm
  exact ⟨group, hgroup, hsame⟩

/-- The groups that the planner goes by are valid. -/
theorem mem_validGroups (hof : turn.Of rules project hostId host plan)
    (h : group ∈ turn.groups) : group ∈ turn.validGroups rules project hostId host := by
  have hdefinition := pcBuildResourceDefinition_eq_some hof.resource
  rw [hof.groups] at hdefinition
  exact hdefinition group h

/-- What the result of a turn of a plan says, which is one that the project allows. -/
theorem turnOutcome_of_plan (hhost : itemLookup project.items hostId = some host)
    (hkind : host.type = .pcBuild) (henabled : isHostCompatibilityEnabled project hostId = true)
    (hplan : planHostAllocations rules.text (evaluationOf rules) project hostId = .ok plan)
    (hof : turn.Of rules project hostId host plan) :
    turn.Possible rules project hostId host ∧
      TurnOutcome (planningOf rules.text (evaluationOf rules) project hostId host) turn.state
        turn.component turn.resource turn.outcome := by
  obtain ⟨before, a, after, horder, hbefore, houtcome, hcomponent⟩ := hof.reached
  have hisHost : isHost host = true := by
    rw [isHost, hkind]
    rfl
  rw [planHostAllocations, hhost] at hplan
  simp only [hisHost, Bool.not_true, Bool.false_eq_true, if_false, if_pos hkind] at hplan
  obtain ⟨placing, hplacing, hresult⟩ := bind_eq_ok.mp hplan
  obtain rfl := pure_eq_ok.mp hresult
  have hrun : (plannedOrder rules.text project host hostId).foldlM
      (pcBuildStep (planningOf rules.text (evaluationOf rules) project hostId host)
        (hostMotherboard rules.text project hostId host)
        (hostCapabilities rules.text project hostId host)) ⟨[], [], [], []⟩ = .ok placing :=
    hplacing
  rw [horder] at hrun
  obtain ⟨-, -, -, hinPlace⟩ := pcBuildLoop_results henabled hbefore
  exact ⟨⟨⟨before, a, after, horder, hcomponent, hinPlace⟩, hof.resource, hof.groups⟩,
    turnOutcome_of_run henabled hbefore hrun houtcome hcomponent hof.resource⟩

/-- **One turn** places right when its filter fits. -/
theorem placedRight_of_fits (hhost : itemLookup project.items hostId = some host)
    (hkind : host.type = .pcBuild) (henabled : isHostCompatibilityEnabled project hostId = true)
    (hplan : planHostAllocations rules.text (evaluationOf rules) project hostId = .ok plan)
    (hfits : FiltersFit rules project hostId host) (hof : turn.Of rules project hostId host plan) :
    turn.PlacedRight rules project hostId host := by
  obtain ⟨hpossible, houtcome⟩ := turnOutcome_of_plan hhost hkind henabled hplan hof
  rw [TurnOutcome, ← hostStatus_eq] at houtcome
  by_cases hstatus : turn.hostStatus rules project hostId host = .compatible
  case neg =>
    rw [if_neg hstatus] at houtcome
    refine ⟨fun allocation group hallocation => ?_, fun hcompatible => absurd hcompatible hstatus⟩
    rw [houtcome] at hallocation
    exact nomatch hallocation
  have hfits := hfits turn hpossible hstatus
  rw [if_pos hstatus] at houtcome
  constructor
  · intro allocation group hallocation hcompatible hgroup hid
    rw [houtcome.1] at hallocation
    obtain ⟨first, hfirst, hfirstId⟩ := find?_of_allocation hof.groups hallocation
    have hmem := mem_of_find?_eq_some hfirst
    have hsame : first = group := by
      obtain ⟨groups, hvalid⟩ := exists_validResourceGroups
        (hostCapabilities rules.text project hostId host) turn.resource.resourceType
      have hfirstValid := mem_validGroups hof hmem
      rw [PcBuildTurn.validGroups, hvalid] at hfirstValid hgroup
      exact eq_of_mem_validResourceGroups hgroup hfirstValid (hfirstId.trans hid.symm)
    rw [← hsame]
    rcases hof.kind with htype | htype
    · -- a group that passes the filter lists the interface and the form factor
      obtain ⟨hcomponent, hpasses⟩ := pcBuildResource_storage hof.resource htype hof.groups
      obtain ⟨⟨_, interface, formFactor, hinterface, hformFactor, -⟩, hgroupStatus⟩ :=
        groupStatus_storage htype hcomponent hstatus
      have hpass := hpasses first hmem
      rw [hinterface, hformFactor] at hpass
      simp only [isNone_some, Bool.false_or, Bool.and_eq_true] at hpass
      exact (hgroupStatus first).mpr ⟨interface, formFactor, hinterface, hformFactor, hpass.1,
        listsFormFactor_of_includes hpass.2⟩
    · have hcomponent := pcBuildResource_expansion hof.resource htype hof.groups
      by_cases hoptional : optionalModuleGroupsFor rules.text
          (turn.metHost project host).capabilities turn.component = []
      · exact (groupStatus_expansion htype hcomponent.1 hoptional hstatus).mpr
          (hfits.expansion htype hoptional first hmem)
      · exact (groupStatus_optionalModule htype hcomponent.1 hoptional).trans hstatus
  · intro hstatus group hgroup hgroupStatus hfree
    rw [houtcome.1, isSome_map, isSome_selectPositions hof.groups]
    refine ⟨group, ?_, hfree⟩
    rcases hof.kind with htype | htype
    · obtain ⟨hcomponent, -⟩ := pcBuildResource_storage hof.resource htype hof.groups
      have haccepts := ((groupStatus_storage htype hcomponent hstatus).2 group).mp hgroupStatus
      exact hfits.storage htype group hgroup haccepts
    · obtain ⟨hcomponent, hgroups⟩ := pcBuildResource_expansion hof.resource htype hof.groups
      by_cases hoptional : optionalModuleGroupsFor rules.text
          (turn.metHost project host).capabilities turn.component = []
      · -- a group that accepts the card is of its family, so it passes the filter
        have haccepts :=
          (groupStatus_expansion htype hcomponent hoptional hstatus).mp hgroupStatus
        rw [hgroups, List.mem_filter, Bool.or_eq_true, decide_eq_true_iff]
        rw [PcBuildTurn.validGroups, htype] at hgroup
        exact ⟨hgroup, Or.inr haccepts.2.1⟩
      · exact hfits.optionalModule htype hoptional group hgroup

/-- **PC builds.** With checks on, every component of a PC build that needs storage or expansion slots
is placed right when the filters of the project fit. -/
theorem planHostAllocations_placedRight (rules : EvaluationRules) (project : Project)
    (hostId : String) (host : InventoryItem) (plan : AllocationPlan)
    (hhost : itemLookup project.items hostId = some host) (hkind : host.type = .pcBuild)
    (henabled : isHostCompatibilityEnabled project hostId = true)
    (hfits : FiltersFit rules project hostId host)
    (hplan : planHostAllocations rules.text (evaluationOf rules) project hostId = .ok plan) :
    ∀ turn : PcBuildTurn, turn.Of rules project hostId host plan →
      turn.PlacedRight rules project hostId host :=
  fun _ hof => placedRight_of_fits hhost hkind henabled hplan hfits hof

/-! ## A card in a slot that is too short -/

/-- A motherboard with a slot of so many lanes before one of sixteen. -/
def mixedMotherboard (lanes : ℚ) : InventoryItem :=
  { bareItem 1 .motherboard with
    capabilities :=
      { cpu := ⟨none, []⟩, memory := none, storageSlots := [],
        expansionSlots := [laneSlot 1 lanes, laneSlot 2 16], optionalModuleSlots := [],
        maxExpansionPowerWatts := some 75 } }

/-- The motherboard of a PC build. -/
def motherboardAssignment (allocation : Option CompatibilityAllocation) : ComponentAssignment :=
  ⟨1, "pcBuild:1", "motherboard:1", .motherboard, "2024-01-01T00:00:00Z", allocation⟩

/-- The card of a PC build, which needs sixteen lanes. -/
def buildCardAssignment (allocation : Option CompatibilityAllocation) : ComponentAssignment :=
  ⟨2, "pcBuild:1", "gpu:1", .gpu, "2024-01-01T00:00:00Z", allocation⟩

/-- A PC build of the motherboard and the card. -/
def mixedProject (lanes : ℚ) : Project where
  items := ⟨[("pcBuild:1", bareItem 1 .pcBuild), ("motherboard:1", mixedMotherboard lanes),
    ("gpu:1", graphicsCard 1)], by simp, by
    simp only [forall_mem_cons]
    exact ⟨rfl, (rfl : _ = (bareItem 1 .motherboard).identity), rfl, fun _ h => nomatch h⟩⟩
  assignments := [motherboardAssignment none, buildCardAssignment none]
  compatibilityPolicy := ⟨[], []⟩

/-- The plan of the PC build: the card is compatible, in the first slot. -/
theorem exists_mixedPlan {lanes : ℚ} (hlanes : lanes ∈ [4, 16]) :
    ∃ plan outcome, planHostAllocations asciiRules (evaluationOf cardRules) (mixedProject lanes)
        "pcBuild:1" = .ok plan ∧
      plan.results[1]? = some outcome ∧
      outcome.allocation = some ⟨.expansion, some 1, [0]⟩ ∧ outcome.status = .compatible := by
  have hplans : ∀ lanes ∈ [4, 16], (planHostAllocations asciiRules (evaluationOf cardRules)
      (mixedProject lanes) "pcBuild:1").toOption.any (fun plan => plan.results[1]?.map (fun outcome =>
        (outcome.allocation, outcome.status)) =
          some (some ⟨.expansion, some 1, [0]⟩, .compatible)) = true := by
    decide +kernel
  obtain ⟨plan, hok, hresult⟩ := exists_ok_of_any (hplans lanes hlanes)
  obtain ⟨outcome, houtcome, heq⟩ := map_eq_some_iff.mp hresult
  obtain ⟨hallocation, hstatus⟩ := Prod.mk.inj heq
  exact ⟨plan, outcome, hok, houtcome, hallocation, hstatus⟩

theorem cardResource_mixed {lanes : ℚ} (hlanes : lanes ∈ [4, 16]) :
    (pcBuildResourceDefinition asciiRules (graphicsCard 1)
      (hostMotherboard asciiRules (mixedProject lanes) "pcBuild:1" (bareItem 1 .pcBuild))
      (hostCapabilities asciiRules (mixedProject lanes) "pcBuild:1" (bareItem 1 .pcBuild))).map
        (fun resource => (resource.resourceType, resource.groups)) =
      some (.expansion, some [laneSlot 1 lanes, laneSlot 2 16]) := by
  revert lanes
  decide +kernel

/-- What the evaluation of the card reads next to some components. -/
def mixedInput (placed : List String) : EvaluationInput :=
  ⟨bareItem 1 .pcBuild, graphicsCard 1, placed, (mixedProject 16).items,
    isVerifiedMemoryLimitEnabled (mixedProject 16) "pcBuild:1"⟩

theorem incompatible_mixed :
    statusFor (findingsWith cardRules (mixedInput []).capabilities (mixedInput [])) ≠ .compatible := by
  decide +kernel

theorem accepts_mixed :
    optionalModuleGroupsFor asciiRules (mixedInput ["motherboard:1"]).capabilities (graphicsCard 1) =
        [] ∧
      ∀ group ∈ [laneSlot 1 16, laneSlot 2 16],
        ExpansionAccepts cardRules (mixedInput ["motherboard:1"]).capabilities
          (graphicsCard 1).requirements (mixedInput ["motherboard:1"]).populatedCpuSockets group := by
  simp only [ExpansionAccepts, ← statusFor_eq_compatible]
  decide +kernel

/-- With sixteen lanes in both slots the filter fits: without the motherboard the card is not
compatible with the build, and next to it both slots accept the card. -/
theorem filtersFit_mixed :
    FiltersFit cardRules (mixedProject 16) "pcBuild:1" (bareItem 1 .pcBuild) := by
  rintro turn ⟨⟨before, a, after, horder, hcomponent, hinPlace⟩, hresource, hgroups⟩ hstatus
  have hplanned : plannedOrder asciiRules (mixedProject 16) (bareItem 1 .pcBuild) "pcBuild:1" =
      [motherboardAssignment none, buildCardAssignment none] := by
    decide +kernel
  rw [show plannedOrder cardRules.text _ _ _ = _ from hplanned] at horder
  obtain ⟨rfl, rfl, rfl⟩ | ⟨rfl, rfl, rfl⟩ :
      (before = [] ∧ a = motherboardAssignment none ∧ after = [buildCardAssignment none]) ∨
      (before = [motherboardAssignment none] ∧ a = buildCardAssignment none ∧ after = []) := by
    rcases before with _ | ⟨first, _ | ⟨second, rest⟩⟩ <;> simp_all
  · -- the motherboard needs no slots
    have hmotherboard : turn.component = mixedMotherboard 16 := (some.inj hcomponent).symm
    rw [hmotherboard] at hresource
    rw [← some.inj hresource] at hgroups
    cases hgroups
  have hcard : turn.component = graphicsCard 1 := (some.inj hcomponent).symm
  rw [hcard] at hresource
  have hslots := (congrArg (Option.map _) hresource.symm).trans
    (cardResource_mixed (show 16 ∈ [4, 16] by decide))
  obtain ⟨htype, hslots⟩ := Prod.mk.inj (Option.some.inj hslots)
  replace hslots := Option.some.inj (hgroups.symm.trans hslots)
  -- the evaluation reads which assignments are in place only by their items
  have hinput : turn.input (mixedProject 16) "pcBuild:1" (bareItem 1 .pcBuild) =
      mixedInput (turn.state.processedAssignments.map (·.itemId)) := by
    rw [PcBuildTurn.input, hcard]
    rfl
  have hmet : (turn.metHost (mixedProject 16) (bareItem 1 .pcBuild)).capabilities =
      (turn.input (mixedProject 16) "pcBuild:1" (bareItem 1 .pcBuild)).capabilities :=
    (capabilities_inputOf ..).symm
  have hpopulated : populatedCpuSockets turn.state.processedAssignments (mixedProject 16).items =
      (turn.input (mixedProject 16) "pcBuild:1" (bareItem 1 .pcBuild)).populatedCpuSockets :=
    (populatedCpuSockets_inputOf ..).symm
  rw [PcBuildTurn.hostStatus, hmet, hinput] at hstatus
  rw [hinput] at hmet hpopulated
  rcases sublist_singleton.mp hinPlace with hnone | hone
  · rw [hnone] at hstatus
    exact absurd hstatus incompatible_mixed
  replace hone : turn.state.processedAssignments.map (·.itemId) = ["motherboard:1"] := hone
  rw [hone] at hmet hpopulated
  obtain ⟨hoptional, haccepts⟩ := accepts_mixed
  refine ⟨fun hstorage => ?_, fun _ _ => ?_, fun _ hmodule => absurd ?_ hmodule⟩
  · rw [htype] at hstorage
    cases hstorage
  · rwa [hmet, hpopulated, hcard, hslots]
  · rwa [hmet, hcard]

/-- The card is placed in the first slot, which accepts it. -/
theorem planHostAllocations_placedRight_mixed :
    ∃ plan outcome, planHostAllocations asciiRules (evaluationOf cardRules) (mixedProject 16)
        "pcBuild:1" = .ok plan ∧
      plan.results[1]? = some outcome ∧ outcome.allocation = some ⟨.expansion, some 1, [0]⟩ ∧
      FiltersFit cardRules (mixedProject 16) "pcBuild:1" (bareItem 1 .pcBuild) ∧
      ∀ turn : PcBuildTurn,
        turn.Of cardRules (mixedProject 16) "pcBuild:1" (bareItem 1 .pcBuild) plan →
        turn.PlacedRight cardRules (mixedProject 16) "pcBuild:1" (bareItem 1 .pcBuild) := by
  obtain ⟨plan, outcome, hplan, houtcome, hallocation, -⟩ := exists_mixedPlan (show 16 ∈ [4, 16] by decide)
  exact ⟨plan, outcome, hplan, houtcome, hallocation, filtersFit_mixed,
    planHostAllocations_placedRight cardRules (mixedProject 16) "pcBuild:1" (bareItem 1 .pcBuild) plan
      rfl rfl (by decide +kernel) filtersFit_mixed hplan⟩

/-- The card is placed in the slot of four lanes, which does not accept it. -/
theorem planHostAllocations_misplaced :
    ∃ plan, ∃ turn : PcBuildTurn,
      planHostAllocations asciiRules (evaluationOf cardRules) (mixedProject 4) "pcBuild:1" = .ok plan ∧
      isHostCompatibilityEnabled (mixedProject 4) "pcBuild:1" = true ∧
      turn.Of cardRules (mixedProject 4) "pcBuild:1" (bareItem 1 .pcBuild) plan ∧
      ¬ turn.PlacedRight cardRules (mixedProject 4) "pcBuild:1" (bareItem 1 .pcBuild) := by
  obtain ⟨plan, outcome, hplan, houtcome, hallocation, hstatus⟩ :=
    exists_mixedPlan (show 4 ∈ [4, 16] by decide)
  -- the turn of the card: the motherboard has been processed before it
  obtain ⟨state, hstate, hprocessed⟩ : ∃ state, [motherboardAssignment none].foldlM
      (pcBuildStep (planningOf asciiRules (evaluationOf cardRules) (mixedProject 4) "pcBuild:1"
          (bareItem 1 .pcBuild))
        (hostMotherboard asciiRules (mixedProject 4) "pcBuild:1" (bareItem 1 .pcBuild))
        (hostCapabilities asciiRules (mixedProject 4) "pcBuild:1" (bareItem 1 .pcBuild)))
      ⟨[], [], [], []⟩ = .ok state ∧ state.processedAssignments =
        [motherboardAssignment (some ⟨.motherboard, none, [0]⟩)] :=
    exists_ok_of_any (by decide +kernel)
  obtain ⟨resource, hresource, heq⟩ := map_eq_some_iff.mp (cardResource_mixed (show 4 ∈ [4, 16] by decide))
  obtain ⟨htype, hgroups⟩ := Prod.mk.inj heq
  refine ⟨plan, ⟨state, graphicsCard 1, resource, [laneSlot 1 4, laneSlot 2 16], outcome⟩, hplan,
    by decide +kernel, ⟨⟨[motherboardAssignment none], buildCardAssignment none, [], by
      decide +kernel, hstate, houtcome, rfl⟩, hresource, hgroups,
      Or.inr htype⟩, ?_⟩
  · intro hright
    have hvalid : laneSlot 1 4 ∈ (requiredGroups (hostCapabilities asciiRules (mixedProject 4)
        "pcBuild:1" (bareItem 1 .pcBuild)) .expansion).2 := by
      decide +kernel
    have hgroup := hright.sound _ (laneSlot 1 4) hallocation hstatus
      (by rw [PcBuildTurn.validGroups, htype]; exact hvalid) rfl
    simp only [PcBuildTurn.groupStatus, PcBuildTurn.metHost, PcBuildTurn.input, htype,
      hprocessed] at hgroup
    revert hgroup
    decide +kernel

end HomelabInventory.Compatibility
