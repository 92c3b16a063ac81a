import HomelabInventory.AllocationReplan
import HomelabInventory.GroupAcceptance

/-!
# The groups of a server accept what is planned in them

The planner of servers and network storage tries every valid group by evaluating a host narrowed to
that group. With checks on, what it plans in a group of storage or expansion slots is therefore
accepted by that group, also by the rules of the host that is not narrowed.
-/

namespace HomelabInventory.Compatibility

variable {rules : EvaluationRules} {project : Project} {hostId : String} {host : InventoryItem}
  {component : InventoryItem} {prior : List ComponentAssignment} {group : ResourceGroup}

/-! ## Narrowed servers -/

/-- The input of the evaluation of a component against one group of a host. -/
def narrowedInput (project : Project) (hostId : String) (host component : InventoryItem)
    (prior : List ComponentAssignment) (resourceType : ResourceType) (group : ResourceGroup) :
    EvaluationInput :=
  inputOf (candidateHost host resourceType group) component prior project.items
    (isVerifiedMemoryLimitEnabled project hostId)

/-- The evaluation of a component against one group of a server. -/
theorem candidateResult_status {resourceType : ResourceType} (hserver : host.type ≠ .pcBuild) :
    ((planningOf rules.text (evaluationOf rules) project hostId host).candidateResult component
        prior resourceType (some group)).status =
      statusFor (findingsWith rules (candidateHost host resourceType group).capabilities
        (narrowedInput project hostId host component prior resourceType group)) := by
  have htype : (candidateHost host resourceType group).type = host.type := by
    cases resourceType <;> rfl
  have hcapabilities :
      (narrowedInput project hostId host component prior resourceType group).capabilities =
        (candidateHost host resourceType group).capabilities := by
    rw [narrowedInput, capabilities_inputOf, effectiveHostForAssignment, if_pos (htype ▸ hserver)]
  conv_rhs => rw [← hcapabilities]
  rfl

/-- The resource that a component needs, read backwards. -/
theorem resourceTypeFor_cases {capabilities : HostCapabilities} {resourceType : ResourceType}
    (h : resourceTypeFor rules.text capabilities component = some resourceType) :
    (resourceType = .storage → component.type = .storage) ∧
      (resourceType = .expansion → isExpansion component.type = true ∧
        optionalModuleGroupsFor rules.text capabilities component = []) ∧
      (resourceType.isScalar = false → component.type ≠ .ram) := by
  unfold resourceTypeFor at h
  split at h
  · obtain rfl := Option.some.inj h
    exact ⟨nofun, nofun, nofun⟩
  · split at h
    · obtain rfl := Option.some.inj h
      exact ⟨nofun, nofun, nofun⟩
    · rename_i hram
      split at h
      · rename_i hstorage
        obtain rfl := Option.some.inj h
        exact ⟨fun _ => hstorage, nofun, fun _ => hram⟩
      · split at h
        · obtain rfl := Option.some.inj h
          exact ⟨nofun, nofun, fun _ => hram⟩
        · rename_i hoptional
          split at h
          · rename_i hexpansion
            obtain rfl := Option.some.inj h
            exact ⟨nofun, fun _ => ⟨hexpansion, not_not.mp hoptional⟩, fun _ => hram⟩
          · exact nomatch h

/-- A group of storage slots in which storage is compatible accepts it. -/
theorem storageAccepts_of_compatible (hserver : host.type ≠ .pcBuild)
    (htype : component.type = .storage)
    (h : ((planningOf rules.text (evaluationOf rules) project hostId host).candidateResult component
      prior .storage (some group)).status = .compatible) :
    StorageAccepts rules component.requirements group := by
  rw [candidateResult_status hserver] at h
  have hfindings : resourceFindings rules (candidateHost host .storage group).capabilities
      (narrowedInput project hostId host component prior .storage group) =
        evaluateStorage rules [group] component.requirements :=
    resourceFindings_storage htype
  obtain ⟨honly, -⟩ := (statusFor_findingsWith (hfindings ▸ graded_evaluateStorage)).mp h
  rw [hfindings, onlyWarnings_evaluateStorage] at honly
  obtain ⟨accepting, hmem, haccepts⟩ := honly
  exact List.mem_singleton.mp hmem ▸ haccepts

/-- A group of expansion slots in which a card is compatible accepts it. -/
theorem expansionAccepts_of_compatible (hserver : host.type ≠ .pcBuild)
    (htype : isExpansion component.type = true)
    (hoptional : optionalModuleGroupsFor rules.text host.capabilities component = [])
    (h : ((planningOf rules.text (evaluationOf rules) project hostId host).candidateResult component
      prior .expansion (some group)).status = .compatible) :
    ExpansionAccepts rules host.capabilities component.requirements
      (populatedCpuSockets prior project.items) group := by
  rw [candidateResult_status hserver] at h
  have hfindings : resourceFindings rules (candidateHost host .expansion group).capabilities
      (narrowedInput project hostId host component prior .expansion group) =
        evaluateExpansion rules { host.capabilities with expansionSlots := [group] }
          (narrowedInput project hostId host component prior .expansion group) :=
    resourceFindings_expansion htype hoptional
  obtain ⟨honly, -⟩ := (statusFor_findingsWith (hfindings ▸ graded_evaluateExpansion)).mp h
  rw [hfindings, evaluateExpansion, onlyWarnings_append] at honly
  have haccepts := onlyWarnings_evaluateExpansionSlots.mp honly.1
  rw [narrowedInput, populatedCpuSockets_inputOf] at haccepts
  exact haccepts

/-! ## Planned groups -/

/-- What a plan with checks on says about a group that a component was planned in: it is a valid
group of the host, the component is compatible with it alone, storage finds its interface and form
factor listed, and a card its interface family and nothing but warnings. -/
structure PlannedGroup (rules : EvaluationRules) (project : Project) (hostId : String)
    (host component : InventoryItem) (before : List ComponentAssignment)
    (resourceType : ResourceType) (group : ResourceGroup) : Prop where
  valid : group ∈ (requiredGroups host.capabilities resourceType).2
  alone : ∃ result, evaluateAssignmentCompatibility (evaluationOf rules)
      (candidateHost host resourceType group) component before project.items
      (isVerifiedMemoryLimitEnabled project hostId) = .ok result ∧ result.status = .compatible
  storage : resourceType = .storage → StorageAccepts rules component.requirements group
  expansion : resourceType = .expansion →
    ExpansionAccepts rules host.capabilities component.requirements
      (populatedCpuSockets before project.items) group

/-- **Planned groups accept what is planned in them.** On a server or network storage with checks on,
an allocation that names a group names a valid group of its resource in which the component is
compatible; storage slots list its interface and form factor, and expansion slots its interface
family, with nothing but warnings about the card. -/
theorem planHostAllocations_accepted (rules : EvaluationRules) (project : Project)
    (hostId : String) (host : InventoryItem) (plan : AllocationPlan)
    (hids : (project.assignments.map (·.id)).Nodup)
    (hhost : itemLookup project.items hostId = some host)
    (hkind : host.type = .server ∨ host.type = .nas)
    (henabled : isHostCompatibilityEnabled project hostId = true)
    (hplan : planHostAllocations rules.text (evaluationOf rules) project hostId = .ok plan) :
    ∀ before a after, plan.assignments = before ++ a :: after →
      ∀ allocation groupId, a.allocation = some allocation → allocation.groupId = some groupId →
        ∃ component group, itemLookup project.items a.itemId = some component ∧
          group.id = some groupId ∧
          PlannedGroup rules project hostId host component before allocation.resourceType group := by
  have hserver : host.type ≠ .pcBuild := by
    rcases hkind with h | h <;> rw [h] <;> decide
  have hisHost : isHost host = true := by
    rcases hkind with h | h <;> rw [isHost, h] <;> rfl
  rw [planHostAllocations, hhost] at hplan
  simp only [hisHost, Bool.not_true, Bool.false_eq_true, if_false, if_neg hserver] at hplan
  intro before a after hassignments allocation groupId hallocation hgroupId
  obtain ⟨component, hcomponent, hplace, hstatus⟩ :=
    planServerAllocations_seated (nodup_plannedOrder hids) hplan before a after hassignments
      allocation hallocation
  obtain ⟨size, hdemand, hfound, hmatches⟩ := hplace
  have hscalar : allocation.resourceType.isScalar = false := by
    -- an allocation of processors or memory names no group
    by_contra hscalar
    rw [Bool.not_eq_false] at hscalar
    simp only [allocationMatchesResource, hscalar, if_true, Bool.and_eq_true,
      decide_eq_true_iff] at hmatches
    rw [hmatches.1.1.1.2.1] at hgroupId
    cases hgroupId
  obtain ⟨group, hgroup⟩ := Option.isSome_iff_exists.mp (hfound hscalar)
  have hfind := hgroup
  rw [HostPlanning.ownGroup, if_neg (by simp [hscalar])] at hfind
  have hid : group.id = allocation.groupId := by simpa using List.find?_some hfind
  have hcompatible := hstatus henabled hscalar
  rw [HostPlanning.ownResult, hgroup] at hcompatible
  obtain ⟨hstorage, hexpansion, hram⟩ := resourceTypeFor_cases (Prod.mk.inj hdemand).1
  refine ⟨component, group, hcomponent, hid.trans hgroupId, ?_⟩
  constructor
  · exact List.mem_of_find?_eq_some hfind
  · refine ⟨_, evaluate_eq_ok.mpr ⟨?_, rfl⟩, ?_⟩
    · simp [readsMissingMemory, hram hscalar]
    · have hitems : before.map (·.itemId) = (before.map (·.clean)).map (·.itemId) :=
        map_itemId_clean before
      rw [hitems]
      exact hcompatible
  · intro htype
    rw [htype] at hcompatible
    exact storageAccepts_of_compatible hserver (hstorage htype) hcompatible
  · intro htype
    rw [htype] at hcompatible
    obtain ⟨hcard, hoptional⟩ := hexpansion htype
    have haccepts := expansionAccepts_of_compatible hserver hcard hoptional hcompatible
    have hpopulated : populatedCpuSockets (before.map (·.clean)) project.items =
        populatedCpuSockets before project.items := by
      rw [populatedCpuSockets, populatedCpuSockets, assignedComponents, assignedComponents,
        List.filterMap_map]
      rfl
    rw [hpopulated] at haccepts
    exact haccepts

/-! ## A slot without a power limit -/

/-- Rules for a project of expansion cards. -/
def cardRules : EvaluationRules where
  text := asciiRules
  numberText := fun value => toString value.num
  moduleKeyFitsSocket := fun key socket => key == socket
  usbGenerationAtLeast := fun _ _ => none
  evaluateCpu := fun _ _ => []
  evaluateMemory := fun _ _ => []
  evaluateCpuCooler := fun _ _ => []
  evaluatePowerSupply := fun _ _ => []

/-- A slot for cards whose power limit is not recorded. -/
def unlimitedSlot (id : ℚ) : ResourceGroup where
  id := some id
  key := some "slot"
  label := none
  count := some 1
  interfaces := []
  formFactors := []
  interfaceFamily := some "pcie"
  acceptedModuleKinds := []
  pcieGeneration := some 3
  mechanicalLanes := some 16
  electricalLanes := some 16
  acceptedHeights := ["full-height"]
  maxSlotWidth := some 1

/-- A graphics card of 25 W. -/
def graphicsCard (id : ℕ) : InventoryItem :=
  { bareItem id .gpu with
    requirements :=
      { interface := none, formFactor := none, interfaceFamily := some "pcie",
        slotWidth := some 1, ecc := none, pcieGeneration := some 3, connectorLanes := some 16,
        height := some "full-height", powerWatts := some 25 } }

/-- A slot with so many lanes. -/
def laneSlot (id lanes : ℚ) : ResourceGroup :=
  { unlimitedSlot id with
    mechanicalLanes := some lanes
    electricalLanes := some lanes
    maxPowerWatts := some 75 }

/-- A server with some slots and a power budget for its cards. -/
def budgetedServer (slots : List ResourceGroup) : InventoryItem :=
  { bareItem 1 .server with
    capabilities :=
      { cpu := ⟨none, []⟩, memory := none, storageSlots := [], expansionSlots := slots,
        optionalModuleSlots := [], maxExpansionPowerWatts := some 75 } }

/-- The server with the card. -/
def budgetedProject (slots : List ResourceGroup) : Project where
  items := ⟨[("server:1", budgetedServer slots), ("gpu:1", graphicsCard 1)], by simp, by
    intro entry hentry
    rcases List.mem_cons.mp hentry with rfl | hentry
    · exact (rfl : _ = (bareItem 1 .server).identity)
    · rw [List.mem_singleton.mp hentry]
      rfl⟩
  assignments := [⟨1, "server:1", "gpu:1", .gpu, "2024-01-01T00:00:00Z", none⟩]
  compatibilityPolicy := ⟨[], []⟩

/-- The first slot refuses the card; the one that the card is planned in accepts it. -/
theorem planHostAllocations_accepted_budgeted :
    ¬ OnlyWarnings (evaluateExpansionGroup cardRules (laneSlot 1 4) (graphicsCard 1).requirements 0) ∧
    ∃ component group, itemLookup (budgetedProject [laneSlot 1 4, unlimitedSlot 2]).items "gpu:1" =
        some component ∧
      group.id = some 2 ∧
      PlannedGroup cardRules (budgetedProject [laneSlot 1 4, unlimitedSlot 2]) "server:1"
        (budgetedServer [laneSlot 1 4, unlimitedSlot 2]) component [] .expansion group := by
  obtain ⟨plan, hplan, hassignments⟩ : ∃ plan, planHostAllocations asciiRules
      (evaluationOf cardRules) (budgetedProject [laneSlot 1 4, unlimitedSlot 2]) "server:1" =
        .ok plan ∧
      plan.assignments = [⟨1, "server:1", "gpu:1", .gpu, "2024-01-01T00:00:00Z",
        some ⟨.expansion, some 2, [0]⟩⟩] := exists_ok_of_any (by decide +kernel)
  refine ⟨?_, planHostAllocations_accepted cardRules
    (budgetedProject [laneSlot 1 4, unlimitedSlot 2]) "server:1" _ plan (List.nodup_singleton _) rfl
    (Or.inl rfl) (by decide +kernel) hplan [] _ [] hassignments _ 2 rfl rfl⟩
  rw [← statusFor_eq_compatible]
  decide +kernel

/-- The card is planned in a slot that without the budget of the host is not known to power it. -/
theorem planHostAllocations_unlimited :
    isHostCompatibilityEnabled (budgetedProject [unlimitedSlot 1]) "server:1" = true ∧
      (∃ plan, planHostAllocations asciiRules (evaluationOf cardRules)
          (budgetedProject [unlimitedSlot 1]) "server:1" = .ok plan ∧
        plan.assignments = [⟨1, "server:1", "gpu:1", .gpu, "2024-01-01T00:00:00Z",
          some ⟨.expansion, some 1, [0]⟩⟩]) ∧
      ¬ OnlyWarnings (evaluateExpansionGroup cardRules (unlimitedSlot 1)
        (graphicsCard 1).requirements 0) := by
  refine ⟨by decide +kernel, exists_ok_of_any (by decide +kernel), ?_⟩
  rw [← statusFor_eq_compatible]
  decide +kernel

end HomelabInventory.Compatibility
