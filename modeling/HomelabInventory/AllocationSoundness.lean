import HomelabInventory.PcBuildPasses
import HomelabInventory.Scalar
import HomelabInventory.SeatedAllocations
import Mathlib.Data.List.Pairwise

/-!
# Allocations are sound

Planning a host returns its assignments with allocations that never overlap and
always lie in slots the host has, exactly when no ECC memory module is evaluated
against a host without a memory section.
-/

namespace HomelabInventory.Compatibility

open List Option

/-! ## Servers -/

section

variable {planning : HostPlanning}

/-- What a component of a server needs. -/
def HostPlanning.serverDemand (planning : HostPlanning) (component : InventoryItem) :
    Option (ResourceType × ℚ) :=
  match planning.demand component with
  | (some resourceType, some size) => some (resourceType, size)
  | _ => none

/-- The positions a server has of its own. -/
def serverCount (capabilities : HostCapabilities) (resourceType : ResourceType) : Option ℚ :=
  if resourceType.isScalar then scalarCapacity capabilities resourceType else none

/-- The allocation fits the server. -/
def HostPlanning.ServerFits (planning : HostPlanning) :
    ComponentAssignment → CompatibilityAllocation → Prop :=
  AllocationFits planning.items planning.serverDemand
    (Offers planning.host.capabilities (serverCount planning.host.capabilities))

variable {resourceType : ResourceType}

theorem isInteger_of_mem_requiredGroups {capabilities : HostCapabilities} {group : ResourceGroup}
    (h : group ∈ (requiredGroups capabilities resourceType).2) :
    ∃ count, group.count = some count ∧ isInteger count = true := by
  have hvalid : ∃ groups, group ∈ validResourceGroups groups := by
    unfold requiredGroups at h
    split at h
    · exact ⟨_, h⟩
    · exact ⟨_, h⟩
    · exact ⟨_, h⟩
    · exact nomatch h
  obtain ⟨groups, hmem⟩ := hvalid
  have hcheck := (mem_filter.mp hmem).2
  split at hcheck
  · exact nomatch hcheck
  · rw [Bool.and_eq_true] at hcheck
    have hcount := hcheck.2
    cases hgroup : group.count with
    | none =>
      rw [hgroup] at hcount
      exact nomatch hcount
    | some count =>
      rw [hgroup, isCount, Bool.and_eq_true] at hcount
      exact ⟨count, rfl, hcount.1⟩

/-- The size a component needs is never zero. -/
theorem demand_size_ne_zero {component : InventoryItem} {size : ℚ}
    (h : planning.demand component = (some resourceType, some size)) : size ≠ 0 := by
  have hsize := (Prod.mk.inj h).2
  have hfilter := (filter_eq_some_iff.mp hsize).2
  simpa using hfilter

/-- What matches an empty host occupies positions below the limit. -/
theorem occupies_of_matches {allocation : CompatibilityAllocation}
    {group : Option ResourceGroup} {size : ℚ} {capacity : Option ℚ} (hsize : size ≠ 0)
    (hlimit : ∀ limit, (if resourceType.isScalar then capacity else group.bind (·.count)) =
      some limit → isInteger limit = true)
    (h : allocationMatchesResource allocation resourceType group size [] capacity = true) :
    ∃ limit, (if resourceType.isScalar then capacity else group.bind (·.count)) = some limit ∧
      Occupies allocation.positions size limit := by
  simp only [allocationMatchesResource, Bool.and_eq_true, decide_eq_true_iff] at h
  obtain ⟨⟨⟨-, hconsecutive⟩, hbelow⟩, -⟩ := h
  split at hbelow
  · cases hbelow
  · rename_i limit hcount
    exact ⟨limit, hcount, occupies_of_consecutive hconsecutive hsize (hlimit limit hcount) hbelow⟩

theorem fits_of_seated {turn : Turn} {allocation : CompatibilityAllocation}
    (h : planning.Seated turn allocation) : planning.ServerFits turn.assignment allocation := by
  obtain ⟨component, hcomponent, ⟨size, hdemand, hfound, hmatches⟩, -⟩ := h
  have hsize := demand_size_ne_zero hdemand
  have hneeds : planning.serverDemand component = some (allocation.resourceType, size) := by
    rw [HostPlanning.serverDemand, hdemand]
  by_cases hscalar : allocation.resourceType.isScalar = true
  · have hgroup : allocation.groupId = none := by
      have hmatch := hmatches
      simp only [allocationMatchesResource, hscalar, if_true, Bool.and_eq_true,
        decide_eq_true_iff] at hmatch
      exact hmatch.1.1.1.2.1
    rw [if_pos hscalar] at hmatches
    obtain ⟨limit, hlimit, hoccupies⟩ := occupies_of_matches hsize (fun limit hlimit => by
      rw [if_pos hscalar, scalarCapacity] at hlimit
      have hcheck := (filter_eq_some_iff.mp hlimit).2
      rw [Bool.and_eq_true] at hcheck
      exact hcheck.1) hmatches
    rw [if_pos hscalar] at hlimit
    refine ⟨component, size, limit, hcomponent, hneeds, Or.inl ⟨hgroup, ?_⟩, hoccupies⟩
    rw [serverCount, if_pos hscalar, hlimit]
  · obtain ⟨group, hown⟩ := isSome_iff_exists.mp (hfound (Bool.not_eq_true _ ▸ hscalar))
    have hfind := hown
    rw [HostPlanning.ownGroup, if_neg hscalar] at hfind
    have hmem := mem_of_find?_eq_some hfind
    have hid : group.id = allocation.groupId := by
      simpa using find?_some hfind
    obtain ⟨count, hcount, hinteger⟩ := isInteger_of_mem_requiredGroups hmem
    rw [hown] at hmatches
    obtain ⟨limit, hlimit, hoccupies⟩ := occupies_of_matches hsize (fun limit hlimit => by
      rw [if_neg hscalar, bind_some, hcount] at hlimit
      exact Option.some.inj hlimit ▸ hinteger) hmatches
    rw [if_neg hscalar] at hlimit
    exact ⟨component, size, limit, hcomponent, hneeds, Or.inr ⟨group, hmem, hid, hlimit⟩, hoccupies⟩

theorem map_assignment_turns (prior l : List ComponentAssignment) :
    (turns prior l).map (·.1.assignment) = l.map (·.clean) := by
  induction l generalizing prior with
  | nil => rfl
  | cons a rest ih => rw [turns, map_cons, map_cons, ih]

/-- The plan of a server is sound. -/
theorem planServerAllocations_sound {l : List ComponentAssignment} {plan : AllocationPlan}
    (hids : (l.map (·.id)).Nodup) (h : planServerAllocations planning l = .ok plan) :
    SoundPlan planning.ServerFits l plan.assignments := by
  rw [planServerAllocations_assignments hids h]
  refine ⟨?_, ?_, ?_⟩
  · have hcleaned : ∀ entry ∈ planning.placer.plan (turns [] l),
        (Turn.assigned entry).clean = entry.1.assignment := by
      intro entry hentry
      have hmem := mem_map_of_mem (f := Prod.fst) hentry
      rw [planning.placer.map_fst_plan] at hmem
      have hturn := mem_map_of_mem (f := Turn.assignment) hmem
      rw [List.map_map] at hturn
      have hclean : entry.1.assignment ∈ l.map (·.clean) := map_assignment_turns [] l ▸ hturn
      obtain ⟨a, -, ha⟩ := mem_map.mp hclean
      rw [Turn.assigned, ← ha]
      rfl
    have hturns := congrArg (List.map Turn.assignment) (planning.placer.map_fst_plan (turns [] l))
    rw [List.map_map, List.map_map] at hturns
    rw [List.map_map, ← map_assignment_turns [] l]
    exact (map_congr_left hcleaned).trans hturns
  · rw [pairwise_map]
    exact planning.placer.plan_packed (turns [] l)
  · intro a ha allocation hallocation
    obtain ⟨entry, hentry, rfl⟩ := mem_map.mp ha
    exact @Placer.plan_fits _ _ _ _ planning.placer
      (fun turn allocation => planning.ServerFits turn.assignment allocation)
      (fun _ _ h => fits_of_seated (seated_of_keeps h))
      (fun _ _ h => fits_of_seated (seated_of_candidate h)) (turns [] l) entry hentry
      allocation hallocation

end

/-! ## Hosts -/

section

variable (rules : TextRules) (project : Project) (hostId : String) (host : InventoryItem)

/-- The motherboard of a host. -/
def hostMotherboard : Option InventoryItem :=
  assignedItemOfType (plannedOrder rules project host hostId) project.items .motherboard none

/-- What a host offers: a PC build what its motherboard offers. -/
def hostCapabilities : HostCapabilities :=
  (effectiveHostForAssignment host (plannedOrder rules project host hostId) project.items
    (hostMotherboard rules project hostId host)).capabilities

/-- The resource a component needs in a host, and the number of positions. -/
def hostDemand (component : InventoryItem) : Option (ResourceType × ℚ) :=
  if host.type = .pcBuild then
    (pcBuildResourceDefinition rules component (hostMotherboard rules project hostId host)
      (hostCapabilities rules project hostId host)).map
        fun resource => (resource.resourceType, resource.size)
  else
    let resourceType := resourceTypeFor rules host.capabilities component
    match resourceType, (allocationSize component resourceType).filter fun size => size != 0 with
    | some resourceType, some size => some (resourceType, size)
    | _, _ => none

/-- The positions a host has of its own. -/
def hostCount : ResourceType → Option ℚ :=
  if host.type = .pcBuild then
    pcBuildCount (hostMotherboard rules project hostId host)
      (hostCapabilities rules project hostId host)
  else serverCount host.capabilities

/-- The plan of a host is sound: it has exactly the assignments of the host, each
once; two allocations in one group have no position in common; every allocation
is a run of as many positions as its component needs, within what the host offers. -/
structure SoundHostPlan (plan : AllocationPlan) : Prop where
  same : (plan.assignments.map (·.clean)).Perm ((hostAssignments project hostId).map (·.clean))
  ids : (plan.assignments.map (·.id)).Nodup
  disjoint : ∀ a ∈ plan.assignments, ∀ b ∈ plan.assignments, a.id ≠ b.id →
    ∀ x y, a.allocation = some x → b.allocation = some y →
      x.resourceType = y.resourceType → x.groupId = y.groupId → x.positions.Disjoint y.positions
  fits : ∀ a ∈ plan.assignments, ∀ allocation, a.allocation = some allocation →
    AllocationFits project.items (hostDemand rules project hostId host)
      (Offers (hostCapabilities rules project hostId host) (hostCount rules project hostId host))
      a allocation

/-- Every ECC memory module is planned next to a memory section: that of the
server, or that of the first motherboard assigned before it (of the build itself,
when there is none). -/
def EccReadable : Prop :=
  ∀ before a after, plannedOrder rules project host hostId = before ++ a :: after →
    ∀ component, itemLookup project.items a.itemId = some component →
      component.type = .ram → component.requirements.ecc = some true →
        (effectiveHostForAssignment host before project.items
          (some component)).capabilities.memory ≠ none

end

variable {rules : TextRules} {evaluation : Evaluation} {project : Project} {hostId : String}
  {host : InventoryItem}

theorem sortBy_perm (cmp : ComponentAssignment → ComponentAssignment → Ordering)
    (l : List ComponentAssignment) : (sortBy cmp l).Perm l :=
  perm_insertionSort _ l

theorem plannedOrder_perm :
    (plannedOrder rules project host hostId).Perm (hostAssignments project hostId) := by
  rw [plannedOrder]
  split
  · exact sortBy_perm _ _
  · exact sortBy_perm _ _

theorem nodup_plannedOrder (hids : (project.assignments.map (·.id)).Nodup) :
    ((plannedOrder rules project host hostId).map (·.id)).Nodup := by
  rw [(plannedOrder_perm.map _).nodup_iff]
  exact hids.sublist (filter_sublist.map _)

/-- A sound plan of the assignments in order is a sound plan of the host. -/
theorem SoundHostPlan.of_soundPlan {plan : AllocationPlan}
    (hids : (project.assignments.map (·.id)).Nodup)
    (h : SoundPlan (AllocationFits project.items (hostDemand rules project hostId host)
      (Offers (hostCapabilities rules project hostId host) (hostCount rules project hostId host)))
      (plannedOrder rules project host hostId) plan.assignments) :
    SoundHostPlan rules project hostId host plan := by
  have hplanned : (plan.assignments.map (·.id)).Nodup := by
    rw [map_id_of_clean h.same]
    exact nodup_plannedOrder hids
  refine ⟨?_, hplanned, ?_, h.fits⟩
  · rw [h.same]
    exact plannedOrder_perm.map _
  · intro a ha b hb hne x y hx hy htype hgroup
    have hsymm : Std.Symm fun a b : ComponentAssignment => a.cells.Disjoint b.cells :=
      ⟨fun _ _ hab => hab.symm⟩
    have hcells : a.cells.Disjoint b.cells :=
      h.disjoint.forall ha hb fun heq => hne (congrArg _ heq)
    simp only [ComponentAssignment.cells, hx, hy, map_some, getD_some] at hcells
    intro position hposition hmem
    refine hcells (mem_map_of_mem hposition) ?_
    rw [htype, hgroup]
    exact mem_map_of_mem hmem

/-! ## When planning fails -/

theorem readsMissingMemory_eq_false {met component : InventoryItem} :
    readsMissingMemory met component = false ↔
      (component.type = .ram → component.requirements.ecc = some true →
        met.capabilities.memory ≠ none) := by
  cases hmemory : met.capabilities.memory <;> simp [readsMissingMemory, hmemory]

/-- The planner of a server reads every component exactly when the ECC memory is
readable. -/
theorem eccReadable_server (hserver : host.type ≠ .pcBuild) :
    (∀ a ∈ plannedOrder rules project host hostId,
        Readable (planningOf rules evaluation project hostId host) a) ↔
      EccReadable rules project hostId host := by
  have heffective : ∀ before component,
      effectiveHostForAssignment host before project.items (some component) = host :=
    fun before component => if_pos hserver
  constructor
  · intro h before a after hsplit component hcomponent
    have ha : a ∈ plannedOrder rules project host hostId := by
      rw [hsplit]
      exact mem_append_right _ mem_cons_self
    rw [heffective]
    exact readsMissingMemory_eq_false.mp (h a ha component hcomponent)
  · intro h a ha component hcomponent
    obtain ⟨before, after, hsplit⟩ := append_of_mem ha
    have hread := h before a after hsplit component hcomponent
    rw [heffective] at hread
    exact readsMissingMemory_eq_false.mpr hread

/-- The planner of a PC build reads every component exactly when the ECC memory
is readable. -/
theorem eccReadable_pcBuild :
    PcBuildReadable (planningOf rules evaluation project hostId host) []
        (plannedOrder rules project host hostId) ↔
      EccReadable rules project hostId host := by
  constructor
  · intro h before a after hsplit component hcomponent
    exact readsMissingMemory_eq_false.mp (h before a after hsplit component hcomponent)
  · intro h before a after hsplit component hcomponent
    exact readsMissingMemory_eq_false.mpr (h before a after hsplit component hcomponent)

/-- A host is planned without a failure exactly when its ECC memory is readable. -/
theorem planHostAllocations_ok_iff (hids : (project.assignments.map (·.id)).Nodup)
    (hhost : itemLookup project.items hostId = some host) (hkind : isHost host = true) :
    (∃ plan, planHostAllocations rules evaluation project hostId = .ok plan) ↔
      EccReadable rules project hostId host := by
  have hplan : planHostAllocations rules evaluation project hostId =
      if host.type = .pcBuild then
        planPcBuildAllocations (planningOf rules evaluation project hostId host)
          (plannedOrder rules project host hostId)
      else planServerAllocations (planningOf rules evaluation project hostId host)
        (plannedOrder rules project host hostId) := by
    rw [planHostAllocations, hhost]
    simp [hkind]
  rw [hplan]
  by_cases hpc : host.type = .pcBuild
  · have hstart : MotherboardInvariant (planningOf rules evaluation project hostId host) []
        ⟨[], [], [], []⟩ := ⟨rfl, fun _ _ hcell => nomatch hcell⟩
    rw [if_pos hpc, ← @eccReadable_pcBuild rules evaluation, ← pcBuildLoop_ok_iff hstart]
    constructor
    · rintro ⟨plan, hrun⟩
      obtain ⟨placing, hplacing, -⟩ := bind_eq_ok.mp hrun
      exact ⟨placing, hplacing⟩
    · rintro ⟨placing, hplacing⟩
      exact ⟨_, bind_eq_ok.mpr ⟨placing, hplacing, rfl⟩⟩
  · rw [if_neg hpc, ← @eccReadable_server rules evaluation _ _ _ hpc]
    exact planServerAllocations_ok_iff hpc (nodup_plannedOrder hids)

/-- What planning a host returns is sound. -/
theorem planHostAllocations_sound {plan : AllocationPlan}
    (hids : (project.assignments.map (·.id)).Nodup)
    (hhost : itemLookup project.items hostId = some host) (hkind : isHost host = true)
    (h : planHostAllocations rules evaluation project hostId = .ok plan) :
    SoundHostPlan rules project hostId host plan := by
  refine SoundHostPlan.of_soundPlan hids ?_
  rw [planHostAllocations, hhost] at h
  simp only [hkind, Bool.not_true, Bool.false_eq_true, if_false] at h
  split at h <;> rename_i hpc
  · obtain ⟨placing, hplacing, hplan⟩ := bind_eq_ok.mp h
    obtain rfl := pure_eq_ok.mp hplan
    have hstart : PcBuildInvariant (planningOf rules evaluation project hostId host)
        (hostMotherboard rules project hostId host) (hostCapabilities rules project hostId host)
        [] ⟨[], [], [], []⟩ :=
      ⟨⟨rfl, List.Pairwise.nil, fun _ ha => nomatch ha⟩, rfl⟩
    have hsound := (hstart.run hplacing).sound
    rw [nil_append] at hsound
    have hfits : (planningOf rules evaluation project hostId host).PcBuildFits
        (hostMotherboard rules project hostId host) (hostCapabilities rules project hostId host) =
        AllocationFits project.items (hostDemand rules project hostId host)
          (Offers (hostCapabilities rules project hostId host)
            (hostCount rules project hostId host)) := by
      have hdemand : (planningOf rules evaluation project hostId host).pcBuildDemand
          (hostMotherboard rules project hostId host) (hostCapabilities rules project hostId host) =
          hostDemand rules project hostId host := by
        funext component
        rw [hostDemand, if_pos hpc]
        rfl
      rw [HostPlanning.PcBuildFits, hdemand, hostCount, if_pos hpc]
      rfl
    exact hfits ▸ hsound
  · have hsound := planServerAllocations_sound (nodup_plannedOrder hids) h
    have hcapabilities : hostCapabilities rules project hostId host = host.capabilities := by
      rw [hostCapabilities, effectiveHostForAssignment, if_pos hpc]
    have hfits : (planningOf rules evaluation project hostId host).ServerFits =
        AllocationFits project.items (hostDemand rules project hostId host)
          (Offers (hostCapabilities rules project hostId host)
            (hostCount rules project hostId host)) := by
      have hdemand : (planningOf rules evaluation project hostId host).serverDemand =
          hostDemand rules project hostId host := by
        funext component
        rw [hostDemand, if_neg hpc]
        simp only [HostPlanning.serverDemand, HostPlanning.demand, planningOf]
        generalize resourceTypeFor rules host.capabilities component = resourceType
        generalize (allocationSize component resourceType).filter (fun size => size != 0) = size
        cases resourceType <;> cases size <;> rfl
      rw [HostPlanning.ServerFits, hdemand, hcapabilities, hostCount, if_neg hpc]
      rfl
    exact hfits ▸ hsound

/-- **Soundness of hardware allocation.** Planning a host returns its assignments
with allocations that overlap nowhere and fit, exactly when every ECC memory
module is planned next to a memory section. -/
theorem planHostAllocations_sound_iff (rules : TextRules) (evaluation : Evaluation)
    (project : Project) (hostId : String) (host : InventoryItem)
    (hids : (project.assignments.map (·.id)).Nodup)
    (hhost : itemLookup project.items hostId = some host) (hkind : isHost host = true) :
    (∃ plan, planHostAllocations rules evaluation project hostId = .ok plan ∧
        SoundHostPlan rules project hostId host plan) ↔
      EccReadable rules project hostId host := by
  rw [← @planHostAllocations_ok_iff rules evaluation _ _ _ hids hhost hkind]
  constructor
  · rintro ⟨plan, hplan, -⟩
    exact ⟨plan, hplan⟩
  · rintro ⟨plan, hplan⟩
    exact ⟨plan, hplan, planHostAllocations_sound hids hhost hkind hplan⟩

/-! ## A server with an ECC module -/

/-- ASCII case mapping and code point order. -/
def asciiRules : TextRules := ⟨String.toLower, compare, String.instTransOrd⟩

/-- An item without capabilities and requirements. -/
def bareItem (id : ℕ) (type : InventoryType) : InventoryItem where
  id := id
  key := none
  type := type
  subtype := none
  specs := ⟨none, none, none, none⟩
  optionalModuleKind := none
  requirements :=
    { interface := none, formFactor := none, interfaceFamily := none, slotWidth := none, ecc := none }
  capabilities :=
    { cpu := ⟨none, []⟩, memory := none, storageSlots := [], expansionSlots := [],
      optionalModuleSlots := [] }

/-- A memory module with error correction. -/
def eccModule : InventoryItem :=
  { bareItem 1 .ram with
    requirements :=
      { interface := none, formFactor := none, interfaceFamily := none, slotWidth := none,
        ecc := some true } }

/-- A server with an ECC module in it. -/
def eccProject (server : InventoryItem) (hserver : server.identity = "server:1") : Project where
  items := ⟨[("server:1", server), ("ram:1", eccModule)], by simp, by
    intro entry hentry
    rcases mem_cons.mp hentry with rfl | hentry
    · exact hserver.symm
    · rw [mem_singleton.mp hentry]
      rfl⟩
  assignments := [⟨1, "server:1", "ram:1", .ram, "2024-01-01T00:00:00Z", none⟩]
  compatibilityPolicy := ⟨[], []⟩

/-- A server with four memory slots. -/
def slottedServer : InventoryItem :=
  { bareItem 1 .server with
    capabilities :=
      { cpu := ⟨none, []⟩, memory := some ⟨some 4⟩, storageSlots := [], expansionSlots := [],
        optionalModuleSlots := [] } }

/-- A server whose memory is recorded takes the module. -/
theorem planHostAllocations_sound_slotted :
    ∃ plan, planHostAllocations asciiRules (fun _ => []) (eccProject slottedServer rfl)
        "server:1" = .ok plan ∧
      SoundHostPlan asciiRules (eccProject slottedServer rfl) "server:1" slottedServer plan := by
  refine (planHostAllocations_sound_iff asciiRules (fun _ => []) (eccProject slottedServer rfl)
    "server:1" slottedServer (nodup_singleton _) rfl rfl).mpr ?_
  intro before a after _ component _ _ _
  rw [effectiveHostForAssignment, if_pos (by decide)]
  rintro ⟨⟩

/-- On a server without a memory section the module makes planning fail. -/
theorem planHostAllocations_fails :
    ¬∃ plan, planHostAllocations asciiRules (fun _ => [])
        (eccProject (bareItem 1 .server) rfl) "server:1" = .ok plan := by
  rintro ⟨plan, hplan⟩
  have herror : planHostAllocations asciiRules (fun _ => [])
      (eccProject (bareItem 1 .server) rfl) "server:1" = .error .typeError := by
    decide +kernel
  rw [herror] at hplan
  exact nomatch hplan

end HomelabInventory.Compatibility
