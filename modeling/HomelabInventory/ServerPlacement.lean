import HomelabInventory.AllocationSpec
import HomelabInventory.ExceptLoop
import HomelabInventory.TwoPhasePlacement

/-!
# Servers are planned in two passes

The planner of servers and network storage as an instance of two-pass placement:
what an element may keep and what its candidates are depends only on the
assignment and the ones before it, not on their allocations.
-/

namespace HomelabInventory.Compatibility

/-! ## The placer of a server -/

/-- The turn of an assignment: the assignment and the ones before it, without
their allocations. -/
structure Turn where
  assignment : ComponentAssignment
  prior : List ComponentAssignment

/-- The assignment of a turn with the allocation it is given. -/
def Turn.assigned (entry : Turn × Option CompatibilityAllocation) : ComponentAssignment :=
  { entry.1.assignment with allocation := entry.2 }

/-- The turns of a list of assignments, with their allocations. -/
def turns (prior : List ComponentAssignment) :
    List ComponentAssignment → List (Turn × Option CompatibilityAllocation)
  | [] => []
  | a :: rest => (⟨a.clean, prior⟩, a.allocation) :: turns (prior ++ [a.clean]) rest

namespace HostPlanning

variable (planning : HostPlanning)

/-- The result of a component next to the assignments before it. -/
def candidateResult (component : InventoryItem) (prior : List ComponentAssignment)
    (resourceType : ResourceType) (group : Option ResourceGroup) : CompatibilityResult :=
  let host := match group with
    | none => planning.host
    | some group => candidateHost planning.host resourceType group
  planning.evaluation.result
    { host, component, assignedItemIds := prior.map (·.itemId), items := planning.items,
      useVerifiedMemoryLimits := planning.useVerifiedMemoryLimits }

/-- The stored allocation of a turn is valid, whatever positions are taken. -/
def keeps (turn : Turn) (allocation : CompatibilityAllocation) : Bool :=
  match itemLookup planning.items turn.assignment.itemId with
  | none => false
  | some component =>
    match planning.demand component with
    | (some resourceType, some size) =>
      if resourceType.isScalar then
        resultCanOccupyResource
            (planning.candidateResult component turn.prior resourceType none)
            planning.compatibilityEnabled &&
          allocationMatchesResource allocation resourceType none size []
            (scalarCapacity planning.host.capabilities resourceType)
      else
        match (requiredGroups planning.host.capabilities resourceType).2.find? fun candidate =>
            candidate.id = allocation.groupId with
        | none => false
        | some group =>
          resultCanOccupyResource
              (planning.candidateResult component turn.prior resourceType (some group))
              planning.compatibilityEnabled &&
            allocationMatchesResource allocation resourceType (some group) size [] none
    | _ => false

/-- The places for a processor or a memory module. -/
def scalarCandidates (component : InventoryItem) (prior : List ComponentAssignment)
    (resourceType : ResourceType) (size : ℚ) : List CompatibilityAllocation :=
  let result := planning.candidateResult component prior resourceType none
  if resultCanOccupyResource result planning.compatibilityEnabled ||
      (resourceType = .cpu && result.status = .unknown) then
    (candidatePositions (scalarCapacity planning.host.capabilities resourceType) (some size)).map
      fun positions => ⟨resourceType, none, positions⟩
  else []

/-- The places in the groups where the evaluation comes to the status. -/
def placesOfStatus (component : InventoryItem) (prior : List ComponentAssignment)
    (resourceType : ResourceType) (size : ℚ) (status : CompatibilityStatus)
    (groups : List ResourceGroup) : List CompatibilityAllocation :=
  (groups.filter fun group =>
      (planning.candidateResult component prior resourceType (some group)).status = status).flatMap
    fun group => (candidatePositions group.count (some size)).map
      fun positions => ⟨resourceType, group.id, positions⟩

/-- The places in groups, the compatible ones first. -/
def groupCandidates (component : InventoryItem) (prior : List ComponentAssignment)
    (resourceType : ResourceType) (size : ℚ) : List CompatibilityAllocation :=
  let groups := (requiredGroups planning.host.capabilities resourceType).2
  let places := fun status => planning.placesOfStatus component prior resourceType size status groups
  places .compatible ++
    if planning.compatibilityEnabled then [] else places .unknown ++ places .incompatible

/-- The places for the component of a turn. -/
def candidates (turn : Turn) : List CompatibilityAllocation :=
  match itemLookup planning.items turn.assignment.itemId with
  | none => []
  | some component =>
    match planning.demand component with
    | (some resourceType, some size) =>
      if resourceType.isScalar then
        planning.scalarCandidates component turn.prior resourceType size
      else planning.groupCandidates component turn.prior resourceType size
    | _ => []

/-- Two-pass placement on the positions of a server. -/
def placer : Placer Turn CompatibilityAllocation ((ResourceType × Option ℚ) × ℚ) where
  cells := CompatibilityAllocation.cells
  keeps := planning.keeps
  candidates := planning.candidates

end HostPlanning

variable {planning : HostPlanning}

theorem isFree_eq (occupancy : Occupancy) (allocation : CompatibilityAllocation) :
    planning.placer.isFree occupancy allocation =
      positionsAreFree occupancy allocation.resourceType allocation.groupId
        allocation.positions := by
  rw [Bool.eq_iff_iff, Placer.isFree_iff]
  simp [HostPlanning.placer, CompatibilityAllocation.cells, positionsAreFree]

/-- A stored allocation matches when it matches an empty host and its positions
are free. -/
theorem allocationMatchesResource_eq (allocation : CompatibilityAllocation)
    (resourceType : ResourceType) (group : Option ResourceGroup) (size : ℚ)
    (occupancy : Occupancy) (capacity : Option ℚ) :
    allocationMatchesResource allocation resourceType group size occupancy capacity =
      (allocationMatchesResource allocation resourceType group size [] capacity &&
        planning.placer.isFree occupancy allocation) := by
  have hempty : positionsAreFree [] resourceType allocation.groupId allocation.positions = true := by
    simp [positionsAreFree]
  rw [isFree_eq]
  simp only [allocationMatchesResource, hempty, Bool.and_true]
  by_cases htype : allocation.resourceType = resourceType
  · rw [htype]
  · simp [htype]

/-- An evaluation that does not fail comes to the result. -/
theorem evaluate_eq_ok {evaluation : Evaluation} {host component : InventoryItem}
    {assignments : List ComponentAssignment} {items : InventoryItems} {verified : Bool}
    {result : CompatibilityResult} :
    evaluateAssignmentCompatibility evaluation host component assignments items verified =
        .ok result ↔
      readsMissingMemory
          (effectiveHostForAssignment host assignments items (some component)) component = false ∧
        evaluation.result ⟨host, component, assignments.map (·.itemId), items, verified⟩ = result := by
  rw [evaluateAssignmentCompatibility]
  split
  · rename_i h
    simp [h]
  · rename_i h
    rw [Bool.not_eq_true] at h
    simp [h]

theorem evaluateResourceCandidate_eq_ok {component : InventoryItem}
    {assignments prior : List ComponentAssignment} {resourceType : ResourceType}
    {group : Option ResourceGroup} {result : CompatibilityResult}
    (hprior : assignments.map (·.itemId) = prior.map (·.itemId))
    (h : evaluateResourceCandidate planning component assignments resourceType group = .ok result) :
    result = planning.candidateResult component prior resourceType group := by
  simp only [evaluateResourceCandidate] at h
  obtain ⟨-, hresult⟩ := evaluate_eq_ok.mp h
  rw [← hresult, hprior]
  rfl

end HomelabInventory.Compatibility
