import HomelabInventory.Compatibility
import Mathlib.Data.List.Sort
import Mathlib.Data.Rat.Cast.Order

/-!
# Hardware allocation

Planning which slots, bays and sockets of a host its components occupy. For
servers and network storage a first pass reserves the stored allocations that
are still valid and a second pass places the rest first-free; a PC build is
placed afresh every time.
-/

namespace HomelabInventory.Compatibility

/-! ## Order of the assignments -/

/-- Older assignments come first, then smaller numbers. -/
def compareAssignments (rules : TextRules) (left right : ComponentAssignment) : Ordering :=
  (rules.localeCompare left.assignedAt right.assignedAt).then (compare left.id right.id)

/-- The assignment is of a processor. -/
def isCpuAssignment (items : InventoryItems) (a : ComponentAssignment) : Bool :=
  match itemLookup items a.itemId with
  | none => false
  | some item => item.type = .cpu

/-- Processors come before everything else. -/
def compareHostAllocationAssignments (rules : TextRules) (items : InventoryItems)
    (left right : ComponentAssignment) : Ordering :=
  let leftIsCpu := isCpuAssignment items left
  let rightIsCpu := isCpuAssignment items right
  if leftIsCpu != rightIsCpu then (if leftIsCpu then .lt else .gt)
  else compareAssignments rules left right

/-- The assignments to a host, in project order. -/
def hostAssignments (project : Project) (hostId : String) : List ComponentAssignment :=
  project.assignments.filter fun a => a.serverId = hostId

/-- `Array.prototype.sort`, which is stable. -/
def sortBy (cmp : ComponentAssignment → ComponentAssignment → Ordering)
    (assignments : List ComponentAssignment) : List ComponentAssignment :=
  assignments.insertionSort fun left right => (cmp left right).isLE = true

/-- The assignments to a host, in the order in which they are planned. -/
def plannedOrder (rules : TextRules) (project : Project) (host : InventoryItem) (hostId : String) :
    List ComponentAssignment :=
  if host.type = .pcBuild then sortBy (compareAssignments rules) (hostAssignments project hostId)
  else sortBy (compareHostAllocationAssignments rules project.items)
    (hostAssignments project hostId)

/-! ## Groups of slots -/

/-- The number of a group, when it is one. -/
def safeGroupId (group : ResourceGroup) : Option ℚ :=
  group.id.filter fun id => isSafeInteger id && decide (0 < id)

/-- The count is a positive whole number. -/
def isCount (count : Option ℚ) : Bool :=
  match count with
  | none => false
  | some count => isInteger count && decide (0 < count)

/-- The groups with a number of their own, a key and a count. -/
def validResourceGroups (groups : List ResourceGroup) : List ResourceGroup :=
  groups.filter fun group =>
    match safeGroupId group with
    | none => false
    | some id => (groups.filterMap safeGroupId).count id == 1 &&
        (group.key.bind optionalString).isSome && isCount group.count

/-- The kinds of module a component counts as. -/
def optionalModuleKinds (rules : TextRules) (component : InventoryItem) : List String :=
  let explicit := optionalStringArray
    (component.specs.moduleKind.toList ++ component.optionalModuleKind.toList)
  if explicit ≠ [] then explicit
  else if component.type = .network ∧ component.specs.networkTechnology = some "wifi" then
    ["network-adapter", "wireless-card"]
  else if component.type = .soundCard then ["sound-card"]
  else if component.type = .network then
    let descriptor := rules.toLowerCase
      (component.subtype.getD "" ++ " " ++ component.specs.formFactor.getD "")
    if includes descriptor "flex" then ["flex-io-module", "network-card"] else ["network-card"]
  else []

/-- The group takes modules of the physical family. -/
def isOfFamily (rules : TextRules) (physicalFamily : String) (group : ResourceGroup) : Bool :=
  match normalizedText rules group.interfaceFamily with
  | some groupFamily => groupFamily == physicalFamily
  | none =>
    let key := (normalizedText rules group.key).getD ""
    let label := (normalizedText rules group.label).getD ""
    physicalFamily == "m2-ae" &&
      (includes key "wlan-m2" || includes key "m2-ae" || includes label "m.2 wlan" ||
        includes label "m.2 a/e")

/-- The optional-module slots that take a component. -/
def optionalModuleGroupsFor (rules : TextRules) (capabilities : HostCapabilities)
    (component : InventoryItem) : List ResourceGroup :=
  let valid := validResourceGroups capabilities.optionalModuleSlots
  let physical := match normalizedText rules component.requirements.interfaceFamily with
    | none => []
    | some physicalFamily => valid.filter (isOfFamily rules physicalFamily)
  if physical ≠ [] then physical
  else
    let acceptedKinds := optionalModuleKinds rules component
    if acceptedKinds = [] then []
    else valid.filter fun group =>
      (optionalStringArray group.acceptedModuleKinds).any fun kind => kind ∈ acceptedKinds

/-- All the groups of a resource, and the valid ones. -/
def requiredGroups (capabilities : HostCapabilities) (resourceType : ResourceType) :
    List ResourceGroup × List ResourceGroup :=
  match resourceType with
  | .storage => (capabilities.storageSlots, validResourceGroups capabilities.storageSlots)
  | .expansion => (capabilities.expansionSlots, validResourceGroups capabilities.expansionSlots)
  | .optionalModule =>
    (capabilities.optionalModuleSlots, validResourceGroups capabilities.optionalModuleSlots)
  | _ => ([], [])

/-! ## What a component occupies -/

/-- The resource a component occupies in a server. -/
def resourceTypeFor (rules : TextRules) (capabilities : HostCapabilities)
    (component : InventoryItem) : Option ResourceType :=
  if component.type = .cpu then some .cpu
  else if component.type = .ram then some .memory
  else if component.type = .storage then some .storage
  else if optionalModuleGroupsFor rules capabilities component ≠ [] then some .optionalModule
  else if isExpansion component.type then some .expansion
  else none

/-- The number of positions a component occupies in a server. -/
def allocationSize (component : InventoryItem) (resourceType : Option ResourceType) : Option ℚ :=
  if resourceType = some .cpu then some 1
  else if resourceType = some .optionalModule then some 1
  else if component.type = .ram then some 1
  else if component.type = .storage then some 1
  else if isExpansion component.type then
    component.requirements.slotWidth.filter fun width => isInteger width && decide (0 < width)
  else some 0

/-- Processors and memory occupy positions of the host itself, not of a group. -/
def ResourceType.isScalar (resourceType : ResourceType) : Bool :=
  resourceType = .memory || resourceType = .cpu

/-- The number of sockets or memory slots of a server. -/
def scalarCapacity (capabilities : HostCapabilities) (resourceType : ResourceType) : Option ℚ :=
  let capacity :=
    if resourceType = .cpu then
      capabilities.cpu.socketCount <|> (if capabilities.cpu.sockets ≠ [] then some 1 else none)
    else capabilities.memory.bind (·.slots)
  capacity.filter fun count => isInteger count && decide (0 < count)

/-- The result lets the component occupy its resource. -/
def resultCanOccupyResource (result : CompatibilityResult) (compatibilityEnabled : Bool) : Bool :=
  result.status = .compatible ||
    (!compatibilityEnabled && (result.status = .incompatible || result.status = .unknown))

/-- The host with one group only. -/
def candidateHost (host : InventoryItem) (resourceType : ResourceType) (group : ResourceGroup) :
    InventoryItem :=
  match resourceType with
  | .storage => { host with capabilities := { host.capabilities with storageSlots := [group] } }
  | .expansion => { host with capabilities := { host.capabilities with expansionSlots := [group] } }
  | .optionalModule =>
    { host with capabilities := { host.capabilities with optionalModuleSlots := [group] } }
  | _ => host

/-! ## Positions -/

/-- The positions taken, by resource and group. -/
abbrev Occupancy := List ((ResourceType × Option ℚ) × ℚ)

/-- A run of positions. -/
def positionsFrom (start size : ℕ) : List ℚ :=
  (List.range size).map fun index => ((start + index : ℕ) : ℚ)

/-- The positions are whole, not negative, one after the other, and so many. -/
def positionsAreConsecutive (positions : List ℚ) (size : ℚ) : Bool :=
  (positions.length : ℚ) == size &&
    positions.all (fun position => isInteger position && decide (0 ≤ position)) &&
    (positions.zip positions.tail).all fun pair => pair.2 == pair.1 + 1

/-- None of the positions is taken. -/
def positionsAreFree (occupancy : Occupancy) (resourceType : ResourceType) (groupId : Option ℚ)
    (positions : List ℚ) : Bool :=
  positions.all fun position => decide (((resourceType, groupId), position) ∉ occupancy)

/-- The cells an allocation covers. -/
def CompatibilityAllocation.cells (allocation : CompatibilityAllocation) : Occupancy :=
  allocation.positions.map fun position =>
    ((allocation.resourceType, allocation.groupId), position)

/-- Take the positions of an allocation. -/
def reservePositions (occupancy : Occupancy) (allocation : CompatibilityAllocation) : Occupancy :=
  occupancy ++ allocation.cells

/-- The first free run of positions. -/
def firstConsecutivePositions (occupancy : Occupancy) (resourceType : ResourceType)
    (groupId count size : Option ℚ) : Option (List ℚ) :=
  match count, size with
  | some count, some size =>
    if isInteger count && decide (0 < count) && isInteger size && decide (0 < size) &&
        decide (size ≤ count) then
      ((List.range ((count - size).num.toNat + 1)).map fun start =>
        positionsFrom start size.num.toNat).find?
          (positionsAreFree occupancy resourceType groupId)
    else none
  | _, _ => none

/-- A stored allocation is still valid, and its positions are free. -/
def allocationMatchesResource (allocation : CompatibilityAllocation) (resourceType : ResourceType)
    (group : Option ResourceGroup) (size : ℚ) (occupancy : Occupancy) (capacity : Option ℚ) :
    Bool :=
  allocation.resourceType = resourceType &&
    (if resourceType.isScalar then allocation.groupId = none && capacity.isSome
      else match group with
        | none => false
        | some group => allocation.groupId = group.id) &&
    positionsAreConsecutive allocation.positions size &&
    (match (if resourceType.isScalar then capacity else group.bind (·.count)) with
      | none => false
      | some limit => allocation.positions.all fun position => decide (position < limit)) &&
    positionsAreFree occupancy resourceType allocation.groupId allocation.positions

/-! ## Findings of the planner -/

/-- A result with one more finding. -/
def resultWithFinding (result : CompatibilityResult) (finding : CompatibilityFinding) :
    CompatibilityResult :=
  let findings := addFinding result.findings finding
  ⟨statusFor findings, findings⟩

/-- A finding of the planner. -/
def allocationFinding (code : String) (severity : Severity) (message field : String) :
    CompatibilityFinding where
  code := code
  severity := severity
  classification := none
  message := message
  field := some field
  resourceId := none

/-- The resource of the host is not defined well. -/
def invalidResourceResult (baseResult : CompatibilityResult) (resourceType : ResourceType) :
    CompatibilityResult :=
  resultWithFinding baseResult (allocationFinding "compatibility.resource.invalid" .unknown
    ("The host's " ++ resourceType.name ++
      " resource definition is missing, duplicated, or invalid.")
    ("host." ++ resourceType.name ++ "Resources"))

/-- No position of the resource is left. -/
def exhaustedResourceResult (baseResult : CompatibilityResult) (resourceType : ResourceType) :
    CompatibilityResult :=
  resultWithFinding baseResult (allocationFinding "compatibility.resource.exhausted" .error
    ("No available " ++ resourceType.name ++ " positions can satisfy this component.")
    ("host." ++ resourceType.name ++ "Resources"))

/-- The assigned component is not in the inventory. -/
def missingComponentResult : CompatibilityResult :=
  resultWithFinding ⟨.compatible, []⟩ (allocationFinding "compatibility.component.missing" .unknown
    "The assigned inventory component could not be found." "component")

/-- The outcome of planning one assignment. -/
structure PlanResult where
  assignmentId : ℕ
  hostId : String
  itemId : String
  status : CompatibilityStatus
  findings : List CompatibilityFinding
  allocation : Option CompatibilityAllocation
deriving DecidableEq

/-- The outcome for an assignment. -/
def planResult (a : ComponentAssignment) (result : CompatibilityResult)
    (allocation : Option CompatibilityAllocation) : PlanResult where
  assignmentId := a.id
  hostId := a.serverId
  itemId := a.itemId
  status := result.status
  findings := result.findings
  allocation := allocation

/-- The plan of a host. -/
structure AllocationPlan where
  assignments : List ComponentAssignment
  results : List PlanResult
deriving DecidableEq

/-! ## Servers and network storage -/

/-- What planning a host reads. -/
structure HostPlanning where
  rules : TextRules
  evaluation : Evaluation
  host : InventoryItem
  items : InventoryItems
  compatibilityEnabled : Bool
  useVerifiedMemoryLimits : Bool

variable (planning : HostPlanning)

/-- Evaluate a component next to the assignments before it. -/
def HostPlanning.evaluate (component : InventoryItem) (assignments : List ComponentAssignment) :
    Except EvaluationError CompatibilityResult :=
  evaluateAssignmentCompatibility planning.evaluation planning.host component assignments
    planning.items planning.useVerifiedMemoryLimits

/-- Evaluate a component against one group of the host. -/
def evaluateResourceCandidate (component : InventoryItem)
    (assignments : List ComponentAssignment) (resourceType : ResourceType)
    (group : Option ResourceGroup) : Except EvaluationError CompatibilityResult :=
  let host := match group with
    | none => planning.host
    | some group => candidateHost planning.host resourceType group
  evaluateAssignmentCompatibility planning.evaluation host component assignments planning.items
    planning.useVerifiedMemoryLimits

/-- The resource a component occupies and the number of its positions, when it
occupies any. -/
def HostPlanning.demand (component : InventoryItem) : Option ResourceType × Option ℚ :=
  let resourceType := resourceTypeFor planning.rules planning.host.capabilities component
  (resourceType, (allocationSize component resourceType).filter fun size => size != 0)

/-- The state of the first pass. -/
structure Preservation where
  occupancy : Occupancy
  preserved : List (ℕ × (CompatibilityAllocation × CompatibilityResult))
  priorAssignments : List ComponentAssignment

/-- Reserve the stored allocation of an assignment, when it is still valid. -/
def preserveStep (state : Preservation) (a : ComponentAssignment) :
    Except EvaluationError Preservation := do
  let passed := { state with priorAssignments := state.priorAssignments ++ [a] }
  let some component := itemLookup planning.items a.itemId | pure passed
  let (some resourceType, some size) := planning.demand component | pure passed
  let some allocation := a.allocation | pure passed
  let reserved := fun result =>
    { passed with
      occupancy := reservePositions state.occupancy allocation
      preserved := InsertionMap.set state.preserved a.id (allocation, result) }
  if resourceType.isScalar then
    let result ← evaluateResourceCandidate planning component state.priorAssignments resourceType
      none
    let capacity := scalarCapacity planning.host.capabilities resourceType
    if resultCanOccupyResource result planning.compatibilityEnabled &&
        allocationMatchesResource allocation resourceType none size state.occupancy capacity then
      pure (reserved result)
    else pure passed
  else
    let groups := (requiredGroups planning.host.capabilities resourceType).2
    let some group := groups.find? fun candidate => candidate.id = allocation.groupId | pure passed
    let result ← evaluateResourceCandidate planning component state.priorAssignments resourceType
      (some group)
    if resultCanOccupyResource result planning.compatibilityEnabled &&
        allocationMatchesResource allocation resourceType (some group) size state.occupancy none
    then pure (reserved result)
    else pure passed

/-- A group with free positions for a component. -/
structure PlacementCandidate where
  group : ResourceGroup
  positions : List ℚ
  result : CompatibilityResult

/-- What the search among the groups has found. -/
structure CandidateSearch where
  compatibleCandidate : Option PlacementCandidate
  unknownCandidate : Option PlacementCandidate
  unknownResult : Option CompatibilityResult
  exhaustedUnknownResult : Option CompatibilityResult
  incompatibleCandidate : Option PlacementCandidate
  exhaustedIncompatibleResult : Option CompatibilityResult
  incompatibleResult : Option CompatibilityResult

/-- Nothing found. -/
def CandidateSearch.empty : CandidateSearch := ⟨none, none, none, none, none, none, none⟩

/-- The candidate to take: a compatible one, else an unknown one, else an
incompatible one. -/
def CandidateSearch.selected (search : CandidateSearch) : Option PlacementCandidate :=
  search.compatibleCandidate <|> search.unknownCandidate <|> search.incompatibleCandidate

/-- Note what a group offers that is not the compatible place searched for. -/
def CandidateSearch.note (search : CandidateSearch) (resourceType : ResourceType)
    (compatibilityEnabled : Bool) (group : ResourceGroup) (result : CompatibilityResult)
    (positions : Option (List ℚ)) : CandidateSearch :=
  let exhausted := exhaustedResourceResult result resourceType
  match result.status, positions with
  | .compatible, _ =>
    { search with incompatibleResult := search.incompatibleResult <|> some exhausted }
  | .unknown, some positions =>
    if compatibilityEnabled then
      { search with unknownResult := search.unknownResult <|> some result }
    else
      { search with
        unknownCandidate := search.unknownCandidate <|> some ⟨group, positions, result⟩ }
  | .unknown, none =>
    { search with exhaustedUnknownResult := search.exhaustedUnknownResult <|> some exhausted }
  | .incompatible, positions =>
    let search :=
      { search with incompatibleResult := search.incompatibleResult <|> some result }
    if compatibilityEnabled then search
    else match positions with
      | some positions =>
        { search with
          incompatibleCandidate :=
            search.incompatibleCandidate <|> some ⟨group, positions, result⟩ }
      | none =>
        { search with
          exhaustedIncompatibleResult :=
            search.exhaustedIncompatibleResult <|> some exhausted }

/-- Search the groups for a place, up to the first compatible one with room. -/
def searchCandidates (component : InventoryItem) (assignments : List ComponentAssignment)
    (resourceType : ResourceType) (size : ℚ) (occupancy : Occupancy) :
    List ResourceGroup → CandidateSearch → Except EvaluationError CandidateSearch
  | [], search => .ok search
  | group :: rest, search => do
    let result ← evaluateResourceCandidate planning component assignments resourceType (some group)
    let positions :=
      firstConsecutivePositions occupancy resourceType group.id group.count (some size)
    match result.status, positions with
    | .compatible, some positions =>
      pure { search with compatibleCandidate := some ⟨group, positions, result⟩ }
    | _, positions =>
      searchCandidates component assignments resourceType size occupancy rest
        (search.note resourceType planning.compatibilityEnabled group result positions)

/-- The state of the second pass. -/
structure Placing where
  occupancy : Occupancy
  plannedAssignments : List ComponentAssignment
  results : List PlanResult
  processedAssignments : List ComponentAssignment

/-- Plan an assignment without an allocation. -/
def Placing.leave (state : Placing) (a : ComponentAssignment) (result : CompatibilityResult) :
    Placing where
  occupancy := state.occupancy
  plannedAssignments := state.plannedAssignments ++ [a.clean]
  results := state.results ++ [planResult a result none]
  processedAssignments := state.processedAssignments ++ [a.clean]

/-- Plan an assignment with a new allocation. -/
def Placing.place (state : Placing) (a : ComponentAssignment) (result : CompatibilityResult)
    (allocation : CompatibilityAllocation) : Placing where
  occupancy := reservePositions state.occupancy allocation
  plannedAssignments := state.plannedAssignments ++ [{ a with allocation := some allocation }]
  results := state.results ++ [planResult a result (some allocation)]
  processedAssignments := state.processedAssignments ++ [a.clean]

/-- Place a processor or a memory module. -/
def placeScalar (state : Placing) (a : ComponentAssignment) (component : InventoryItem)
    (resourceType : ResourceType) (size : ℚ) : Except EvaluationError Placing := do
  let result ← evaluateResourceCandidate planning component state.processedAssignments resourceType
    none
  let capacity := scalarCapacity planning.host.capabilities resourceType
  let canOccupy := resultCanOccupyResource result planning.compatibilityEnabled ||
    (resourceType = .cpu && result.status = .unknown)
  if !canOccupy then pure (state.leave a result)
  else if capacity = none then pure (state.leave a (invalidResourceResult result resourceType))
  else match firstConsecutivePositions state.occupancy resourceType none capacity (some size) with
    | none => pure (state.leave a (exhaustedResourceResult result resourceType))
    | some positions => pure (state.place a result ⟨resourceType, none, positions⟩)

/-- Place a component in one of the groups of its resource. -/
def placeInGroup (state : Placing) (a : ComponentAssignment) (component : InventoryItem)
    (resourceType : ResourceType) (size : ℚ) : Except EvaluationError Placing := do
  let (all, valid) := requiredGroups planning.host.capabilities resourceType
  let search ← searchCandidates planning component state.processedAssignments resourceType size
    state.occupancy valid .empty
  match search.selected with
  | some candidate =>
    pure (state.place a candidate.result ⟨resourceType, candidate.group.id, candidate.positions⟩)
  | none =>
    let baseResult ← planning.evaluate component state.processedAssignments
    let fallback :=
      if valid = [] ∧ all ≠ [] then invalidResourceResult baseResult resourceType
      else ((search.exhaustedIncompatibleResult <|> search.incompatibleResult).getD baseResult)
    let result := (search.unknownResult <|> search.exhaustedUnknownResult).getD fallback
    pure (state.leave a result)

/-- Plan an assignment of a server. -/
def placeStep (preserved : List (ℕ × (CompatibilityAllocation × CompatibilityResult)))
    (state : Placing) (a : ComponentAssignment) : Except EvaluationError Placing := do
  let some component := itemLookup planning.items a.itemId
    | pure (state.leave a missingComponentResult)
  match InsertionMap.get? preserved a.id with
  | some (allocation, result) =>
    pure
      { state with
        plannedAssignments :=
          state.plannedAssignments ++ [{ a with allocation := some allocation }]
        results := state.results ++ [planResult a result (some allocation)]
        processedAssignments :=
          state.processedAssignments ++ [{ a with allocation := some allocation }] }
  | none =>
    match planning.demand component with
    | (none, _) =>
      let result ← planning.evaluate component state.processedAssignments
      pure (state.leave a result)
    | (some resourceType, none) =>
      let result ← planning.evaluate component state.processedAssignments
      pure (state.leave a (invalidResourceResult result resourceType))
    | (some resourceType, some size) =>
      if resourceType.isScalar then placeScalar planning state a component resourceType size
      else placeInGroup planning state a component resourceType size

/-- Plan the assignments of a server or network storage. -/
def planServerAllocations (assignments : List ComponentAssignment) :
    Except EvaluationError AllocationPlan := do
  let preservation ← assignments.foldlM (preserveStep planning) ⟨[], [], []⟩
  let placing ← assignments.foldlM (placeStep planning preservation.preserved)
    ⟨preservation.occupancy, [], [], []⟩
  pure ⟨placing.plannedAssignments, placing.results⟩

/-! ## PC builds -/

/-- The resource a component occupies in a PC build: positions of groups, or a
number of positions of the build itself. -/
structure PcBuildResource where
  resourceType : ResourceType
  groups : Option (List ResourceGroup)
  count : Option ℚ
  size : ℚ

/-- The resource a component occupies in a PC build. -/
def pcBuildResourceDefinition (rules : TextRules) (component : InventoryItem)
    (motherboard : Option InventoryItem) (capabilities : HostCapabilities) :
    Option PcBuildResource :=
  let sockets : Option ℚ := capabilities.cpu.socketCount <|>
    motherboard.bind (·.specs.cpuSocketCount) <|>
      (if capabilities.cpu.sockets ≠ [] then some 1 else none)
  let requirements := component.requirements
  match component.type with
  | .motherboard => some ⟨.motherboard, none, some 1, 1⟩
  | .powerSupply => some ⟨.power, none, some 1, 1⟩
  | .case => some ⟨.case, none, some 1, 1⟩
  | .cpu => some ⟨.cpu, none, sockets, 1⟩
  | .cpuCooler => some ⟨.cooling, none, sockets, 1⟩
  | .ram => some ⟨.memory, none, capabilities.memory.bind (·.slots), 1⟩
  | .storage =>
    let groups := (validResourceGroups capabilities.storageSlots).filter fun group =>
      (requirements.interface.isNone ||
        includesNormalized rules group.interfaces requirements.interface) &&
      (requirements.formFactor.isNone ||
        includesNormalized rules group.formFactors requirements.formFactor)
    some ⟨.storage, some groups, none, 1⟩
  | type =>
    if isExpansion type then
      let optionalGroups := optionalModuleGroupsFor rules capabilities component
      if optionalGroups ≠ [] then some ⟨.optionalModule, some optionalGroups, none, 1⟩
      else
        let groups := (validResourceGroups capabilities.expansionSlots).filter fun group =>
          requirements.interfaceFamily.isNone ||
            decide (group.interfaceFamily = requirements.interfaceFamily)
        some ⟨.expansion, some groups, none, requirements.slotWidth.getD 1⟩
    else none

/-- The resource of a PC build is missing or used up. -/
def physicalResourceError (result : CompatibilityResult) (resourceType : ResourceType)
    (hasDefinition : Bool) : CompatibilityResult :=
  let field := "host." ++ resourceType.name ++ "Resources"
  resultWithFinding result
    (if hasDefinition then
      allocationFinding "compatibility.resource.exhausted" .error
        ("No available " ++ resourceType.name ++ " positions can satisfy this component.") field
    else
      allocationFinding "compatibility.resource.invalid" .error
        ("The PC Build's " ++ resourceType.name ++ " resource definition is missing or invalid.")
        field)

/-- The first group with room, and the positions there; or positions of the build. -/
def selectPositions (occupancy : Occupancy) (resource : PcBuildResource) :
    Option (Option ℚ × List ℚ) :=
  match resource.groups with
  | some groups => groups.findSome? fun group =>
      (firstConsecutivePositions occupancy resource.resourceType group.id group.count
        (some resource.size)).map fun positions => (group.id, positions)
  | none =>
    (firstConsecutivePositions occupancy resource.resourceType none resource.count
      (some resource.size)).map fun positions => (none, positions)

/-- The resource has positions of the size at all. -/
def hasDefinition (resource : PcBuildResource) : Bool :=
  isInteger resource.size && decide (0 < resource.size) &&
    match resource.groups with
    | some groups => !groups.isEmpty
    | none => isCount resource.count

/-- Plan an assignment of a PC build. -/
def pcBuildStep (motherboard : Option InventoryItem) (capabilities : HostCapabilities)
    (state : Placing) (a : ComponentAssignment) : Except EvaluationError Placing := do
  let some component := itemLookup planning.items a.itemId
    | pure
        { state with
          plannedAssignments := state.plannedAssignments ++ [a.clean]
          results := state.results ++ [planResult a missingComponentResult none] }
  let result ← planning.evaluate component state.processedAssignments
  let some resource :=
      pcBuildResourceDefinition planning.rules component motherboard capabilities
    | pure (state.leave a result)
  if !resultCanOccupyResource result planning.compatibilityEnabled then pure (state.leave a result)
  else match selectPositions state.occupancy resource with
    | none =>
      let physical := physicalResourceError result resource.resourceType (hasDefinition resource)
      pure
        { state with
          plannedAssignments := state.plannedAssignments ++ [a.clean]
          results := state.results ++ [planResult a physical none] }
    | some (groupId, positions) =>
      let allocation : CompatibilityAllocation := ⟨resource.resourceType, groupId, positions⟩
      let planned := { a with allocation := some allocation }
      pure
        { occupancy := reservePositions state.occupancy allocation
          plannedAssignments := state.plannedAssignments ++ [planned]
          results := state.results ++ [planResult a result (some allocation)]
          processedAssignments := state.processedAssignments ++ [planned] }

/-- Plan the assignments of a PC build. -/
def planPcBuildAllocations (assignments : List ComponentAssignment) :
    Except EvaluationError AllocationPlan := do
  let motherboard := assignedItemOfType assignments planning.items .motherboard none
  let effectiveHost := effectiveHostForAssignment planning.host assignments planning.items
    motherboard
  let placing ← assignments.foldlM
    (pcBuildStep planning motherboard effectiveHost.capabilities) ⟨[], [], [], []⟩
  pure ⟨placing.plannedAssignments, placing.results⟩

/-! ## Hosts and projects -/

/-- What planning a host of a project reads. -/
def planningOf (rules : TextRules) (evaluation : Evaluation) (project : Project)
    (hostId : String) (host : InventoryItem) : HostPlanning where
  rules := rules
  evaluation := evaluation
  host := host
  items := project.items
  compatibilityEnabled := isHostCompatibilityEnabled project hostId
  useVerifiedMemoryLimits := isVerifiedMemoryLimitEnabled project hostId

/-- Plan the allocations of a host. -/
def planHostAllocations (rules : TextRules) (evaluation : Evaluation) (project : Project)
    (hostId : String) : Except EvaluationError AllocationPlan :=
  match itemLookup project.items hostId with
  | none => .ok ⟨[], []⟩
  | some host =>
    if !isHost host then .ok ⟨[], []⟩
    else
      let planning := planningOf rules evaluation project hostId host
      let assignments := plannedOrder rules project host hostId
      if host.type = .pcBuild then planPcBuildAllocations planning assignments
      else planServerAllocations planning assignments

/-- Replace the assignments of every host by their plan. -/
def normalizeCompatibilityProject (rules : TextRules) (evaluation : Evaluation)
    (project : Project) : Except EvaluationError Project := do
  let hosts := (project.items.entries.filter fun entry => isHost entry.2).map (·.1)
  let plannedByAssignment ← hosts.foldlM
    (fun planned hostId => do
      let plan ← planHostAllocations rules evaluation project hostId
      pure (plan.assignments.foldl
        (fun planned a => InsertionMap.set planned (hostId, a.id) a) planned))
    ([] : List ((String × ℕ) × ComponentAssignment))
  pure
    { project with
      assignments := project.assignments.map fun a =>
        (InsertionMap.get? plannedByAssignment (a.serverId, a.id)).getD a }

end HomelabInventory.Compatibility
