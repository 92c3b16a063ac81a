import HomelabInventory.InsertionMap
import Mathlib.Data.List.Infix
import Mathlib.Data.Rat.Lemmas
import Mathlib.Order.Basic

/-!
# Hardware compatibility

The inventory as the compatibility code reads it: hosts with their capabilities,
components with their requirements, the assignments of components to hosts, the
policy that switches checks off, and the evaluation of one assignment. What the
evaluation finds out about a component is left open (the results hold for every
evaluation); when it fails is not.
-/

namespace HomelabInventory.Compatibility

/-! ## Text -/

/-- The operations on text that depend on the Unicode tables of the runtime. -/
structure TextRules where
  /-- `String.prototype.toLowerCase` -/
  toLowerCase : String → String
  /-- `String.prototype.localeCompare` -/
  localeCompare : String → String → Ordering
  /-- collation is a consistent order -/
  consistent : Std.TransCmp localeCompare

/-- The characters `trim` removes and `\s` matches. -/
def isSpace (c : Char) : Bool :=
  let n := c.toNat
  (0x9 ≤ n && n ≤ 0xD) || n == 0x20 || n == 0xA0 || n == 0x1680 ||
    (0x2000 ≤ n && n ≤ 0x200A) || n == 0x2028 || n == 0x2029 || n == 0x202F ||
    n == 0x205F || n == 0x3000 || n == 0xFEFF

/-- Trim a text and collapse its white space; an empty text is no text. -/
def optionalString (value : String) : Option String :=
  match (value.toList.splitOnP isSpace).filter fun word => !word.isEmpty with
  | [] => none
  | words => some (String.ofList ([' '].intercalate words))

/-- The distinct non-empty texts of a list. -/
def optionalStringArray (values : List String) : List String :=
  InsertionMap.distinct (values.filterMap optionalString)

/-- A text to compare without regard to case. -/
def normalizedText (rules : TextRules) (value : Option String) : Option String :=
  (value.bind optionalString).map rules.toLowerCase

/-- The list has the text, without regard to case. -/
def includesNormalized (rules : TextRules) (values : List String) (value : Option String) : Bool :=
  match normalizedText rules value with
  | none => false
  | some expected => values.any fun entry => normalizedText rules (some entry) == some expected

/-- `String.prototype.includes`. -/
def includes (text part : String) : Bool := decide (part.toList <:+: text.toList)

/-! ## Numbers -/

/-- `Number.isInteger`. -/
def isInteger (value : ℚ) : Bool := value.den == 1

/-- `Number.isSafeInteger`. -/
def isSafeInteger (value : ℚ) : Bool :=
  isInteger value && decide (-(2 ^ 53 - 1) ≤ value) && decide (value ≤ 2 ^ 53 - 1)

/-! ## The inventory -/

/-- The kinds of inventory items. -/
inductive InventoryType where
  | server | nas | pcBuild | cpu | ram | storage | gpu | network | motherboard | cpuCooler | case
  | powerSupply | soundCard | powerAdapter | switch | patchPanel | monitor | ups | powerStrip
deriving DecidableEq

/-- The name of a kind, as item keys use it. -/
def InventoryType.name : InventoryType → String
  | server => "server" | nas => "nas" | pcBuild => "pcBuild" | cpu => "cpu" | ram => "ram"
  | storage => "storage" | gpu => "gpu" | network => "network" | motherboard => "motherboard"
  | cpuCooler => "cpuCooler" | case => "case" | powerSupply => "powerSupply"
  | soundCard => "soundCard" | powerAdapter => "powerAdapter" | switch => "switch"
  | patchPanel => "patchPanel" | monitor => "monitor" | ups => "ups" | powerStrip => "powerStrip"

/-- A bus that an optional-module slot exposes. -/
structure ModuleBus where
  family : String
  lanes : Option ℚ := none
  pcieGeneration : Option ℚ := none
  usbGeneration : Option String := none
deriving DecidableEq

/-- A group of equal slots of a host. -/
structure ResourceGroup where
  id : Option ℚ
  key : Option String
  label : Option String
  count : Option ℚ
  /-- storage: the interfaces its slots accept -/
  interfaces : List String
  /-- storage: the form factors its slots accept -/
  formFactors : List String
  /-- expansion and optional modules: the physical interface -/
  interfaceFamily : Option String
  /-- optional modules: the kinds its slots accept -/
  acceptedModuleKinds : List String
  /-- storage and expansion: the PCIe generation of its slots -/
  pcieGeneration : Option ℚ := none
  /-- expansion: the width of its connectors -/
  mechanicalLanes : Option ℚ := none
  electricalLanes : Option ℚ := none
  /-- expansion: the heights of the cards it accepts -/
  acceptedHeights : List String := []
  maxSlotWidth : Option ℚ := none
  maxPowerWatts : Option ℚ := none
  /-- expansion: the processors its slots need -/
  requiredCpuSockets : Option ℚ := none
  keying : Option String := none
  moduleSize : Option String := none
  usbGeneration : Option String := none
  connector : Option String := none
  ocpVersion : Option String := none
  interfaceKey : Option String := none
  /-- optional modules: the keys of its sockets -/
  socketKeys : List String := []
  moduleSizes : List String := []
  availableBuses : Option (List ModuleBus) := none
deriving DecidableEq

/-- The processor sockets of a host. -/
structure CpuSupport where
  socketCount : Option ℚ
  sockets : List String
deriving DecidableEq

/-- The memory slots of a host. -/
structure MemorySupport where
  slots : Option ℚ
deriving DecidableEq

/-- What a host offers, as `normalizeHostCapabilities` reads it. -/
structure HostCapabilities where
  cpu : CpuSupport
  memory : Option MemorySupport
  storageSlots : List ResourceGroup
  expansionSlots : List ResourceGroup
  optionalModuleSlots : List ResourceGroup
  maxExpansionPowerWatts : Option ℚ := none
deriving DecidableEq

/-- A bus that a module needs. -/
structure BusRequirement where
  family : String
  minimumLanes : Option ℚ := none
  minimumPcieGeneration : Option ℚ := none
  minimumUsbGeneration : Option String := none
deriving DecidableEq

/-- What a component needs, as `normalizeComponentRequirements` reads it. -/
structure ComponentRequirements where
  interface : Option String
  formFactor : Option String
  interfaceFamily : Option String
  slotWidth : Option ℚ
  ecc : Option Bool
  pcieGeneration : Option ℚ := none
  connectorLanes : Option ℚ := none
  minimumElectricalLanes : Option ℚ := none
  height : Option String := none
  powerWatts : Option ℚ := none
  lengthMm : Option ℚ := none
  heightMm : Option ℚ := none
  radiatorSizeMm : Option ℚ := none
  interfaceKey : Option String := none
  key : Option String := none
  moduleSize : Option String := none
  usbGeneration : Option String := none
  connector : Option String := none
  ocpVersion : Option String := none
  requiredBuses : List BusRequirement := []
deriving DecidableEq

/-- The specifications read directly. -/
structure ItemSpecs where
  moduleKind : Option String
  networkTechnology : Option String
  formFactor : Option String
  cpuSocketCount : Option ℚ
deriving DecidableEq

/-- What a case has room for. -/
structure CaseLimits where
  supportedMotherboardFormFactors : List String := []
  supportedPsuFormFactors : List String := []
  maxCoolerHeightMm : Option ℚ := none
  maxExpansionLengthMm : Option ℚ := none
  maxExpansionHeightMm : Option ℚ := none
  maxExpansionSlotWidth : Option ℚ := none
  supportedRadiatorSizesMm : List ℚ := []
deriving DecidableEq

/-- An item of the inventory: a host or a component. -/
structure InventoryItem where
  id : ℕ
  key : Option String
  type : InventoryType
  subtype : Option String
  specs : ItemSpecs
  /-- the kind named by the requirements on optional modules -/
  optionalModuleKind : Option String
  requirements : ComponentRequirements
  capabilities : HostCapabilities
  /-- what a case has room for -/
  caseLimits : CaseLimits := {}
deriving DecidableEq

/-- The key of an item: its own, or its kind and number. -/
def InventoryItem.identity (item : InventoryItem) : String :=
  item.key.getD (item.type.name ++ ":" ++ toString item.id)

/-- The items of a project by key; each is stored under its own. -/
structure InventoryItems where
  entries : List (String × InventoryItem)
  nodup : (entries.map (·.1)).Nodup
  keyed : ∀ entry ∈ entries, entry.1 = entry.2.identity

/-- Servers, network storage and PC builds are hosts. -/
def isHost (item : InventoryItem) : Bool := item.type ∈ [.server, .nas, .pcBuild]

/-- Expansion cards. -/
def isExpansion (type : InventoryType) : Bool := type ∈ [.gpu, .network, .soundCard]

/-- The item a reference means: the item of that key, else the first with that
number or that key. -/
def itemLookup (items : InventoryItems) (id : String) : Option InventoryItem :=
  InsertionMap.get? items.entries id <|>
    (items.entries.map (·.2)).find? fun item =>
      toString item.id == id || (item.key == some id && id != "")

/-- The resources a component can occupy. -/
inductive ResourceType where
  | cpu | memory | storage | expansion | optionalModule | controllerSlot | bootDeviceSlot
  | coolingProfile | motherboard | cooling | power | case
deriving DecidableEq

/-- The name of a resource, as messages and fields use it. -/
def ResourceType.name : ResourceType → String
  | cpu => "cpu" | memory => "memory" | storage => "storage" | expansion => "expansion"
  | optionalModule => "optionalModule" | controllerSlot => "controllerSlot"
  | bootDeviceSlot => "bootDeviceSlot" | coolingProfile => "coolingProfile"
  | motherboard => "motherboard" | cooling => "cooling" | power => "power" | case => "case"

/-- The positions a component occupies. -/
structure CompatibilityAllocation where
  resourceType : ResourceType
  groupId : Option ℚ
  positions : List ℚ
deriving DecidableEq

/-- A component put into a host. -/
structure ComponentAssignment where
  id : ℕ
  serverId : String
  itemId : String
  type : InventoryType
  assignedAt : String
  allocation : Option CompatibilityAllocation
deriving DecidableEq

/-- The assignment without its allocation. -/
def ComponentAssignment.clean (a : ComponentAssignment) : ComponentAssignment :=
  { a with allocation := none }

/-- A host named by the compatibility policy. -/
structure CompatibilityHostRef where
  hostType : String
  hostId : ℚ
deriving DecidableEq

/-- The hosts whose checks are switched off, and those on verified memory limits. -/
structure CompatibilityPolicy where
  disabledHosts : List CompatibilityHostRef
  verifiedMemoryHosts : List CompatibilityHostRef
deriving DecidableEq

/-- A project, as far as compatibility reads it. -/
structure Project where
  items : InventoryItems
  assignments : List ComponentAssignment
  compatibilityPolicy : CompatibilityPolicy

/-! ## The policy -/

/-- The well-formed references to hosts, each once. -/
def normalizeHostRefs (values : List CompatibilityHostRef) : List CompatibilityHostRef :=
  values.foldl
    (fun refs value =>
      if value.hostType ∈ ["server", "nas", "pcBuild"] ∧ isSafeInteger value.hostId = true ∧
          0 < value.hostId ∧ value ∉ refs then
        refs ++ [value]
      else refs)
    []

/-- The policy with well-formed references only. -/
def normalizeCompatibilityPolicy (policy : CompatibilityPolicy) : CompatibilityPolicy where
  disabledHosts := normalizeHostRefs policy.disabledHosts
  verifiedMemoryHosts := normalizeHostRefs policy.verifiedMemoryHosts

/-- The number written in decimal digits. -/
def decimal (digits : List Char) : ℕ :=
  digits.foldl (fun n c => 10 * n + (c.toNat - '0'.toNat)) 0

/-- The kind and number of a host key such as `server:12`. -/
def hostReference (hostId : String) : Option CompatibilityHostRef :=
  match hostId.toList.span (· != ':') with
  | (type, ':' :: first :: digits) =>
    if !type.isEmpty && first != '0' && (first :: digits).all Char.isDigit then
      some ⟨String.ofList type, decimal (first :: digits)⟩
    else none
  | _ => none

/-- Checks are on for the host. -/
def isHostCompatibilityEnabled (project : Project) (hostId : String) : Bool :=
  match hostReference hostId with
  | none => true
  | some reference =>
    decide (reference ∉ (normalizeCompatibilityPolicy project.compatibilityPolicy).disabledHosts)

/-- The host goes by its verified memory limits. -/
def isVerifiedMemoryLimitEnabled (project : Project) (hostId : String) : Bool :=
  match hostReference hostId with
  | none => false
  | some reference => decide
      (reference ∈ (normalizeCompatibilityPolicy project.compatibilityPolicy).verifiedMemoryHosts)

/-! ## Findings -/

/-- How serious a finding is. -/
inductive Severity where
  | error | warning | unknown
deriving DecidableEq

/-- Whether a finding asks for action. -/
inductive Classification where
  | actionable | informational
deriving DecidableEq

/-- The outcome for one component. -/
inductive CompatibilityStatus where
  | compatible | incompatible | unknown
deriving DecidableEq

/-- One finding about a component. -/
structure CompatibilityFinding where
  code : String
  severity : Severity
  classification : Option Classification
  message : String
  field : Option String
  resourceId : Option ℚ
deriving DecidableEq

/-- The findings about a component and what they come to. -/
structure CompatibilityResult where
  status : CompatibilityStatus
  findings : List CompatibilityFinding
deriving DecidableEq

/-- Add a finding unless one like it is there. -/
def addFinding (findings : List CompatibilityFinding) (finding : CompatibilityFinding) :
    List CompatibilityFinding :=
  let classification := finding.classification.getD
    (if finding.severity = .unknown then .informational else .actionable)
  let duplicate := findings.any fun entry =>
    entry.code == finding.code && entry.field == finding.field &&
      entry.resourceId == finding.resourceId
  if duplicate then findings
  else findings ++ [{ finding with classification := some classification }]

/-- What a list of findings comes to. -/
def statusFor (findings : List CompatibilityFinding) : CompatibilityStatus :=
  if findings.any (·.severity = .error) then .incompatible
  else if findings.any (·.severity = .unknown) then .unknown
  else .compatible

/-! ## Hosts and the components in them -/

/-- The components assigned so far, with one more, each once. -/
def assignedComponents (assignments : List ComponentAssignment) (items : InventoryItems)
    (component : Option InventoryItem) : List InventoryItem :=
  let assigned := (assignments.filterMap fun a => itemLookup items a.itemId) ++ component.toList
  (InsertionMap.ofEntries (assigned.map fun item => (item.identity, item))).map (·.2)

/-- The first component of a kind. -/
def assignedItemOfType (assignments : List ComponentAssignment) (items : InventoryItems)
    (type : InventoryType) (component : Option InventoryItem) : Option InventoryItem :=
  (assignedComponents assignments items component).find? fun item => item.type = type

/-- The host a component meets: a PC build offers what its motherboard offers. -/
def effectiveHostForAssignment (host : InventoryItem) (assignments : List ComponentAssignment)
    (items : InventoryItems) (component : Option InventoryItem) : InventoryItem :=
  if host.type ≠ .pcBuild then host
  else match assignedItemOfType assignments items .motherboard component with
    | none => host
    | some motherboard => { host with capabilities := motherboard.capabilities }

/-! ## Evaluating an assignment -/

/-- What the evaluation of a component reads: the assignments before it matter
through their items only. -/
structure EvaluationInput where
  host : InventoryItem
  component : InventoryItem
  assignedItemIds : List String
  items : InventoryItems
  useVerifiedMemoryLimits : Bool

/-- The findings an evaluation comes to. -/
abbrev Evaluation := EvaluationInput → List CompatibilityFinding

/-- The evaluation read a property of a missing section. -/
inductive EvaluationError where
  | typeError
deriving DecidableEq

/-- The result of an evaluation that does not fail. -/
def Evaluation.result (evaluation : Evaluation) (input : EvaluationInput) : CompatibilityResult :=
  ⟨statusFor (evaluation input), evaluation input⟩

/-- The memory section is read unguarded for ECC memory, and only for it. -/
def readsMissingMemory (effectiveHost component : InventoryItem) : Bool :=
  component.type = .ram && component.requirements.ecc = some true &&
    effectiveHost.capabilities.memory.isNone

/-- Evaluate a component against a host and the components assigned before. -/
def evaluateAssignmentCompatibility (evaluation : Evaluation) (host component : InventoryItem)
    (assignments : List ComponentAssignment) (items : InventoryItems)
    (useVerifiedMemoryLimits : Bool) : Except EvaluationError CompatibilityResult :=
  let effectiveHost := effectiveHostForAssignment host assignments items (some component)
  if readsMissingMemory effectiveHost component then .error .typeError
  else .ok (evaluation.result
    { host, component, assignedItemIds := assignments.map (·.itemId), items,
      useVerifiedMemoryLimits })

/-! ## Lookups -/

variable {items : InventoryItems}

/-- A key finds the item stored under it. -/
theorem itemLookup_key {entry : String × InventoryItem} (h : entry ∈ items.entries) :
    itemLookup items entry.1 = some entry.2 := by
  have hget : InsertionMap.get? items.entries entry.1 = some entry.2 := by
    cases hget : InsertionMap.get? items.entries entry.1 with
    | none => exact absurd rfl (InsertionMap.get?_eq_none.mp hget entry h)
    | some value =>
      have hmem := InsertionMap.mem_of_get?_eq_some hget
      have hsame := List.inj_on_of_nodup_map items.nodup hmem h rfl
      rw [← hsame]
  rw [itemLookup, hget]
  rfl

/-- What a reference finds is an item of the project. -/
theorem mem_of_itemLookup {id : String} {item : InventoryItem}
    (h : itemLookup items id = some item) : (item.identity, item) ∈ items.entries := by
  have hmem : ∃ key, (key, item) ∈ items.entries := by
    rw [itemLookup, Option.orElse_eq_some] at h
    rcases h with h | ⟨-, h⟩
    · exact ⟨id, InsertionMap.mem_of_get?_eq_some h⟩
    · obtain ⟨entry, hentry, rfl⟩ := List.mem_map.mp (List.mem_of_find?_eq_some h)
      exact ⟨entry.1, hentry⟩
  obtain ⟨key, hmem⟩ := hmem
  obtain rfl : key = item.identity := items.keyed _ hmem
  exact hmem

/-- Items are told apart by their identity. -/
theorem eq_of_identity {id id' : String} {item item' : InventoryItem}
    (h : itemLookup items id = some item) (h' : itemLookup items id' = some item')
    (heq : item.identity = item'.identity) : item = item' := by
  have hsame := List.inj_on_of_nodup_map items.nodup (mem_of_itemLookup h)
    (mem_of_itemLookup h') heq
  exact congrArg Prod.snd hsame

/-- The first component of a kind is the first one assigned. -/
theorem assignedItemOfType_eq_find? (assignments : List ComponentAssignment)
    (type : InventoryType) {component : Option InventoryItem}
    (hcomponent : ∀ item, component = some item → ∃ id, itemLookup items id = some item) :
    assignedItemOfType assignments items type component =
      ((assignments.filterMap fun a => itemLookup items a.itemId) ++ component.toList).find?
        fun item => decide (item.type = type) := by
  have hlookup : ∀ item ∈ (assignments.filterMap fun a => itemLookup items a.itemId) ++
      component.toList, ∃ id, itemLookup items id = some item := by
    intro item hitem
    rcases List.mem_append.mp hitem with hitem | hitem
    · obtain ⟨a, -, ha⟩ := List.mem_filterMap.mp hitem
      exact ⟨a.itemId, ha⟩
    · exact hcomponent item (Option.mem_toList.mp hitem)
  rw [assignedItemOfType, assignedComponents, List.find?_map, InsertionMap.find?_ofEntries,
    List.find?_map, Option.map_map]
  · exact Option.map_id'
  · intro entry hentry other hother hkey
    obtain ⟨item, hitem, rfl⟩ := List.mem_map.mp hentry
    obtain ⟨item', hitem', rfl⟩ := List.mem_map.mp hother
    obtain ⟨id, hid⟩ := hlookup item hitem
    obtain ⟨id', hid'⟩ := hlookup item' hitem'
    rw [eq_of_identity hid hid' hkey]

end HomelabInventory.Compatibility
