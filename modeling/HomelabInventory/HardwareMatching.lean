import HomelabInventory.OrderedMap
import Mathlib.Data.Rat.Defs
import Mathlib.Algebra.Order.Ring.Unbundled.Rat
import Mathlib.Tactic.Basic

/-!
# Matching detected hardware

`matchComponents` of `server/agents/hardware-suggestions.mjs`: the components that an agent
detects in a host are matched with the items assigned to it, one kind after the other and one
component after the other, by fingerprint, by locator or by position.
-/

namespace HomelabInventory.HardwareMatching

/-! ## Snapshot, inventory and project -/

/-- What the runtime makes of a locator. -/
structure TextRules where
  /-- `text.trim().toLowerCase()` -/
  normalize : String → String
  /-- `LOCATOR_COLLATOR.compare` of trimmed texts -/
  compareLocators : String → String → Ordering
  /-- collation is a consistent order -/
  consistent : Std.TransCmp compareLocators

/-- A detected component, with `values.opaqueFingerprint` when that is a text. -/
structure Component where
  kind : String
  locator : String
  opaqueFingerprint : Option String
deriving DecidableEq

/-- A detected state of a host. -/
structure Snapshot where
  hostType : String
  hostId : ℕ
  components : List Component

/-- An item of the inventory. -/
structure Item where
  id : ℕ
  agentHardwareFingerprint : Option String
deriving DecidableEq

/-- The inventory by the types of items. -/
abbrev Inventory := String → List Item

/-- The value of a field that may be a text. -/
inductive Label where
  | text (value : String)
  | other
deriving DecidableEq

/-- The assignment of an item to a host. A field without a value is missing or null. -/
structure Assignment where
  id : ℕ
  hostType : String
  hostId : ℕ
  itemType : String
  itemId : ℕ
  slotLabel : Option Label
  locator : Option Label
  allocationLocator : Option Label
  /-- `allocation.positions[0]` -/
  firstPosition : Option ℚ
deriving DecidableEq

/-- An assignment with its item. -/
structure Target where
  assignment : Assignment
  item : Item
deriving DecidableEq

/-! ## Targets -/

/-- `COMPONENT_ITEM_TYPES` -/
def componentItemTypes : List (String × String) :=
  [("cpu", "cpu"), ("memory", "ram"), ("storage", "storage"), ("network-interface", "network"),
    ("gpu", "gpu"), ("motherboard", "motherboard"), ("power-supply", "powerSupply")]

/-- The type of item that a kind of component is. -/
def itemTypeOf (kind : String) : Option String := componentItemTypes.lookup kind

/-- The kinds that are matched with the host itself. -/
def hostKinds : List String := ["system", "chassis", "bios"]

/-- `hostItem` -/
def hostItem (inventory : Inventory) (snapshot : Snapshot) : Option Item :=
  (inventory snapshot.hostType).find? fun item => item.id == snapshot.hostId

/-- The order of targets: by position and by the age of the assignment. -/
def compareTargets (first second : Target) : Ordering :=
  (compare (first.assignment.firstPosition.getD (2 ^ 53 - 1))
    (second.assignment.firstPosition.getD (2 ^ 53 - 1))).then
    (compare first.assignment.id second.assignment.id)

/-- `assignedTargets` -/
def assignedTargets (inventory : Inventory) (assignments : List Assignment) (snapshot : Snapshot)
    (itemType : String) : List Target :=
  sortBy compareTargets
    ((assignments.filter fun assignment =>
      assignment.hostType == snapshot.hostType && assignment.hostId == snapshot.hostId &&
        assignment.itemType == itemType).filterMap fun assignment =>
      ((inventory itemType).find? fun item => item.id == assignment.itemId).map (⟨assignment, ·⟩))

/-! ## Matching -/

/-- How a component was matched. -/
inductive Method where
  | host
  | opaqueFingerprint
  | physicalLocator
  | oneToOnePosition
  | ambiguous
deriving DecidableEq

/-- A component and the item that it is taken for. -/
structure Match where
  component : Component
  itemType : String
  item : Option Item
  method : Method
deriving DecidableEq

/-- The item of a target has the fingerprint of a component. -/
def sameFingerprint (component : Component) (target : Target) : Bool :=
  target.item.agentHardwareFingerprint.any fun fingerprint =>
    fingerprint != "" && component.opaqueFingerprint == some fingerprint

/-- The label of a target is the locator of a component. -/
def sameLocator (rules : TextRules) (component : Component) (target : Target) : Bool :=
  match target.assignment.slotLabel.or
    (target.assignment.locator.or target.assignment.allocationLocator) with
  | some (.text label) => rules.normalize label == rules.normalize component.locator
  | _ => false

/-- The index of the target that a component takes, and how it was found. -/
def findTarget (rules : TextRules) (positionalMatchIsSafe : Bool) (availableTargets : List Target)
    (component : Component) : Option (ℕ × Method) :=
  match availableTargets.findIdx? (sameFingerprint component) with
  | some index => some (index, .opaqueFingerprint)
  | none =>
    match availableTargets.findIdx? (sameLocator rules component) with
    | some index => some (index, .physicalLocator)
    | none => if positionalMatchIsSafe then some (0, .oneToOnePosition) else none

/-- The components of one kind are matched. A position is only guessed when there are as many
targets as components, so that one is left for each. -/
def matchKind (rules : TextRules) (itemType : String) (positionalMatchIsSafe : Bool) :
    List Target → List Component → List Match
  | _, [] => []
  | availableTargets, component :: rest =>
    match findTarget rules positionalMatchIsSafe availableTargets component with
    | none =>
      ⟨component, itemType, none, .ambiguous⟩ ::
        matchKind rules itemType positionalMatchIsSafe availableTargets rest
    | some (index, method) =>
      ⟨component, itemType, (availableTargets[index]?).map (·.item), method⟩ ::
        matchKind rules itemType positionalMatchIsSafe (availableTargets.eraseIdx index) rest

/-- The components by their kinds, in the order of the first of each. -/
def groupByKind (components : List Component) : List (String × List Component) :=
  (components.map (·.kind)).eraseDups.map fun kind =>
    (kind, components.filter fun component => component.kind == kind)

/-- `compareComponentLocators` -/
def compareComponentLocators (rules : TextRules) (first second : Component) : Ordering :=
  rules.compareLocators first.locator second.locator

/-- The components of a kind in the order in which they are matched. -/
def orderComponents (rules : TextRules) (kind : String) (components : List Component) :
    List Component :=
  if kind = "memory" then sortBy (compareComponentLocators rules) components else components

/-- The matches of a group. -/
def matchGroup (rules : TextRules) (inventory : Inventory) (assignments : List Assignment)
    (snapshot : Snapshot) (kind : String) (groupedComponents : List Component) : List Match :=
  let components := orderComponents rules kind groupedComponents
  if hostKinds.contains kind then
    components.map fun component =>
      ⟨component, snapshot.hostType, hostItem inventory snapshot, .host⟩
  else
    match itemTypeOf kind with
    | none => []
    | some itemType =>
      let targets := assignedTargets inventory assignments snapshot itemType
      matchKind rules itemType (targets.length == components.length) targets components

/-- `matchComponents` -/
def matchComponents (rules : TextRules) (snapshot : Snapshot) (inventory : Inventory)
    (assignments : List Assignment) : List Match :=
  (groupByKind snapshot.components).flatMap fun group =>
    matchGroup rules inventory assignments snapshot group.1 group.2

end HomelabInventory.HardwareMatching
