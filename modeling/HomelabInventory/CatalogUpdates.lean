import HomelabInventory.MergedObjects
import HomelabInventory.RecordTable
import HomelabInventory.WlanResources

/-!
# Merging a catalog update

`server/registry/catalog-update-semantics.mjs` and `wlan-resource-migration.mjs`: the item that a
catalog update gives is the incoming registry item, in the canonical form of a version, merged into
the current item. The canonicalizers are parameters.
-/

namespace HomelabInventory.CatalogUpdates

open CatalogProtocol
open Wlan (Resource Host ConstraintMember Migration Relocation isPositiveId resourceCount
  normalizedKey isLegacyWlanExpansionResource isCanonicalWlanModuleResource
  planWlanResourceMigration trimSpace maxSafeInteger)

/-! ## Items -/

/-- An item, as the members of an object. -/
structure Item where
  members : List (String × Value)
  wellFormed : WellFormed (.object members)

def Item.get (item : Item) (key : String) : Value := memberOf item.members key

/-- A canonicalizer, which may refuse an item. -/
abbrev Canonicalizer := Item → Except String Item

/-- What merging an update rests on. -/
structure Rules where
  keys : Compatibility.TextRules
  sanitizeCatalogItem : Canonicalizer
  canonicalizeCatalogItemV9 : Canonicalizer
  canonicalizeCatalogItemV10 : Canonicalizer
  canonicalizeCatalogItemV11 : Canonicalizer
  canonicalizeCatalogItemV12 : Canonicalizer

def canonicalUnitsFingerprintVersion : ℕ := 9
def nasFingerprintVersion : ℕ := 10
def networkFingerprintVersion : ℕ := 11
def m2AeFingerprintVersion : ℕ := 12

def localTopLevelFields : List String :=
  ["id", "key", "name", "scope", "ownerProjectId", "archivedAt", "serialNumber", "smart",
    "properties", "notes", "hardwareClass", "usageRole"]

def localPortFields : List String :=
  ["label", "notes", "ipAddress", "macAddress", "role", "adminState"]

/-- `sanitizeForFingerprint` -/
def sanitizeForFingerprint (rules : Rules) (item : Item) (version : Option ℕ) :
    Except String Item :=
  if version = some m2AeFingerprintVersion then rules.canonicalizeCatalogItemV12 item
  else if version = some networkFingerprintVersion then rules.canonicalizeCatalogItemV11 item
  else if version = some nasFingerprintVersion then rules.canonicalizeCatalogItemV10 item
  else if version = some canonicalUnitsFingerprintVersion then rules.canonicalizeCatalogItemV9 item
  else rules.sanitizeCatalogItem item

/-! ## Reading values -/

/-- A number that is an integer. -/
def integerOf : Value → Option ℤ
  | .number (.finite value) => if value.den = 1 then some value.num else none
  | .number .negativeZero => some 0
  | _ => none

/-- The value of an integer. -/
def ofInteger : Option ℤ → Value
  | some n => .number (.finite n)
  | none => .undefined

def textOf : Value → Option String
  | .string value => some value
  | _ => none

/-- The entries of an array, none when there is no array. -/
def entriesOf : Value → List Value
  | .array entries => entries
  | _ => []

/-! ## Wireless card resources -/

/-- A resource of a host, as the migration of the wireless card reads it. -/
def resourceOf (value : Value) : Resource where
  id := integerOf (value.get "id")
  key := (textOf (value.get "key")).getD ""
  label := textOf (value.get "label")
  count := integerOf (value.get "count")
  interfaceFamily := textOf (value.get "interfaceFamily")
  acceptedModuleKinds := match value.get "acceptedModuleKinds" with
    | .array kinds => some (kinds.filterMap textOf)
    | _ => none

def constraintMemberOf (value : Value) : ConstraintMember where
  resourceType := (textOf (value.get "resourceType")).getD ""
  resourceId := integerOf (value.get "resourceId")

/-- The resources of a host. -/
def hostOf (host : Value) : Host where
  storageSlots := (entriesOf (host.get "storageSlots")).map resourceOf
  expansionSlots := (entriesOf (host.get "expansionSlots")).map resourceOf
  optionalModuleSlots := (entriesOf (host.get "optionalModuleSlots")).map resourceOf
  controllerSlots := (entriesOf (host.get "controllerSlots")).map resourceOf
  bootDeviceSlots := (entriesOf (host.get "bootDeviceSlots")).map resourceOf
  constraintGroups := (entriesOf (host.get "constraintGroups")).map fun group =>
    (entriesOf (group.get "members")).map constraintMemberOf

/-- The host of an item. -/
def itemHost (members : List (String × Value)) : Host :=
  hostOf ((memberOf members "compatibility").get "host")

/-- Change the first entry that matches. -/
def modifyEntry (p : Value → Bool) (f : Value → Value) : Value → Value
  | .array entries => .array (modifyFirst p f entries)
  | value => value

/-- Change all entries. -/
def mapEntries (f : Value → Value) : Value → Value
  | .array entries => .array (entries.map f)
  | value => value

/-- Keep some entries. -/
def filterEntries (p : Value → Bool) : Value → Value
  | .array entries => .array (entries.filter p)
  | value => value

/-- A member goes that is an empty array. -/
def removeEmpty (key : String) (value : Value) : Value :=
  match value.get key with
  | .array [] => value.remove key
  | _ => value

/-- Move a resource that is in the way, and the constraints that name it. -/
def relocateResource (host : Value) (relocation : Relocation) : Value :=
  let host := host.modify "optionalModuleSlots" (modifyEntry (fun candidate =>
    (resourceOf candidate).id = relocation.fromId ∧ (resourceOf candidate).key = relocation.key)
    (fun candidate => candidate.set "id" (ofInteger relocation.toId)))
  host.modify "constraintGroups" (mapEntries (Value.modify "members" (mapEntries fun member =>
    if (constraintMemberOf member).resourceType = "optional-module" ∧
        (constraintMemberOf member).resourceId = relocation.fromId then
      member.set "resourceId" (ofInteger relocation.toId)
    else member)))

/-- The destination takes over the id of the source, which goes. -/
def migrateHost (rules : Compatibility.TextRules) (migration : Migration) (host : Value) : Value :=
  let host := migration.destinationIdRelocations.foldl relocateResource host
  let host := host.modify "optionalModuleSlots" (modifyEntry
    (fun candidate => isCanonicalWlanModuleResource rules (resourceOf candidate))
    (fun candidate => candidate.set "id" (ofInteger migration.source.id)))
  let host := host.modify "expansionSlots" (filterEntries fun candidate =>
    !isLegacyWlanExpansionResource rules (resourceOf candidate))
  removeEmpty "expansionSlots" host

/-- `removeSupersededWlanResource` -/
def removeSupersededWlanResource (rules : Compatibility.TextRules)
    (current incoming merged : List (String × Value)) : List (String × Value) :=
  match planWlanResourceMigration rules (itemHost current) (itemHost incoming) with
  | .ready migration =>
    modifyMember "compatibility" (Value.modify "host" (migrateHost rules migration)) merged
  | _ => merged

/-! ## Merging an item -/

/-- The port with an id, the last one when there are several. -/
def portWithId (ports : List Value) (id : Option ℤ) : Option Value :=
  ports.reverse.find? fun port => integerOf (port.get "id") = id

/-- Set the given fields of a result to the values that they have. -/
def restoreFields (fields : List String) (current : List (String × Value))
    (result : List (String × Value)) : List (String × Value) :=
  fields.foldl (fun result field =>
    if (memberOf current field).isUndefined then result
    else InsertionMap.set result field (memberOf current field)) result

/-- The members of an object. -/
def membersOf : Value → List (String × Value)
  | .object members => members
  | _ => []

/-- A port that is no port of a module is a fixed one. -/
def setOrigin (port : List (String × Value)) : List (String × Value) :=
  if textOf (memberOf port "origin") = some "module" then port
  else InsertionMap.set port "origin" (.string "fixed")

/-- `{ ...current, ...incoming }`, with its origin and the local fields of the current port. -/
def mergePortMembers (current incoming : List (String × Value)) : List (String × Value) :=
  restoreFields localPortFields current (setOrigin (InsertionMap.setAll current incoming))

/-- Merge an incoming port with the current one of its id, if there is one. -/
def mergePort (currentPorts : List Value) : Value → Value
  | .object incoming =>
    .object (mergePortMembers (membersOf ((portWithId currentPorts
      (integerOf (memberOf incoming "id"))).getD .undefined)) incoming)
  | incoming => incoming

/-- `mergePorts` -/
def mergePorts (currentPorts incomingPorts : List Value) : List Value :=
  incomingPorts.map (mergePort currentPorts)

/-- The minimum of electrical lanes goes. -/
def removeMinimum (members : List (String × Value)) : List (String × Value) :=
  modifyMember "compatibility" (Value.modify "requirements" (Value.modify "expansion"
    (Value.remove "minimumElectricalLanes")))
    (modifyMember "specs" (Value.modify "hostInterface" (Value.remove "minimumElectricalLanes"))
      members)

/-- The minimum of electrical lanes of an item. -/
def incomingMinimum (incoming : List (String × Value)) : Value :=
  ((memberOf incoming "specs").get "hostInterface").get "minimumElectricalLanes"

/-- The members of `mergeCatalogItem`, for an incoming item that is sanitized. -/
def mergedMembers (rules : Compatibility.TextRules) (version : Option ℕ)
    (current incoming : List (String × Value)) : List (String × Value) :=
  let result := mergeMembers current current incoming
  let result := restoreFields localTopLevelFields current result
  let result := match memberOf incoming "ports" with
    | .array ports =>
      InsertionMap.set result "ports" (.array (mergePorts (entriesOf (memberOf current "ports")) ports))
    | _ => result
  let result := removeSupersededWlanResource rules current incoming result
  if (version = some networkFingerprintVersion ∨ version = some m2AeFingerprintVersion) ∧
      (incomingMinimum incoming).isUndefined then removeMinimum result
  else result

/-! ## The merge is an object -/

theorem wellFormed_set {value member : Value} (h : WellFormed value) (key : String)
    (hmember : WellFormed member) : WellFormed (value.set key member) := by
  cases value with
  | object members => exact h.set key hmember
  | _ => exact h

theorem wellFormed_ofInteger (n : Option ℤ) : WellFormed (ofInteger n) := by
  cases n with
  | none => exact .undefined
  | some n => exact .number _

variable {host value : Value}

theorem wellFormed_entriesOf (h : WellFormed value) :
    ∀ entry ∈ entriesOf value, WellFormed entry := by
  cases h with
  | array hentries => exact hentries
  | _ => exact fun entry hentry => absurd hentry List.not_mem_nil

variable {f : Value → Value}

theorem wellFormed_modifyEntry (h : WellFormed value) (p : Value → Bool)
    (hf : ∀ entry, WellFormed entry → WellFormed (f entry)) :
    WellFormed (modifyEntry p f value) := by
  cases value with
  | array entries =>
    refine .array fun entry hentry => ?_
    obtain hold | ⟨before, hbefore, -, rfl⟩ := mem_modifyFirst hentry
    · exact wellFormed_entriesOf h entry hold
    · exact hf before (wellFormed_entriesOf h before hbefore)
  | _ => exact h

theorem wellFormed_mapEntries (h : WellFormed value)
    (hf : ∀ entry, WellFormed entry → WellFormed (f entry)) : WellFormed (mapEntries f value) := by
  cases value with
  | array entries =>
    refine .array fun entry hentry => ?_
    obtain ⟨before, hbefore, rfl⟩ := List.mem_map.mp hentry
    exact hf before (wellFormed_entriesOf h before hbefore)
  | _ => exact h

theorem wellFormed_filterEntries (h : WellFormed value) (p : Value → Bool) :
    WellFormed (filterEntries p value) := by
  cases value with
  | array entries =>
    exact .array fun entry hentry => wellFormed_entriesOf h entry (List.mem_filter.mp hentry).1
  | _ => exact h

theorem wellFormed_removeEmpty (h : WellFormed value) (key : String) :
    WellFormed (removeEmpty key value) := by
  unfold removeEmpty
  split
  · exact h.remove key
  · exact h

theorem wellFormed_relocateResource (h : WellFormed host) (relocation : Relocation) :
    WellFormed (relocateResource host relocation) := by
  refine (h.modify _ fun slots hslots => ?_).modify _ fun groups hgroups => ?_
  · exact wellFormed_modifyEntry hslots _ fun entry hentry =>
      wellFormed_set hentry "id" (wellFormed_ofInteger _)
  · refine wellFormed_mapEntries hgroups fun group hgroup => hgroup.modify _ fun members hmembers =>
      wellFormed_mapEntries hmembers fun member hmember => ?_
    split
    · exact wellFormed_set hmember "resourceId" (wellFormed_ofInteger _)
    · exact hmember

theorem wellFormed_migrateHost (rules : Compatibility.TextRules) (migration : Migration)
    (h : WellFormed host) : WellFormed (migrateHost rules migration host) := by
  refine wellFormed_removeEmpty (WellFormed.modify (WellFormed.modify ?_ _ fun slots hslots => ?_)
    _ fun slots hslots => wellFormed_filterEntries hslots _) _
  · exact List.foldlRecOn _ _ h fun host hhost relocation _ =>
      wellFormed_relocateResource hhost relocation
  · exact wellFormed_modifyEntry hslots _ fun entry hentry =>
      wellFormed_set hentry "id" (wellFormed_ofInteger _)

theorem wellFormed_restoreFields (fields : List String) {current result : List (String × Value)}
    (hcurrent : WellFormed (.object current)) (hresult : WellFormed (.object result)) :
    WellFormed (.object (restoreFields fields current result)) := by
  refine List.foldlRecOn (motive := fun result => WellFormed (.object result)) _ _ hresult ?_
  intro result hresult field _
  split
  · exact hresult
  · exact hresult.set field (hcurrent.memberOf field)

theorem wellFormed_membersOf (h : WellFormed value) : WellFormed (.object (membersOf value)) := by
  cases value with
  | object members => exact h
  | _ => exact .object List.nodup_nil (fun member hmember => absurd hmember List.not_mem_nil)

theorem wellFormed_setOrigin {port : List (String × Value)} (h : WellFormed (.object port)) :
    WellFormed (.object (setOrigin port)) := by
  unfold setOrigin
  split
  · exact h
  · exact h.set "origin" (.string _)

theorem wellFormed_mergePortMembers {current incoming : List (String × Value)}
    (hcurrent : WellFormed (.object current)) (hincoming : WellFormed (.object incoming)) :
    WellFormed (.object (mergePortMembers current incoming)) := by
  refine wellFormed_restoreFields _ hcurrent (wellFormed_setOrigin (hcurrent.setAll ?_))
  cases hincoming with
  | object hkeys hmembers => exact hmembers

theorem wellFormed_portWithId {ports : List Value} (h : ∀ port ∈ ports, WellFormed port)
    (id : Option ℤ) : WellFormed (.object (membersOf ((portWithId ports id).getD .undefined))) := by
  refine wellFormed_membersOf ?_
  cases hfind : portWithId ports id with
  | none => exact .undefined
  | some port => exact h port (List.mem_reverse.mp (List.mem_of_find?_eq_some hfind))

theorem wellFormed_mergePort {currentPorts : List Value} {incoming : Value}
    (hcurrent : ∀ port ∈ currentPorts, WellFormed port) (hincoming : WellFormed incoming) :
    WellFormed (mergePort currentPorts incoming) := by
  cases incoming with
  | object members =>
    exact wellFormed_mergePortMembers (wellFormed_portWithId hcurrent _) hincoming
  | _ => exact hincoming

theorem wellFormed_modifyMember {members : List (String × Value)} (h : WellFormed (.object members))
    (key : String) (hf : ∀ value, WellFormed value → WellFormed (f value)) :
    WellFormed (.object (modifyMember key f members)) :=
  WellFormed.modify h key hf

theorem wellFormed_removeMinimum {members : List (String × Value)}
    (h : WellFormed (.object members)) : WellFormed (.object (removeMinimum members)) := by
  refine wellFormed_modifyMember (wellFormed_modifyMember h _ fun specs hspecs => ?_) _
    fun compatibility hcompatibility => ?_
  · exact hspecs.modify _ fun value hvalue => hvalue.remove _
  · exact hcompatibility.modify _ fun requirements hrequirements =>
      hrequirements.modify _ fun expansion hexpansion => hexpansion.remove _

theorem wellFormed_mergedMembers (rules : Compatibility.TextRules) (version : Option ℕ)
    (current incoming : Item) :
    WellFormed (.object (mergedMembers rules version current.members incoming.members)) := by
  have hmerged : WellFormed (.object (mergeMembers current.members current.members
      incoming.members)) := current.wellFormed.deepMerge incoming.wellFormed
  have hlocal := wellFormed_restoreFields localTopLevelFields current.wellFormed hmerged
  have hports : ∀ ports, memberOf incoming.members "ports" = .array ports →
      WellFormed (.array (mergePorts (entriesOf (memberOf current.members "ports")) ports)) := by
    intro ports hports
    refine .array fun port hport => ?_
    obtain ⟨incomingPort, hincoming, rfl⟩ := List.mem_map.mp hport
    refine wellFormed_mergePort (wellFormed_entriesOf (current.wellFormed.memberOf "ports")) ?_
    have hall := wellFormed_entriesOf (incoming.wellFormed.memberOf "ports")
    rw [hports] at hall
    exact hall incomingPort hincoming
  have hmigrated : ∀ result, WellFormed (.object result) → WellFormed (.object
      (removeSupersededWlanResource rules current.members incoming.members result)) := by
    intro result hresult
    unfold removeSupersededWlanResource
    split
    · exact wellFormed_modifyMember hresult _ fun value hvalue => hvalue.modify _ fun host hhost =>
        wellFormed_migrateHost rules _ hhost
    · exact hresult
  unfold mergedMembers
  dsimp only
  have hresult : WellFormed (.object (match memberOf incoming.members "ports" with
      | .array ports => InsertionMap.set (restoreFields localTopLevelFields current.members
          (mergeMembers current.members current.members incoming.members)) "ports"
          (.array (mergePorts (entriesOf (memberOf current.members "ports")) ports))
      | _ => restoreFields localTopLevelFields current.members
          (mergeMembers current.members current.members incoming.members))) := by
    split
    · rename_i ports heq
      exact hlocal.set "ports" (hports ports heq)
    · exact hlocal
  split
  · exact wellFormed_removeMinimum (hmigrated _ hresult)
  · exact hmigrated _ hresult

/-- `mergeCatalogItem` -/
def mergeCatalogItem (rules : Rules) (version : Option ℕ) (current incoming : Item) :
    Except String Item := do
  let incoming ← sanitizeForFingerprint rules incoming version
  return ⟨mergedMembers rules.keys version current.members incoming.members,
    wellFormed_mergedMembers rules.keys version current incoming⟩

end HomelabInventory.CatalogUpdates
