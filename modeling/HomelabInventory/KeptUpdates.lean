import HomelabInventory.PortMerging

/-!
# What an update keeps

The local fields of an item, those of its ports, and the id of the wireless card slot that
its assignments refer to: a catalog update that is applied leaves them as they are, whatever
the incoming item says of them.
-/

namespace HomelabInventory.CatalogUpdates

open InsertionMap Option

open CatalogProtocol
open Wlan (Resource Host Migration MigrationPlan planWlanResourceMigration
  planWlanResourceMigration_source isLegacyWlanExpansionResource isCanonicalWlanModuleResource)

/-! ## The steps of the merge -/

/-- What the removal of the minimum of electrical lanes does to a field. -/
def dropMinimum (key : String) : Value → Value :=
  if key = "compatibility" then Value.modify "requirements" (Value.modify "expansion"
    (Value.remove "minimumElectricalLanes"))
  else if key = "specs" then Value.modify "hostInterface" (Value.remove "minimumElectricalLanes")
  else id

theorem get?_removeMinimum (members : List (String × Value)) (key : String) :
    get? (removeMinimum members) key = (get? members key).map (dropMinimum key) := by
  rw [removeMinimum, get?_modifyMember, get?_modifyMember, Option.map_map]
  refine congrArg (fun f => (get? members key).map f) (funext fun value => ?_)
  unfold dropMinimum
  by_cases hcompatibility : key = "compatibility"
  · subst hcompatibility
    rfl
  · by_cases hspecs : key = "specs"
    · subst hspecs
      rfl
    · simp [hcompatibility, hspecs]

/-- The merge before a resource migrates. -/
def mergedBefore (current incoming : List (String × Value)) : List (String × Value) :=
  let result := restoreFields localTopLevelFields current (mergeMembers current current incoming)
  match memberOf incoming "ports" with
  | .array ports =>
    InsertionMap.set result "ports" (.array (mergePorts (entriesOf (memberOf current "ports")) ports))
  | _ => result

/-- The minimum of electrical lanes is dropped. -/
def DropsMinimum (version : Option ℕ) (incoming : List (String × Value)) : Prop :=
  (version = some networkFingerprintVersion ∨ version = some m2AeFingerprintVersion) ∧
    (incomingMinimum incoming).isUndefined

instance (version : Option ℕ) (incoming : List (String × Value)) :
    Decidable (DropsMinimum version incoming) := by
  unfold DropsMinimum
  infer_instance

/-- What happens to a field after the migration. -/
def finish (version : Option ℕ) (incoming : List (String × Value)) (key : String) : Value → Value :=
  if DropsMinimum version incoming then dropMinimum key else id

/-- The end of the merge. -/
def finishMerge (version : Option ℕ) (incoming result : List (String × Value)) :
    List (String × Value) :=
  if DropsMinimum version incoming then removeMinimum result else result

theorem get?_finishMerge (version : Option ℕ) (incoming result : List (String × Value))
    (key : String) : get? (finishMerge version incoming result) key =
      (get? result key).map (finish version incoming key) := by
  unfold finishMerge finish
  split
  · exact get?_removeMinimum result key
  · rw [Option.map_id]
    rfl

theorem mergedMembers_eq (rules : Compatibility.TextRules) (version : Option ℕ)
    (current incoming : List (String × Value)) : mergedMembers rules version current incoming =
      finishMerge version incoming (removeSupersededWlanResource rules current incoming
        (mergedBefore current incoming)) := rfl

/-- The fields that the merge keeps from the current item or takes from the incoming one as a
whole are not those that are changed at the end. -/
theorem finish_of_mem {version : Option ℕ} {incoming : List (String × Value)} {key : String}
    (h : key ∈ localTopLevelFields ∨ key = "ports") : finish version incoming key = id := by
  have hne : key ≠ "compatibility" ∧ key ≠ "specs" := by
    constructor <;> rintro rfl <;> exact absurd h (by decide)
  rw [finish, dropMinimum, if_neg hne.1, if_neg hne.2, ite_self]

section

variable {current incoming : List (String × Value)}

/-- A field of the merge before a resource migrates. -/
theorem get?_mergedBefore (hincoming : (keys incoming).Nodup) (key : String) :
    get? (mergedBefore current incoming) key =
      match (if key = "ports" then memberOf incoming "ports" else .undefined) with
      | .array ports => some (.array (mergePorts (entriesOf (memberOf current "ports")) ports))
      | _ =>
        if key ∈ localTopLevelFields ∧ (memberOf current key).isUndefined = false then
          some (memberOf current key)
        else ((get? incoming key).map (deepMerge (memberOf current key))).or
          (get? current key) := by
  have hmerged : get? (restoreFields localTopLevelFields current
      (mergeMembers current current incoming)) key =
        if key ∈ localTopLevelFields ∧ (memberOf current key).isUndefined = false then
          some (memberOf current key)
        else ((get? incoming key).map (deepMerge (memberOf current key))).or
          (get? current key) := by
    rw [get?_restoreFields, get?_mergeMembers current hincoming]
  by_cases hkey : key = "ports"
  · subst hkey
    rw [if_pos rfl, ← hmerged]
    simp only [mergedBefore]
    cases memberOf incoming "ports" with
    | array ports => rw [get?_set, if_pos rfl]
    | _ => rfl
  · rw [if_neg hkey]
    simp only [mergedBefore]
    rw [← hmerged]
    cases memberOf incoming "ports" with
    | array ports => rw [get?_set, if_neg hkey]
    | _ => rfl

end

/-! ## Members of values -/

variable {key other : String}
variable {incoming members : List (String × Value)}

theorem memberOf_modifyMember_of_ne (hne : other ≠ key) (f : Value → Value) :
    memberOf (modifyMember key f members) other = memberOf members other := by
  rw [memberOf, get?_modifyMember, memberOf]
  simp [hne]

variable {f : Value → Value}

theorem memberOf_modifyMember_self (hf : f .undefined = .undefined) :
    memberOf (modifyMember key f members) key = f (memberOf members key) := by
  rw [memberOf, get?_modifyMember, memberOf]
  cases get? members key with
  | none => exact hf.symm
  | some value => simp

variable {host value : Value}

theorem get_modify_of_ne (hne : other ≠ key) (f : Value → Value) :
    (value.modify key f).get other = value.get other := by
  cases value with
  | object members => exact memberOf_modifyMember_of_ne hne f
  | _ => rfl

theorem get_modify_self (hf : f .undefined = .undefined) :
    (value.modify key f).get key = f (value.get key) := by
  cases value with
  | object members => exact memberOf_modifyMember_self hf
  | _ => exact hf.symm

theorem get_set_of_ne {value member : Value} (hne : other ≠ key) :
    (value.set key member).get other = value.get other := by
  cases value with
  | object members => exact memberOf_eq_of_get? (by rw [get?_set, if_neg hne])
  | _ => rfl

theorem get_remove_of_ne (hne : other ≠ key) : (value.remove key).get other = value.get other := by
  cases value with
  | object members => exact memberOf_eq_of_get? (get?_delete_of_ne hne)
  | _ => rfl

theorem get_removeEmpty_of_ne (hne : other ≠ key) :
    (removeEmpty key value).get other = value.get other := by
  unfold removeEmpty
  split
  · exact get_remove_of_ne hne
  · rfl

/-- A member of a merge is the merge of the members. -/
theorem memberOf_mergeMembers {current incoming : List (String × Value)}
    (hincoming : (keys incoming).Nodup) (key : String) :
    memberOf (mergeMembers current current incoming) key =
      deepMerge (memberOf current key) (memberOf incoming key) := by
  rw [memberOf, get?_mergeMembers current hincoming]
  cases hget : get? incoming key with
  | none => rw [map_none, none_or, memberOf, memberOf, hget]; rfl
  | some value =>
    rw [map_some, some_or, getD_some, memberOf_of_get? hget]

theorem get_deepMerge {current : Value} (hincoming : (keys incoming).Nodup) (key : String) :
    (deepMerge current (.object incoming)).get key =
      deepMerge (current.get key) (memberOf incoming key) := by
  cases current with
  | object members => exact memberOf_mergeMembers hincoming key
  | _ => exact (deepMerge_undefined_left _).symm

/-! ## The resources of a host after the migration -/

variable {rules : Compatibility.TextRules}

/-- Setting the id of a resource changes nothing else of it. -/
theorem resourceOf_set_id (value id : Value) :
    resourceOf (value.set "id" id) =
      { resourceOf value with id := integerOf ((value.set "id" id).get "id") } := by
  have hget : ∀ other, other ≠ "id" → (value.set "id" id).get other = value.get other :=
    fun other hne => get_set_of_ne hne
  simp only [resourceOf, hget "key" (by decide), hget "label" (by decide),
    hget "count" (by decide), hget "interfaceFamily" (by decide),
    hget "acceptedModuleKinds" (by decide)]

theorem isCanonical_set_id (value id : Value) :
    isCanonicalWlanModuleResource rules (resourceOf (value.set "id" id)) =
      isCanonicalWlanModuleResource rules (resourceOf value) := by
  rw [resourceOf_set_id]
  rfl

theorem exists_of_isCanonical (h : isCanonicalWlanModuleResource rules (resourceOf value) = true) :
    ∃ members, value = .object members := by
  cases value with
  | object members => exact ⟨members, rfl⟩
  | _ =>
    exfalso
    simp [isCanonicalWlanModuleResource, resourceOf, Value.get, textOf, Wlan.normalizedKey] at h

theorem integerOf_ofInteger (n : Option ℤ) : integerOf (ofInteger n) = n := by
  cases n with
  | none => rfl
  | some n => simp [ofInteger, integerOf]

/-- The host has optional modules, with a canonical resource for the wireless card. -/
def HasCanonical (rules : Compatibility.TextRules) (host : Value) : Prop :=
  ∃ slots, host.get "optionalModuleSlots" = .array slots ∧
    ∃ slot ∈ slots, isCanonicalWlanModuleResource rules (resourceOf slot) = true

theorem HasCanonical.relocateResource (h : HasCanonical rules host) (relocation : Wlan.Relocation) :
    HasCanonical rules (relocateResource host relocation) := by
  obtain ⟨slots, hslots, slot, hslot, hcanonical⟩ := h
  simp only [CatalogUpdates.relocateResource]
  rw [HasCanonical, get_modify_of_ne (by decide), get_modify_self rfl, hslots]
  refine ⟨_, rfl, ?_⟩
  obtain hkept | ⟨-, hchanged⟩ := mem_or_mem_modifyFirst hslot
  · exact ⟨slot, hkept, hcanonical⟩
  · exact ⟨_, hchanged, (isCanonical_set_id ..).trans hcanonical⟩

/-- The first resource of a kind takes over an id. -/
theorem exists_mem_modifyFirst_set {p : Value → Bool} {slots : List Value} {slot : Value}
    (hslot : slot ∈ slots) (hp : p slot = true)
    (hset : ∀ value id, p (value.set "id" id) = p value)
    (hobject : ∀ value, p value = true → ∃ members, value = .object members) (id : Option ℤ) :
    ∃ changed ∈ modifyFirst p (fun candidate => candidate.set "id" (ofInteger id)) slots,
      p changed = true ∧ (resourceOf changed).id = id := by
  obtain ⟨first, hfind⟩ := isSome_iff_exists.mp (List.find?_isSome.mpr ⟨slot, hslot, hp⟩)
  have hfirst : p first = true := List.find?_some hfind
  obtain ⟨members, rfl⟩ := hobject first hfirst
  refine ⟨_, mem_modifyFirst_of_find? hfind, (hset _ _).trans hfirst, ?_⟩
  rw [resourceOf_set_id]
  change integerOf (memberOf (InsertionMap.set members "id" _) "id") = _
  rw [memberOf, get?_set, if_pos rfl, getD_some, integerOf_ofInteger]

/-- **The migrated resource has the id of the old one.** -/
theorem migrateHost_canonical (h : HasCanonical rules host) (migration : Migration) :
    ∃ resource ∈ (hostOf (migrateHost rules migration host)).optionalModuleSlots,
      isCanonicalWlanModuleResource rules resource = true ∧
        resource.id = migration.source.id := by
  have hrelocated : HasCanonical rules
      (migration.destinationIdRelocations.foldl relocateResource host) :=
    List.foldlRecOn _ _ h fun host hhost relocation _ => hhost.relocateResource relocation
  obtain ⟨slots, hslots, slot, hslot, hcanonical⟩ := hrelocated
  obtain ⟨changed, hchanged, hresource⟩ := exists_mem_modifyFirst_set
    (p := fun candidate => isCanonicalWlanModuleResource rules (resourceOf candidate)) hslot
    hcanonical isCanonical_set_id (fun value => exists_of_isCanonical) migration.source.id
  have hget : (migrateHost rules migration host).get "optionalModuleSlots" =
      .array (modifyFirst (fun candidate =>
        isCanonicalWlanModuleResource rules (resourceOf candidate))
        (fun candidate => candidate.set "id" (ofInteger migration.source.id)) slots) := by
    rw [migrateHost, get_removeEmpty_of_ne (by decide), get_modify_of_ne (by decide), get_modify_self rfl,
      hslots]
    rfl
  refine ⟨resourceOf changed, ?_, hresource⟩
  change resourceOf changed ∈ (entriesOf _).map resourceOf
  rw [hget]
  exact List.mem_map_of_mem hchanged

/-! ## The host of the merged item -/

variable {rules : Compatibility.TextRules} {version : Option ℕ}
  {current incoming : List (String × Value)}

/-- The host as the merge has it before a resource migrates. -/
def overlaidHost (current incoming : List (String × Value)) : Value :=
  (memberOf (mergeMembers current current incoming) "compatibility").get "host"

theorem finish_undefined (key : String) : finish version incoming key .undefined = .undefined := by
  unfold finish dropMinimum
  split
  · split
    · rfl
    · split <;> rfl
  · rfl

theorem get_host_finish (value : Value) :
    (finish version incoming "compatibility" value).get "host" = value.get "host" := by
  unfold finish dropMinimum
  split
  · rw [if_pos rfl, get_modify_of_ne (by decide)]
  · rfl

theorem memberOf_mergedBefore (hincoming : (keys incoming).Nodup) :
    memberOf (mergedBefore current incoming) "compatibility" =
      memberOf (mergeMembers current current incoming) "compatibility" := by
  refine memberOf_eq_of_get? ?_
  rw [get?_mergedBefore hincoming, if_neg (by decide)]
  simp only
  rw [if_neg (fun h => absurd h.1 (by decide)), get?_mergeMembers current hincoming]

/-- The host of the result, when the compatibility is changed in between. -/
theorem get_host_finishMerge (hincoming : (keys incoming).Nodup) {f : Value → Value}
    (hf : f .undefined = .undefined) :
    (memberOf (finishMerge version incoming (modifyMember "compatibility" f
      (mergedBefore current incoming))) "compatibility").get "host" =
      (f (memberOf (mergeMembers current current incoming) "compatibility")).get "host" := by
  have hfinished : memberOf (finishMerge version incoming (modifyMember "compatibility" f
      (mergedBefore current incoming))) "compatibility" = finish version incoming "compatibility"
        (memberOf (modifyMember "compatibility" f (mergedBefore current incoming))
          "compatibility") := by
    rw [memberOf, get?_finishMerge, memberOf]
    cases get? (modifyMember "compatibility" f (mergedBefore current incoming)) "compatibility" with
    | none => exact (finish_undefined _).symm
    | some value => rfl
  rw [hfinished, get_host_finish, memberOf_modifyMember_self hf, memberOf_mergedBefore hincoming]

theorem migrateHost_undefined (migration : Migration) :
    migrateHost rules migration .undefined = .undefined := by
  have hrelocated : migration.destinationIdRelocations.foldl relocateResource Value.undefined =
      .undefined := by
    refine List.foldlRecOn (motive := fun host : Value => host = .undefined) _ _ rfl ?_
    rintro host rfl relocation -
    rfl
  rw [migrateHost, hrelocated]
  rfl

variable {migration : Migration}

theorem mergedMembers_of_ready
    (hready : planWlanResourceMigration rules (itemHost current) (itemHost incoming) =
      .ready migration) : mergedMembers rules version current incoming =
        finishMerge version incoming (modifyMember "compatibility"
          (Value.modify "host" (migrateHost rules migration)) (mergedBefore current incoming)) := by
  rw [mergedMembers_eq, removeSupersededWlanResource, hready]

theorem itemHost_of_ready (hincoming : (keys incoming).Nodup)
    (hready : planWlanResourceMigration rules (itemHost current) (itemHost incoming) =
      .ready migration) : itemHost (mergedMembers rules version current incoming) =
        hostOf (migrateHost rules migration (overlaidHost current incoming)) := by
  rw [mergedMembers_of_ready hready, itemHost, get_host_finishMerge hincoming rfl,
    get_modify_self (migrateHost_undefined migration)]
  rfl

/-! ## A resource that migrates -/

/-- The incoming host of a migration, with its canonical resource. -/
theorem exists_of_ready
    (hready : planWlanResourceMigration rules (itemHost current) (itemHost incoming) =
      .ready migration) :
    ∃ members host slots, memberOf incoming "compatibility" = .object members ∧
      memberOf members "host" = .object host ∧
      memberOf host "optionalModuleSlots" = .array slots ∧
      (slots.map resourceOf).filter (isCanonicalWlanModuleResource rules) =
        [migration.destination] := by
  obtain ⟨-, hdestination⟩ := planWlanResourceMigration_source hready
  rw [itemHost, hostOf] at hdestination
  cases hcompatibility : memberOf incoming "compatibility" with
  | object members =>
    rw [hcompatibility] at hdestination
    cases hhost : memberOf members "host" with
    | object host =>
      cases hslots : memberOf host "optionalModuleSlots" with
      | array slots =>
        refine ⟨members, host, slots, rfl, hhost, hslots, ?_⟩
        have hget : ((Value.object members).get "host").get "optionalModuleSlots" = .array slots := by
          rw [Value.get, hhost, Value.get, hslots]
        simpa only [hget, entriesOf] using hdestination
      | _ =>
        exfalso
        simp [Value.get, hhost, hslots, entriesOf] at hdestination
    | _ =>
      exfalso
      simp [Value.get, hhost, entriesOf] at hdestination
  | _ =>
    exfalso
    simp [hcompatibility, Value.get, entriesOf] at hdestination

/-- The merged host has the modules of the incoming one. -/
theorem hasCanonical_overlaidHost (hincoming : WellFormed (.object incoming))
    (hready : planWlanResourceMigration rules (itemHost current) (itemHost incoming) =
      .ready migration) : HasCanonical rules (overlaidHost current incoming) := by
  obtain ⟨members, host, slots, hcompatibility, hhost, hslots, hcanonical⟩ := exists_of_ready hready
  have hmembers : WellFormed (.object members) := hcompatibility ▸ hincoming.memberOf "compatibility"
  have hhostFormed : WellFormed (.object host) := hhost ▸ hmembers.memberOf "host"
  have hget : (overlaidHost current incoming).get "optionalModuleSlots" = .array slots := by
    rw [overlaidHost, memberOf_mergeMembers hincoming.keys_nodup, hcompatibility,
      get_deepMerge hmembers.keys_nodup, hhost, get_deepMerge hhostFormed.keys_nodup, hslots]
    rfl
  have hmem : migration.destination ∈ (slots.map resourceOf).filter
      (isCanonicalWlanModuleResource rules) := hcanonical ▸ List.mem_singleton_self _
  obtain ⟨hresource, hdestination⟩ := List.mem_filter.mp hmem
  obtain ⟨slot, hslot, heq⟩ := List.mem_map.mp hresource
  exact ⟨slots, hget, slot, hslot, heq ▸ hdestination⟩

/-! ## What is kept -/

/-- The result keeps the local fields of the current item and of its ports, and the resource
that migrates has the id of the old one. -/
structure KeepsLocal (rules : Rules) (current next sanitized : Item) : Prop where
  fields : ∀ field ∈ localTopLevelFields, (current.get field).isUndefined = false →
    next.get field = current.get field
  ports : ∀ port ∈ entriesOf (next.get "ports"), ∀ old ∈ entriesOf (current.get "ports"),
    ∀ id : ℤ, portId port = some id → portId old = some id →
      ∀ field ∈ localPortFields, (old.get field).isUndefined = false →
        port.get field = old.get field
  migrated : ∀ migration, planWlanResourceMigration rules.keys (itemHost current.members)
      (itemHost sanitized.members) = .ready migration →
    ∃ resource ∈ (itemHost next.members).optionalModuleSlots,
      isCanonicalWlanModuleResource rules.keys resource = true ∧
        resource.id = migration.source.id

section

variable {rules : Rules} {current incoming sanitized : Item}

/-- What `mergeCatalogItem` gives. -/
theorem mergeCatalogItem_eq_ok {version : Option ℕ} {merged : Item}
    (h : mergeCatalogItem rules version current incoming = .ok merged)
    (hsanitized : sanitizeForFingerprint rules incoming version = .ok sanitized) :
    merged.members = mergedMembers rules.keys version current.members sanitized.members := by
  rw [mergeCatalogItem, hsanitized] at h
  obtain rfl := Except.ok.inj h
  rfl

/-- A field of the result, other than the compatibility. -/
theorem memberOf_mergedMembers {key : String} (hkey : key ∈ localTopLevelFields ∨ key = "ports")
    (rules : Compatibility.TextRules) (version : Option ℕ)
    (current incoming : List (String × Value)) :
    memberOf (mergedMembers rules version current incoming) key =
      memberOf (mergedBefore current incoming) key := by
  have hne : key ≠ "compatibility" := by
    rintro rfl
    exact absurd hkey (by decide)
  refine memberOf_eq_of_get? ?_
  rw [mergedMembers_eq, get?_finishMerge, finish_of_mem hkey, Option.map_id_fun, id]
  unfold removeSupersededWlanResource
  split
  · rw [get?_modifyMember]
    simp [hne]
  · rfl

/-- **Every update keeps what is local**, when ports have distinct ids. -/
theorem keepsLocal_mergedMembers (version : Option ℕ)
    (hports : ((entriesOf (current.get "ports")).map portId).Nodup) {next : Item}
    (hnext : next.members = mergedMembers rules.keys version current.members sanitized.members) :
    KeepsLocal rules current next sanitized where
  fields field hfield hdefined := by
    have hne : field ≠ "ports" := by
      rintro rfl
      exact absurd hfield (by decide)
    rw [Item.get, hnext, memberOf_mergedMembers (.inl hfield)]
    refine memberOf_of_get? ?_
    rw [get?_mergedBefore sanitized.wellFormed.keys_nodup, if_neg hne]
    exact if_pos ⟨hfield, hdefined⟩
  ports port hport old hold id hid holdId field hfield hdefined := by
    rw [Item.get, hnext, memberOf_mergedMembers (.inr rfl)] at hport
    have hget := @get?_mergedBefore current.members sanitized.members
      sanitized.wellFormed.keys_nodup "ports"
    rw [if_pos rfl] at hget
    cases hsanitized : memberOf sanitized.members "ports" with
    | array ports =>
      rw [hsanitized] at hget
      rw [memberOf_of_get? hget] at hport
      obtain ⟨incomingPort, hincoming, rfl⟩ := List.mem_map.mp hport
      have hformed := wellFormed_entriesOf (sanitized.wellFormed.memberOf "ports")
      rw [hsanitized] at hformed
      have hincomingFormed := hformed incomingPort hincoming
      rw [portId_mergePort hincomingFormed] at hid
      exact get_mergePort_local hports hincomingFormed hold hid holdId hfield hdefined
    | undefined =>
      rw [hsanitized] at hget
      simp only at hget
      rw [if_neg (fun h => absurd h.1 (by decide))] at hget
      -- the ports are those of the current item
      have hsame : memberOf (mergedBefore current.members sanitized.members) "ports" =
          memberOf current.members "ports" := by
        rw [memberOf, hget, memberOf]
        rw [memberOf] at hsanitized
        cases hin : InsertionMap.get? sanitized.members "ports" with
        | none => rfl
        | some value =>
          rw [hin, Option.getD_some] at hsanitized
          rw [hsanitized]
          rfl
      rw [hsame] at hport
      rw [eq_of_key_eq hports hport hold (hid.trans holdId.symm)]
    | _ =>
      rw [hsanitized] at hget
      simp only at hget
      rw [if_neg (fun h => absurd h.1 (by decide))] at hget
      rw [memberOf] at hsanitized
      cases hin : InsertionMap.get? sanitized.members "ports" with
      | none =>
        rw [hin] at hsanitized
        cases hsanitized
      | some value =>
        rw [hin, Option.getD_some] at hsanitized
        rw [hin, Option.map_some, Option.some_or, hsanitized] at hget
        rw [memberOf_of_get? hget] at hport
        revert hport
        cases memberOf current.members "ports" <;> exact fun hport => absurd hport List.not_mem_nil
  migrated migration hready := by
    rw [hnext, itemHost_of_ready sanitized.wellFormed.keys_nodup hready]
    exact migrateHost_canonical (hasCanonical_overlaidHost sanitized.wellFormed hready) migration

end

/-- Keys of ASCII characters. -/
def asciiKeys : Compatibility.TextRules where
  toLowerCase text := String.ofList (text.toList.map Char.toLower)
  localeCompare := compare
  consistent := String.instTransOrd

/-- Items that are canonical already. -/
def plainRules : Rules where
  keys := asciiKeys
  sanitizeCatalogItem := .ok
  canonicalizeCatalogItemV9 := .ok
  canonicalizeCatalogItemV10 := .ok
  canonicalizeCatalogItemV11 := .ok
  canonicalizeCatalogItemV12 := .ok

theorem wellFormed_array_iff {entries : List Value} :
    WellFormed (.array entries) ↔ ∀ entry ∈ entries, WellFormed entry :=
  ⟨fun h => by cases h; assumption, .array⟩

theorem wellFormed_object_iff {members : List (String × Value)} :
    WellFormed (.object members) ↔ (keys members).Nodup ∧ ∀ member ∈ members, WellFormed member.2 :=
  ⟨fun h => ⟨h.keys_nodup, h.member⟩, fun h => .object h.1 h.2⟩

/-- A host with a port and the slot of a wireless card among the resources of a collection. -/
def wlanHost (name portLabel collection : String) (slotId : ℤ) : Item where
  members := [("type", .string "desktop"), ("name", .string name),
    ("ports", .array [.object [("id", ofInteger (some 3)), ("label", .string portLabel)]]),
    ("compatibility", .object [("host", .object [(collection, .array [
      .object [("id", ofInteger (some slotId)), ("key", .string "m2-ae-slot"),
        ("count", ofInteger (some 1)), ("interfaceFamily", .string "m2-ae")]])])])]
  wellFormed := by
    simp [wellFormed_object_iff, wellFormed_array_iff, wellFormed_ofInteger, WellFormed.string,
      InsertionMap.keys]

/-- A host that was renamed, with a port that was labelled, and its slot declared the old way. -/
def legacyHost : Item := wlanHost "Lab desktop" "Uplink" "expansionSlots" 7

/-- The host of the registry, with the slot as an optional module of another id. -/
def registryHost : Item := wlanHost "Desktop" "LAN 1" "optionalModuleSlots" 1

end HomelabInventory.CatalogUpdates
