import HomelabInventory.Compatibility
import Mathlib.Data.List.DropRight

/-!
# The wireless card slot of older catalog items

Older items declare the M.2 A/E slot of their wireless card as an expansion slot,
newer ones as an optional module. An update that replaces the one by the other is
planned as a migration of the slot: the new resource takes over the id of the old
one, and a resource that is in its way moves to a free id.
-/

namespace HomelabInventory.Wlan

open Compatibility (TextRules isSpace)

/-! ## Keys -/

/-- `String.prototype.trim`. -/
def trimSpace (value : String) : String :=
  String.ofList ((value.toList.dropWhile isSpace).rdropWhile isSpace)

/-- The characters `\w` matches. -/
def isWordChar (c : Char) : Bool := c.isAlphanum || c == '_'

/-- `replace(/m\s*\.\s*2/g, 'm2')`, for texts of at most `fuel` characters. -/
def replaceM2 : ℕ → List Char → List Char
  | 0, cs => cs
  | _, [] => []
  | fuel + 1, 'm' :: cs =>
    match cs.dropWhile isSpace with
    | '.' :: dotted =>
      match dotted.dropWhile isSpace with
      | '2' :: rest => 'm' :: '2' :: replaceM2 fuel rest
      | _ => 'm' :: replaceM2 fuel cs
    | _ => 'm' :: replaceM2 fuel cs
  | fuel + 1, c :: cs => c :: replaceM2 fuel cs

/-- What follows a match of `a\s*[+/&-]\s*e\b` whose `a` is already read. -/
def afterAe (cs : List Char) : Option (List Char) :=
  match cs.dropWhile isSpace with
  | joint :: joined =>
    if joint = '+' ∨ joint = '/' ∨ joint = '&' ∨ joint = '-' then
      match joined.dropWhile isSpace with
      | 'e' :: rest => if (rest.head?.map isWordChar).getD false then none else some rest
      | _ => none
    else none
  | [] => none

/-- `replace(/\ba\s*[+/&-]\s*e\b/g, 'ae')`, for texts of at most `fuel` characters;
`inWord` says whether the character before is one of a word. -/
def replaceAe : ℕ → Bool → List Char → List Char
  | 0, _, cs => cs
  | _, _, [] => []
  | fuel + 1, inWord, c :: cs =>
    if c = 'a' ∧ inWord = false then
      match afterAe cs with
      | some rest => 'a' :: 'e' :: replaceAe fuel true rest
      | none => c :: replaceAe fuel true cs
    else c :: replaceAe fuel (isWordChar c) cs

/-- `replace(/[^a-z0-9]+/g, '-')`; `inGap` says whether a dash stands for the characters
before. -/
def dashGaps : Bool → List Char → List Char
  | _, [] => []
  | inGap, c :: cs =>
    if c.isLower || c.isDigit then c :: dashGaps false cs
    else if inGap then dashGaps true cs
    else '-' :: dashGaps true cs

/-- `replace(/^-|-$/g, '')` on a text without two dashes in a row. -/
def stripDashes (cs : List Char) : List Char := (cs.dropWhile (· == '-')).rdropWhile (· == '-')

/-- A key to compare by, with the usual spellings of `m2` and `ae` made one. -/
def normalizedKey (rules : TextRules) (value : Option String) : String :=
  match value with
  | none => ""
  | some value =>
    let cs := (rules.toLowerCase (trimSpace value)).toList
    let cs := replaceM2 cs.length cs
    let cs := replaceAe cs.length false cs
    String.ofList (stripDashes (dashGaps false cs))

/-! ## Resources -/

/-- The largest integer a number stands for exactly. -/
def maxSafeInteger : ℤ := 2 ^ 53 - 1

/-- `Number.isSafeInteger(n) && n > 0`. -/
def isPositiveId (id : Option ℤ) : Bool :=
  match id with
  | some n => decide (0 < n ∧ n ≤ maxSafeInteger)
  | none => false

/-- A group of slots a host offers. -/
structure Resource where
  id : Option ℤ
  key : String
  label : Option String
  count : Option ℤ
  interfaceFamily : Option String
  acceptedModuleKinds : Option (List String)
  deriving DecidableEq

/-- A resource that a constraint group names. -/
structure ConstraintMember where
  resourceType : String
  resourceId : Option ℤ
  deriving DecidableEq

/-- The resources of a host. -/
structure Host where
  storageSlots : List Resource
  expansionSlots : List Resource
  optionalModuleSlots : List Resource
  controllerSlots : List Resource
  bootDeviceSlots : List Resource
  constraintGroups : List (List ConstraintMember)
  deriving DecidableEq

/-- The number of slots of a resource, one unless it says otherwise. -/
def resourceCount (resource : Resource) : ℤ :=
  if isPositiveId resource.count then resource.count.getD 1 else 1

/-- A wireless card slot declared the old way. -/
def isLegacyWlanExpansionResource (rules : TextRules) (resource : Resource) : Bool :=
  let key := normalizedKey rules (some resource.key)
  let description := normalizedKey rules (some (resource.key ++ " " ++ resource.label.getD ""))
  key == "m2-ae-slot" ||
    (Compatibility.includes description "m2" && Compatibility.includes description "ae" &&
      (Compatibility.includes description "wlan" ||
        Compatibility.includes description "wireless" ||
        Compatibility.includes description "2230"))

/-- A wireless card slot declared the new way. -/
def isCanonicalWlanModuleResource (rules : TextRules) (resource : Resource) : Bool :=
  let key := normalizedKey rules (some resource.key)
  (key == "wlan-m2" && (match resource.acceptedModuleKinds with
      | some kinds => kinds.any fun kind => normalizedKey rules (some kind) == "wireless-card"
      | none => false)) ||
    (key == "m2-ae-slot" && normalizedKey rules resource.interfaceFamily == "m2-ae")

/-- The constraint groups that name a resource. -/
def constraintReferences (host : Host) (resourceType : String) (resourceId : Option ℤ) :
    List (List ConstraintMember) :=
  if isPositiveId resourceId then
    host.constraintGroups.filter fun members => members.any fun member =>
      member.resourceType == resourceType && member.resourceId == resourceId
  else []

/-! ## The migration -/

/-- A resource that moves to another id. -/
structure Relocation where
  key : String
  fromId : Option ℤ
  toId : Option ℤ
  deriving DecidableEq

/-- A planned migration. -/
structure Migration where
  source : Resource
  destination : Resource
  count : ℤ
  destinationIdRelocations : List Relocation
  deriving DecidableEq

/-- Whether a wireless card slot migrates. -/
inductive MigrationPlan where
  /-- there is nothing to migrate -/
  | none
  /-- the migration is not unique, and why -/
  | ambiguous (reason : String)
  /-- the migration -/
  | ready (migration : Migration)
  deriving DecidableEq

/-- Make room for the destination at the id of the source. The destination is the only
canonical resource, so the others are the ones that are not canonical. -/
def destinationIdRelocations (rules : TextRules) (currentHost nextHost : Host)
    (source destination : Resource) : Except String (List Relocation) :=
  if destination.id = source.id then .ok []
  else
    match nextHost.optionalModuleSlots.filter fun resource =>
        !isCanonicalWlanModuleResource rules resource && resource.id == source.id with
    | [] => .ok []
    | [collision] =>
      if currentHost.optionalModuleSlots.any fun resource =>
          normalizedKey rules (some resource.key) == normalizedKey rules (some collision.key) then
        .error ("Optional module resource ID " ++ (source.id.map toString).getD "undefined" ++
          " belongs to an existing local resource and cannot be reassigned.")
      else
        let occupied := (nextHost.optionalModuleSlots.map Resource.id).filter isPositiveId
        -- `Math.max` of an absent id is not a number
        .ok [⟨collision.key, collision.id, source.id.map fun id =>
          (occupied.filterMap fun id => id).foldl max (max 0 id) + 1⟩]
    | _ => .error ("Optional module resource ID " ++ (source.id.map toString).getD "undefined" ++
        " is not unique.")

/-- Plan how the wireless card slot of an item migrates in an update. -/
def planWlanResourceMigration (rules : TextRules) (currentHost nextHost : Host) :
    MigrationPlan :=
  let sources := currentHost.expansionSlots.filter (isLegacyWlanExpansionResource rules)
  let destinations := nextHost.optionalModuleSlots.filter (isCanonicalWlanModuleResource rules)
  let sourceStillPresent := nextHost.expansionSlots.any (isLegacyWlanExpansionResource rules)
  if sources = [] then .none
  else if destinations = [] ∧ sourceStillPresent = true then .none
  else
    match sources, destinations with
    | [source], [destination] =>
      if resourceCount source ≠ resourceCount destination then
        .ambiguous ("Legacy WLAN resource count " ++ toString (resourceCount source) ++
          " does not match destination count " ++ toString (resourceCount destination) ++ ".")
      else if constraintReferences currentHost "expansion-slot" source.id ≠ [] ∨
          constraintReferences nextHost "optional-module" destination.id ≠ [] then
        .ambiguous ("The WLAN resource is referenced by a constraint group and cannot be " ++
          "migrated automatically.")
      else
        match destinationIdRelocations rules currentHost nextHost source destination with
        | .error reason => .ambiguous reason
        | .ok relocations => .ready ⟨source, destination, resourceCount source, relocations⟩
    | [_], _ => .ambiguous ("Expected one canonical optionalModuleSlots.m2-ae-slot destination, " ++
        "found " ++ toString destinations.length ++ ".")
    | _, _ => .ambiguous ("Expected one legacy M.2 A/E WLAN resource, found " ++
        toString sources.length ++ ".")

/-- What a planned migration starts from. -/
theorem planWlanResourceMigration_source {rules : TextRules} {currentHost nextHost : Host}
    {migration : Migration}
    (h : planWlanResourceMigration rules currentHost nextHost = .ready migration) :
    currentHost.expansionSlots.filter (isLegacyWlanExpansionResource rules) = [migration.source] ∧
      nextHost.optionalModuleSlots.filter (isCanonicalWlanModuleResource rules)
        = [migration.destination] := by
  simp only [planWlanResourceMigration] at h
  split at h
  · cases h
  · split at h
    · cases h
    · split at h
      · rename_i source destination hsources hdestinations
        split at h
        · cases h
        · split at h
          · cases h
          · split at h
            · cases h
            · cases h
              exact ⟨hsources, hdestinations⟩
      · cases h
      · cases h

end HomelabInventory.Wlan
