import HomelabInventory.MergedObjects
import HomelabInventory.WlanResources

/-!
# Projecting a share

`server/sharing/share-projector.mjs` and `privacy-policy.mjs`, with `privacy.ts` and
`canonicalize.ts` of `packages/share-contract`: what is published of a project. What HMAC,
SHA-256, `String`, `Date` and the shapes of the zod schemas make of a value is a parameter.
-/

namespace HomelabInventory.SharePrivacy

open CatalogProtocol (Value memberOf quote arrayText objectText compareKeys)
open Wlan (trimSpace)

/-- The members of an object. -/
abbrev Members := List (String × Value)

/-! ## Names of fields -/

/-- `ShareFieldClassification` -/
inductive FieldClassification where
  | safeDefault
  | explicitOptIn
  | forbidden
deriving DecidableEq

/-- The letters and digits of a name, in lower case. -/
def normalizeField (field : String) : List Char :=
  (field.toList.filter Char.isAlphanum).map Char.toLower

/-- `forbiddenFields` -/
def forbiddenFields : List (List Char) :=
  ["agentcredentials", "agentidentity", "auditevents", "authorization", "credentials",
    "heartbeatHistory", "ipaddress", "macaddress", "password", "privatekey", "privatemetadata",
    "registrycredentials", "registryenrollment", "secret", "serial", "serialnumber",
    "telemetryhistory", "token"].map normalizeField

/-- `explicitOptInFields` -/
def explicitOptInFields : List (List Char) :=
  ["customfielddefinitions", "customfields", "tags"].map normalizeField

local instance normalizedNames : LawfulBEq (List Char) := inferInstance

/-- `classifyShareField` -/
def classifyShareField (field : String) : FieldClassification :=
  if normalizeField field ∈ forbiddenFields then .forbidden
  else if normalizeField field ∈ explicitOptInFields then .explicitOptIn
  else .safeDefault

/-! ## Errors and the runtime -/

/-- What stops a projection. -/
inductive Failure where
  | invalidId
  | notFinite (path : String)
  | missingItem (viewType : String) (id : ℤ)
  | unsupportedView (type : String)
  | noViews
  | invalidDate
  | invalidShape
  | forbiddenField (path : String)
  | notCanonical
deriving DecidableEq

/-- What the projector calls. -/
structure Runtime where
  /-- the HMAC of a namespace and an id under the key of the installation, as it is published -/
  publicIdText : String → ℤ → String
  /-- the hexadecimal SHA-256 digest -/
  sha256 : List Char → String
  /-- `Number.prototype.toString` -/
  numberText : ℚ → String
  /-- `String(value)` -/
  toText : Value → String
  /-- `new Date(value).toISOString()`, nothing when it throws -/
  isoText : Value → Option String
  /-- the shapes of the blobs and of the manifest, with what they trim -/
  parseBlobShape : Value → Option Value
  parseManifest : Value → Option Value

/-! ## Values -/

/-- `ToBoolean` -/
def truthy : Value → Bool
  | .undefined | .null | .bool false | .number .negativeZero => false
  | .number (.finite value) => value ≠ 0
  | .string value => value ≠ ""
  | _ => true

/-- `optionalString` -/
def optionalString : Value → Option String
  | .string value => if trimSpace value ≠ "" then some (trimSpace value) else none
  | _ => none

/-- `normalizeSide` -/
def normalizeSide : Value → Option String
  | .string value =>
    if value ∈ ["top", "right", "bottom", "left", "front", "back"] then some value else none
  | _ => none

/-- `Number.isSafeInteger` -/
def isSafeInteger : Value → Bool
  | .number .negativeZero => true
  | .number (.finite value) => value.isInt && decide (-2 ^ 53 < value ∧ value < 2 ^ 53)
  | _ => false

/-- A speed that is a safe integer and not negative. -/
def speedOf : Value → Option Value
  | .number (.finite value) =>
    if isSafeInteger (.number (.finite value)) ∧ 0 ≤ value then some (.number (.finite value))
    else none
  | .number .negativeZero => some (.number .negativeZero)
  | _ => none

/-- `value ?? fallback` -/
def orElse (fallback : Value) : Value → Value
  | .undefined | .null => fallback
  | value => value

/-- The value is the given text. -/
def isText (text : String) : Value → Bool
  | .string value => value = text
  | _ => false

/-- A member that is there when it has a value. -/
def present (key : String) (value : Option Value) : Members := (value.map (key, ·)).toList

/-- A member whose value is a text. -/
def presentText (key : String) (value : Option String) : Members := present key (value.map .string)

/-- `findForbiddenShareField` finds the path of a forbidden member. -/
def isForbidden (field : String) : Bool := classifyShareField field = .forbidden

mutual

/-- `findForbiddenShareField` -/
def findForbiddenShareField (path : String) : Value → Option String
  | .array entries => findForbiddenEntry path 0 entries
  | .object members => findForbiddenMember path members
  | _ => none

def findForbiddenEntry (path : String) (index : ℕ) : List Value → Option String
  | [] => none
  | entry :: rest =>
    findForbiddenShareField (path ++ "[" ++ toString index ++ "]") entry <|>
      findForbiddenEntry path (index + 1) rest

def findForbiddenMember (path : String) : List (String × Value) → Option String
  | [] => none
  | (field, entry) :: rest =>
    if isForbidden field then some (path ++ "." ++ field)
    else findForbiddenShareField (path ++ "." ++ field) entry <|> findForbiddenMember path rest

end

/-! ## Sanitizing -/

/-- A member that the sanitizer leaves out. -/
def isPrivate (field : String) : Bool := classifyShareField field ≠ .safeDefault

mutual

/-- `sanitizeShareJson` -/
def sanitizeShareJson (path : String) : Value → Except Failure Value
  | .number .notFinite => .error (.notFinite path)
  | .array entries => do return .array (← sanitizeEntries path 0 entries)
  | .object members => do return .object (← sanitizeMembers path members)
  | value => .ok value

def sanitizeEntries (path : String) (index : ℕ) : List Value → Except Failure (List Value)
  | [] => .ok []
  | entry :: rest => do
    let sanitized ← sanitizeShareJson (path ++ "[" ++ toString index ++ "]") entry
    return sanitized :: (← sanitizeEntries path (index + 1) rest)

/-- Setting `__proto__` sets no property. -/
def sanitizeMembers (path : String) : List (String × Value) → Except Failure Members
  | [] => .ok []
  | (field, entry) :: rest =>
    if isPrivate field then sanitizeMembers path rest
    else do
      let sanitized ← sanitizeShareJson (path ++ "." ++ field) entry
      let more ← sanitizeMembers path rest
      return if field = "__proto__" then more else (field, sanitized) :: more

end

/-- `SAFE_DEFINITION_FIELDS` -/
def safeDefinitionFields : List String :=
  ["type", "manufacturer", "model", "family", "number", "productNumber", "subtype", "formFactor",
    "hardwareClass", "physicalClass", "usageRole", "specs", "compatibility", "dimensions", "power",
    "capacity", "interface", "connector"]

/-- `SAFE_LOCAL_OVERRIDE_FIELDS` -/
def safeLocalOverrideFields : List String := ["usageRole"]

/-- The given fields of a value, sanitized, without those that are undefined. -/
def sanitizeFields (path : String) (source : String → Value) (fields : List String) :
    Except Failure Members := do
  let found ← fields.mapM fun field => do
    if (source field).isUndefined then return []
    return [(field, ← sanitizeShareJson (path ++ field) (source field))]
  return found.flatten

/-! ## Sources -/

/-- A port of an inventory item, and an item: its ports and its other members. -/
structure Item where
  ports : Option (List Members)
  members : Members

/-- The object that the definition of a custom item is taken from, field by field:
`item.definition ?? item`. -/
def Item.definitionField (item : Item) (field : String) : Value :=
  match memberOf item.members "definition" with
  | .undefined | .null => memberOf item.members field
  | definition => definition.get field

/-- `sanitizeCustomDefinition` -/
def sanitizeCustomDefinition (item : Item) : Except Failure Members :=
  sanitizeFields "$." item.definitionField safeDefinitionFields

/-- `sanitizeLocalOverrides` -/
def sanitizeLocalOverrides (value : Value) : Except Failure Members :=
  sanitizeFields "$.localOverrides." value.get safeLocalOverrideFields

structure Tag where
  id : ℤ
  name : Value
  colorToken : Value

structure CustomField where
  definitionId : ℤ
  name : Value
  value : Value

structure Metadata where
  tags : List Tag := []
  customFields : List CustomField := []

structure RegistryLink where
  templateKey : Value
  importedRevision : Value
  importedContentHash : Value

/-- What the owner of a share has set. -/
structure ShareSettings where
  title : Value
  description : Value
  visibility : Value
  mutability : Value
  syncMode : Value
  expirationType : Value
  expirationDurationSeconds : Value
  expiresAtMs : Value
  commentsEnabled : Value
  reactionsEnabled : Value
  embed : Value
  resourceSnapshotCapturedAt : Value
  rendererFeatures : Value
  fieldDefinitionIds : List ℤ := []
  tagIds : List ℤ := []

/-- `selectedMetadata` -/
def selectedMetadata (share : ShareSettings) (metadata : Option Metadata) : Metadata where
  tags := (metadata.getD {}).tags.filter fun tag => tag.id ∈ share.tagIds
  customFields := (metadata.getD {}).customFields.filter fun field =>
    field.definitionId ∈ share.fieldDefinitionIds

structure Placement where
  id : ℤ
  itemId : ℤ
  parentPlacementId : Option ℤ := none
  x : Value
  y : Value
  width : Value
  height : Value
  zIndex : Value

structure Endpoint where
  itemId : ℤ
  portId : Option ℤ := none

structure Connection where
  id : ℤ
  kind : Value
  source : Endpoint
  target : Endpoint
  label : Value
  color : Value
  route : List (Value × Value)

structure View where
  workspaceId : ℤ
  type : String
  name : Value
  itemIds : Option (List ℤ) := none
  placements : List Placement := []
  connections : List Connection := []
  viewport : Value := .undefined

/-- What is shared and what it is taken from. -/
structure Source where
  share : ShareSettings
  projectId : ℤ
  projectName : Value
  views : List View
  items : List Item
  registryLinks : ℤ → Option RegistryLink := fun _ => none
  metadataByItem : ℤ → Option Metadata := fun _ => none
  resourceSnapshots : List (ℤ × Value) := []

/-! ## Public items -/

section Projection

variable (runtime : Runtime)

/-- `publicIds.id(namespace, relationalId)`, for the namespaces of the projector. -/
def publicId (namespace' : String) (relationalId : ℤ) : Except Failure Value :=
  if 0 < relationalId ∧ relationalId < 2 ^ 53 then
    .ok (.string (runtime.publicIdText namespace' relationalId))
  else .error .invalidId

/-- The id of an item or a port. -/
def relationalId : Value → Except Failure ℤ
  | .number (.finite value) => if value.isInt then .ok value.num else .error .invalidId
  | _ => .error .invalidId

def publicPort (port : Members) : Except Failure Value := do
  let id ← relationalId (memberOf port "id")
  let name := memberOf port "name"
  let kind := memberOf port "kind"
  let type := memberOf port "type"
  return .object ([("publicPortId", ← publicId runtime "port" id),
    ("name", .string (if truthy name then runtime.toText name else "Port " ++ toString id)),
    ("kind", .string (if truthy kind then runtime.toText kind
      else if truthy type then runtime.toText type else "other"))] ++
    presentText "connector" (optionalString (memberOf port "connector")) ++
    presentText "side" (normalizeSide (memberOf port "side")) ++
    present "speedBps" (speedOf (memberOf port "speedBps")))

def publicTag (tag : Tag) : Except Failure Value := do
  return .object [("publicTagId", ← publicId runtime "tag" tag.id), ("name", tag.name),
    ("colorToken", tag.colorToken)]

def publicField (field : CustomField) : Except Failure Value := do
  return .object [("publicFieldId", ← publicId runtime "field" field.definitionId),
    ("name", field.name), ("value", field.value)]

/-- Where an item comes from: its template, or its sanitized definition. -/
def publicSource (registry : Option RegistryLink) (localOverrides : Members) (item : Item) :
    Except Failure Value := do
  match registry with
  | some registry =>
    return .object ([("type", .string "registry"), ("registryReference", .object
      [("templateKey", registry.templateKey), ("templateRevision", registry.importedRevision),
        ("contentHash", registry.importedContentHash)])] ++
      if localOverrides.isEmpty then [] else [("localOverrides", .object localOverrides)])
  | none =>
    return .object [("type", .string "custom"),
      ("definition", .object (← sanitizeCustomDefinition item))]

/-- A list that is there when it has entries. -/
def presentList (key : String) (entries : List Value) : Members :=
  if entries.isEmpty then [] else [(key, .array entries)]

/-- `publicItem`, with the id of the item. -/
def publicItem (registry : Option RegistryLink) (metadata : Metadata) (item : Item) (id : ℤ) :
    Except Failure Value := do
  let publicItemId ← publicId runtime "item" id
  let ports ← (item.ports.getD []).mapM (publicPort runtime)
  let localOverrides ← sanitizeLocalOverrides (memberOf item.members "localOverrides")
  let source ← publicSource registry localOverrides item
  let tags ← metadata.tags.mapM (publicTag runtime)
  let customFields ← metadata.customFields.mapM (publicField runtime)
  return .object ([("publicItemId", publicItemId), ("type", memberOf item.members "type"),
    ("name", memberOf item.members "name")] ++
    presentText "manufacturer" (optionalString (memberOf item.members "manufacturer")) ++
    presentText "model" (optionalString (memberOf item.members "model")) ++
    [("source", source), ("ports", .array ports)] ++
    presentList "tags" tags ++ presentList "customFields" customFields)

/-- The public items by the ids of the items. -/
def publicItems (s : Source) : Except Failure (List (ℤ × Value)) :=
  s.items.foldlM (fun found item => do
    let id ← relationalId (memberOf item.members "id")
    let projected ← publicItem runtime (s.registryLinks id)
      (selectedMetadata s.share (s.metadataByItem id)) item id
    return InsertionMap.set found id projected) []

/-! ## Blobs -/

/-- The ids of the hosts. -/
def hostIds (items : List Item) : List ℤ :=
  (items.filter fun item => ["server", "nas", "pcBuild"].any fun type =>
    isText type (memberOf item.members "type")).filterMap fun item =>
      (relationalId (memberOf item.members "id")).toOption

/-- The items that a view uses. -/
def View.usedIds (hosts : List ℤ) (view : View) : List ℤ :=
  if view.type = "systems" then view.itemIds.getD hosts
  else InsertionMap.distinct (view.placements.map (·.itemId))

/-- The connections between two placed items. -/
def View.visibleConnections (view : View) : List Connection :=
  view.connections.filter fun connection =>
    connection.source.itemId ∈ view.placements.map (·.itemId) ∧
      connection.target.itemId ∈ view.placements.map (·.itemId)

/-- An id that is there unless it is absent or 0. -/
def presentId (key namespace' : String) (id : Option ℤ) : Except Failure Members :=
  match id.filter (· ≠ 0) with
  | none => .ok []
  | some id => do return [(key, ← publicId runtime namespace' id)]

def canvasNode (placement : Placement) : Except Failure Value := do
  let publicNodeId ← publicId runtime "node" placement.id
  let publicItemId ← publicId runtime "item" placement.itemId
  let parent ← presentId runtime "parentPublicNodeId" "node" placement.parentPlacementId
  return .object ([("publicNodeId", publicNodeId), ("publicItemId", publicItemId)] ++ parent ++
    [("position", .object [("x", placement.x), ("y", placement.y)]),
      ("size", .object [("width", placement.width), ("height", placement.height)])] ++
    if isSafeInteger placement.zIndex then [("zIndex", placement.zIndex)] else [])

def connectionEndpoint (endpoint : Endpoint) : Except Failure Value := do
  let publicItemId ← publicId runtime "item" endpoint.itemId
  let port ← presentId runtime "publicPortId" "port" endpoint.portId
  return .object (("publicItemId", publicItemId) :: port)

def canvasConnection (connection : Connection) : Except Failure Value := do
  let publicConnectionId ← publicId runtime "connection" connection.id
  let source ← connectionEndpoint runtime connection.source
  let target ← connectionEndpoint runtime connection.target
  return .object ([("publicConnectionId", publicConnectionId), ("kind", connection.kind),
    ("source", source), ("target", target)] ++
    presentText "label" (optionalString connection.label) ++
    presentText "color" (optionalString connection.color) ++
    [("route", .array (connection.route.map fun point =>
      .object [("x", point.1), ("y", point.2)]))])

/-- The public item with an id. -/
def projectedItem (viewType : String) (found : ℤ → Option Value) (id : ℤ) : Except Failure Value :=
  match found id with
  | none => .error (.missingItem viewType id)
  | some projected => .ok projected

/-- The blob of a view: of the public items found, their snapshots and the hosts. -/
def viewBlob (found : ℤ → Option Value) (resourceSnapshots : List (ℤ × Value)) (hosts : List ℤ)
    (view : View) : Except Failure Value := do
  let publicViewId ← publicId runtime "view" view.workspaceId
  let header := [("shareContractVersion", .number (.finite 1)), ("viewType", .string view.type),
    ("schemaVersion", .number (.finite 1)), ("publicViewId", publicViewId)]
  if view.type = "systems" then
    let items ← (view.usedIds hosts).mapM fun id => do
      let projected ← projectedItem "Systems" found id
      match InsertionMap.get? resourceSnapshots id with
      | some snapshot =>
        return if truthy snapshot then projected.set "resourceSnapshot" snapshot else projected
      | none => return projected
    return .object (header ++ [("items", .array items)])
  else if view.type = "canvas" then
    let items ← (view.usedIds hosts).mapM (projectedItem "Canvas" found)
    let nodes ← view.placements.mapM (canvasNode runtime)
    let connections ← view.visibleConnections.mapM (canvasConnection runtime)
    return .object (header ++ [("items", .array items), ("nodes", .array nodes),
      ("connections", .array connections)] ++
      if truthy view.viewport then [("viewport", view.viewport)] else [])
  else .error (.unsupportedView view.type)

/-- `parseShareViewBlob`: the shape, and then no forbidden field. -/
def parseShareViewBlob (blob : Value) : Except Failure Value :=
  match runtime.parseBlobShape blob with
  | none => .error .invalidShape
  | some parsed =>
    match findForbiddenShareField "$" parsed with
    | some path => .error (.forbiddenField path)
    | none => .ok parsed

/-! ## Canonical text -/

mutual

/-- `canonicalShareJson` of a value that is no undefined member. -/
def canonicalShareJson : Value → Except Failure (List Char)
  | .undefined | .number .notFinite => .error .notCanonical
  | .null => .ok "null".toList
  | .bool value => .ok (if value then "true".toList else "false".toList)
  | .number .negativeZero => .ok (runtime.numberText 0).toList
  | .number (.finite value) => .ok (runtime.numberText value).toList
  | .string value => .ok (quote value)
  | .array entries => do return arrayText (← canonicalEntries entries)
  | .object members => do return objectText (sortBy compareKeys (← canonicalMembers members))

def canonicalEntries : List Value → Except Failure (List (List Char))
  | [] => .ok []
  | entry :: rest => do return (← canonicalShareJson entry) :: (← canonicalEntries rest)

def canonicalMembers : List (String × Value) → Except Failure (List (String × List Char))
  | [] => .ok []
  | (_, .undefined) :: rest => canonicalMembers rest
  | (key, value) :: rest => do
    return (key, ← canonicalShareJson value) :: (← canonicalMembers rest)

end

/-- A value that is published, with its canonical text and hash. -/
structure Hashed where
  value : Value
  contentJson : List Char
  contentHash : String

/-- `hashCanonical` -/
def hashCanonical (value : Value) : Except Failure Hashed := do
  let contentJson ← canonicalShareJson runtime value
  return ⟨value, contentJson, runtime.sha256 contentJson⟩

/-! ## The projection -/

/-- `expiration` -/
def expiration (share : ShareSettings) : Except Failure Value :=
  if isText "duration" share.expirationType then
    .ok (.object [("type", .string "duration"), ("durationSeconds", share.expirationDurationSeconds)])
  else if isText "at" share.expirationType then
    match runtime.isoText share.expiresAtMs with
    | none => .error .invalidDate
    | some text => .ok (.object [("type", .string "at"), ("expiresAt", .string text)])
  else .ok (.object [("type", .string "indefinite")])

/-- `rendererFeatures` of a share that does not set them. -/
def defaultRendererFeatures : Value :=
  .array (["workbook-tabs", "deep-links", "inspector", "comments-coming-soon",
    "reactions-coming-soon"].map .string)

/-- A view with its blob and its descriptor. -/
def projectView (found : ℤ → Option Value) (resourceSnapshots : List (ℤ × Value)) (hosts : List ℤ)
    (entry : View × ℕ) : Except Failure (Hashed × Value) := do
  let blob ← viewBlob runtime found resourceSnapshots hosts entry.1
  let hashed ← hashCanonical runtime (← parseShareViewBlob runtime blob)
  return (hashed, .object [("publicViewId", blob.get "publicViewId"),
    ("type", .string entry.1.type), ("schemaVersion", .number (.finite 1)),
    ("contentHash", .string hashed.contentHash), ("sortOrder", .number (.finite entry.2)),
    ("name", entry.1.name)])

/-- The manifest of a share with the given descriptors. -/
def manifestOf (share : ShareSettings) (projectId : ℤ) (projectName : Value)
    (resourceSnapshots : List (ℤ × Value)) (descriptors : List Value) : Except Failure Value := do
  let first ← descriptors.head?.elim (.error .noViews) .ok
  let projectPublicId ← publicId runtime "project" projectId
  let expiration ← expiration runtime share
  let enabled (value : Value) : Value := .object [("enabled", .bool (truthy value))]
  return .object ([("shareContractVersion", .number (.finite 1)),
    ("projectPublicId", projectPublicId), ("projectLabel", projectName),
    ("title", share.title)] ++
    present "description" ((optionalString share.description).map fun _ => share.description) ++
    [("visibility", .object [("type", share.visibility)]),
      ("publication", .object (if isText "immutable" share.mutability
        then [("type", .string "immutable")]
        else [("type", .string "replaceable"), ("updateMode", share.syncMode)])),
      ("expiration", expiration), ("comments", enabled share.commentsEnabled),
      ("reactions", enabled share.reactionsEnabled),
      ("embed", orElse (.object [("enabled", .bool false)]) share.embed),
      ("resourceSnapshots", .object (if resourceSnapshots.isEmpty
        then [("included", .bool false)]
        else [("included", .bool true), ("capturedAt", share.resourceSnapshotCapturedAt)])),
      ("rendererFeatures", orElse defaultRendererFeatures share.rendererFeatures),
      ("initialViewPublicId", first.get "publicViewId"), ("views", .array descriptors)])

/-- What is published: the manifest and the blobs. -/
structure Projection where
  manifest : Hashed
  blobs : List Hashed

/-- The projection of the views, with the public items found. -/
def projectViews (s : Source) (found : ℤ → Option Value) : Except Failure Projection := do
  let results ← s.views.zipIdx.mapM
    (projectView runtime found s.resourceSnapshots (hostIds s.items))
  let manifest ← manifestOf runtime s.share s.projectId s.projectName s.resourceSnapshots
    (results.map (·.2))
  match runtime.parseManifest manifest with
  | none => .error .invalidShape
  | some manifest => do
    return ⟨← hashCanonical runtime manifest, results.map (·.1)⟩

/-- `project` -/
def project (s : Source) : Except Failure Projection := do
  let found ← publicItems runtime s
  projectViews runtime s (InsertionMap.get? found)

end Projection

end HomelabInventory.SharePrivacy
