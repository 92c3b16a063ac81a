import HomelabInventory.ContributionRegistry

/-!
# Discovering contributions

`discoverContributionCandidates` reads the registry store and the items in one
go, projects the items and matches their groups against what the registry is
known to hold, and only then writes what it found. What it is going to write is
a `Plan`: a function of what it read, which `Plan.commit` puts into whatever the
store holds by then.
-/

namespace HomelabInventory.Contributions

open InsertionMap

def MAX_SAFE_INTEGER : ℤ := 9007199254740991

def MAX_OUTBOX_RECORDS : ℕ := 10000

/-! ## Items and what the catalog protocol makes of them -/

/-- A local inventory item. What else it holds is a JSON text. -/
structure Item where
  type : String
  id : ℤ
  detail : String := ""
deriving DecidableEq

def Item.ref (item : Item) : ItemRef := ⟨item.type, item.id⟩

/-- The fields of a projected local item that decide its legacy fingerprint version. -/
structure LocalCatalogItem where
  type : String
  manufacturer : Option String
  model : Option String

/-- What an eligible projection says, apart from the item it was made of. -/
structure Projected where
  identityHash : String
  contentHash : String
  fingerprintVersion : ℕ
  content : String := ""
deriving DecidableEq

structure Projection extends Projected where
  source : ItemRef
deriving DecidableEq

/-- A group of projections of one identity. It has at least one source. -/
structure CatalogGroup where
  withheldConflict : Bool := false
  identityHash : String
  contentHash : String
  fingerprintVersion : ℕ
  primary : ItemRef
  others : List ItemRef := []
  item : String := ""
  productFamily : Option String := none
  variantEvidence : Option String := none
deriving DecidableEq

def CatalogGroup.sources (group : CatalogGroup) : List ItemRef := group.primary :: group.others

/-- What the registry is known to hold under a content hash. -/
structure ExternalEntry where
  published : Bool
  identityHash : Option String := none
  templateKey : Option String := none
  fingerprintVersion : Option ℕ := none
  identityAliases : Option (List IdentityAlias) := none
  revision : Option ℕ := none
  productFamily : Option String := none
  variantEvidence : Option String := none
deriving DecidableEq

/-- A published entry under the identity it was found by. -/
structure PublishedCandidate where
  entry : ExternalEntry
  contentHash : String
  matchedFingerprintVersion : Option ℕ := none
deriving DecidableEq

inductive OemMatch
  | none
  | found (candidate : PublishedCandidate)
  | ambiguous

def OemMatch.candidate? : OemMatch → Option PublishedCandidate
  | .found candidate => some candidate
  | _ => Option.none

/-- What the matchers and the catalog protocol compute of an item or a group. -/
structure CatalogProtocol where
  projectLocalItemForCatalog : Item → LocalCatalogItem
  /-- The projection of an item, when it is eligible. -/
  projectCatalogItem : Item → ℕ → Option Projected
  reconcileCatalogProjections : List Projection → List CatalogGroup
  matchOemVariant : CatalogGroup → List PublishedCandidate → OemMatch
  sha256Hex : String → String

/-- The hashes known from outside the store, each with what is known of it. -/
abbrev ExternalHashes := List (String × Option ExternalEntry)

/-! ## Projections -/

section
variable (P : CatalogProtocol)

def legacyFingerprintVersionForItem (item : Item) : ℕ :=
  let catalogItem := P.projectLocalItemForCatalog item
  if catalogItem.type = "workstation" then WORKSTATION_FINGERPRINT_VERSION
  else if catalogItem.type = "server" then SERVER_FINGERPRINT_VERSION
  else if catalogItem.type = "motherboard" then MOTHERBOARD_FINGERPRINT_VERSION
  else if catalogItem.type = "ram" then RAM_FINGERPRINT_VERSION
  else if catalogItem.type ∈ ["desktop", "server", "nas"] ∧ catalogItem.manufacturer.isSome ∧
      catalogItem.model.isSome then OEM_FINGERPRINT_VERSION
  else FINGERPRINT_VERSION

def fingerprintVersionForItem (item : Item) : ℕ :=
  if item.type = "network" then NETWORK_FINGERPRINT_VERSION
  else if item.type = "nas" then NAS_FINGERPRINT_VERSION
  else CANONICAL_UNITS_FINGERPRINT_VERSION

def projectLocalInventoryItem (item : Item) (fingerprintVersion : ℕ) : Option Projection :=
  (P.projectCatalogItem item fingerprintVersion).map fun projected => ⟨projected, item.ref⟩

def compatibilityVersions (item : Item) : List ℕ :=
  distinct ([legacyFingerprintVersionForItem P item, FINGERPRINT_VERSION,
    LEGACY_FINGERPRINT_VERSION].filter (· ≠ fingerprintVersionForItem item))

/-- The items that are linked already. -/
def Registry.linkedItems (r : Registry) : List ItemRef :=
  (r.links.filter fun link =>
    link.state ∈ [LinkState.linked, .updateAvailable, .adoptionAvailable]).map (·.toItemRef)

/-- The projection of an item, with its projections under the older versions. -/
def projectItem (registry : Registry) (item : Item) : Option (Projection × List Projection) :=
  if ¬(1 ≤ item.id ∧ item.id ≤ MAX_SAFE_INTEGER) ∨ item.ref ∈ registry.linkedItems then none
  else
    (projectLocalInventoryItem P item (fingerprintVersionForItem item)).map fun projection =>
      (projection, (compatibilityVersions P item).filterMap (projectLocalInventoryItem P item))

/-! ## Matching -/

def identityKey (fingerprintVersion : ℕ) (identityHash : String) : ℕ × String :=
  (fingerprintVersion, identityHash)

/-- A JavaScript string that is there and not empty. -/
def truthy (text : Option String) : Bool := text.any (· ≠ "")

/-- The entries that are published under an identity and a template. -/
def publishedCandidates (external : ExternalHashes) : List PublishedCandidate :=
  external.filterMap fun (contentHash, entry) => entry.bind fun entry =>
    if entry.published ∧ truthy entry.identityHash ∧ truthy entry.templateKey then
      some { entry, contentHash }
    else none

def PublishedCandidate.identities (candidate : PublishedCandidate) : List IdentityAlias :=
  let canonical := candidate.entry.fingerprintVersion.getD LEGACY_FINGERPRINT_VERSION
  { identityHash := candidate.entry.identityHash.getD "", fingerprintVersion := some canonical } ::
    candidate.entry.identityAliases.getD []

/-- Keep the entry of the largest revision under each of its identities. -/
def addPublished (known : List ((ℕ × String) × PublishedCandidate))
    (candidate : PublishedCandidate) : List ((ℕ × String) × PublishedCandidate) :=
  let canonical := candidate.entry.fingerprintVersion.getD LEGACY_FINGERPRINT_VERSION
  candidate.identities.foldl (fun known identity =>
    let key := identityKey (identity.fingerprintVersion.getD canonical) identity.identityHash
    match get? known key with
    | some current =>
      if current.entry.revision.getD 1 < candidate.entry.revision.getD 1 then
        set known key { candidate with matchedFingerprintVersion := identity.fingerprintVersion }
      else known
    | none =>
      set known key { candidate with matchedFingerprintVersion := identity.fingerprintVersion })
    known

def publishedByIdentity (external : ExternalHashes) : List ((ℕ × String) × PublishedCandidate) :=
  (publishedCandidates external).foldl addPublished []

/-- The older projections of the items of a group. -/
def compatibilityIdentities (byItem : List (ItemRef × List Projection)) (group : CatalogGroup) :
    List Projection :=
  group.sources.flatMap fun source => (get? byItem source).getD []

/-- The published entries found by an older identity that all items of the group share. -/
def compatibilityMatches (published : List ((ℕ × String) × PublishedCandidate))
    (byItem : List (ItemRef × List Projection)) (group : CatalogGroup) :
    List (PublishedCandidate × ℕ) :=
  let projections := compatibilityIdentities byItem group
  (distinct (projections.map (·.fingerprintVersion))).filterMap fun fingerprintVersion =>
    match distinct ((projections.filter (·.fingerprintVersion = fingerprintVersion)).map
        (·.identityHash)) with
    | [identityHash] => (get? published (identityKey fingerprintVersion identityHash)).map
        (·, fingerprintVersion)
    | _ => none

/-- The content hash an item has under the older version its group matched. -/
def localContentHash (byItem : List (ItemRef × List Projection)) (source : ItemRef)
    (compatibility : PublishedCandidate × ℕ) : Option String :=
  (((get? byItem source).getD []).find? fun projection =>
    projection.fingerprintVersion = compatibility.2).map (·.contentHash)

/-! ## What a discovery finds -/

/-- A contribution that is not known yet. -/
structure Candidate extends ItemRef where
  sources : List ItemRef
  payload : String
  identityHash : String
  contentHash : String
  fingerprintVersion : ℕ
  productFamily : Option String
  variantEvidence : Option String
  idempotencyKey : String
deriving DecidableEq

def CatalogGroup.candidate (group : CatalogGroup) : Candidate where
  toItemRef := group.primary
  sources := group.sources
  payload := group.item
  identityHash := group.identityHash
  contentHash := group.contentHash
  fingerprintVersion := group.fingerprintVersion
  productFamily := group.productFamily
  variantEvidence := group.variantEvidence
  idempotencyKey := P.sha256Hex ("hli:contribution:v" ++ toString group.fingerprintVersion ++ ":" ++
    group.identityHash ++ ":" ++ group.contentHash)

/-- What was found so far, and the content hashes that are no news. -/
structure Findings where
  links : List (ItemRef × ExternalEntry × String) := []
  adoptions : List (ItemRef × PublishedCandidate × String) := []
  candidates : List Candidate := []
  knownHashes : List String
deriving DecidableEq

/-- What the groups are matched against. -/
structure Known where
  external : ExternalHashes
  byItem : List (ItemRef × List Projection)
  activeSourceId : Option ℕ
  contributionsAllowed : Bool

/-- Queue the group unless its content is known or nothing may be contributed. -/
def Findings.queue (found : Findings) (known : Known) (group : CatalogGroup) : Findings :=
  if group.contentHash ∈ found.knownHashes then found
  else if !known.contributionsAllowed then found
  else { found with
    candidates := found.candidates ++ [group.candidate P]
    knownHashes := group.contentHash :: found.knownHashes }

/-- Link a group that is published, offer one whose identity is published, and
queue the others. -/
def Findings.consider (known : Known) (found : Findings) (group : CatalogGroup) : Findings :=
  let published := publishedByIdentity known.external
  let exact := (get? known.external group.contentHash).join
  let canonicalMatch := get? published (identityKey group.fingerprintVersion group.identityHash)
  let compatibilityMatch := (compatibilityMatches published known.byItem group).head?
  let oemMatch :=
    if canonicalMatch.isSome ∨ group.fingerprintVersion ∉ [OEM_FINGERPRINT_VERSION,
        WORKSTATION_FINGERPRINT_VERSION, SERVER_FINGERPRINT_VERSION,
        MOTHERBOARD_FINGERPRINT_VERSION] then OemMatch.none
    else P.matchOemVariant group (publishedCandidates known.external)
  let identityMatch := canonicalMatch.or
    (oemMatch.candidate?.or (compatibilityMatch.map (·.1)))
  match exact.filter fun entry =>
      entry.published && truthy entry.templateKey && known.activeSourceId.isSome with
  | some entry => { found with
      links := found.links ++ group.sources.map fun source => (source, entry, group.contentHash) }
  | none =>
    match identityMatch.filter fun _ => known.activeSourceId.isSome with
    | some candidate => { found with
        adoptions := found.adoptions ++ group.sources.map fun source =>
          (source, candidate, (compatibilityMatch.bind (localContentHash known.byItem source)).getD
            group.contentHash) }
    | none =>
      match oemMatch, known.activeSourceId with
      | .ambiguous, some _ => found
      | _, _ => found.queue P known group

/-! ## The plan -/

/-- What tells the contributions of an outbox apart. -/
def contributionKey (fingerprintVersion : ℕ) (identityHash contentHash : String) :
    ℕ × String × String :=
  (fingerprintVersion, identityHash, contentHash)

def OutboxRecord.contributionKey (record : OutboxRecord) : ℕ × String × String :=
  Contributions.contributionKey (record.fingerprintVersion.getD FINGERPRINT_VERSION)
    record.identityHash record.contentHash

def CatalogGroup.contributionKey (group : CatalogGroup) : ℕ × String × String :=
  Contributions.contributionKey group.fingerprintVersion group.identityHash group.contentHash

/-- The groups that may be contributed, by what tells them apart. -/
def activeGroupsByContribution (groups : List CatalogGroup) :
    List ((ℕ × String × String) × CatalogGroup) :=
  ofEntries ((groups.filter fun group => !group.withheldConflict).map fun group =>
    (group.contributionKey, group))

/-- What a discovery is going to write: what it read, its groups and its findings. -/
structure Plan where
  registry : Registry
  now : ℤ
  groups : List CatalogGroup
  found : Findings
deriving DecidableEq

structure DiscoveryOptions where
  explicit : Bool := false
  linkOnly : Bool := false

/-- The content hashes that are no news. -/
def Registry.knownHashes (r : Registry) (external : ExternalHashes) : List String :=
  r.links.map (·.importedContentHash) ++ r.outboxHashes ++ r.ledgerHashes ++ external.map (·.1)

/-- What a discovery makes of the store and the items it reads, unless the
settings rule it out. -/
def discoverContributionCandidates (registry : Registry) (items : List Item) (now : ℤ)
    (external : ExternalHashes) (options : DiscoveryOptions) : Option Plan :=
  let contributionsAllowed :=
    !options.linkOnly && (options.explicit || registry.automaticContributions)
  if registry.mode ≠ .connected then none
  else if !contributionsAllowed && !options.linkOnly then none
  else
    let projected := items.filterMap (projectItem P registry)
    let groups := P.reconcileCatalogProjections (projected.map (·.1))
    let known : Known := {
      external
      byItem := ofEntries (projected.map fun (projection, older) => (projection.source, older))
      activeSourceId := registry.snapshotSourceId
      contributionsAllowed }
    some {
      registry, now, groups
      found := (groups.filter fun group => !group.withheldConflict).foldl
        (Findings.consider P known) { knownHashes := registry.knownHashes external } }

end

/-- A record the plan keeps: one in delivery, or one whose group is still eligible. -/
def Plan.retains (plan : Plan) (record : OutboxRecord) : Bool :=
  record.state ∉ [OutboxState.queued, .retrying] ||
    (get? (activeGroupsByContribution plan.groups) record.contributionKey).isSome

def Plan.retainedOutbox (plan : Plan) : List OutboxRecord :=
  plan.registry.contributionOutbox.filter plan.retains

/-- The record with the sources of its group. -/
def Plan.refresh (plan : Plan) (record : OutboxRecord) : OutboxRecord :=
  if record.state ∉ [OutboxState.queued, .retrying] then record
  else match get? (activeGroupsByContribution plan.groups) record.contributionKey with
    | none => record
    | some group => { record with toItemRef := group.primary, sources := group.sources }

def Candidate.enqueue (candidate : Candidate) (id : ℕ) (now : ℤ) : OutboxRecord where
  toItemRef := candidate.toItemRef
  id := id
  sources := candidate.sources
  payload := candidate.payload
  identityHash := candidate.identityHash
  contentHash := candidate.contentHash
  fingerprintVersion := some candidate.fingerprintVersion
  productFamily := candidate.productFamily
  variantEvidence := candidate.variantEvidence
  idempotencyKey := candidate.idempotencyKey
  state := .queued
  attempts := 0
  createdAt := now
  nextAttemptAt := now
  lastError := none

/-- Link an item to the template it is published under. -/
def linkItem (now : ℤ) (sourceId : ℕ) (links : List Link) :
    ItemRef × ExternalEntry × String → List Link
  | (source, exact, contentHash) =>
    let templateKey := exact.templateKey.getD ""
    if links.any (·.toItemRef = source) then
      modifyFirst (fun link => link.toItemRef = source) (fun link =>
        if link.state = .detached ∨ link.state = .contributionPending then
          { link with
            sourceId, templateKey
            importedRevision := exact.revision.getD 1
            importedContentHash := contentHash
            importedFingerprintVersion := exact.fingerprintVersion.getD LEGACY_FINGERPRINT_VERSION
            productFamily := exact.productFamily.or link.productFamily
            variantEvidence := exact.variantEvidence.or link.variantEvidence
            identityAliases := exact.identityAliases.or link.identityAliases
            state := .linked
            linkedAt := now
            availableRevision := none
            availableContentHash := none
            detachedAt := none }
        else link) links
    else links ++ [{
      toItemRef := source
      id := nextId (links.map (·.id))
      sourceId, templateKey
      importedRevision := exact.revision.getD 1
      importedContentHash := contentHash
      state := .linked
      linkedAt := now
      importedFingerprintVersion := exact.fingerprintVersion.getD LEGACY_FINGERPRINT_VERSION
      productFamily := exact.productFamily
      variantEvidence := exact.variantEvidence
      identityAliases := exact.identityAliases }]

/-- Offer an item the template that is published under its identity. -/
def adoptItem (now : ℤ) (sourceId : ℕ) (links : List Link) :
    ItemRef × PublishedCandidate × String → List Link
  | (source, candidate, localContentHash) =>
    if links.any (·.toItemRef = source) then links
    else links ++ [{
      toItemRef := source
      id := nextId (links.map (·.id))
      sourceId
      templateKey := candidate.entry.templateKey.getD ""
      importedRevision := candidate.entry.revision.getD 1
      importedContentHash := localContentHash
      state := .adoptionAvailable
      linkedAt := now
      importedFingerprintVersion := (candidate.matchedFingerprintVersion.or
        candidate.entry.fingerprintVersion).getD FINGERPRINT_VERSION
      productFamily := candidate.entry.productFamily
      variantEvidence := candidate.entry.variantEvidence
      identityAliases := candidate.entry.identityAliases
      availableRevision := some (candidate.entry.revision.getD 1)
      availableContentHash := some candidate.contentHash }]

def Plan.writeLinks (plan : Plan) (links : List Link) : List Link :=
  match plan.registry.snapshotSourceId with
  | none => links
  | some sourceId =>
    plan.found.adoptions.foldl (adoptItem plan.now sourceId)
      (plan.found.links.foldl (linkItem plan.now sourceId) links)

/-- The outbox the plan writes: what it keeps of the one it read, and its candidates. -/
def Plan.outbox (plan : Plan) : List OutboxRecord :=
  let kept := plan.retainedOutbox.map plan.refresh
  kept ++ (plan.found.candidates.zipIdx (nextId (kept.map (·.id)))).map fun (candidate, id) =>
    candidate.enqueue id plan.now

/-- The outbox is the one of the plan; the links are those of the draft. -/
def Plan.write (plan : Plan) (draft : Registry) : Registry :=
  { draft with contributionOutbox := plan.outbox, links := plan.writeLinks draft.links }

/-- Write the plan, unless the outbox would grow too long or the transaction throws. -/
def Plan.commit (plan : Plan) (store : Registry) : Option Registry :=
  if MAX_OUTBOX_RECORDS < plan.retainedOutbox.length + plan.found.candidates.length then none
  else store.registryTransaction plan.write

end HomelabInventory.Contributions
