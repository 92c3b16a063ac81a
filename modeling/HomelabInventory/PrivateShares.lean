import HomelabInventory.AddressedRuns
import HomelabInventory.ShareProjector
import Mathlib.Tactic.FinCases

/-!
# Shares without private data

What is published of a source depends on its public parts alone: two sources that agree on these
are published as the same texts under the same hashes, and no published object has a member with
a forbidden name.
-/

namespace HomelabInventory.SharePrivacy

open List

open CatalogProtocol (Value memberOf)

/-! ## Public parts -/

mutual

/-- A value without its private members, at every depth. -/
def withoutPrivate : Value → Value
  | .array entries => .array (entriesWithoutPrivate entries)
  | .object members => .object (membersWithoutPrivate members)
  | value => value

def entriesWithoutPrivate : List Value → List Value
  | [] => []
  | entry :: rest => withoutPrivate entry :: entriesWithoutPrivate rest

def membersWithoutPrivate : List (String × Value) → Members
  | [] => []
  | (field, entry) :: rest =>
    if isPrivate field then membersWithoutPrivate rest
    else (field, withoutPrivate entry) :: membersWithoutPrivate rest

end

/-- The public part of a port. -/
def portFace (port : Members) : List Value :=
  ["id", "name", "kind", "type", "connector", "side", "speedBps"].map (memberOf port)

/-- Two items have the same public part. -/
structure ItemsAlike (item other : Item) : Prop where
  members : ∀ key ∈ ["type", "name", "manufacturer", "model"],
    memberOf item.members key = memberOf other.members key
  ports : (item.ports.getD []).map portFace = (other.ports.getD []).map portFace
  usageRole : (memberOf item.members "localOverrides").get "usageRole" =
    (memberOf other.members "localOverrides").get "usageRole"
  definition : ∀ field ∈ safeDefinitionFields,
    withoutPrivate (item.definitionField field) = withoutPrivate (other.definitionField field)

/-- The public part of a view: its connections are those between two placed items. -/
def View.publicPart (view : View) : View := { view with connections := view.visibleConnections }

/-- The item with an id, the last one when there are several. -/
def Source.itemWithId (s : Source) (id : ℤ) : Option Item :=
  s.items.reverse.find? fun item => (relationalId (memberOf item.members "id")).toOption = some id

/-- Two sources are publicly equal. The items that a view uses are a list. -/
structure PubliclyEqual (s t : Source) : Prop where
  share : s.share = t.share
  projectId : s.projectId = t.projectId
  projectName : s.projectName = t.projectName
  views : s.views.map (fun view => (view.publicPart, view.usedIds (hostIds s.items))) =
    t.views.map fun view => (view.publicPart, view.usedIds (hostIds t.items))
  registryLinks : s.registryLinks = t.registryLinks
  resourceSnapshots : s.resourceSnapshots = t.resourceSnapshots
  metadata : ∀ view ∈ s.views, ∀ id ∈ view.usedIds (hostIds s.items),
    selectedMetadata s.share (s.metadataByItem id) = selectedMetadata t.share (t.metadataByItem id)
  items : ∀ view ∈ s.views, ∀ id ∈ view.usedIds (hostIds s.items),
    Option.Rel ItemsAlike (s.itemWithId id) (t.itemWithId id)

/-- No object at any depth has a member with a forbidden name. -/
inductive NoneForbidden : Value → Prop where
  | undefined : NoneForbidden .undefined
  | null : NoneForbidden .null
  | bool (value : Bool) : NoneForbidden (.bool value)
  | number (value : CatalogProtocol.Number) : NoneForbidden (.number value)
  | string (value : String) : NoneForbidden (.string value)
  | array {entries : List Value} (hentries : ∀ entry ∈ entries, NoneForbidden entry) :
    NoneForbidden (.array entries)
  | object {members : List (String × Value)}
    (hnames : ∀ member ∈ members, classifyShareField member.1 ≠ .forbidden)
    (hmembers : ∀ member ∈ members, NoneForbidden member.2) : NoneForbidden (.object members)

/-! ## Forbidden fields -/

mutual

/-- **What the search does not find is not there.** -/
theorem noneForbidden_of_find {path : String} : ∀ {value : Value},
    findForbiddenShareField path value = none → NoneForbidden value
  | .undefined, _ => .undefined
  | .null, _ => .null
  | .bool _, _ => .bool _
  | .number _, _ => .number _
  | .string _, _ => .string _
  | .array _, h => .array (noneForbidden_of_findEntry h)
  | .object _, h => .object (fun member hmember => (noneForbidden_of_findMember h member hmember).1)
    fun member hmember => (noneForbidden_of_findMember h member hmember).2

theorem noneForbidden_of_findEntry {path : String} {index : ℕ} : ∀ {entries : List Value},
    findForbiddenEntry path index entries = none → ∀ entry ∈ entries, NoneForbidden entry
  | [], _ => nofun
  | entry :: rest, h => by
    rw [findForbiddenEntry, Option.orElse_eq_none] at h
    exact forall_mem_cons.mpr
      ⟨noneForbidden_of_find h.1, noneForbidden_of_findEntry h.2⟩

theorem noneForbidden_of_findMember {path : String} : ∀ {members : List (String × Value)},
    findForbiddenMember path members = none → ∀ member ∈ members,
      classifyShareField member.1 ≠ .forbidden ∧ NoneForbidden member.2
  | [], _ => nofun
  | (field, entry) :: rest, h => by
    rw [findForbiddenMember] at h
    split at h
    · cases h
    · rename_i hfield
      rw [Option.orElse_eq_none] at h
      exact forall_mem_cons.mpr
        ⟨⟨fun hforbidden => hfield (decide_eq_true hforbidden), noneForbidden_of_find h.1⟩,
          noneForbidden_of_findMember h.2⟩

end

/-! ## Sanitized values -/

mutual

/-- The sanitizer does not look at private members. -/
theorem sanitizeShareJson_withoutPrivate (path : String) : ∀ value : Value,
    sanitizeShareJson path (withoutPrivate value) = sanitizeShareJson path value
  | .undefined | .null | .bool _ | .number _ | .string _ => by rw [withoutPrivate] <;> nofun
  | .array entries => by
    rw [withoutPrivate, sanitizeShareJson, sanitizeShareJson, sanitizeEntries_withoutPrivate]
  | .object members => by
    rw [withoutPrivate, sanitizeShareJson, sanitizeShareJson, sanitizeMembers_withoutPrivate]

theorem sanitizeEntries_withoutPrivate (path : String) (index : ℕ) : ∀ entries : List Value,
    sanitizeEntries path index (entriesWithoutPrivate entries) = sanitizeEntries path index entries
  | [] => rfl
  | entry :: rest => by
    rw [entriesWithoutPrivate, sanitizeEntries, sanitizeEntries, sanitizeShareJson_withoutPrivate,
      sanitizeEntries_withoutPrivate]

theorem sanitizeMembers_withoutPrivate (path : String) : ∀ members : List (String × Value),
    sanitizeMembers path (membersWithoutPrivate members) = sanitizeMembers path members
  | [] => rfl
  | (field, entry) :: rest => by
    rw [membersWithoutPrivate, sanitizeMembers]
    split
    · exact sanitizeMembers_withoutPrivate path rest
    · rename_i hfield
      rw [sanitizeMembers, if_neg hfield, sanitizeShareJson_withoutPrivate,
        sanitizeMembers_withoutPrivate]

end

theorem isUndefined_withoutPrivate (value : Value) :
    (withoutPrivate value).isUndefined = value.isUndefined := by
  cases value <;> rfl

/-- Fields that agree up to private members are sanitized alike. -/
theorem sanitizeFields_congr {path : String} {source other : String → Value} {fields : List String}
    (h : ∀ field ∈ fields, withoutPrivate (source field) = withoutPrivate (other field)) :
    sanitizeFields path source fields = sanitizeFields path other fields := by
  have hsame : ∀ field ∈ fields, (source field).isUndefined = (other field).isUndefined ∧
      sanitizeShareJson (path ++ field) (source field) =
        sanitizeShareJson (path ++ field) (other field) := by
    intro field hfield
    rw [← isUndefined_withoutPrivate (source field), ← sanitizeShareJson_withoutPrivate _
      (source field), h field hfield, isUndefined_withoutPrivate, sanitizeShareJson_withoutPrivate]
    exact ⟨rfl, rfl⟩
  unfold sanitizeFields
  congr 1
  refine mapM_congr_mem fun field hfield => ?_
  rw [(hsame field hfield).1, (hsame field hfield).2]

variable {runtime : Runtime}

/-! ## Items -/

theorem publicPort_congr {port other : Members} (h : portFace port = portFace other) :
    publicPort runtime port = publicPort runtime other := by
  obtain ⟨hid, hname, hkind, htype, hconnector, hside, hspeed, -⟩ := by
    simpa only [portFace, map_cons, List.cons.injEq] using h
  unfold publicPort
  rw [hid, hname, hkind, htype, hconnector, hside, hspeed]

/-- **Items with the same public part are published alike.** -/
theorem publicItem_congr {item other : Item} (h : ItemsAlike item other)
    (registry : Option RegistryLink) (metadata : Metadata) (id : ℤ) :
    publicItem runtime registry metadata item id = publicItem runtime registry metadata other id := by
  have hmembers := h.members
  simp only [forall_mem_cons, not_mem_nil, IsEmpty.forall_iff, implies_true,
    and_true] at hmembers
  obtain ⟨htype, hname, hmanufacturer, hmodel⟩ := hmembers
  have hports : (item.ports.getD []).mapM (publicPort runtime) =
      (other.ports.getD []).mapM (publicPort runtime) :=
    mapM_congr_of_map_eq h.ports fun _ _ _ => publicPort_congr
  have hoverrides : sanitizeLocalOverrides (memberOf item.members "localOverrides") =
      sanitizeLocalOverrides (memberOf other.members "localOverrides") := by
    refine sanitizeFields_congr fun field hfield => ?_
    rw [mem_singleton.mp hfield, h.usageRole]
  have hdefinition : sanitizeCustomDefinition item = sanitizeCustomDefinition other :=
    sanitizeFields_congr h.definition
  unfold publicItem publicSource
  rw [htype, hname, hmanufacturer, hmodel, hports, hoverrides, hdefinition]

/-- A loop that sets what it computes leaves for each key what its last entry gives. -/
theorem get?_of_collected {ε α κ ν : Type} [DecidableEq κ] {key : α → Except ε κ}
    {value : α → κ → Except ε ν} {entries : List α} {start found : List (κ × ν)}
    (h : entries.foldlM (fun found entry => do
      let k ← key entry
      let v ← value entry k
      return InsertionMap.set found k v) start = .ok found) (k : κ) :
    InsertionMap.get? found k =
      (entries.reverse.find? fun entry => (key entry).toOption = some k).elim
        (InsertionMap.get? start k) fun entry => (value entry k).toOption := by
  induction entries generalizing start with
  | nil =>
    rw [foldlM_nil, pure_eq_ok] at h
    rw [h]
    rfl
  | cons entry rest ih =>
    obtain ⟨next, hturn, hrest⟩ := foldlM_cons_eq_ok.mp h
    obtain ⟨k', hkey, hturn⟩ := bind_eq_ok.mp hturn
    obtain ⟨v, hvalue, hnext⟩ := bind_eq_ok.mp hturn
    rw [ih hrest, reverse_cons, find?_append, ← pure_eq_ok.mp hnext,
      InsertionMap.get?_set, find?_singleton, hkey]
    cases rest.reverse.find? fun entry => (key entry).toOption = some k with
    | some later => rfl
    | none =>
      by_cases hk : k = k'
      · subst hk
        simp [Except.toOption, hvalue]
      · simp [Except.toOption, hk, Ne.symm hk]

theorem get?_publicItems {s : Source} {found : List (ℤ × Value)}
    (h : publicItems runtime s = .ok found) (id : ℤ) :
    InsertionMap.get? found id = (s.itemWithId id).bind fun item =>
      (publicItem runtime (s.registryLinks id) (selectedMetadata s.share (s.metadataByItem id))
        item id).toOption := by
  rw [get?_of_collected h id, Source.itemWithId]
  cases s.items.reverse.find? fun item =>
      (relationalId (memberOf item.members "id")).toOption = some id <;> rfl

/-! ## Views -/

/-- A view is published by its public part and the items that it uses. -/
theorem viewBlob_congr {view other : View} {found found' : ℤ → Option Value} {hosts hosts' : List ℤ}
    (hpublic : view.publicPart = other.publicPart)
    (hused : view.usedIds hosts = other.usedIds hosts')
    (hfound : ∀ id ∈ view.usedIds hosts, found id = found' id) (snapshots : List (ℤ × Value)) :
    viewBlob runtime found snapshots hosts view =
      viewBlob runtime found' snapshots hosts' other := by
  obtain ⟨hid, htype, hname, -, hplacements, hconnections, hviewport⟩ := View.mk.inj hpublic
  have hitem : ∀ viewType, ∀ id ∈ view.usedIds hosts,
      projectedItem viewType found id = projectedItem viewType found' id := by
    intro viewType id hid
    rw [projectedItem, projectedItem, hfound id hid]
  have hsystems : ∀ f : ℤ → Value → Except Failure Value,
      ((view.usedIds hosts).mapM fun id => projectedItem "Systems" found id >>= f id) =
        (other.usedIds hosts').mapM fun id => projectedItem "Systems" found' id >>= f id := by
    intro f
    rw [← hused]
    refine mapM_congr_mem fun id hid => ?_
    rw [hitem _ id hid]
  have hcanvas : (view.usedIds hosts).mapM (projectedItem "Canvas" found) =
      (other.usedIds hosts').mapM (projectedItem "Canvas" found') := by
    rw [← hused]
    exact mapM_congr_mem (hitem "Canvas")
  unfold viewBlob
  rw [hid, htype, hcanvas, hplacements, hconnections, hviewport]
  dsimp only
  rw [hsystems]

/-! ## Sources -/

/-- Views alike are projected alike, when the items that they use are published alike. -/
theorem projectViews_congr {s t : Source} (h : PubliclyEqual s t) {found found' : ℤ → Option Value}
    (hfound : ∀ view ∈ s.views, ∀ id ∈ view.usedIds (hostIds s.items), found id = found' id) :
    projectViews runtime s found = projectViews runtime t found' := by
  have hviews : s.views.zipIdx.mapM
        (projectView runtime found s.resourceSnapshots (hostIds s.items)) =
      t.views.zipIdx.mapM (projectView runtime found' t.resourceSnapshots (hostIds t.items)) := by
    have hzip := congrArg List.zipIdx h.views
    rw [zipIdx_map, zipIdx_map] at hzip
    refine mapM_congr_of_map_eq hzip fun entry hentry other heq => ?_
    obtain ⟨hview, hindex⟩ := Prod.mk.inj heq
    obtain ⟨hpublic, hused⟩ := Prod.mk.inj hview
    have hmem : entry.1 ∈ s.views := fst_mem_of_mem_zipIdx hentry
    have hindex' : entry.2 = other.2 := hindex
    obtain ⟨-, htype, hname, -⟩ := View.mk.inj hpublic
    unfold projectView
    rw [viewBlob_congr hpublic hused (hfound _ hmem), h.resourceSnapshots, htype, hname, hindex']
  unfold projectViews
  rw [hviews, h.share, h.projectId, h.projectName, h.resourceSnapshots]

/-- **What is published of publicly equal sources is the same.** -/
theorem project_congr {s t : Source} (h : PubliclyEqual s t) {p q : Projection}
    (hs : project runtime s = .ok p) (ht : project runtime t = .ok q) : p = q := by
  obtain ⟨found, hfound, hs⟩ := bind_eq_ok.mp hs
  obtain ⟨found', hfound', ht⟩ := bind_eq_ok.mp ht
  refine Except.ok.inj (hs.symm.trans (Eq.trans ?_ ht))
  refine projectViews_congr h fun view hview id hid => ?_
  rw [get?_publicItems hfound, get?_publicItems hfound', ← h.registryLinks,
    ← h.metadata view hview id hid]
  have hitems := h.items view hview id hid
  generalize s.itemWithId id = item, t.itemWithId id = other at hitems
  cases hitems with
  | some halike => exact congrArg Except.toOption (publicItem_congr halike _ _ _)
  | none => rfl

/-- A published blob has no forbidden member. -/
theorem noneForbidden_of_project {s : Source} {p : Projection} (hs : project runtime s = .ok p) :
    ∀ blob ∈ p.blobs, NoneForbidden blob.value := by
  obtain ⟨found, -, hs⟩ := bind_eq_ok.mp hs
  obtain ⟨results, hresults, hs⟩ := bind_eq_ok.mp hs
  obtain ⟨manifest, -, hs⟩ := bind_eq_ok.mp hs
  have hblobs : p.blobs = results.map (·.1) := by
    split at hs
    · cases hs
    · obtain ⟨hashed, -, hs⟩ := bind_eq_ok.mp hs
      rw [← pure_eq_ok.mp hs]
  rw [hblobs]
  intro blob hblob
  obtain ⟨result, hresult, rfl⟩ := mem_map.mp hblob
  obtain ⟨entry, -, hview⟩ := (mem_of_mapM hresults).mp hresult
  obtain ⟨value, -, hview⟩ := bind_eq_ok.mp hview
  obtain ⟨parsed, hparsed, hview⟩ := bind_eq_ok.mp hview
  obtain ⟨hashed, hhashed, hview⟩ := bind_eq_ok.mp hview
  obtain ⟨json, -, hhashed⟩ := bind_eq_ok.mp hhashed
  rw [← pure_eq_ok.mp hview, ← pure_eq_ok.mp hhashed]
  unfold parseShareViewBlob at hparsed
  split at hparsed
  · cases hparsed
  · split at hparsed
    · cases hparsed
    · rename_i hfind
      exact Except.ok.inj hparsed ▸ noneForbidden_of_find hfind

/-- **A share does not depend on private data**, and publishes no member with a forbidden name. -/
theorem share_without_private_data (runtime : Runtime) :
    (∀ {s t : Source} {p q : Projection}, PubliclyEqual s t → project runtime s = .ok p →
      project runtime t = .ok q → p.manifest.contentJson = q.manifest.contentJson ∧
        p.manifest.contentHash = q.manifest.contentHash ∧
        p.blobs.map (fun blob => (blob.contentJson, blob.contentHash)) =
          q.blobs.map fun blob => (blob.contentJson, blob.contentHash)) ∧
    ∀ {s : Source} {p : Projection}, project runtime s = .ok p →
      ∀ blob ∈ p.blobs, NoneForbidden blob.value := by
  refine ⟨fun h hs ht => ?_, noneForbidden_of_project⟩
  obtain rfl := project_congr h hs ht
  exact ⟨rfl, rfl, rfl⟩

/-! ## A server with a serial number -/

/-- A runtime whose texts can be read. -/
def readableRuntime : Runtime where
  publicIdText namespace' id := namespace' ++ "_" ++ toString id
  sha256 := String.ofList
  numberText value := toString value
  toText
    | .string value => value
    | _ => ""
  isoText _ := none
  parseBlobShape := some
  parseManifest := some

/-- A share of a server, with a private text in its notes, in its definition and in another item. -/
def serverShare (secret : String) : Source where
  share := ⟨.string "Rack", .undefined, .string "public", .string "immutable", .null,
    .string "indefinite", .null, .null, .bool false, .bool false, .undefined, .null, .undefined,
    [], []⟩
  projectId := 1
  projectName := .string "Lab"
  views := [{ workspaceId := 1, type := "systems", name := .string "Systems", itemIds := some [1] }]
  items :=
    [⟨none, [("id", .number (.finite 1)), ("type", .string "server"), ("name", .string "Alpha"),
        ("notes", .string secret), ("specs", .object [("cores", .number (.finite 8)),
          ("serialNumber", .string secret)])]⟩,
      ⟨none, [("id", .number (.finite 2)), ("type", .string "nas"), ("name", .string secret)]⟩]

theorem publiclyEqual_serverShare (secret other : String) :
    PubliclyEqual (serverShare secret) (serverShare other) where
  share := rfl
  projectId := rfl
  projectName := rfl
  views := by simp [serverShare, View.usedIds]
  registryLinks := rfl
  resourceSnapshots := rfl
  metadata _ _ _ _ := rfl
  items view hview id hid := by
    obtain rfl := mem_singleton.mp hview
    obtain rfl : id = 1 := by simpa [View.usedIds] using hid
    refine .some ⟨?_, rfl, rfl, ?_⟩
    · intro key hkey
      fin_cases hkey <;> rfl
    · intro field hfield
      fin_cases hfield <;> rfl

theorem share_without_private_data_server : ∃ p q,
    project readableRuntime (serverShare "S/N 1") = .ok p ∧
    project readableRuntime (serverShare "S/N 2") = .ok q ∧
    p.manifest.contentJson = q.manifest.contentJson := by
  obtain ⟨p, hp, -⟩ : ∃ p, project readableRuntime (serverShare "S/N 1") = .ok p ∧ True :=
    exists_ok_of_any (by decide +kernel)
  obtain ⟨q, hq, -⟩ : ∃ q, project readableRuntime (serverShare "S/N 2") = .ok q ∧ True :=
    exists_ok_of_any (by decide +kernel)
  exact ⟨p, q, hp, hq, ((share_without_private_data readableRuntime).1
    (publiclyEqual_serverShare _ _) hp hq).1⟩

end HomelabInventory.SharePrivacy
