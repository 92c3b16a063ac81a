import HomelabInventory.AppliedResolutions

/-!
# Wiring after an update of the ports

A plan moves every cable end on the updated item to the port that its port becomes, each
on its own. Two ends stay on two ports exactly when no two ports that have a cable lay
claim to the same port of the next item.
-/

namespace HomelabInventory.CatalogResolution

open List

open Compatibility (TextRules)

/-! ## Claims -/

/-- The next item has a port of the id and the type of a port. -/
def keepsPort (next : CatalogItem) (port : Port) : Bool :=
  match next.ports.find? fun candidate => candidate.id == port.id with
  | some same => same.type == port.type
  | none => false

/-- A port claims a next port of its type: the one of its id, or else those of its key. -/
def Claims (rules : TextRules) (next : CatalogItem) (port claimed : Port) : Prop :=
  claimed ∈ next.ports ∧ claimed.type = port.type ∧
    if keepsPort next port = true then claimed.id = port.id
    else normalizedText rules claimed.key = normalizedText rules port.key ∧
      normalizedText rules port.key ≠ ""

/-- The port of a cable end: the one of the item, or of the item it hosts. -/
def Endpoint.port (endpoint : Endpoint) : Option String × ℕ :=
  (if endpoint.isHosted then endpoint.hostedItemId else none, endpoint.portId)

/-- A cable end on the item itself. -/
def Endpoint.isOn (endpoint : Endpoint) (link : Link) : Prop :=
  endpoint.itemId = link.hostKey ∧ endpoint.isHosted = false

/-- A cable end on the adapter that is replaced. -/
def Endpoint.isOnAdapter (endpoint : Endpoint) (current next : CatalogItem) (project : Project)
    (link : Link) : Prop :=
  losesAdapter current next link = true ∧ endpoint.itemId = link.hostKey ∧
    ∃ assignment ∈ assignedAdapters project link.hostKey,
      endpoint.hostedItemId = some assignment.itemId

/-- No two ports with a cable claim ports of one id, and a replaced adapter has its cables
on one port and leaves the inlet to them. -/
structure Uncrowded (rules : TextRules) (current next : CatalogItem) (project : Project)
    (link : Link) : Prop where
  ports : ∀ first ∈ project.connections, ∀ role, (first.endpoint role).isOn link →
    ∀ second ∈ project.connections, ∀ role', (second.endpoint role').isOn link →
    (first.endpoint role).portId ≠ (second.endpoint role').portId →
    ∀ port ∈ current.ports.find? (fun port => port.id == (first.endpoint role).portId),
    ∀ port' ∈ current.ports.find? (fun port => port.id == (second.endpoint role').portId),
    ∀ claimed claimed', Claims rules next port claimed → Claims rules next port' claimed' →
      claimed.id ≠ claimed'.id
  inlet : ∀ first ∈ project.connections, ∀ role,
    (first.endpoint role).isOnAdapter current next project link →
    ∀ second ∈ project.connections, ∀ role', (second.endpoint role').isOn link →
    ∀ port' ∈ current.ports.find? (fun port => port.id == (second.endpoint role').portId),
    ∀ inlet ∈ acInputs next, ∀ claimed', Claims rules next port' claimed' →
      inlet.id ≠ claimed'.id
  adapter : ∀ first ∈ project.connections, ∀ role,
    (first.endpoint role).isOnAdapter current next project link →
    ∀ second ∈ project.connections, ∀ role',
    (second.endpoint role').isOnAdapter current next project link →
    (first.endpoint role).portId = (second.endpoint role').portId

/-! ## What happens to the wiring -/

/-- A cable end on the item names a port of the next item of the type of the port it used
before, or the inlet when it was on the adapter. -/
def NamesPort (current next : CatalogItem) (project : Project) (link : Link)
    (before after : Endpoint) : Prop :=
  (before.isOn link ∧ ∃ port ∈ current.ports.find? (fun port => port.id == before.portId),
    ∃ target ∈ next.ports, target.id = after.portId ∧ target.type = port.type) ∨
  (before.isOnAdapter current next project link ∧
    ∃ inlet ∈ acInputs next, inlet.id = after.portId)

/-- **The wiring is kept**: every cable end on the item names a port of the next item that
suits it, and ends that used different ports still do. -/
structure WiringKept (current next : CatalogItem) (project result : Project) (link : Link) :
    Prop where
  suits : ∀ before ∈ project.connections, ∀ after ∈ result.connections, before.id = after.id →
    ∀ role, (after.endpoint role).isOn link →
    NamesPort current next project link (before.endpoint role) (after.endpoint role)
  apart : ∀ first ∈ project.connections, ∀ first' ∈ result.connections, first.id = first'.id →
    ∀ second ∈ project.connections, ∀ second' ∈ result.connections, second.id = second'.id →
    ∀ role role', (first'.endpoint role).isOn link → (second'.endpoint role').isOn link →
    (first.endpoint role).port ≠ (second.endpoint role').port →
    (first'.endpoint role).portId ≠ (second'.endpoint role').portId

variable {rules : TextRules} {current next : CatalogItem} {project result : Project} {link : Link}
  {planned : List Operation}

/-! ## The port that a port becomes -/

theorem unique_eq_some {α : Type} {l : List α} {a : α} : unique l = some a ↔ l = [a] := by
  match l with
  | [] => simp [unique]
  | [b] => simp [unique]
  | b :: c :: rest => simp [unique]

variable {claimed port target : Port}

/-- A port found by its key is the only one of its key and type. -/
theorem uniquePortByKey_eq_some {ports : List Port} {key : Option String} {type : String}
    (h : uniquePortByKey rules ports key type = some port) :
    normalizedText rules key ≠ "" ∧
      ∀ other, other ∈ ports ∧ normalizedText rules other.key = normalizedText rules key ∧
        other.type = type ↔ other = port := by
  simp only [uniquePortByKey] at h
  split at h
  · cases h
  · rename_i hkey
    refine ⟨hkey, fun other => ?_⟩
    rw [unique_eq_some] at h
    have hmem : other ∈ ports.filter (fun port =>
        normalizedText rules port.key == normalizedText rules key && port.type == type) ↔
        other = port := by
      rw [h, mem_singleton]
    simpa [mem_filter] using hmem

variable (rules) in
/-- A port that the next item keeps becomes the one of its id. -/
theorem targetPort_of_kept (hkept : keepsPort next port = true) :
    ∃ same ∈ next.ports, same.id = port.id ∧ same.type = port.type ∧
      targetPort rules port next.ports = some same := by
  simp only [keepsPort] at hkept
  split at hkept
  · rename_i same hsame
    have htype : same.type = port.type := by simpa using hkept
    exact ⟨same, mem_of_find?_eq_some hsame, by simpa using find?_some hsame, htype,
      by simp only [targetPort, hsame, if_pos htype]⟩
  · cases hkept

/-- Another port becomes the only one of its key. -/
theorem targetPort_of_lost (hlost : keepsPort next port = false) :
    targetPort rules port next.ports = uniquePortByKey rules next.ports port.key port.type := by
  simp only [keepsPort] at hlost
  simp only [targetPort]
  cases hsame : next.ports.find? (fun candidate => candidate.id == port.id) with
  | some same =>
    rw [hsame] at hlost
    have htype : same.type ≠ port.type := by simpa using hlost
    exact if_neg htype
  | none => rfl

theorem claims_targetPort (h : targetPort rules port next.ports = some target) :
    Claims rules next port target := by
  cases hkept : keepsPort next port with
  | true =>
    obtain ⟨same, hmem, hid, htype, hsame⟩ := targetPort_of_kept rules hkept
    obtain rfl := Option.some.inj (hsame.symm.trans h)
    exact ⟨hmem, htype, by rw [if_pos hkept]; exact hid⟩
  | false =>
    rw [targetPort_of_lost hkept] at h
    obtain ⟨hkey, hunique⟩ := uniquePortByKey_eq_some h
    obtain ⟨hmem, hnormal, htype⟩ := (hunique target).mpr rfl
    exact ⟨hmem, htype, by rw [if_neg (by simp [hkept])]; exact ⟨hnormal, hkey⟩⟩

/-- The ports that a port claims have the id of the one it becomes. -/
theorem Claims.id_eq (htarget : targetPort rules port next.ports = some target)
    (h : Claims rules next port claimed) : claimed.id = target.id := by
  obtain ⟨hmem, htype, hcase⟩ := h
  cases hkept : keepsPort next port with
  | true =>
    obtain ⟨same, -, hid, -, hsame⟩ := targetPort_of_kept rules hkept
    obtain rfl := Option.some.inj (hsame.symm.trans htarget)
    rw [if_pos hkept] at hcase
    rw [hcase, hid]
  | false =>
    rw [if_neg (by simp [hkept])] at hcase
    rw [targetPort_of_lost hkept] at htarget
    rw [((uniquePortByKey_eq_some htarget).2 claimed).mp ⟨hmem, hcase.1, htype⟩]

/-! ## What a plan does to a cable end -/

/-- What becomes of a cable end. -/
inductive EndAfter (rules : TextRules) (current next : CatalogItem) (project : Project)
    (link : Link) (before : Endpoint) : Endpoint → Prop where
  /-- an end on the item goes to the port that its port becomes -/
  | onItem {port target : Port} {after : Endpoint} (onHost : before.isOn link)
      (found : (current.ports.find? fun port => port.id == before.portId) = some port)
      (becomes : targetPort rules port next.ports = some target)
      (moves : after.isOn link) (names : after.portId = target.id) :
      EndAfter rules current next project link before after
  /-- an end on the adapter that is replaced goes to the inlet -/
  | onAdapter {inlet : Port} {after : Endpoint}
      (onHost : before.isOnAdapter current next project link)
      (offers : acInputs next = [inlet])
      (moves : after.isOn link) (names : after.portId = inlet.id) :
      EndAfter rules current next project link before after
  /-- another end stays as it is -/
  | elsewhere (offHost : ¬before.isOn link)
      (offAdapter : ¬before.isOnAdapter current next project link) :
      EndAfter rules current next project link before before

/-- A port that is named leads to the same end. -/
theorem isOn_endpoint (link : Link) (port : ℕ) :
    (EndpointRef.endpoint ⟨link.itemType, link.itemId, none, none, port⟩).isOn link :=
  ⟨rfl, rfl⟩

variable {role : EndpointRole}

/-- An operation that is kept for a cable end edits it. -/
theorem edit_of_key {kept : Operation} (hkept : kept ∈ deduplicateOperations planned) {id : ℕ}
    (hkey : kept.key = .connection id role) :
    ∃ edit, edit ∈ editsAt (deduplicateOperations planned) (.cableEnd id role) := by
  cases kept with
  | unassignItem => cases hkey
  | remapResourceKey => cases hkey
  | reclassifyResource => cases hkey
  | moveConnectionEndpoint connectionId role' source target =>
    obtain ⟨rfl, rfl⟩ := OperationKey.connection.inj hkey
    exact ⟨_, mem_editsAt.mpr ⟨_, hkept, mem_singleton.mpr rfl, rfl⟩⟩

variable {after before endpoint first second : Endpoint}

/-- A cable end that is moved is where it is moved to. -/
theorem endpoint_of_act {id : ℕ} {source target : EndpointRef}
    (h : (Edit.rewire id role source target).act (some (.cableEnd before))
      = .ok (some (.cableEnd after))) : after = target.endpoint := by
  simp only [Edit.act] at h
  split at h
  · cases h
  · exact (Content.cableEnd.inj (Option.some.inj (Except.ok.inj h))).symm

/-- The adapter of a cable end that is moved off it. -/
theorem assigned_of_onAdapter (hplanned : plannedOperations rules current next project link
    = .ok planned)
    (h : endpoint.isOnAdapter current next project link) :
    ∃ assignment inlet, assignedAdapters project link.hostKey = [assignment] ∧
      acInputs next = [inlet] ∧ endpoint.hostedItemId = some assignment.itemId := by
  obtain ⟨hloses, -, assignment, hassigned, hhosted⟩ := h
  obtain ⟨ports, adapters, fixed, resources, -, hadapters, -, -, -⟩ :=
    plannedOperations_eq_ok hplanned
  obtain ⟨hsingle, inlet, hinlet⟩ := adapter_single hadapters hloses hassigned
  exact ⟨assignment, inlet, hsingle, unique_eq_some.mp hinlet, hhosted⟩

/-- A cable end on the item that goes to another port has an edit. -/
theorem edit_of_port (hplanned : plannedOperations rules current next project link
    = .ok planned) {connection : Connection} (hconnection : connection ∈ project.connections)
    (hon : (connection.endpoint role).isOn link)
    (hfound : (current.ports.find? fun port => port.id == (connection.endpoint role).portId)
      = some port) (hbecomes : targetPort rules port next.ports = some target)
    (hmoves : target.id ≠ (connection.endpoint role).portId) :
    editsAt (deduplicateOperations planned) (.cableEnd connection.id role) ≠ [] := by
  obtain ⟨ports, adapters, fixed, resources, hports, -, -, -, rfl⟩ :=
    plannedOperations_eq_ok hplanned
  have hop : portRemapOperation rules current next link link.hostKey connection role
      = .ok (some (.moveConnectionEndpoint connection.id role
        ⟨link.itemType, link.itemId, none, none, (connection.endpoint role).portId⟩
        ⟨link.itemType, link.itemId, none, none, target.id⟩)) := by
    obtain ⟨hhost, hunhosted⟩ := hon
    simp [portRemapOperation, hhost, hunhosted, hfound, hbecomes, hmoves]
  have hmem := (mem_portRemapOperations hports).mpr ⟨connection, hconnection, role, hop⟩
  obtain ⟨kept, hkept, hkey, -⟩ := exists_kept (mem_append_left resources
    (mem_append_left fixed (mem_append_left adapters hmem)))
  obtain ⟨edit, hin⟩ := edit_of_key hkept hkey
  exact ne_nil_of_mem hin

/-- A cable end on the adapter has an edit. -/
theorem edit_of_adapter (hplanned : plannedOperations rules current next project link
    = .ok planned) {connection : Connection} (hconnection : connection ∈ project.connections)
    (hon : (connection.endpoint role).isOnAdapter current next project link) :
    editsAt (deduplicateOperations planned) (.cableEnd connection.id role) ≠ [] := by
  obtain ⟨assignment, inlet, hassigned, hinlet, hhosted⟩ := assigned_of_onAdapter hplanned hon
  obtain ⟨hloses, hhost, -⟩ := hon
  obtain ⟨ports, adapters, fixed, resources, -, hadapters, -, -, rfl⟩ :=
    plannedOperations_eq_ok hplanned
  have hmem := (mem_powerAdapterOperations hadapters).mpr ⟨hloses, assignment, hassigned,
    .inl ⟨inlet, connection, role, unique_eq_some.mpr hinlet, hconnection,
      mem_adapterOperation.mpr ⟨hhost, hhosted, rfl⟩⟩⟩
  obtain ⟨kept, hkept, hkey, -⟩ := exists_kept (mem_append_left resources
    (mem_append_left fixed (mem_append_right ports hmem)))
  obtain ⟨edit, hin⟩ := edit_of_key hkept hkey
  exact ne_nil_of_mem hin

/-- What applying a plan leaves of a cable end. -/
theorem endAfter (hproject : project.Keyed)
    (hplanned : plannedOperations rules current next project link = .ok planned)
    (hrun : ((deduplicateOperations planned).flatMap Operation.edits).foldlM applyEdit project
      = .ok result) {before after : Connection} (hbefore : before ∈ project.connections)
    (hafter : after ∈ result.connections) (hid : before.id = after.id) (role : EndpointRole) :
    EndAfter rules current next project link (before.endpoint role) (after.endpoint role) := by
  have hresult : result.Keyed := addressed_applyEdit.run_valid hproject hrun
  have hcontent := content_cableEnd hproject hbefore role
  have hcontent' := content_cableEnd hresult hafter role
  rw [← hid] at hcontent'
  by_cases hnone : editsAt (deduplicateOperations planned) (.cableEnd before.id role) = []
  · have hkept := content_of_untouched hproject hrun hnone
    rw [hcontent, hcontent'] at hkept
    have hsame : after.endpoint role = before.endpoint role :=
      Content.cableEnd.inj (Option.some.inj hkept)
    rw [hsame]
    by_cases hon : (before.endpoint role).isOn link
    · obtain ⟨ports, adapters, fixed, resources, hports, -⟩ := plannedOperations_eq_ok hplanned
      obtain ⟨port, target, hfound, hbecomes⟩ := exists_target_of_ports hports hbefore hon.1 hon.2
      refine .onItem hon hfound hbecomes hon ?_
      by_contra hmoves
      exact edit_of_port hplanned hbefore hon hfound hbecomes (Ne.symm hmoves) hnone
    · exact .elsewhere hon fun hadapter => edit_of_adapter hplanned hbefore hadapter hnone
  · obtain ⟨edit, hin⟩ := exists_mem_of_ne_nil _ hnone
    obtain ⟨operation, hmem, hedit, hplace⟩ := mem_editsAt.mp hin
    have hact := content_of_edit hproject hrun
      (eq_singleton_of_mem (cableEnd_edits_le_one hproject hplanned _ _) hin)
    rw [hcontent, hcontent'] at hact
    have hw := warranted_of_kept hplanned hmem
    cases hw with
    | @port connection role' port target hconnected hhost hunhosted hfound hbecomes hmoves =>
      obtain rfl := mem_singleton.mp hedit
      obtain ⟨hsame, rfl⟩ := Place.cableEnd.inj hplace
      obtain rfl : connection = before := eq_of_key_eq hproject.connections hconnected hbefore hsame
      have hend := endpoint_of_act hact
      rw [hend]
      exact .onItem ⟨hhost, hunhosted⟩ hfound hbecomes (isOn_endpoint link target.id) rfl
    | @adapter connection role' assignment inlet hloses hassigned hinlet hconnected hhost hhosted =>
      obtain rfl := mem_singleton.mp hedit
      obtain ⟨hsame, rfl⟩ := Place.cableEnd.inj hplace
      obtain rfl : connection = before := eq_of_key_eq hproject.connections hconnected hbefore hsame
      have hend := endpoint_of_act hact
      rw [hend]
      refine .onAdapter ⟨hloses, hhost, assignment, ?_, hhosted⟩ (unique_eq_some.mp hinlet)
        (isOn_endpoint link inlet.id) rfl
      rw [hassigned]
      exact mem_singleton.mpr rfl
    | release =>
      obtain rfl := mem_singleton.mp hedit
      cases hplace
    | migrate =>
      obtain ⟨other, -, rfl⟩ := mem_map.mp hedit
      cases hplace
    | rename =>
      obtain ⟨other, -, rfl⟩ := mem_map.mp hedit
      cases hplace

/-! ## When the wiring is kept -/

/-- An end on the adapter is no end on the item. -/
theorem not_isOn_of_adapter (hnamed : ∀ assignment ∈ project.assignments, assignment.itemId ≠ "")
    (h : endpoint.isOnAdapter current next project link) : endpoint.isHosted = true := by
  obtain ⟨-, -, assignment, hassigned, hhosted⟩ := h
  simp only [Endpoint.isHosted, hhosted, bne_iff_ne]
  exact hnamed assignment (mem_of_mem_filter hassigned)

/-- Ends on the adapter use ports of one item. -/
theorem port_of_adapter (hplanned : plannedOperations rules current next project link = .ok planned)
    (hfirst : first.isOnAdapter current next project link)
    (hsecond : second.isOnAdapter current next project link) :
    first.port ≠ second.port ↔ first.portId ≠ second.portId := by
  obtain ⟨assignment, inlet, hassigned, -, hhosted⟩ := assigned_of_onAdapter hplanned hfirst
  obtain ⟨other, -, hother, -, hhosted'⟩ := assigned_of_onAdapter hplanned hsecond
  rw [hassigned] at hother
  cases hother
  simp [Endpoint.port, Endpoint.isHosted, hhosted, hhosted']

/-- Ends on the item use its ports. -/
theorem port_of_isOn (hfirst : first.isOn link) (hsecond : second.isOn link) :
    first.port ≠ second.port ↔ first.portId ≠ second.portId := by
  simp [Endpoint.port, hfirst.2, hsecond.2]

/-- An end on the adapter uses another port than one on the item. -/
theorem port_ne_of_adapter (hnamed : ∀ assignment ∈ project.assignments, assignment.itemId ≠ "")
    (hfirst : first.isOnAdapter current next project link) (hsecond : second.isOn link) :
    first.port ≠ second.port := by
  have hhosted := not_isOn_of_adapter hnamed hfirst
  obtain ⟨-, -, assignment, -, hself⟩ := hfirst
  simp [Endpoint.port, hhosted, hsecond.2, hself]

/-- An uncrowded update keeps the wiring. -/
theorem Uncrowded.wiringKept (h : Uncrowded rules current next project link)
    (hproject : project.Keyed)
    (hplanned : plannedOperations rules current next project link = .ok planned)
    (hrun : ((deduplicateOperations planned).flatMap Operation.edits).foldlM applyEdit project
      = .ok result) : WiringKept current next project result link := by
  have hend := @endAfter rules current next project result link planned hproject hplanned hrun
  constructor
  · intro before hbefore after hafter hid role hon
    generalize hx : before.endpoint role = x
    generalize hy : after.endpoint role = y at hon
    have hxy := hend hbefore hafter hid role
    rw [hx, hy] at hxy
    cases hxy with
    | onItem hhost hfound hbecomes hmoves hnames =>
      obtain ⟨hmem, htype, -⟩ := claims_targetPort hbecomes
      exact .inl ⟨hhost, _, hfound, _, hmem, hnames.symm, htype⟩
    | onAdapter hhost hinlet hmoves hnames =>
      refine .inr ⟨hhost, _, ?_, hnames.symm⟩
      rw [hinlet]
      exact mem_singleton.mpr rfl
    | elsewhere hoff => exact absurd hon hoff
  · intro first hfirst first' hfirst' hid second hsecond second' hsecond' hid' role role' hon hon'
      hports
    have hleft := hend hfirst hfirst' hid role
    have hright := hend hsecond hsecond' hid' role'
    generalize hy : first'.endpoint role = y at hleft hon ⊢
    generalize hy' : second'.endpoint role' = y' at hright hon' ⊢
    generalize hx : first.endpoint role = x at hleft hports
    generalize hx' : second.endpoint role' = x' at hright hports
    cases hleft with
    | onItem hhost hfound hbecomes hmoves hnames =>
      cases hright with
      | onItem hhost' hfound' hbecomes' hmoves' hnames' =>
        have hne := (port_of_isOn hhost hhost').mp hports
        rw [hnames, hnames']
        exact h.ports first hfirst role (hx ▸ hhost) second hsecond role' (hx' ▸ hhost')
          (hx ▸ hx' ▸ hne) _ (hx ▸ hfound) _ (hx' ▸ hfound') _ _ (claims_targetPort hbecomes)
          (claims_targetPort hbecomes')
      | onAdapter hhost' hinlet' hmoves' hnames' =>
        rw [hnames, hnames']
        exact (h.inlet second hsecond role' (hx' ▸ hhost') first hfirst role (hx ▸ hhost) _
          (hx ▸ hfound) _ (hinlet' ▸ mem_singleton.mpr rfl) _
          (claims_targetPort hbecomes)).symm
      | elsewhere hoff => exact absurd hon' hoff
    | onAdapter hhost hinlet hmoves hnames =>
      cases hright with
      | onItem hhost' hfound' hbecomes' hmoves' hnames' =>
        rw [hnames, hnames']
        exact h.inlet first hfirst role (hx ▸ hhost) second hsecond role' (hx' ▸ hhost') _
          (hx' ▸ hfound') _ (hinlet ▸ mem_singleton.mpr rfl) _
          (claims_targetPort hbecomes')
      | onAdapter hhost' hinlet' hmoves' hnames' =>
        have hsame := h.adapter first hfirst role (hx ▸ hhost) second hsecond role' (hx' ▸ hhost')
        rw [hx, hx'] at hsame
        exact absurd hsame ((port_of_adapter hplanned hhost hhost').mp hports)
      | elsewhere hoff => exact absurd hon' hoff
    | elsewhere hoff => exact absurd hon hoff

theorem exists_after (hrun : ((deduplicateOperations planned).flatMap
      Operation.edits).foldlM applyEdit project = .ok result) {before : Connection}
    (hbefore : before ∈ project.connections) :
    ∃ after ∈ result.connections, before.id = after.id := by
  have hid : before.id ∈ result.connections.map Connection.id := by
    rw [(run_tables hrun).2.1]
    exact mem_map_of_mem hbefore
  obtain ⟨after, hafter, hsame⟩ := mem_map.mp hid
  exact ⟨after, hafter, hsame.symm⟩

/-- An end on the item goes to the port that its port claims. -/
theorem EndAfter.of_isOn (hnamed : ∀ assignment ∈ project.assignments, assignment.itemId ≠ "")
    (h : EndAfter rules current next project link before after) (hon : before.isOn link)
    (hfound : (current.ports.find? fun port => port.id == before.portId) = some port)
    (hclaims : Claims rules next port claimed) :
    after.isOn link ∧ after.portId = claimed.id := by
  cases h with
  | onItem hhost hfound' hbecomes hmoves hnames =>
    obtain rfl := Option.some.inj (hfound.symm.trans hfound')
    exact ⟨hmoves, hnames.trans (hclaims.id_eq hbecomes).symm⟩
  | onAdapter hhost =>
    have hhosted := not_isOn_of_adapter hnamed hhost
    rw [hon.2] at hhosted
    cases hhosted
  | elsewhere hoff => exact absurd hon hoff

/-- An end on the adapter goes to the inlet. -/
theorem EndAfter.of_adapter (hnamed : ∀ assignment ∈ project.assignments, assignment.itemId ≠ "")
    (h : EndAfter rules current next project link before after)
    (hon : before.isOnAdapter current next project link) {inlet : Port}
    (hinlet : inlet ∈ acInputs next) : after.isOn link ∧ after.portId = inlet.id := by
  cases h with
  | onItem hhost =>
    have hhosted := not_isOn_of_adapter hnamed hon
    rw [hhost.2] at hhosted
    cases hhosted
  | onAdapter hhost hoffers hmoves hnames =>
    rw [hoffers, mem_singleton] at hinlet
    rw [hinlet]
    exact ⟨hmoves, hnames⟩
  | elsewhere _ hoff => exact absurd hon hoff

/-- An update that keeps the wiring is uncrowded. -/
theorem WiringKept.uncrowded (h : WiringKept current next project result link)
    (hproject : project.Keyed)
    (hnamed : ∀ assignment ∈ project.assignments, assignment.itemId ≠ "")
    (hplanned : plannedOperations rules current next project link = .ok planned)
    (hrun : ((deduplicateOperations planned).flatMap Operation.edits).foldlM applyEdit project
      = .ok result) : Uncrowded rules current next project link := by
  have hend := @endAfter rules current next project result link planned hproject hplanned hrun
  constructor
  · intro first hfirst role hon second hsecond role' hon' hports port hport port' hport' claimed
      claimed' hclaims hclaims' hsame
    obtain ⟨after, hafter, hid⟩ := exists_after hrun hfirst
    obtain ⟨after', hafter', hid'⟩ := exists_after hrun hsecond
    obtain ⟨hmoved, hnames⟩ := (hend hfirst hafter hid role).of_isOn hnamed hon hport hclaims
    obtain ⟨hmoved', hnames'⟩ :=
      (hend hsecond hafter' hid' role').of_isOn hnamed hon' hport' hclaims'
    exact h.apart first hfirst after hafter hid second hsecond after' hafter' hid' role role'
      hmoved hmoved' ((port_of_isOn hon hon').mpr hports) (hnames.trans (hsame.trans hnames'.symm))
  · intro first hfirst role hon second hsecond role' hon' port' hport' inlet hinlet claimed'
      hclaims' hsame
    obtain ⟨after, hafter, hid⟩ := exists_after hrun hfirst
    obtain ⟨after', hafter', hid'⟩ := exists_after hrun hsecond
    obtain ⟨hmoved, hnames⟩ := (hend hfirst hafter hid role).of_adapter hnamed hon hinlet
    obtain ⟨hmoved', hnames'⟩ :=
      (hend hsecond hafter' hid' role').of_isOn hnamed hon' hport' hclaims'
    exact h.apart first hfirst after hafter hid second hsecond after' hafter' hid' role role'
      hmoved hmoved' (port_ne_of_adapter hnamed hon hon')
      (hnames.trans (hsame.trans hnames'.symm))
  · intro first hfirst role hon second hsecond role' hon'
    by_contra hports
    obtain ⟨assignment, inlet, -, hinlet, -⟩ := assigned_of_onAdapter hplanned hon
    have hmem : inlet ∈ acInputs next := by
      rw [hinlet]
      exact mem_singleton.mpr rfl
    obtain ⟨after, hafter, hid⟩ := exists_after hrun hfirst
    obtain ⟨after', hafter', hid'⟩ := exists_after hrun hsecond
    obtain ⟨hmoved, hnames⟩ := (hend hfirst hafter hid role).of_adapter hnamed hon hmem
    obtain ⟨hmoved', hnames'⟩ := (hend hsecond hafter' hid' role').of_adapter hnamed hon' hmem
    exact h.apart first hfirst after hafter hid second hsecond after' hafter' hid' role role'
      hmoved hmoved' ((port_of_adapter hplanned hon hon').mpr hports)
      (hnames.trans hnames'.symm)

/-- **Applying a plan keeps the wiring exactly when the update is uncrowded.** Every end on the item
names a port that suits it, and ends at different ports stay at different ports, when no two ports
in use claim the same one. -/
theorem applyCatalogResolutionPlan_wiring (rules : TextRules) (current next : CatalogItem)
    (project result : Project) (link : Link) (hproject : project.Keyed)
    (hnamed : ∀ assignment ∈ project.assignments, assignment.itemId ≠ "")
    (havailable : (buildCatalogResolutionPlan rules current next project link).available = true)
    (hresult : applyCatalogResolutionPlan project
      (buildCatalogResolutionPlan rules current next project link) = .ok result) :
    WiringKept current next project result link ↔
      Uncrowded rules current next project link := by
  obtain ⟨planned, hplanned, hoperations, -⟩ := plan_available havailable
  rw [applyCatalogResolutionPlan_eq havailable, hoperations] at hresult
  constructor
  · intro hkept
    exact hkept.uncrowded hproject hnamed hplanned hresult
  · intro huncrowded
    exact huncrowded.wiringKept hproject hplanned hresult

/-! ## A storage server with two network ports -/

/-- A storage server with ports. -/
def networkServer (ports : List Port) : CatalogItem where
  ports
  fixedComponents := []
  host := ⟨[], [], [], [], [], []⟩
  powerConfiguration := none
  adapterDisposition := none
  specPowerConfiguration := none

/-- A network port with an id and a key. -/
def lanPort (id : ℕ) (key : String) : Port := ⟨id, some key, "rj45"⟩

/-- A cable from a port of the storage server to a port of a switch. -/
def lanCable (id port switchPort : ℕ) : Connection :=
  ⟨id, ⟨"nas:1", port, none, none⟩, ⟨"switch:1", switchPort, none, none⟩⟩

/-- A project with a cable on each of some ports of the storage server. -/
def lanProject (ports : List ℕ) : Project where
  items := []
  assignments := []
  connections := ports.map fun port => lanCable port port port

/-- A port that is found again by its key keeps its cable, next to another that stays. -/
theorem applyCatalogResolutionPlan_wiring_renumbered : ∃ result,
    applyCatalogResolutionPlan (lanProject [1, 7])
      (buildCatalogResolutionPlan asciiText (networkServer [lanPort 1 "lan", lanPort 7 "uplink"])
        (networkServer [lanPort 1 "lan", lanPort 2 "uplink"]) (lanProject [1, 7]) ⟨"nas", 1⟩)
      = .ok result ∧
    WiringKept (networkServer [lanPort 1 "lan", lanPort 7 "uplink"])
      (networkServer [lanPort 1 "lan", lanPort 2 "uplink"]) (lanProject [1, 7]) result
      ⟨"nas", 1⟩ := by
  have hrun : (applyCatalogResolutionPlan (lanProject [1, 7])
      (buildCatalogResolutionPlan asciiText (networkServer [lanPort 1 "lan", lanPort 7 "uplink"])
        (networkServer [lanPort 1 "lan", lanPort 2 "uplink"]) (lanProject [1, 7])
        ⟨"nas", 1⟩)).toOption
      = some ⟨[], [], [lanCable 1 1 1, lanCable 7 2 7]⟩ := by decide +kernel
  have hadapter : losesAdapter (networkServer [lanPort 1 "lan", lanPort 7 "uplink"])
      (networkServer [lanPort 1 "lan", lanPort 2 "uplink"]) ⟨"nas", 1⟩ = false := by decide
  -- the two ports claim the two ports of the next item
  have hclaims : ∀ port ∈ [lanPort 1 "lan", lanPort 7 "uplink"],
      ∀ port' ∈ [lanPort 1 "lan", lanPort 7 "uplink"], port.id ≠ port'.id →
      ∀ claimed ∈ [lanPort 1 "lan", lanPort 2 "uplink"],
      ∀ claimed' ∈ [lanPort 1 "lan", lanPort 2 "uplink"],
      Claims asciiText (networkServer [lanPort 1 "lan", lanPort 2 "uplink"]) port claimed →
      Claims asciiText (networkServer [lanPort 1 "lan", lanPort 2 "uplink"]) port' claimed' →
      claimed.id ≠ claimed'.id := by
    unfold Claims
    decide +kernel
  refine ⟨_, eq_ok_of_toOption hrun, (applyCatalogResolutionPlan_wiring asciiText _ _ _ _
    ⟨"nas", 1⟩ ⟨by decide, by decide⟩ (by decide) (by decide +kernel)
    (eq_ok_of_toOption hrun)).mpr ⟨?_, ?_, ?_⟩⟩
  · intro first _ role _ second _ role' _ hne port hport port' hport' claimed claimed' hclaimed
      hclaimed'
    have hid : port.id = (first.endpoint role).portId := by simpa using find?_some hport
    have hid' : port'.id = (second.endpoint role').portId := by simpa using find?_some hport'
    exact hclaims port (mem_of_find?_eq_some hport) port' (mem_of_find?_eq_some hport')
      (by rwa [hid, hid']) claimed hclaimed.1 claimed' hclaimed'.1 hclaimed hclaimed'
  · intro first _ role hon
    rw [Endpoint.isOnAdapter, hadapter] at hon
    cases hon.1
  · intro first _ role hon
    rw [Endpoint.isOnAdapter, hadapter] at hon
    cases hon.1

/-- An update that drops the first of two ports and gives its id to the second plugs the
cables of both into the port that is left. -/
theorem applyCatalogResolutionPlan_merges : ∃ result,
    applyCatalogResolutionPlan (lanProject [1, 2])
      (buildCatalogResolutionPlan asciiText (networkServer [lanPort 1 "lan-1", lanPort 2 "lan-2"])
        (networkServer [lanPort 1 "lan-2"]) (lanProject [1, 2]) ⟨"nas", 1⟩) = .ok result ∧
    ¬WiringKept (networkServer [lanPort 1 "lan-1", lanPort 2 "lan-2"])
      (networkServer [lanPort 1 "lan-2"]) (lanProject [1, 2]) result ⟨"nas", 1⟩ := by
  have hrun : (applyCatalogResolutionPlan (lanProject [1, 2])
      (buildCatalogResolutionPlan asciiText (networkServer [lanPort 1 "lan-1", lanPort 2 "lan-2"])
        (networkServer [lanPort 1 "lan-2"]) (lanProject [1, 2]) ⟨"nas", 1⟩)).toOption
      = some ⟨[], [], [lanCable 1 1 1, lanCable 2 1 2]⟩ := by decide +kernel
  refine ⟨_, eq_ok_of_toOption hrun, ?_⟩
  intro hkept
  exact hkept.apart (lanCable 1 1 1) (by decide) (lanCable 1 1 1) (by decide) rfl
    (lanCable 2 2 2) (by decide) (lanCable 2 1 2) (by decide) rfl .source .source
    ⟨by decide, rfl⟩ ⟨by decide, rfl⟩ (by decide) rfl

end HomelabInventory.CatalogResolution
