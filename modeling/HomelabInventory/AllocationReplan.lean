import HomelabInventory.AllocationSoundness

/-!
# Planning again changes nothing

The order of the assignments, the passes of the planner and the normalisation of
a whole project are stable: planning the assignments a host was planned with
returns them, so normalising twice is normalising once.
-/

namespace HomelabInventory.Compatibility

open InsertionMap List

variable {rules : TextRules} {evaluation : Evaluation} {project project' : Project}
  {hostId : String} {host : InventoryItem} {plan : AllocationPlan}

/-! ## The order of the assignments -/

theorem compareAssignments_trans (rules : TextRules) : Std.TransCmp (compareAssignments rules) := by
  have hlocale := rules.consistent
  have hassigned : Std.TransCmp fun left right : ComponentAssignment =>
      rules.localeCompare left.assignedAt right.assignedAt :=
    { eq_swap := Std.OrientedCmp.eq_swap
      isLE_trans := Std.TransCmp.isLE_trans }
  have hid : Std.TransCmp fun left right : ComponentAssignment => compare left.id right.id :=
    { eq_swap := Std.OrientedCmp.eq_swap
      isLE_trans := Std.TransCmp.isLE_trans }
  exact inferInstanceAs (Std.TransCmp (compareLex _ _))

theorem compareHostAllocationAssignments_trans (rules : TextRules) (items : InventoryItems) :
    Std.TransCmp (compareHostAllocationAssignments rules items) := by
  have hassignments := compareAssignments_trans rules
  have hcpu : Std.TransCmp fun left right : ComponentAssignment =>
      compare (!isCpuAssignment items left) (!isCpuAssignment items right) :=
    { eq_swap := Std.OrientedCmp.eq_swap
      isLE_trans := Std.TransCmp.isLE_trans }
  have heq : compareHostAllocationAssignments rules items = compareLex
      (fun left right => compare (!isCpuAssignment items left) (!isCpuAssignment items right))
      (compareAssignments rules) := by
    funext left right
    simp only [compareHostAllocationAssignments, compareLex]
    cases isCpuAssignment items left <;> cases isCpuAssignment items right <;> rfl
  rw [heq]
  infer_instance

theorem compareAssignments_eq {left right : ComponentAssignment}
    (h : compareAssignments rules left right = .eq) : left.id = right.id := by
  rw [compareAssignments, Ordering.then_eq_eq] at h
  exact Nat.compare_eq_eq.mp h.2

theorem compareHostAllocationAssignments_eq {items : InventoryItems}
    {left right : ComponentAssignment}
    (h : compareHostAllocationAssignments rules items left right = .eq) : left.id = right.id := by
  simp only [compareHostAllocationAssignments] at h
  split at h
  · split at h
    · exact nomatch h
    · exact nomatch h
  · exact compareAssignments_eq h

section

variable {cmp : ComponentAssignment → ComponentAssignment → Ordering}

theorem pairwise_sortBy (hcmp : Std.TransCmp cmp) (l : List ComponentAssignment) :
    (sortBy cmp l).Pairwise fun left right => (cmp left right).isLE = true := by
  have htotal : Std.Total fun left right : ComponentAssignment => (cmp left right).isLE = true := by
    refine ⟨fun left right => ?_⟩
    have hswap : cmp left right = (cmp right left).swap := Std.OrientedCmp.eq_swap
    rw [hswap]
    cases cmp right left <;> simp
  have htrans : IsTrans ComponentAssignment fun left right => (cmp left right).isLE = true :=
    ⟨fun _ _ _ => Std.TransCmp.isLE_trans⟩
  exact pairwise_insertionSort _ l

/-- Assignments in order stay in order, from wherever they are collected. -/
theorem sortBy_of_perm (hcmp : Std.TransCmp cmp)
    (heq : ∀ {left right}, cmp left right = .eq → left.id = right.id)
    {l sorted : List ComponentAssignment} (hids : (sorted.map (·.id)).Nodup)
    (hsorted : sorted.Pairwise fun left right => (cmp left right).isLE = true)
    (hperm : l.Perm sorted) : sortBy cmp l = sorted := by
  refine List.Perm.eq_of_pairwise ?_ (pairwise_sortBy hcmp l) hsorted
    ((sortBy_perm cmp l).trans hperm)
  intro a b ha hb hab hba
  have hsame := heq (Std.OrientedCmp.isLE_antisymm hab hba)
  have ha' : a ∈ sorted := hperm.mem_iff.mp ((sortBy_perm cmp l).mem_iff.mp ha)
  exact inj_on_of_nodup_map hids ha' hb hsame

/-- The order does not look at allocations. -/
theorem pairwise_of_clean {l planned : List ComponentAssignment}
    (hcmp : ∀ left right, cmp left.clean right.clean = cmp left right)
    (hsame : planned.map (·.clean) = l.map (·.clean))
    (h : l.Pairwise fun left right => (cmp left right).isLE = true) :
    planned.Pairwise fun left right => (cmp left right).isLE = true := by
  have hclean : (l.map (·.clean)).Pairwise fun left right => (cmp left right).isLE = true := by
    rw [pairwise_map]
    exact h.imp fun {left right} hle => (hcmp left right).symm ▸ hle
  rw [← hsame, pairwise_map] at hclean
  exact hclean.imp fun {left right} hle => hcmp left right ▸ hle

end

/-- The assignments a host was planned with are planned in the order they have. -/
theorem plannedOrder_of_perm {planned : List ComponentAssignment}
    (hitems : project'.items = project.items)
    (hids : ((plannedOrder rules project host hostId).map (·.id)).Nodup)
    (hsame : planned.map (·.clean) = (plannedOrder rules project host hostId).map (·.clean))
    (hperm : (hostAssignments project' hostId).Perm planned) :
    plannedOrder rules project' host hostId = planned := by
  have hplannedIds : (planned.map (·.id)).Nodup := by
    rw [map_id_of_clean hsame]
    exact hids
  rw [plannedOrder] at hsame ⊢
  split at hsame <;> rename_i hpc
  · rw [if_pos hpc]
    have hcmp := compareAssignments_trans rules
    exact sortBy_of_perm hcmp compareAssignments_eq hplannedIds
      (pairwise_of_clean (fun _ _ => rfl) hsame (pairwise_sortBy hcmp _)) hperm
  · rw [if_neg hpc, hitems]
    have hcmp := compareHostAllocationAssignments_trans rules project.items
    exact sortBy_of_perm hcmp compareHostAllocationAssignments_eq hplannedIds
      (pairwise_of_clean (fun _ _ => rfl) hsame (pairwise_sortBy hcmp _)) hperm

/-! ## Servers -/

section

variable {planning : HostPlanning}

theorem turns_assigned {prior l : List ComponentAssignment}
    {entries : List (Turn × Option CompatibilityAllocation)}
    (h : entries.map Prod.fst = (turns prior l).map Prod.fst) :
    turns prior (entries.map Turn.assigned) = entries := by
  induction l generalizing prior entries with
  | nil =>
    rw [turns, map_nil, map_eq_nil_iff] at h
    rw [h]
    rfl
  | cons a rest ih =>
    cases entries with
    | nil => cases h
    | cons entry entries =>
      rw [turns, map_cons, map_cons] at h
      obtain ⟨hfirst, hrest⟩ := List.cons.inj h
      obtain ⟨turn, allocation⟩ := entry
      obtain rfl : turn = ⟨a.clean, prior⟩ := hfirst
      rw [map_cons, turns]
      have hclean : (Turn.assigned (⟨a.clean, prior⟩, allocation)).clean = a.clean := rfl
      rw [hclean, ih hrest]
      rfl

theorem turns_append (prior before after : List ComponentAssignment) :
    turns prior (before ++ after) =
      turns prior before ++ turns (prior ++ before.map (·.clean)) after := by
  induction before generalizing prior with
  | nil => simp [turns]
  | cons a rest ih =>
    rw [cons_append, turns, turns, ih, map_cons, append_assoc]
    rfl

variable {l : List ComponentAssignment}

/-- The turns of the planned assignments are those of the plan of the placer. -/
theorem turns_planned {plan : AllocationPlan} (hids : (l.map (·.id)).Nodup)
    (h : planServerAllocations planning l = .ok plan) :
    turns [] plan.assignments = planning.placer.plan (turns [] l) := by
  rw [planServerAllocations_assignments hids h]
  exact turns_assigned (planning.placer.map_fst_plan (turns [] l))

/-- Planning a server with the assignments it was planned with returns them. -/
theorem planServerAllocations_again (hserver : planning.host.type ≠ .pcBuild)
    (hids : (l.map (·.id)).Nodup) (h : planServerAllocations planning l = .ok plan) :
    ∃ plan', planServerAllocations planning plan.assignments = .ok plan' ∧
      plan'.assignments = plan.assignments := by
  have hsound := planServerAllocations_sound hids h
  have hplan := planServerAllocations_assignments hids h
  have hturns := turns_planned hids h
  have hids' : (plan.assignments.map (·.id)).Nodup := by
    rw [map_id_of_clean hsound.same]
    exact hids
  have hreadable : ∀ a ∈ plan.assignments, Readable planning a := by
    intro a ha
    have hmem : a.clean ∈ l.map (·.clean) := hsound.same ▸ mem_map_of_mem ha
    obtain ⟨b, hb, hab⟩ := mem_map.mp hmem
    have hread := (planServerAllocations_ok_iff hserver hids).mp ⟨plan, h⟩ b hb
    have hitem : a.itemId = b.itemId := (congrArg ComponentAssignment.itemId hab).symm
    intro component hcomponent
    exact hread component (hitem ▸ hcomponent)
  obtain ⟨plan', hplan'⟩ := (planServerAllocations_ok_iff hserver hids').mpr hreadable
  refine ⟨plan', hplan', ?_⟩
  rw [planServerAllocations_assignments hids' hplan', hturns, Placer.plan_plan, ← hplan]

/-- **Seats.** Every allocation of the plan of a server is a place of its component, and with checks
on its group accepted the component next to the assignments before it. -/
theorem planServerAllocations_seated {plan : AllocationPlan} (hids : (l.map (·.id)).Nodup)
    (h : planServerAllocations planning l = .ok plan) :
    ∀ before a after, plan.assignments = before ++ a :: after →
      ∀ allocation, a.allocation = some allocation →
        planning.Seated ⟨a.clean, before.map (·.clean)⟩ allocation := by
  intro before a after hassignments allocation hallocation
  have hturns := turns_planned hids h
  rw [hassignments, turns_append, turns, nil_append] at hturns
  have hmem : (⟨a.clean, before.map (·.clean)⟩, a.allocation) ∈
      planning.placer.plan (turns [] l) := by
    rw [← hturns]
    exact mem_append_right _ mem_cons_self
  exact planning.placer.plan_fits (fun _ _ => seated_of_keeps) (fun _ _ => seated_of_candidate)
    (turns [] l) _ hmem allocation hallocation

/-! ## PC builds -/

/-- Planning a PC build does not look at the allocations. -/
theorem planPcBuildAllocations_clean (l : List ComponentAssignment) :
    planPcBuildAllocations planning (l.map (·.clean)) = planPcBuildAllocations planning l := by
  have hlookup : ∀ l : List ComponentAssignment,
      ((l.map (·.clean)).filterMap fun a => itemLookup planning.items a.itemId) =
        l.filterMap fun a => itemLookup planning.items a.itemId := by
    intro l
    rw [filterMap_map]
    rfl
  have hmotherboard : ∀ component, assignedItemOfType (l.map (·.clean)) planning.items .motherboard
      component = assignedItemOfType l planning.items .motherboard component := by
    intro component
    rw [assignedItemOfType, assignedItemOfType, assignedComponents, assignedComponents, hlookup]
  have hhost : ∀ component, effectiveHostForAssignment planning.host (l.map (·.clean))
      planning.items component = effectiveHostForAssignment planning.host l planning.items
        component := by
    intro component
    rw [effectiveHostForAssignment, effectiveHostForAssignment, hmotherboard]
  have hloop : ∀ motherboard capabilities state,
      (l.map (·.clean)).foldlM (pcBuildStep planning motherboard capabilities) state =
        l.foldlM (pcBuildStep planning motherboard capabilities) state := by
    intro motherboard capabilities state
    rw [foldlM_map]
    rfl
  simp only [planPcBuildAllocations, hmotherboard, hhost, hloop]

/-- A PC build is planned with the assignments asked for. -/
theorem planPcBuildAllocations_same (h : planPcBuildAllocations planning l = .ok plan) :
    plan.assignments.map (·.clean) = l.map (·.clean) := by
  obtain ⟨placing, hplacing, hplan⟩ := bind_eq_ok.mp h
  obtain rfl := pure_eq_ok.mp hplan
  have hstart := fun motherboard capabilities =>
    (⟨⟨rfl, List.Pairwise.nil, fun _ ha => nomatch ha⟩, rfl⟩ :
      PcBuildInvariant planning motherboard capabilities [] ⟨[], [], [], []⟩)
  exact ((hstart _ _).run hplacing).sound.same

/-- Planning a PC build with the assignments it was planned with returns them. -/
theorem planPcBuildAllocations_again (h : planPcBuildAllocations planning l = .ok plan) :
    planPcBuildAllocations planning plan.assignments = .ok plan := by
  rw [← planPcBuildAllocations_clean, planPcBuildAllocations_same h, planPcBuildAllocations_clean]
  exact h

end

/-! ## Hosts -/

/-- The planner of a host in a project with the same items and policy. -/
theorem planningOf_congr (hitems : project'.items = project.items)
    (hpolicy : project'.compatibilityPolicy = project.compatibilityPolicy) :
    planningOf rules evaluation project' hostId host =
      planningOf rules evaluation project hostId host := by
  have henabled : isHostCompatibilityEnabled project' hostId =
      isHostCompatibilityEnabled project hostId := by
    rw [isHostCompatibilityEnabled, isHostCompatibilityEnabled, hpolicy]
  have hverified : isVerifiedMemoryLimitEnabled project' hostId =
      isVerifiedMemoryLimitEnabled project hostId := by
    rw [isVerifiedMemoryLimitEnabled, isVerifiedMemoryLimitEnabled, hpolicy]
  rw [planningOf, planningOf, henabled, hverified, hitems]

/-- The plan of a host depends on its own assignments only. -/
theorem planHostAllocations_congr (hitems : project'.items = project.items)
    (hpolicy : project'.compatibilityPolicy = project.compatibilityPolicy)
    (hassignments : hostAssignments project' hostId = hostAssignments project hostId) :
    planHostAllocations rules evaluation project' hostId =
      planHostAllocations rules evaluation project hostId := by
  rw [planHostAllocations, planHostAllocations, hitems]
  cases itemLookup project.items hostId with
  | none => rfl
  | some host =>
    simp only [planningOf_congr hitems hpolicy, plannedOrder, hassignments, hitems]

/-- Planning a host with the assignments it was planned with returns them. -/
theorem planHostAllocations_again (hids : (project.assignments.map (·.id)).Nodup)
    (h : planHostAllocations rules evaluation project hostId = .ok plan)
    (hitems : project'.items = project.items)
    (hpolicy : project'.compatibilityPolicy = project.compatibilityPolicy)
    (hperm : (hostAssignments project' hostId).Perm plan.assignments) :
    ∃ plan', planHostAllocations rules evaluation project' hostId = .ok plan' ∧
      plan'.assignments = plan.assignments := by
  rw [planHostAllocations] at h ⊢
  rw [hitems]
  cases hhost : itemLookup project.items hostId with
  | none =>
    rw [hhost] at h
    obtain rfl := Except.ok.inj h
    exact ⟨_, rfl, rfl⟩
  | some host =>
    rw [hhost] at h
    simp only at h ⊢
    by_cases hkind : isHost host = true
    · simp only [hkind, Bool.not_true, Bool.false_eq_true, if_false] at h ⊢
      rw [planningOf_congr hitems hpolicy]
      have horder : ((plannedOrder rules project host hostId).map (·.id)).Nodup :=
        nodup_plannedOrder hids
      by_cases hpc : host.type = .pcBuild
      · rw [if_pos hpc] at h ⊢
        have hsame := planPcBuildAllocations_same h
        rw [plannedOrder_of_perm hitems horder hsame hperm]
        exact ⟨plan, planPcBuildAllocations_again h, rfl⟩
      · rw [if_neg hpc] at h ⊢
        have hsound := planServerAllocations_sound horder h
        rw [plannedOrder_of_perm hitems horder hsound.same hperm]
        exact planServerAllocations_again hpc horder h
    · simp only [hkind, Bool.not_false, if_true] at h ⊢
      obtain rfl := Except.ok.inj h
      exact ⟨_, rfl, rfl⟩

/-! ## Projects -/

/-- The plan of a host, empty when planning fails. -/
def planOf (rules : TextRules) (evaluation : Evaluation) (project : Project) (hostId : String) :
    AllocationPlan :=
  match planHostAllocations rules evaluation project hostId with
  | .ok plan => plan
  | .error _ => ⟨[], []⟩

/-- The keys of the hosts of a project. -/
def hostKeys (project : Project) : List String :=
  (project.items.entries.filter fun entry => isHost entry.2).map (·.1)

/-- The planned assignments of some hosts, by host and number. -/
def plannedEntries (rules : TextRules) (evaluation : Evaluation) (project : Project)
    (hosts : List String) : List ((String × ℕ) × ComponentAssignment) :=
  hosts.flatMap fun hostId =>
    (planOf rules evaluation project hostId).assignments.map fun a => ((hostId, a.id), a)

/-- The planned assignment of an assignment, or the assignment itself. -/
def plannedOr (planned : List ((String × ℕ) × ComponentAssignment)) (a : ComponentAssignment) :
    ComponentAssignment :=
  (get? planned (a.serverId, a.id)).getD a

/-- The loop over the hosts collects the planned assignments of all of them. -/
theorem planLoop_eq_ok {hosts : List String}
    {start final : List ((String × ℕ) × ComponentAssignment)} :
    hosts.foldlM (fun (planned : List ((String × ℕ) × ComponentAssignment)) hostId => do
        let plan ← planHostAllocations rules evaluation project hostId
        pure (plan.assignments.foldl
          (fun planned (a : ComponentAssignment) => InsertionMap.set planned (hostId, a.id) a)
          planned)) start =
      .ok final ↔
    (∀ hostId ∈ hosts, planHostAllocations rules evaluation project hostId =
        .ok (planOf rules evaluation project hostId)) ∧
      (plannedEntries rules evaluation project hosts).foldl
        (fun m entry => InsertionMap.set m entry.1 entry.2) start = final := by
  induction hosts generalizing start with
  | nil =>
    rw [foldlM_nil, pure_eq_ok]
    simp [plannedEntries]
  | cons hostId rest ih =>
    rw [foldlM_cons, bind_eq_ok]
    have hentries : ∀ plan : AllocationPlan,
        plan.assignments.foldl (fun planned a => InsertionMap.set planned (hostId, a.id) a) start =
          (plan.assignments.map fun a => ((hostId, a.id), a)).foldl
            (fun m entry => InsertionMap.set m entry.1 entry.2) start := by
      intro plan
      rw [foldl_map]
    constructor
    · rintro ⟨next, hnext, hrest⟩
      obtain ⟨plan, hplan, hset⟩ := bind_eq_ok.mp hnext
      obtain rfl := pure_eq_ok.mp hset
      obtain ⟨hothers, hfinal⟩ := ih.mp hrest
      have hplanOf : planOf rules evaluation project hostId = plan := by
        rw [planOf, hplan]
      refine ⟨?_, ?_⟩
      · rw [forall_mem_cons]
        exact ⟨hplanOf.symm ▸ hplan, hothers⟩
      · rw [plannedEntries, flatMap_cons, foldl_append, hplanOf, ← hentries]
        exact hfinal
    · rintro ⟨hall, hfinal⟩
      obtain ⟨hplan, hothers⟩ := forall_mem_cons.mp hall
      refine ⟨_, bind_eq_ok.mpr ⟨_, hplan, rfl⟩, ih.mpr ⟨hothers, ?_⟩⟩
      rw [plannedEntries, flatMap_cons, foldl_append, ← hentries] at hfinal
      exact hfinal

/-- A project is normalised when all its hosts can be planned. -/
theorem normalizeCompatibilityProject_eq_ok {normalized : Project} :
    normalizeCompatibilityProject rules evaluation project = .ok normalized ↔
      (∀ hostId ∈ hostKeys project, planHostAllocations rules evaluation project hostId =
          .ok (planOf rules evaluation project hostId)) ∧
        normalized = { project with
          assignments := project.assignments.map (plannedOr
            (ofEntries (plannedEntries rules evaluation project (hostKeys project)))) } := by
  rw [normalizeCompatibilityProject, bind_eq_ok]
  constructor
  · rintro ⟨planned, hplanned, hnormalized⟩
    obtain ⟨hall, rfl⟩ := planLoop_eq_ok.mp hplanned
    exact ⟨hall, (pure_eq_ok.mp hnormalized).symm⟩
  · rintro ⟨hall, rfl⟩
    exact ⟨_, planLoop_eq_ok.mpr ⟨hall, rfl⟩, rfl⟩

section

variable (hids : (project.assignments.map (·.id)).Nodup)
  (hall : ∀ hostId ∈ hostKeys project, planHostAllocations rules evaluation project hostId =
    .ok (planOf rules evaluation project hostId))
include hids hall

/-- The plan of a host that is one is sound. -/
theorem sound_of_mem_hostKeys (h : hostId ∈ hostKeys project) :
    ∃ host, SoundHostPlan rules project hostId host (planOf rules evaluation project hostId) := by
  obtain ⟨entry, hentry, rfl⟩ := mem_map.mp h
  obtain ⟨hmem, hkind⟩ := mem_filter.mp hentry
  exact ⟨entry.2, planHostAllocations_sound hids (itemLookup_key hmem) hkind (hall entry.1 h)⟩

/-- Every assignment of a host is planned, and a planned assignment is one of the
host with an allocation. -/
theorem planned_iff (h : hostId ∈ hostKeys project) (a : ComponentAssignment) :
    a.clean ∈ (hostAssignments project hostId).map (·.clean) ↔
      ∃ b ∈ (planOf rules evaluation project hostId).assignments, b.clean = a.clean := by
  obtain ⟨host, hsound⟩ := sound_of_mem_hostKeys hids hall h
  rw [← hsound.same.mem_iff, mem_map]

/-- The planned assignments are found by host and number. -/
theorem get?_plannedEntries {b : ComponentAssignment} {id : ℕ} :
    get? (ofEntries
        (plannedEntries rules evaluation project (hostKeys project))) (hostId, id) = some b ↔
      hostId ∈ hostKeys project ∧
        b ∈ (planOf rules evaluation project hostId).assignments ∧ b.id = id := by
  have hkeys : (hostKeys project).Nodup := project.items.nodup.sublist (filter_sublist.map _)
  have hnodup : ((plannedEntries rules evaluation project (hostKeys project)).map (·.1)).Nodup := by
    rw [plannedEntries, map_flatMap, nodup_flatMap]
    refine ⟨?_, hkeys.imp ?_⟩
    · intro hostId h
      obtain ⟨host, hsound⟩ := sound_of_mem_hostKeys hids hall h
      rw [map_map]
      have hpairs := hsound.ids.map (f := fun id => (hostId, id)) fun _ _ heq => (Prod.mk.inj heq).2
      rw [map_map] at hpairs
      exact hpairs
    · intro left right hne key hleft hright
      simp only [map_map] at hleft hright
      obtain ⟨a, -, rfl⟩ := mem_map.mp hleft
      obtain ⟨b, -, heq⟩ := mem_map.mp hright
      exact hne (Prod.mk.inj heq).1.symm
  rw [get?_ofEntries_eq_some hnodup, plannedEntries, mem_flatMap]
  constructor
  · rintro ⟨hostId', hmem, hentry⟩
    obtain ⟨a, ha, heq⟩ := mem_map.mp hentry
    obtain ⟨hkey, rfl⟩ := Prod.mk.inj heq
    obtain ⟨rfl, rfl⟩ := Prod.mk.inj hkey
    exact ⟨hmem, ha, rfl⟩
  · rintro ⟨hmem, hb, rfl⟩
    exact ⟨hostId, hmem, mem_map.mpr ⟨b, hb, rfl⟩⟩

theorem plannedOr_clean {a : ComponentAssignment} (ha : a ∈ project.assignments) :
    (plannedOr (ofEntries
      (plannedEntries rules evaluation project (hostKeys project))) a).clean = a.clean := by
  rw [plannedOr]
  cases hget : get? (ofEntries
      (plannedEntries rules evaluation project (hostKeys project))) (a.serverId, a.id) with
  | none => rfl
  | some b =>
    obtain ⟨hhost, hb, hid⟩ := (get?_plannedEntries hids hall).mp hget
    obtain ⟨other, hother, hclean⟩ := mem_map.mp
      ((planned_iff hids hall hhost b).mpr ⟨b, hb, rfl⟩)
    have hotherMem := (mem_filter.mp hother).1
    have hcleanId : other.clean.id = b.clean.id := congrArg ComponentAssignment.id hclean
    have hsameId : other.id = a.id := hcleanId.trans hid
    have hsame : other = a := inj_on_of_nodup_map hids hotherMem ha hsameId
    rw [Option.getD_some, ← hsame]
    exact hclean.symm

/-- The assignments a host has after normalising are those it was planned with. -/
theorem hostAssignments_normalized (h : hostId ∈ hostKeys project) :
    ((hostAssignments project hostId).map (plannedOr (ofEntries
        (plannedEntries rules evaluation project (hostKeys project))))).Perm
      (planOf rules evaluation project hostId).assignments := by
  obtain ⟨host, hsound⟩ := sound_of_mem_hostKeys hids hall h
  have hmem : ∀ a ∈ hostAssignments project hostId, a ∈ project.assignments :=
    fun a ha => (mem_filter.mp ha).1
  have hserver : ∀ a ∈ hostAssignments project hostId, a.serverId = hostId :=
    fun a ha => of_decide_eq_true (mem_filter.mp ha).2
  have hfind : ∀ a ∈ hostAssignments project hostId,
      ∀ b ∈ (planOf rules evaluation project hostId).assignments, b.clean = a.clean →
        plannedOr (ofEntries
          (plannedEntries rules evaluation project (hostKeys project))) a = b := by
    intro a ha b hb hclean
    have hcleanId : b.clean.id = a.clean.id := congrArg ComponentAssignment.id hclean
    have hid : b.id = a.id := hcleanId
    rw [plannedOr, hserver a ha, (get?_plannedEntries hids hall).mpr ⟨h, hb, hid⟩]
    rfl
  have hleft : ((hostAssignments project hostId).map (plannedOr (ofEntries
      (plannedEntries rules evaluation project (hostKeys project))))).Nodup := by
    refine List.Nodup.of_map (·.id) ?_
    rw [map_id_of_clean (l := hostAssignments project hostId)]
    · exact hids.sublist (filter_sublist.map _)
    · rw [map_map]
      exact map_congr_left fun a ha => plannedOr_clean hids hall (hmem a ha)
  rw [perm_ext_iff_of_nodup hleft (List.Nodup.of_map (·.id) hsound.ids)]
  intro b
  rw [mem_map]
  constructor
  · rintro ⟨a, ha, rfl⟩
    obtain ⟨b, hb, hclean⟩ := (planned_iff hids hall h a).mp (mem_map_of_mem ha)
    rw [hfind a ha b hb hclean]
    exact hb
  · intro hb
    obtain ⟨a, ha, hclean⟩ := mem_map.mp ((planned_iff hids hall h b).mpr ⟨b, hb, rfl⟩)
    exact ⟨a, ha, hfind a ha b hb hclean.symm⟩

end

/-- Normalising a normalised project changes nothing. -/
theorem normalizeCompatibilityProject_again {normalized : Project}
    (hids : (project.assignments.map (·.id)).Nodup)
    (h : normalizeCompatibilityProject rules evaluation project = .ok normalized) :
    normalizeCompatibilityProject rules evaluation normalized = .ok normalized := by
  obtain ⟨hall, hnormalized⟩ := normalizeCompatibilityProject_eq_ok.mp h
  have hitems : normalized.items = project.items := by rw [hnormalized]
  have hpolicy : normalized.compatibilityPolicy = project.compatibilityPolicy := by
    rw [hnormalized]
  have hkeys : hostKeys normalized = hostKeys project := by rw [hostKeys, hitems, hostKeys]
  have hassignments : ∀ hostId, hostAssignments normalized hostId =
      (hostAssignments project hostId).map (plannedOr (ofEntries
        (plannedEntries rules evaluation project (hostKeys project)))) := by
    intro hostId
    rw [hnormalized, hostAssignments, filter_map, hostAssignments]
    refine congrArg _ (filter_congr fun a ha => ?_)
    have hserver := congrArg ComponentAssignment.serverId (plannedOr_clean hids hall ha)
    exact congrArg (fun serverId => decide (serverId = hostId)) hserver
  have hagain : ∀ hostId ∈ hostKeys project, ∃ plan',
      planHostAllocations rules evaluation normalized hostId = .ok plan' ∧
        plan'.assignments = (planOf rules evaluation project hostId).assignments := by
    intro hostId hhost
    refine planHostAllocations_again hids (hall hostId hhost) hitems hpolicy ?_
    rw [hassignments]
    exact hostAssignments_normalized hids hall hhost
  have hplanOf : ∀ hostId ∈ hostKeys project,
      planHostAllocations rules evaluation normalized hostId =
          .ok (planOf rules evaluation normalized hostId) ∧
        (planOf rules evaluation normalized hostId).assignments =
          (planOf rules evaluation project hostId).assignments := by
    intro hostId hhost
    obtain ⟨plan', hplan', hsame⟩ := hagain hostId hhost
    have heq : planOf rules evaluation normalized hostId = plan' := by rw [planOf, hplan']
    exact ⟨by rw [heq, hplan'], by rw [heq, hsame]⟩
  have hentries : plannedEntries rules evaluation normalized (hostKeys normalized) =
      plannedEntries rules evaluation project (hostKeys project) := by
    rw [hkeys, plannedEntries, plannedEntries]
    exact flatMap_congr fun hostId hhost => by rw [(hplanOf hostId hhost).2]
  rw [normalizeCompatibilityProject_eq_ok]
  refine ⟨fun hostId hhost => (hplanOf hostId (hkeys ▸ hhost)).1, ?_⟩
  rw [hentries]
  have hfixed : ∀ a ∈ normalized.assignments, plannedOr (ofEntries
      (plannedEntries rules evaluation project (hostKeys project))) a = a := by
    intro b hb
    rw [hnormalized] at hb
    obtain ⟨a, ha, rfl⟩ := mem_map.mp hb
    have hclean := plannedOr_clean hids hall ha
    have hserver := congrArg ComponentAssignment.serverId hclean
    have hid := congrArg ComponentAssignment.id hclean
    change (plannedOr _ a).serverId = a.serverId at hserver
    change (plannedOr _ a).id = a.id at hid
    conv_lhs => rw [plannedOr, hserver, hid]
    rw [plannedOr]
    cases get? (ofEntries
      (plannedEntries rules evaluation project (hostKeys project))) (a.serverId, a.id) <;> rfl
  have hmap := map_congr_left hfixed
  rw [map_id'] at hmap
  rw [hmap]

/-- **Allocation is stable.** Normalising a project twice is normalising it once;
planning a host with the assignments it was planned with, in any order, returns
them; and the plan of a host does not depend on the assignments of the others. -/
theorem normalizeCompatibilityProject_idempotent (rules : TextRules) (evaluation : Evaluation)
    (project : Project) (hids : (project.assignments.map (·.id)).Nodup) :
    (normalizeCompatibilityProject rules evaluation project >>=
        normalizeCompatibilityProject rules evaluation) =
      normalizeCompatibilityProject rules evaluation project ∧
    (∀ hostId plan, planHostAllocations rules evaluation project hostId = .ok plan →
      ∀ project' : Project, project'.items = project.items →
        project'.compatibilityPolicy = project.compatibilityPolicy →
        (hostAssignments project' hostId).Perm plan.assignments →
        ∃ plan', planHostAllocations rules evaluation project' hostId = .ok plan' ∧
          plan'.assignments = plan.assignments) ∧
    (∀ hostId, ∀ project' : Project, project'.items = project.items →
      project'.compatibilityPolicy = project.compatibilityPolicy →
      hostAssignments project' hostId = hostAssignments project hostId →
      planHostAllocations rules evaluation project' hostId =
        planHostAllocations rules evaluation project hostId) := by
  refine ⟨?_, ?_, ?_⟩
  · cases h : normalizeCompatibilityProject rules evaluation project with
    | error e => rfl
    | ok normalized => exact normalizeCompatibilityProject_again hids h
  · intro hostId plan hplan project' hitems hpolicy hperm
    exact planHostAllocations_again hids hplan hitems hpolicy hperm
  · intro hostId project' hitems hpolicy hassignments
    exact planHostAllocations_congr hitems hpolicy hassignments

/-- Normalising the server with its memory module. -/
theorem normalizeCompatibilityProject_idempotent_slotted :
    (normalizeCompatibilityProject asciiRules (fun _ => []) (eccProject slottedServer rfl) >>=
        normalizeCompatibilityProject asciiRules fun _ => []) =
      normalizeCompatibilityProject asciiRules (fun _ => []) (eccProject slottedServer rfl) :=
  (normalizeCompatibilityProject_idempotent asciiRules (fun _ => [])
    (eccProject slottedServer rfl) (nodup_singleton _)).1

/-! ## The order in which assignments are stored -/

section

variable {stored : List ComponentAssignment}

/-- The plan of a host does not depend on the order of the assignments. -/
theorem planHostAllocations_of_perm (hids : (project.assignments.map (·.id)).Nodup)
    (hperm : stored.Perm project.assignments) (hostId : String) :
    planHostAllocations rules evaluation { project with assignments := stored } hostId =
      planHostAllocations rules evaluation project hostId := by
  rw [planHostAllocations, planHostAllocations]
  cases itemLookup project.items hostId with
  | none => rfl
  | some host =>
    have hplanned : ((plannedOrder rules project host hostId).map (·.id)).Nodup :=
      nodup_plannedOrder hids
    have horder : plannedOrder rules { project with assignments := stored } host hostId =
        plannedOrder rules project host hostId := by
      refine plannedOrder_of_perm ?_ hplanned rfl ((hperm.filter _).trans plannedOrder_perm.symm)
      rfl
    have hplanning : planningOf rules evaluation { project with assignments := stored } hostId host =
        planningOf rules evaluation project hostId host := planningOf_congr rfl rfl
    simp only [horder, hplanning]

theorem bind_pure_eq_map_map {ε α β γ : Type} (x : Except ε α) (g : α → β) (f : β → γ) :
    (x >>= fun a => pure (f (g a))) = (x.map g).map f := by
  cases x <;> rfl

/-- **Normalising does not depend on the order of the assignments.** Each of them is
planned alike wherever it is stored, and planning fails for all orders or for none. -/
theorem normalizeCompatibilityProject_perm (rules : TextRules) (evaluation : Evaluation)
    (project : Project) (hids : (project.assignments.map (·.id)).Nodup) :
    ∃ planned : Except EvaluationError (ComponentAssignment → ComponentAssignment),
      ∀ stored : List ComponentAssignment, stored.Perm project.assignments →
        normalizeCompatibilityProject rules evaluation { project with assignments := stored } =
          planned.map fun plan => { project with assignments := stored.map plan } := by
  apply Exists.intro
  intro stored hperm
  simp only [normalizeCompatibilityProject, planHostAllocations_of_perm hids hperm]
  exact bind_pure_eq_map_map _
    (fun planned (a : ComponentAssignment) => (get? planned (a.serverId, a.id)).getD a)
    fun plan => { project with assignments := stored.map plan }

/-- The server with two modules, whose assignments are stored in some order. -/
def pairProject (stored : List ComponentAssignment) : Project where
  items := ⟨[("server:1", slottedServer), ("ram:1", eccModule), ("ram:2", { eccModule with id := 2 })],
    by decide, by
    simp only [forall_mem_cons]
    exact ⟨rfl, rfl, rfl, fun _ h => nomatch h⟩⟩
  assignments := stored
  compatibilityPolicy := ⟨[], []⟩

/-- A module of the server. -/
def moduleAssignment (id : ℕ) (itemId : String) (slots : Option (List ℚ)) : ComponentAssignment :=
  ⟨id, "server:1", itemId, .ram, "2024-01-01T00:00:00Z", slots.map (⟨.memory, none, ·⟩)⟩

/-- In both orders of the two assignments each module gets the slot it gets in the other. -/
theorem normalizeCompatibilityProject_perm_slotted :
    let first := moduleAssignment 1 "ram:1"
    let second := moduleAssignment 2 "ram:2"
    normalizeCompatibilityProject asciiRules (fun _ => []) (pairProject [first none, second none]) =
        .ok (pairProject [first (some [0]), second (some [1])]) ∧
      normalizeCompatibilityProject asciiRules (fun _ => []) (pairProject [second none, first none]) =
        .ok (pairProject [second (some [1]), first (some [0])]) := by
  intro first second
  obtain ⟨planned, h⟩ := normalizeCompatibilityProject_perm asciiRules (fun _ => [])
    (pairProject [first none, second none]) (by decide)
  have hstored := h _ (.refl _)
  have hswapped := h [second none, first none] (.swap ..)
  have hevaluated : (normalizeCompatibilityProject asciiRules (fun _ => [])
      (pairProject [first none, second none])).toOption.map (·.assignments) =
        some [first (some [0]), second (some [1])] := by
    decide +kernel
  rw [hstored] at hevaluated
  cases planned with
  | error e => cases hevaluated
  | ok plan =>
    simp only [Except.map, Except.toOption, Option.map_some, map_cons, map_nil, Option.some.injEq,
      cons.injEq, and_true, pairProject] at hevaluated
    obtain ⟨hfirst, hsecond⟩ := hevaluated
    refine ⟨hstored.trans ?_, hswapped.trans ?_⟩ <;>
      simp only [Except.map, pairProject, map_cons, map_nil, hfirst, hsecond]

end

end HomelabInventory.Compatibility
