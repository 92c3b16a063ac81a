import HomelabInventory.AcceptedGroups
import HomelabInventory.PlannedResults

/-!
# Planning again moves no hardware without need

When an assignment is removed from a planned server and the server is planned again, the other
assignments stay where they are as long as their own places still accept them.
-/

namespace HomelabInventory.Compatibility

open List

section

variable {planning : HostPlanning} {l before after : List ComponentAssignment}
  {a b : ComponentAssignment} {plan : AllocationPlan} {allocation : CompatibilityAllocation}

/-! ## Packed assignments -/

/-- The entries of assignments, assigned, are the assignments. -/
theorem map_assigned_turns (prior l : List ComponentAssignment) :
    (turns prior l).map Turn.assigned = l := by
  induction l generalizing prior with
  | nil => rfl
  | cons a rest ih =>
    rw [turns, map_cons, ih]
    rfl

/-- No two of the assignments have a cell in common. -/
def PackedAssignments (l : List ComponentAssignment) : Prop :=
  l.Pairwise fun a b => a.cells.Disjoint b.cells

theorem packed_turns (prior : List ComponentAssignment) (h : PackedAssignments l) :
    planning.placer.Packed (turns prior l) := by
  rw [← map_assigned_turns prior l, PackedAssignments, pairwise_map] at h
  exact h

/-- The turn of an assignment. -/
theorem getElem?_turns (prior before after : List ComponentAssignment) (b : ComponentAssignment) :
    (turns prior (before ++ b :: after))[before.length]? =
      some (⟨b.clean, prior ++ before.map (·.clean)⟩, b.allocation) := by
  have hlength : (turns prior before).length = before.length := by
    rw [← length_map (f := Turn.assigned), map_assigned_turns]
  rw [turns_append, turns, ← hlength, getElem?_append_right (Nat.le_refl _), Nat.sub_self]
  rfl

/-- Over packed assignments the first pass preserves what may be kept. -/
theorem preserved_of_packed {preservation : Preservation} (hpacked : PackedAssignments l)
    (hids : (l.map (·.id)).Nodup)
    (h : l.foldlM (preserveStep planning) ⟨[], [], []⟩ = .ok preservation)
    (hl : l = before ++ b :: after) :
    (InsertionMap.get? preservation.preserved b.id).map (·.1) =
      b.allocation.filter (planning.keeps ⟨b.clean, before.map (·.clean)⟩) := by
  obtain ⟨hkeep, -⟩ := preserveLoop_spec h hids fun _ _ => rfl
  simp only [map_nil] at hkeep
  have hrestrict := @Placer.keepStored_of_packed _ _ _ _ planning.placer [] _
    (packed_turns [] hpacked) (disjoint_nil_left _)
  rw [hkeep] at hrestrict
  have hturns := congrArg (fun entries => entries[before.length]?) (Prod.mk.inj hrestrict).1
  have hlength : before.length = (before.map (withPreserved preservation.preserved)).length := by
    rw [length_map]
  have hleft := getElem?_turns [] (before.map (withPreserved preservation.preserved))
    (after.map (withPreserved preservation.preserved)) (withPreserved preservation.preserved b)
  rw [← hlength] at hleft
  rw [hl, map_append, map_cons] at hturns
  simp only [hleft, getElem?_map, getElem?_turns, Option.map_some, Option.some.injEq,
    Prod.mk.injEq, Placer.restrict, nil_append] at hturns
  exact hturns.2

/-! ## Staying -/

/-- What the plan of packed assignments says about an assignment at its turn. -/
theorem turn_of_packed (hpacked : PackedAssignments l) (hids : (l.map (·.id)).Nodup)
    (h : planServerAllocations planning l = .ok plan) (hl : l = before ++ b :: after)
    (hallocation : b.allocation = some allocation) :
    b ∈ plan.assignments ∨
      planning.keeps ⟨b.clean, before.map (·.clean)⟩ allocation = false ∧
        ∀ component, itemLookup planning.items b.itemId = some component →
          planning.MatchesPlace component allocation →
            allocation.resourceType.isScalar = true →
              ∀ result ∈ plan.results, result.assignmentId = b.id → result.status = .compatible →
                (planning.ownResult component (before.map (·.clean)) allocation).status =
                  .compatible := by
  obtain ⟨hresults, preservation, hpreserve, -, hturns⟩ := planServerAllocations_results hids h
  have hpreserved := preserved_of_packed hpacked hids hpreserve hl
  obtain ⟨chosen, result, hresult, hplanned, hturn⟩ := hturns before b after hl
  rw [hallocation, Option.filter_some] at hpreserved
  cases hkeeps : planning.keeps ⟨b.clean, before.map (·.clean)⟩ allocation with
  | true =>
    rw [if_pos hkeeps] at hpreserved
    obtain ⟨value, hvalue, hfirst⟩ := Option.map_eq_some_iff.mp hpreserved
    have hchosen := (hturn.kept value hvalue).2
    rw [hfirst, ← hallocation] at hchosen
    rw [hchosen] at hplanned
    exact Or.inl hplanned
  | false =>
    rw [if_neg (by simp [hkeeps]), Option.map_eq_none_iff] at hpreserved
    refine Or.inr ⟨rfl, fun component hcomponent hplace hscalar result' hresult' hid hstatus => ?_⟩
    have hsame : result' = result := by
      refine inj_on_of_nodup_map (hresults ▸ hids) hresult' hresult ?_
      exact hid.trans hturn.id.symm
    obtain ⟨size, hdemand, -⟩ := hplace
    have hgroup : planning.ownGroup allocation = none := if_pos hscalar
    rw [HostPlanning.ownResult, hgroup]
    rw [hsame] at hstatus
    exact (hturn.scalar hpreserved component hcomponent _ size hdemand hscalar).compatible hstatus

theorem canOccupy_of_compatible {result : CompatibilityResult} {enabled : Bool}
    (h : result.status = .compatible) : resultCanOccupyResource result enabled = true := by
  rw [resultCanOccupyResource, h]
  rfl

/-- With checks off every result can occupy its resource. -/
theorem canOccupy_of_disabled (result : CompatibilityResult) :
    resultCanOccupyResource result false = true := by
  rw [resultCanOccupyResource]
  cases result.status <;> rfl

/-- An assignment whose place accepts it stays. -/
theorem stays_of_accepted {component : InventoryItem} (hpacked : PackedAssignments l)
    (hids : (l.map (·.id)).Nodup) (h : planServerAllocations planning l = .ok plan)
    (hl : l = before ++ b :: after) (hallocation : b.allocation = some allocation)
    (hcomponent : itemLookup planning.items b.itemId = some component)
    (hplace : planning.MatchesPlace component allocation)
    (haccepts : resultCanOccupyResource
      (planning.ownResult component (before.map (·.clean)) allocation)
      planning.compatibilityEnabled = true) : b ∈ plan.assignments := by
  rcases turn_of_packed hpacked hids h hl hallocation with hstays | ⟨hkeeps, -⟩
  · exact hstays
  · rw [keeps_iff.mpr ⟨component, hcomponent, hplace, haccepts⟩] at hkeeps
    exact nomatch hkeeps

/-- A processor or a memory module that is compatible stays. -/
theorem stays_of_status {component : InventoryItem} {result : PlanResult}
    (hpacked : PackedAssignments l) (hids : (l.map (·.id)).Nodup)
    (h : planServerAllocations planning l = .ok plan) (hl : l = before ++ b :: after)
    (hallocation : b.allocation = some allocation)
    (hcomponent : itemLookup planning.items b.itemId = some component)
    (hplace : planning.MatchesPlace component allocation)
    (hscalar : allocation.resourceType.isScalar = true) (hresult : result ∈ plan.results)
    (hid : result.assignmentId = b.id) (hstatus : result.status = .compatible) :
    b ∈ plan.assignments := by
  rcases turn_of_packed hpacked hids h hl hallocation with hstays | ⟨-, hcompatible⟩
  · exact hstays
  · refine stays_of_accepted hpacked hids h hl hallocation hcomponent hplace ?_
    exact canOccupy_of_compatible
      (hcompatible component hcomponent hplace hscalar result hresult hid hstatus)

/-! ## The status of what is planned -/

/-- With checks on, a planned processor or memory module is compatible, unless it is a processor of
unknown status. -/
theorem status_of_planned (hids : (l.map (·.id)).Nodup)
    (h : planServerAllocations planning l = .ok plan)
    (henabled : planning.compatibilityEnabled = true) (hb : b ∈ plan.assignments)
    (hallocation : b.allocation = some allocation)
    (hscalar : allocation.resourceType.isScalar = true) {result : PlanResult}
    (hresult : result ∈ plan.results) (hid : result.assignmentId = b.id) :
    result.status = .compatible ∨
      allocation.resourceType = .cpu ∧ result.status = .unknown := by
  obtain ⟨hresults, preservation, -, hoccupy, hturns⟩ := planServerAllocations_results hids h
  have hsound := planServerAllocations_sound hids h
  have hplannedIds : (plan.assignments.map (·.id)).Nodup := by
    rw [map_id_of_clean hsound.same]
    exact hids
  obtain ⟨before', after', hsplit⟩ := append_of_mem hb
  obtain ⟨component, hcomponent, ⟨size, hdemand, -⟩, -⟩ :=
    planServerAllocations_seated hids h before' b after' hsplit allocation hallocation
  have hclean : b.clean ∈ l.map (·.clean) := hsound.same ▸ mem_map_of_mem hb
  obtain ⟨a, ha, hab⟩ := mem_map.mp hclean
  have hcleanId : a.clean.id = b.clean.id := congrArg ComponentAssignment.id hab
  have hcleanItem : a.clean.itemId = b.clean.itemId := congrArg ComponentAssignment.itemId hab
  have hidEq : a.id = b.id := hcleanId
  have hitemEq : a.itemId = b.itemId := hcleanItem
  obtain ⟨before, after, hl⟩ := append_of_mem ha
  obtain ⟨chosen, found, hfound, hplanned, hturn⟩ := hturns before a after hl
  have hsameResult : result = found := by
    refine inj_on_of_nodup_map (hresults ▸ hids) hresult hfound ?_
    exact (hid.trans hidEq.symm).trans hturn.id.symm
  have hsame : { a with allocation := chosen } = b :=
    inj_on_of_nodup_map hplannedIds hplanned hb hidEq
  have hchosen : chosen = some allocation := by
    rw [← hallocation, ← hsame]
  rw [hsameResult]
  cases hget : InsertionMap.get? preservation.preserved a.id with
  | some value =>
    have hcan := hoccupy a.id value hget
    rw [henabled] at hcan
    exact Or.inl ((hturn.kept value hget).1.trans (compatible_of_canOccupy hcan))
  | none =>
    have houtcome := hturn.scalar hget component (hitemEq ▸ hcomponent) _ size hdemand hscalar
    obtain ⟨hstatus, hcan⟩ := houtcome.placed (by rw [hchosen]; rfl)
    rw [henabled, Bool.or_eq_true, Bool.and_eq_true, decide_eq_true_iff, decide_eq_true_iff] at hcan
    rcases hcan with hcan | hunknown
    · exact Or.inl (hstatus.trans (compatible_of_canOccupy hcan))
    · exact Or.inr hunknown

end

/-! ## Removing an assignment -/

section

variable {rules : TextRules} {evaluation : Evaluation} {project project' : Project}
  {hostId : String} {host : InventoryItem} {plan : AllocationPlan}

/-- The planned assignments without one of them. -/
def AllocationPlan.without (plan : AllocationPlan) (id : ℕ) : List ComponentAssignment :=
  plan.assignments.filter fun a => a.id != id

/-- An assignment that is planned again keeps its place for certain when checks are off, or when
its own place still accepts it: the host a processor or memory module, which has the status it had
and is no processor of unknown status; its own group alone any other component, evaluated next to the
assignments that are left before it. -/
def PlaceHolds (evaluation : Evaluation) (project : Project) (hostId : String)
    (host : InventoryItem) (plan plan' : AllocationPlan) (before : List ComponentAssignment)
    (b : ComponentAssignment) (allocation : CompatibilityAllocation) : Prop :=
  isHostCompatibilityEnabled project hostId = false ∨
    if allocation.resourceType.isScalar then
      ∃ result ∈ plan.results, ∃ result' ∈ plan'.results,
        result.assignmentId = b.id ∧ result'.assignmentId = b.id ∧ result'.status = result.status ∧
        ¬ (allocation.resourceType = .cpu ∧ result.status = .unknown)
    else
      ∀ component group, itemLookup project.items b.itemId = some component →
        group ∈ (requiredGroups host.capabilities allocation.resourceType).2 →
        group.id = allocation.groupId →
        ∃ result, evaluateAssignmentCompatibility evaluation
            (candidateHost host allocation.resourceType group) component before project.items
            (isVerifiedMemoryLimitEnabled project hostId) = .ok result ∧
          result.status = .compatible

/-- Planning a server again without one of its assignments. -/
theorem planHostAllocations_without (hids : (project.assignments.map (·.id)).Nodup)
    (hhost : itemLookup project.items hostId = some host) (hisHost : isHost host = true)
    (hserver : host.type ≠ .pcBuild)
    (h : planHostAllocations rules evaluation project hostId = .ok plan) (id : ℕ)
    (hitems : project'.items = project.items)
    (hpolicy : project'.compatibilityPolicy = project.compatibilityPolicy)
    (hperm : (hostAssignments project' hostId).Perm (plan.without id)) :
    ∃ plan', planHostAllocations rules evaluation project' hostId = .ok plan' ∧
      planServerAllocations (planningOf rules evaluation project hostId host) (plan.without id) =
        .ok plan' := by
  rw [planHostAllocations, hhost] at h
  simp only [hisHost, Bool.not_true, Bool.false_eq_true, if_false, if_neg hserver] at h
  have horder : ((plannedOrder rules project host hostId).map (·.id)).Nodup :=
    nodup_plannedOrder hids
  have hsound := planServerAllocations_sound horder h
  have hplannedIds : (plan.assignments.map (·.id)).Nodup := by
    rw [map_id_of_clean hsound.same]
    exact horder
  have hwithoutIds : ((plan.without id).map (·.id)).Nodup :=
    hplannedIds.sublist (filter_sublist.map _)
  have hagain : plannedOrder rules project' host hostId = plan.without id := by
    rw [plannedOrder, if_neg hserver] at hsound ⊢
    rw [hitems]
    have hcmp := compareHostAllocationAssignments_trans rules project.items
    refine sortBy_of_perm hcmp compareHostAllocationAssignments_eq hwithoutIds ?_ hperm
    exact (pairwise_of_clean (fun _ _ => rfl) hsound.same (pairwise_sortBy hcmp _)).sublist
      filter_sublist
  have hreadable : ∀ a ∈ plan.without id,
      Readable (planningOf rules evaluation project hostId host) a := by
    intro a ha
    have hmem : a.clean ∈ (plannedOrder rules project host hostId).map (·.clean) :=
      hsound.same ▸ mem_map_of_mem (mem_filter.mp ha).1
    obtain ⟨b, hb, hab⟩ := mem_map.mp hmem
    have hread := (planServerAllocations_ok_iff hserver horder).mp ⟨plan, h⟩ b hb
    have hitem : b.clean.itemId = a.clean.itemId := congrArg ComponentAssignment.itemId hab
    intro component hcomponent
    exact hread component (hitem.trans rfl ▸ hcomponent)
  obtain ⟨plan', hplan'⟩ := (planServerAllocations_ok_iff hserver hwithoutIds).mpr hreadable
  refine ⟨plan', ?_, hplan'⟩
  rw [planHostAllocations, hitems, hhost]
  simp only [hisHost, Bool.not_true, Bool.false_eq_true, if_false, if_neg hserver, hagain,
    planningOf_congr hitems hpolicy]
  exact hplan'

/-- **Planning again moves no hardware without need.** When an assignment is removed from a planned
server or network storage, planning it again leaves every other assignment at its place whose own
place still accepts it. -/
theorem planHostAllocations_undisturbed (rules : TextRules) (evaluation : Evaluation)
    (project project' : Project) (hostId : String) (host : InventoryItem) (plan : AllocationPlan)
    (removed : ComponentAssignment) (hids : (project.assignments.map (·.id)).Nodup)
    (hhost : itemLookup project.items hostId = some host)
    (hkind : host.type = .server ∨ host.type = .nas)
    (hplan : planHostAllocations rules evaluation project hostId = .ok plan)
    (hitems : project'.items = project.items)
    (hpolicy : project'.compatibilityPolicy = project.compatibilityPolicy)
    (hperm : (hostAssignments project' hostId).Perm (plan.without removed.id)) :
    ∃ plan', planHostAllocations rules evaluation project' hostId = .ok plan' ∧
      ∀ before b after, plan.without removed.id = before ++ b :: after →
        ∀ allocation, b.allocation = some allocation →
          PlaceHolds evaluation project hostId host plan plan' before b allocation →
          b ∈ plan'.assignments := by
  have hserver : host.type ≠ .pcBuild := by
    rcases hkind with h | h <;> rw [h] <;> decide
  have hisHost : isHost host = true := by
    rcases hkind with h | h <;> rw [isHost, h] <;> rfl
  obtain ⟨plan', hplan', hserverPlan'⟩ := planHostAllocations_without hids hhost hisHost hserver
    hplan removed.id hitems hpolicy hperm
  refine ⟨plan', hplan', ?_⟩
  rw [planHostAllocations, hhost] at hplan
  simp only [hisHost, Bool.not_true, Bool.false_eq_true, if_false, if_neg hserver] at hplan
  have horder : ((plannedOrder rules project host hostId).map (·.id)).Nodup :=
    nodup_plannedOrder hids
  have hsound := planServerAllocations_sound horder hplan
  have hwithoutIds : ((plan.without removed.id).map (·.id)).Nodup := by
    have hplannedIds : (plan.assignments.map (·.id)).Nodup := by
      rw [map_id_of_clean hsound.same]
      exact horder
    exact hplannedIds.sublist (filter_sublist.map _)
  have hpacked : PackedAssignments (plan.without removed.id) :=
    hsound.disjoint.sublist filter_sublist
  intro before b after hsplit allocation hallocation hholds
  have hb : b ∈ plan.assignments := by
    have hmem : b ∈ plan.without removed.id := by
      rw [hsplit]
      exact mem_append_right _ mem_cons_self
    exact (mem_filter.mp hmem).1
  obtain ⟨before', after', hbsplit⟩ := append_of_mem hb
  obtain ⟨component, hcomponent, hplace, -⟩ :=
    planServerAllocations_seated horder hplan before' b after' hbsplit allocation hallocation
  have haccepted := fun haccepts => stays_of_accepted hpacked hwithoutIds hserverPlan' hsplit
    hallocation hcomponent hplace haccepts
  cases henabled : isHostCompatibilityEnabled project hostId with
  | false =>
    refine haccepted ?_
    have hdisabled : (planningOf rules evaluation project hostId host).compatibilityEnabled =
        false := henabled
    rw [hdisabled]
    exact canOccupy_of_disabled _
  | true =>
    rcases hholds with hdisabled | hholds
    · rw [henabled] at hdisabled
      cases hdisabled
    split at hholds
    · -- the host accepts a processor or memory module that is compatible
      rename_i hscalar
      obtain ⟨result, hresult, result', hresult', hid, hid', hstatus, hknown⟩ := hholds
      rcases status_of_planned horder hplan henabled hb hallocation hscalar hresult hid with
        hcompatible | hunknown
      · exact stays_of_status hpacked hwithoutIds hserverPlan' hsplit hallocation hcomponent hplace
          hscalar hresult' hid' (hstatus.trans hcompatible)
      · exact absurd hunknown hknown
    · -- its own group accepts any other component
      rename_i hscalar
      have hplace' := hplace
      obtain ⟨size, -, hfound, -⟩ := hplace'
      obtain ⟨group, hgroup⟩ := Option.isSome_iff_exists.mp (hfound (Bool.not_eq_true _ ▸ hscalar))
      have hfind := hgroup
      rw [HostPlanning.ownGroup, if_neg hscalar] at hfind
      have hid : group.id = allocation.groupId := by simpa using find?_some hfind
      obtain ⟨result, hresult, hcompatible⟩ :=
        hholds component group hcomponent (mem_of_find?_eq_some hfind) hid
      refine haccepted (canOccupy_of_compatible ?_)
      rw [HostPlanning.ownResult, hgroup]
      obtain ⟨-, rfl⟩ := evaluate_eq_ok.mp hresult
      have hitems' : before.map (·.itemId) = (before.map (·.clean)).map (·.itemId) :=
        map_itemId_clean before
      rw [hitems'] at hcompatible
      exact hcompatible

end

/-! ## A slot that needs two processors -/

/-- A server with two sockets, a slot that needs processors in both, and another slot. -/
def dualServer : InventoryItem :=
  { bareItem 1 .server with
    capabilities :=
      { cpu := ⟨some 2, ["LGA4677"]⟩, memory := none, storageSlots := [],
        expansionSlots := [{ unlimitedSlot 1 with requiredCpuSockets := some 2 }, unlimitedSlot 2],
        optionalModuleSlots := [], maxExpansionPowerWatts := some 75 } }

/-- The server with some of two processors and a card. -/
def dualProject (assignments : List ComponentAssignment) : Project where
  items := ⟨[("server:1", dualServer), ("cpu:1", bareItem 1 .cpu), ("cpu:2", bareItem 2 .cpu),
    ("gpu:1", graphicsCard 1)], by decide, by
    simp only [forall_mem_cons]
    exact ⟨rfl, rfl, rfl, rfl, fun _ h => nomatch h⟩⟩
  assignments := assignments
  compatibilityPolicy := ⟨[], []⟩

/-- A processor of the server. -/
def processorAssignment (id : ℕ) (itemId : String) (allocation : Option CompatibilityAllocation) :
    ComponentAssignment :=
  ⟨id, "server:1", itemId, .cpu, "2024-01-01T00:00:00Z", allocation⟩

/-- The card of the server. -/
def cardAssignment (allocation : Option CompatibilityAllocation) : ComponentAssignment :=
  ⟨3, "server:1", "gpu:1", .gpu, "2024-01-01T00:00:00Z", allocation⟩

/-- The server with both processors and the card. -/
def equippedProject : Project :=
  dualProject [processorAssignment 1 "cpu:1" none, processorAssignment 2 "cpu:2" none,
    cardAssignment none]

/-- The server as it was planned, without the second processor. -/
def reducedProject : Project :=
  dualProject [processorAssignment 1 "cpu:1" (some ⟨.cpu, none, [0]⟩),
    cardAssignment (some ⟨.expansion, some 1, [0]⟩)]

/-- The number and status of each result of a plan. -/
def AllocationPlan.statuses (plan : AllocationPlan) : List (ℕ × CompatibilityStatus) :=
  plan.results.map fun result => (result.assignmentId, result.status)

/-- The plan of the server with both processors. -/
theorem exists_equippedPlan :
    ∃ plan, planHostAllocations asciiRules (evaluationOf cardRules) equippedProject "server:1" =
        .ok plan ∧
      plan.assignments = [processorAssignment 1 "cpu:1" (some ⟨.cpu, none, [0]⟩),
        processorAssignment 2 "cpu:2" (some ⟨.cpu, none, [1]⟩),
        cardAssignment (some ⟨.expansion, some 1, [0]⟩)] ∧
      plan.statuses = [(1, .compatible), (2, .compatible), (3, .compatible)] :=
  exists_ok_of_any (by decide +kernel)

/-- The plan of the server without the second processor. -/
theorem exists_reducedPlan :
    ∃ plan, planHostAllocations asciiRules (evaluationOf cardRules) reducedProject "server:1" =
        .ok plan ∧
      plan.assignments = [processorAssignment 1 "cpu:1" (some ⟨.cpu, none, [0]⟩),
        cardAssignment (some ⟨.expansion, some 2, [0]⟩)] ∧
      plan.statuses = [(1, .compatible), (3, .compatible)] :=
  exists_ok_of_any (by decide +kernel)

/-- The first processor stays when the second one is removed. -/
theorem planHostAllocations_undisturbed_processor :
    ∃ plan', planHostAllocations asciiRules (evaluationOf cardRules) reducedProject "server:1" =
        .ok plan' ∧
      processorAssignment 1 "cpu:1" (some ⟨.cpu, none, [0]⟩) ∈ plan'.assignments := by
  obtain ⟨plan, hplan, hassignments, hstatuses⟩ := exists_equippedPlan
  obtain ⟨reduced, hreduced, -, hreducedStatuses⟩ := exists_reducedPlan
  have hwithout : plan.without 2 = [processorAssignment 1 "cpu:1" (some ⟨.cpu, none, [0]⟩),
      cardAssignment (some ⟨.expansion, some 1, [0]⟩)] := by
    rw [AllocationPlan.without, hassignments]
    decide
  have hperm : (hostAssignments reducedProject "server:1").Perm (plan.without 2) := by
    rw [hwithout]
    exact List.Perm.refl _
  obtain ⟨plan', hplan', hstays⟩ := planHostAllocations_undisturbed asciiRules
    (evaluationOf cardRules) equippedProject reducedProject "server:1" dualServer plan
    (processorAssignment 2 "cpu:2" none) (by decide) rfl (Or.inl rfl) hplan rfl rfl hperm
  obtain rfl : plan' = reduced := Except.ok.inj (hplan'.symm.trans hreduced)
  refine ⟨plan', hplan', hstays [] _ _ hwithout _ rfl (Or.inr ?_)⟩
  have hfirst : ∀ {plan : AllocationPlan}, (1, CompatibilityStatus.compatible) ∈ plan.statuses →
      ∃ result ∈ plan.results, result.assignmentId = 1 ∧ result.status = .compatible := by
    intro plan hmem
    obtain ⟨result, hresult, heq⟩ := mem_map.mp hmem
    exact ⟨result, hresult, (Prod.mk.inj heq).1, (Prod.mk.inj heq).2⟩
  obtain ⟨result, hresult, hid, hstatus⟩ := hfirst (hstatuses ▸ mem_cons_self)
  obtain ⟨result', hresult', hid', hstatus'⟩ := hfirst (hreducedStatuses ▸ mem_cons_self)
  rw [if_pos (by rfl)]
  refine ⟨result, hresult, result', hresult', hid, hid', hstatus'.trans hstatus.symm, ?_⟩
  rintro ⟨-, hunknown⟩
  rw [hstatus] at hunknown
  exact nomatch hunknown

/-- The card moves when the second processor is removed: its slot no longer accepts it, and it is
compatible in both plans. -/
theorem planHostAllocations_disturbed_card :
    ∃ plan plan',
      planHostAllocations asciiRules (evaluationOf cardRules) equippedProject "server:1" =
        .ok plan ∧
      planHostAllocations asciiRules (evaluationOf cardRules) reducedProject "server:1" =
        .ok plan' ∧
      reducedProject.assignments = plan.without 2 ∧
      cardAssignment (some ⟨.expansion, some 1, [0]⟩) ∈ plan.assignments ∧
      cardAssignment (some ⟨.expansion, some 2, [0]⟩) ∈ plan'.assignments ∧
      (3, CompatibilityStatus.compatible) ∈ plan.statuses ∧
      (3, CompatibilityStatus.compatible) ∈ plan'.statuses := by
  obtain ⟨plan, hplan, hassignments, hstatuses⟩ := exists_equippedPlan
  obtain ⟨plan', hplan', hassignments', hstatuses'⟩ := exists_reducedPlan
  refine ⟨plan, plan', hplan, hplan', ?_, ?_, ?_, ?_, ?_⟩
  · rw [AllocationPlan.without, hassignments]
    decide
  · simp [hassignments]
  · simp [hassignments']
  · simp [hstatuses]
  · simp [hstatuses']

end HomelabInventory.Compatibility
