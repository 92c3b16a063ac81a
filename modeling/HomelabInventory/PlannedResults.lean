import HomelabInventory.GroupAcceptance
import HomelabInventory.SeatedAllocations

/-!
# What the results of a server plan say

Every assignment has one result. For a processor or a memory module the result tells how the host
was evaluated for it: it is compatible only when the evaluation was, and an allocation has the status
of the evaluation.
-/

namespace HomelabInventory.Compatibility

open List

variable {planning : HostPlanning} {a : ComponentAssignment}

variable {component : InventoryItem}
variable {resourceType : ResourceType}

/-- One more finding does not make a result compatible. -/
theorem compatible_of_resultWithFinding
    {prior : List ComponentAssignment} {group : Option ResourceGroup}
    {finding : CompatibilityFinding}
    (h : (resultWithFinding (planning.candidateResult component prior resourceType group)
      finding).status = .compatible) :
    (planning.candidateResult component prior resourceType group).status = .compatible := by
  have hwarnings := statusFor_eq_compatible.mp h
  refine statusFor_eq_compatible.mpr fun found hfound => hwarnings found ?_
  rcases addFinding_cases (planning.candidateResult component prior resourceType group).findings
    finding with ⟨hsame, -⟩ | ⟨classification, hadd⟩
  · rw [hsame]
    exact hfound
  · rw [hadd]
    exact mem_append_left _ hfound

/-! ## One turn -/

/-- What a turn of the second pass says about a processor or a memory module that kept nothing. -/
structure ScalarOutcome (planning : HostPlanning) (prior : List ComponentAssignment)
    (component : InventoryItem) (resourceType : ResourceType)
    (chosen : Option CompatibilityAllocation) (status : CompatibilityStatus) : Prop where
  compatible : status = .compatible →
    (planning.candidateResult component prior resourceType none).status = .compatible
  placed : chosen.isSome = true →
    status = (planning.candidateResult component prior resourceType none).status ∧
      (resultCanOccupyResource (planning.candidateResult component prior resourceType none)
          planning.compatibilityEnabled ||
        (decide (resourceType = .cpu) && decide (status = .unknown))) = true

/-- The result of an assignment with the allocation chosen for it. -/
structure TurnResult (planning : HostPlanning)
    (preserved : List (ℕ × (CompatibilityAllocation × CompatibilityResult)))
    (prior : List ComponentAssignment) (a : ComponentAssignment)
    (chosen : Option CompatibilityAllocation) (result : PlanResult) : Prop where
  id : result.assignmentId = a.id
  kept : ∀ value, InsertionMap.get? preserved a.id = some value →
    result.status = value.2.status ∧ chosen = some value.1
  scalar : InsertionMap.get? preserved a.id = none →
    ∀ component, itemLookup planning.items a.itemId = some component →
      ∀ resourceType size, planning.demand component = (some resourceType, some size) →
        resourceType.isScalar = true →
          ScalarOutcome planning prior component resourceType chosen result.status

/-- A turn of the second pass, with its result. -/
structure TurnStep (planning : HostPlanning)
    (preserved : List (ℕ × (CompatibilityAllocation × CompatibilityResult)))
    (placing : Placing) (a : ComponentAssignment) (placing' : Placing)
    (chosen : Option CompatibilityAllocation) (result : PlanResult) : Prop where
  planned : placing'.plannedAssignments =
    placing.plannedAssignments ++ [{ a with allocation := chosen }]
  results : placing'.results = placing.results ++ [result]
  processed : placing'.processedAssignments.map (·.clean) =
    placing.processedAssignments.map (·.clean) ++ [a.clean]
  turn : TurnResult planning preserved (placing.processedAssignments.map (·.clean)) a chosen result

variable {placing placing' : Placing}

/-- A processor or a memory module is placed, or left with a result that is not better. -/
theorem placeScalar_cases {size : ℚ}
    (h : placeScalar planning placing a component resourceType size = .ok placing') :
    ∃ result chosen, ScalarOutcome planning (placing.processedAssignments.map (·.clean)) component
        resourceType chosen result.status ∧
      (placing' = placing.leave a result ∧ chosen = none ∨
        ∃ allocation, placing' = placing.place a result allocation ∧ chosen = some allocation) := by
  obtain ⟨result, hresult, hnext⟩ := bind_eq_ok.mp h
  have heq := evaluateResourceCandidate_eq_ok (map_itemId_clean _) hresult
  simp only at hnext
  split at hnext
  · refine ⟨result, none, ⟨fun hcompatible => heq ▸ hcompatible, fun hsome => nomatch hsome⟩,
      Or.inl ⟨(pure_eq_ok.mp hnext).symm, rfl⟩⟩
  · rename_i hoccupy
    rw [Bool.not_eq_true', Bool.not_eq_false] at hoccupy
    split at hnext
    · refine ⟨invalidResourceResult result resourceType, none,
        ⟨fun hcompatible => ?_, fun hsome => nomatch hsome⟩,
        Or.inl ⟨(pure_eq_ok.mp hnext).symm, rfl⟩⟩
      rw [heq] at hcompatible
      exact compatible_of_resultWithFinding hcompatible
    · split at hnext
      · refine ⟨exhaustedResourceResult result resourceType, none,
          ⟨fun hcompatible => ?_, fun hsome => nomatch hsome⟩,
          Or.inl ⟨(pure_eq_ok.mp hnext).symm, rfl⟩⟩
        rw [heq] at hcompatible
        exact compatible_of_resultWithFinding hcompatible
      · refine ⟨result, some _, ⟨fun hcompatible => heq ▸ hcompatible, fun _ => ⟨by rw [heq], ?_⟩⟩,
          Or.inr ⟨_, (pure_eq_ok.mp hnext).symm, rfl⟩⟩
        rw [← heq]
        exact hoccupy

variable {preserved : List (ℕ × (CompatibilityAllocation × CompatibilityResult))}

/-- What a turn chose for a component that kept nothing. -/
theorem turnStep_of {result : CompatibilityResult} {chosen : Option CompatibilityAllocation}
    (hnone : InsertionMap.get? preserved a.id = none)
    (hnext : placing' = placing.leave a result ∧ chosen = none ∨
      ∃ allocation, placing' = placing.place a result allocation ∧ chosen = some allocation)
    (hscalar : ∀ component, itemLookup planning.items a.itemId = some component →
      ∀ resourceType size, planning.demand component = (some resourceType, some size) →
        resourceType.isScalar = true →
          ScalarOutcome planning (placing.processedAssignments.map (·.clean)) component
            resourceType chosen result.status) :
    TurnStep planning preserved placing a placing' chosen (planResult a result chosen) := by
  obtain ⟨rfl, rfl⟩ | ⟨allocation, rfl, rfl⟩ := hnext
  all_goals
    refine ⟨rfl, rfl, map_append, rfl, fun _ h => ?_, fun _ => hscalar⟩
    exact nomatch hnone.symm.trans h

/-- A component of a group is placed or left. -/
theorem placeInGroup_cases {size : ℚ}
    (h : placeInGroup planning placing a component resourceType size = .ok placing') :
    ∃ result chosen, placing' = placing.leave a result ∧ chosen = none ∨
      ∃ allocation, placing' = placing.place a result allocation ∧ chosen = some allocation := by
  obtain ⟨search, -, hnext⟩ := bind_eq_ok.mp h
  cases hcandidate : search.selected with
  | some candidate =>
    rw [hcandidate] at hnext
    exact ⟨_, _, Or.inr ⟨_, (pure_eq_ok.mp hnext).symm, rfl⟩⟩
  | none =>
    rw [hcandidate] at hnext
    obtain ⟨baseResult, -, hstate⟩ := bind_eq_ok.mp hnext
    exact ⟨_, _, Or.inl ⟨(pure_eq_ok.mp hstate).symm, rfl⟩⟩

theorem placeStep_result
    (hfound : (InsertionMap.get? preserved a.id).isSome = true →
      (itemLookup planning.items a.itemId).isSome = true)
    (h : placeStep planning preserved placing a = .ok placing') :
    ∃ chosen result, TurnStep planning preserved placing a placing' chosen result := by
  cases placeStep_turn hfound h with
  | unknown hcomponent hnone hnext =>
    refine ⟨_, _, turnStep_of hnone (.inl ⟨hnext, rfl⟩) fun component hsome => ?_⟩
    exact nomatch hcomponent.symm.trans hsome
  | kept allocation result hpreserved hnext =>
    obtain rfl := hnext
    refine ⟨some allocation, planResult a result (some allocation), rfl, rfl,
      by rw [map_append]; rfl, rfl, ?_, fun hnone => nomatch hpreserved.symm.trans hnone⟩
    intro value hvalue
    obtain rfl := Option.some.inj (hpreserved.symm.trans hvalue)
    exact ⟨rfl, rfl⟩
  | undemanding component result hcomponent hnone hdemand hnext =>
    refine ⟨_, _, turnStep_of hnone (.inl ⟨hnext, rfl⟩) fun other hother resourceType size => ?_⟩
    obtain rfl := Option.some.inj (hcomponent.symm.trans hother)
    exact fun hneeds => absurd hneeds (hdemand resourceType size)
  | demanding component resourceType size hcomponent hnone hdemand hplace =>
    have hneeded : ∀ other, itemLookup planning.items a.itemId = some other →
        ∀ resourceType' size', planning.demand other = (some resourceType', some size') →
          other = component ∧ resourceType' = resourceType := by
      intro other hother resourceType' size' hneeds
      obtain rfl := Option.some.inj (hcomponent.symm.trans hother)
      exact ⟨rfl, (Option.some.inj (Prod.mk.inj (hdemand.symm.trans hneeds)).1).symm⟩
    by_cases hscalar : resourceType.isScalar = true
    · rw [if_pos hscalar] at hplace
      obtain ⟨result, chosen, houtcome, hnext⟩ := placeScalar_cases hplace
      refine ⟨_, _, turnStep_of hnone hnext fun other hother resourceType' size' hneeds _ => ?_⟩
      obtain ⟨rfl, rfl⟩ := hneeded other hother resourceType' size' hneeds
      exact houtcome
    · rw [if_neg hscalar] at hplace
      obtain ⟨result, chosen, hnext⟩ := placeInGroup_cases hplace
      refine ⟨_, _, turnStep_of hnone hnext fun other hother resourceType' size' hneeds hs => ?_⟩
      obtain ⟨rfl, rfl⟩ := hneeded other hother resourceType' size' hneeds
      exact absurd hs hscalar

/-! ## The passes -/

/-- The second pass has one result for each assignment, and adds to what there was. -/
theorem placeLoop_results
    {l : List ComponentAssignment} {final : Placing}
    (hfound : ∀ a ∈ l, (InsertionMap.get? preserved a.id).isSome = true →
      (itemLookup planning.items a.itemId).isSome = true)
    (h : l.foldlM (placeStep planning preserved) placing = .ok final) :
    (∃ planned, final.plannedAssignments = placing.plannedAssignments ++ planned) ∧
      (∃ results, final.results = placing.results ++ results ∧
        results.map (·.assignmentId) = l.map (·.id)) ∧
      ∀ before a after, l = before ++ a :: after →
        ∃ chosen, ∃ result ∈ final.results, { a with allocation := chosen } ∈
            final.plannedAssignments ∧
          TurnResult planning preserved
            (placing.processedAssignments.map (·.clean) ++ before.map (·.clean)) a chosen result := by
  induction l generalizing placing with
  | nil =>
    obtain rfl := pure_eq_ok.mp h
    refine ⟨⟨[], (append_nil _).symm⟩, ⟨[], (append_nil _).symm, rfl⟩, ?_⟩
    intro before a after hl
    cases before <;> exact nomatch hl
  | cons first rest ih =>
    obtain ⟨next, hstep, hrest⟩ := foldlM_cons_eq_ok.mp h
    obtain ⟨chosen, result, hturn⟩ := placeStep_result (hfound first mem_cons_self) hstep
    obtain ⟨⟨planned, hplanned⟩, ⟨results, hresults, hids⟩, hturns⟩ :=
      ih (fun b hb => hfound b (mem_cons_of_mem _ hb)) hrest
    rw [hturn.planned, append_assoc] at hplanned
    rw [hturn.results, append_assoc] at hresults
    refine ⟨⟨_, hplanned⟩, ⟨_, hresults, ?_⟩, ?_⟩
    · rw [singleton_append, map_cons, map_cons, hids, hturn.turn.id]
    · intro before a after hl
      cases before with
      | nil =>
        obtain ⟨rfl, -⟩ := List.cons.inj hl
        refine ⟨chosen, result, ?_, ?_, ?_⟩
        · rw [hresults]
          exact mem_append_right _ mem_cons_self
        · rw [hplanned]
          exact mem_append_right _ mem_cons_self
        · rw [map_nil, append_nil]
          exact hturn.turn
      | cons b before =>
        obtain ⟨rfl, htail⟩ := List.cons.inj hl
        obtain ⟨chosen', result', hmem, hmem', hresult⟩ := hturns before a after htail
        rw [hturn.processed, append_assoc] at hresult
        exact ⟨chosen', result', hmem, hmem', hresult⟩

/-- **Results.** A server plan has one result for each assignment, in its turn, and what the first
pass preserved can occupy its resource. -/
theorem planServerAllocations_results {l : List ComponentAssignment} {plan : AllocationPlan}
    (hids : (l.map (·.id)).Nodup) (h : planServerAllocations planning l = .ok plan) :
    plan.results.map (·.assignmentId) = l.map (·.id) ∧
      ∃ preservation, l.foldlM (preserveStep planning) ⟨[], [], []⟩ = .ok preservation ∧
        (∀ id value, InsertionMap.get? preservation.preserved id = some value →
          resultCanOccupyResource value.2 planning.compatibilityEnabled = true) ∧
        ∀ before a after, l = before ++ a :: after →
          ∃ chosen, ∃ result ∈ plan.results, { a with allocation := chosen } ∈ plan.assignments ∧
            TurnResult planning preservation.preserved (before.map (·.clean)) a chosen result := by
  obtain ⟨preservation, hpreserve, hrest⟩ := bind_eq_ok.mp h
  obtain ⟨placing, hplace, hplan⟩ := bind_eq_ok.mp hrest
  obtain rfl := pure_eq_ok.mp hplan
  obtain ⟨-, ⟨results, hresults, hmap⟩, hturns⟩ :=
    placeLoop_results (found_of_preserved hids hpreserve) hplace
  refine ⟨?_, preservation, hpreserve, ?_, hturns⟩
  · rw [hresults]
    exact hmap
  · have hoccupy : ∀ id (value : CompatibilityAllocation × CompatibilityResult),
        InsertionMap.get? (Preservation.preserved ⟨[], [], []⟩) id = some value →
          resultCanOccupyResource value.2 planning.compatibilityEnabled = true :=
      fun _ _ hnone => nomatch hnone
    exact foldlM_invariant
      (P := fun state : Preservation => ∀ id value,
        InsertionMap.get? state.preserved id = some value →
          resultCanOccupyResource value.2 planning.compatibilityEnabled = true)
      hpreserve hoccupy fun _ _ _ _ hstate hstep id value hvalue =>
        ((preserveStep_spec hstep).2 id value hvalue).elim (hstate id value) fun hresult => hresult

end HomelabInventory.Compatibility
