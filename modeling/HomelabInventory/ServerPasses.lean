import HomelabInventory.ServerPlacement

/-!
# The passes of the server planner

The two loops of the planner compute two-pass placement: when they do not fail,
the planned assignments are those of the placer of the server.
-/

namespace HomelabInventory.Compatibility

open InsertionMap List Option

variable {planning : HostPlanning}

theorem map_itemId_clean (assignments : List ComponentAssignment) :
    assignments.map (·.itemId) = (assignments.map (·.clean)).map (·.itemId) := by
  rw [List.map_map]
  rfl

/-! ## The first pass -/

/-- The stored allocation kept for an assignment at its turn. -/
def HostPlanning.keptAt (planning : HostPlanning) (occupancy : Occupancy)
    (prior : List ComponentAssignment) (a : ComponentAssignment) :
    Option CompatibilityAllocation :=
  planning.placer.kept occupancy ⟨a.clean, prior.map (·.clean)⟩ a.allocation

/-- What one turn of the first pass does. -/
def PreserveOutcome (planning : HostPlanning) (state : Preservation) (a : ComponentAssignment)
    (state' : Preservation) : Prop :=
  state'.priorAssignments = state.priorAssignments ++ [a] ∧
    match planning.keptAt state.occupancy state.priorAssignments a with
    | some allocation => state'.occupancy = reservePositions state.occupancy allocation ∧
        ∃ result, state'.preserved = InsertionMap.set state.preserved a.id (allocation, result)
    | none => state'.occupancy = state.occupancy ∧ state'.preserved = state.preserved

variable {state state' : Preservation} {a : ComponentAssignment}

/-- What is preserved was preserved before, or can occupy its resource. -/
def AddsOccupying (planning : HostPlanning) (state state' : Preservation) : Prop :=
  ∀ id value, get? state'.preserved id = some value →
    get? state.preserved id = some value ∨
      resultCanOccupyResource value.2 planning.compatibilityEnabled = true

theorem PreserveOutcome.passed
    (hkept : planning.keptAt state.occupancy state.priorAssignments a = none)
    (h : { state with priorAssignments := state.priorAssignments ++ [a] } = state') :
    PreserveOutcome planning state a state' ∧ AddsOccupying planning state state' := by
  rw [PreserveOutcome, hkept, ← h]
  exact ⟨⟨rfl, rfl, rfl⟩, fun _ _ hold => .inl hold⟩

variable {l prior : List ComponentAssignment}

/-- An allocation that may not stay is not kept. -/
theorem keptAt_eq_none {occupancy : Occupancy}
    (h : ∀ allocation, a.allocation = some allocation →
      (planning.keeps ⟨a.clean, prior.map (·.clean)⟩ allocation &&
        planning.placer.isFree occupancy allocation) = false) :
    planning.keptAt occupancy prior a = none := by
  rw [HostPlanning.keptAt, Placer.kept, filter_eq_none_iff]
  intro allocation hallocation
  rw [Bool.not_eq_true]
  exact h allocation hallocation

theorem keptAt_of_stored {occupancy : Occupancy} {allocation : CompatibilityAllocation}
    (h : a.allocation = some allocation) :
    planning.keptAt occupancy prior a =
      if (planning.keeps ⟨a.clean, prior.map (·.clean)⟩ allocation &&
        planning.placer.isFree occupancy allocation) = true then some allocation else none := by
  rw [HostPlanning.keptAt, h, Placer.kept, filter_some]
  rfl

/-- A turn reserves the stored allocation exactly when it is kept. -/
theorem PreserveOutcome.checked {allocation : CompatibilityAllocation}
    {result : CompatibilityResult} {valid : Bool} (hallocation : a.allocation = some allocation)
    (hkeeps : (planning.keeps ⟨a.clean, state.priorAssignments.map (·.clean)⟩ allocation &&
        planning.placer.isFree state.occupancy allocation) = valid)
    (hoccupies : valid = true →
      resultCanOccupyResource result planning.compatibilityEnabled = true)
    (h : (if valid = true then
        pure
          { occupancy := reservePositions state.occupancy allocation
            preserved := InsertionMap.set state.preserved a.id (allocation, result)
            priorAssignments := state.priorAssignments ++ [a] }
      else pure { state with priorAssignments := state.priorAssignments ++ [a] } :
        Except EvaluationError Preservation) = .ok state') :
    PreserveOutcome planning state a state' ∧ AddsOccupying planning state state' := by
  rw [PreserveOutcome, keptAt_of_stored hallocation, hkeeps]
  cases valid with
  | true =>
    obtain rfl := pure_eq_ok.mp h
    refine ⟨⟨rfl, rfl, result, rfl⟩, fun id value hvalue => ?_⟩
    rw [get?_set] at hvalue
    split at hvalue
    · obtain rfl := Option.some.inj hvalue
      exact .inr (hoccupies rfl)
    · exact .inl hvalue
  | false =>
    obtain rfl := pure_eq_ok.mp h
    exact ⟨⟨rfl, rfl, rfl⟩, fun _ _ hold => .inl hold⟩

theorem preserveStep_spec (h : preserveStep planning state a = .ok state') :
    PreserveOutcome planning state a state' ∧ AddsOccupying planning state state' := by
  have hprior := map_itemId_clean state.priorAssignments
  simp only [preserveStep] at h
  cases hcomponent : itemLookup planning.items a.itemId with
  | none =>
    rw [hcomponent] at h
    refine PreserveOutcome.passed (keptAt_eq_none fun allocation _ => ?_) (pure_eq_ok.mp h)
    simp only [HostPlanning.keeps, ComponentAssignment.clean, hcomponent, Bool.false_and]
  | some component =>
    simp only [hcomponent] at h
    rcases hdemand : planning.demand component with ⟨_ | resourceType, size⟩
    · simp only [hdemand] at h
      refine PreserveOutcome.passed (keptAt_eq_none fun allocation _ => ?_) (pure_eq_ok.mp h)
      simp only [HostPlanning.keeps, ComponentAssignment.clean, hcomponent, hdemand, Bool.false_and]
    cases size with
    | none =>
      simp only [hdemand] at h
      refine PreserveOutcome.passed (keptAt_eq_none fun allocation _ => ?_) (pure_eq_ok.mp h)
      simp only [HostPlanning.keeps, ComponentAssignment.clean, hcomponent, hdemand, Bool.false_and]
    | some size =>
      simp only [hdemand] at h
      cases hallocation : a.allocation with
      | none =>
        rw [hallocation] at h
        refine PreserveOutcome.passed (keptAt_eq_none fun allocation heq => ?_) (pure_eq_ok.mp h)
        rw [hallocation] at heq
        cases heq
      | some allocation =>
        simp only [hallocation] at h
        by_cases hscalar : resourceType.isScalar = true
        · rw [if_pos hscalar] at h
          obtain ⟨result, hresult, hstate⟩ := bind_eq_ok.mp h
          have heq := evaluateResourceCandidate_eq_ok hprior hresult
          refine PreserveOutcome.checked hallocation ?_ (fun h => (Bool.and_eq_true_iff.mp h).1) hstate
          rw [@allocationMatchesResource_eq planning, heq]
          simp only [HostPlanning.keeps, ComponentAssignment.clean, hcomponent, hdemand, hscalar,
            if_true, Bool.and_assoc]
        · rw [if_neg hscalar] at h
          cases hgroup : (requiredGroups planning.host.capabilities resourceType).2.find?
              fun candidate => decide (candidate.id = allocation.groupId) with
          | none =>
            simp only [hgroup] at h
            refine PreserveOutcome.passed (keptAt_eq_none fun other heq => ?_) (pure_eq_ok.mp h)
            rw [hallocation, Option.some.injEq] at heq
            subst heq
            simp only [HostPlanning.keeps, ComponentAssignment.clean, hcomponent, hdemand, hscalar,
              hgroup, Bool.false_eq_true, if_false, Bool.false_and]
          | some group =>
            simp only [hgroup] at h
            obtain ⟨result, hresult, hstate⟩ := bind_eq_ok.mp h
            have heq := evaluateResourceCandidate_eq_ok hprior hresult
            refine PreserveOutcome.checked hallocation ?_ (fun h => (Bool.and_eq_true_iff.mp h).1) hstate
            rw [@allocationMatchesResource_eq planning, heq]
            simp only [HostPlanning.keeps, ComponentAssignment.clean, hcomponent, hdemand, hscalar,
              hgroup, Bool.false_eq_true, if_false, Bool.and_assoc]

/-- The assignment with the allocation preserved for it. -/
def withPreserved (preserved : List (ℕ × (CompatibilityAllocation × CompatibilityResult)))
    (a : ComponentAssignment) : ComponentAssignment :=
  { a with allocation := (get? preserved a.id).map (·.1) }

/-- The first loop is the first pass of the placer. -/
theorem preserveLoop_spec {final : Preservation}
    (h : l.foldlM (preserveStep planning) state = .ok final) (hids : (l.map (·.id)).Nodup)
    (hfresh : ∀ a ∈ l, get? state.preserved a.id = none) :
    planning.placer.keepStored state.occupancy (turns (state.priorAssignments.map (·.clean)) l) =
      (turns (state.priorAssignments.map (·.clean)) (l.map (withPreserved final.preserved)),
        final.occupancy) ∧
    ∀ id ∉ l.map (·.id), get? final.preserved id = get? state.preserved id := by
  induction l generalizing state with
  | nil =>
    obtain rfl := pure_eq_ok.mp h
    exact ⟨rfl, fun _ _ => rfl⟩
  | cons a rest ih =>
    obtain ⟨next, hstep, hrest⟩ := foldlM_cons_eq_ok.mp h
    obtain ⟨⟨hprior, houtcome⟩, -⟩ := preserveStep_spec hstep
    rw [map_cons, nodup_cons] at hids
    obtain ⟨hnotMem, hidsRest⟩ := hids
    have hne : ∀ b ∈ rest, b.id ≠ a.id := fun b hb heq =>
      hnotMem (heq ▸ mem_map_of_mem hb)
    have hothers : ∀ id, id ≠ a.id →
        get? next.preserved id = get? state.preserved id := by
      intro id hid
      revert houtcome
      cases planning.keptAt state.occupancy state.priorAssignments a with
      | none => exact fun houtcome => by rw [houtcome.2]
      | some allocation =>
        rintro ⟨-, result, hset⟩
        rw [hset, get?_set, if_neg hid]
    obtain ⟨hkeep, hframe⟩ := ih hrest hidsRest fun b hb => by
      rw [hothers b.id (hne b hb)]
      exact hfresh b (mem_cons_of_mem _ hb)
    have hnext : (next.priorAssignments.map (·.clean)) =
        state.priorAssignments.map (·.clean) ++ [a.clean] := by
      rw [hprior, map_append, map_singleton]
    rw [hnext] at hkeep
    refine ⟨?_, ?_⟩
    · have hkept : (get? final.preserved a.id).map (·.1) =
          planning.keptAt state.occupancy state.priorAssignments a := by
        rw [hframe a.id hnotMem]
        revert houtcome
        cases planning.keptAt state.occupancy state.priorAssignments a with
        | none => exact fun houtcome => by rw [houtcome.2, hfresh a mem_cons_self]; rfl
        | some allocation =>
          rintro ⟨-, result, hset⟩
          rw [hset, get?_set, if_pos rfl]
          rfl
      rw [turns, Placer.keepStored, map_cons, turns]
      have hfirst : planning.placer.kept state.occupancy
          ⟨a.clean, state.priorAssignments.map (·.clean)⟩ a.allocation =
          planning.keptAt state.occupancy state.priorAssignments a := rfl
      have hclean : (withPreserved final.preserved a).clean = a.clean := rfl
      have hallocation : (withPreserved final.preserved a).allocation =
          planning.keptAt state.occupancy state.priorAssignments a := hkept
      rw [hfirst, hclean, hallocation]
      revert houtcome
      cases planning.keptAt state.occupancy state.priorAssignments a with
      | none =>
        rintro ⟨hoccupancy, -⟩
        rw [hoccupancy] at hkeep
        simp only [hkeep]
      | some allocation =>
        rintro ⟨hoccupancy, -⟩
        rw [hoccupancy, reservePositions] at hkeep
        have hcells : planning.placer.cells allocation = allocation.cells := rfl
        simp only [hcells, hkeep]
    · intro id hid
      rw [map_cons, mem_cons, not_or] at hid
      rw [hframe id hid.2, hothers id hid.1]

/-! ## The search among groups -/

/-- The allocation a candidate stands for. -/
def PlacementCandidate.allocation (resourceType : ResourceType) (candidate : PlacementCandidate) :
    CompatibilityAllocation :=
  ⟨resourceType, candidate.group.id, candidate.positions⟩

/-- The first free run in a group, as an allocation. -/
theorem firstFree_places (occupancy : Occupancy) (resourceType : ResourceType)
    (groupId count size : Option ℚ) :
    planning.placer.firstFree occupancy ((candidatePositions count size).map
        fun positions => ⟨resourceType, groupId, positions⟩) =
      (firstConsecutivePositions occupancy resourceType groupId count size).map
        fun positions => ⟨resourceType, groupId, positions⟩ := by
  rw [Placer.firstFree, find?_map, firstConsecutivePositions_eq_find?]
  refine congrArg (Option.map _) (congrArg (fun p => List.find? p _) ?_)
  funext positions
  exact isFree_eq occupancy _

/-- The first free place among the groups where the evaluation comes to the status. -/
def HostPlanning.firstPlace (planning : HostPlanning) (component : InventoryItem)
    (prior : List ComponentAssignment) (resourceType : ResourceType) (size : ℚ)
    (occupancy : Occupancy) (status : CompatibilityStatus) (groups : List ResourceGroup) :
    Option CompatibilityAllocation :=
  planning.placer.firstFree occupancy
    (planning.placesOfStatus component prior resourceType size status groups)

section

variable {component : InventoryItem} {prior : List ComponentAssignment}
  {resourceType : ResourceType} {size : ℚ} {occupancy : Occupancy} {group : ResourceGroup}
  {groups : List ResourceGroup}

theorem firstPlace_cons (status : CompatibilityStatus) :
    planning.firstPlace component prior resourceType size occupancy status (group :: groups) =
      if (planning.candidateResult component prior resourceType (some group)).status = status then
        ((firstConsecutivePositions occupancy resourceType group.id group.count (some size)).map
          fun positions => (⟨resourceType, group.id, positions⟩ : CompatibilityAllocation)).or
          (planning.firstPlace component prior resourceType size occupancy status groups)
      else planning.firstPlace component prior resourceType size occupancy status groups := by
  by_cases hstatus :
      (planning.candidateResult component prior resourceType (some group)).status = status
  · rw [if_pos hstatus, ← @firstFree_places planning]
    simp only [HostPlanning.firstPlace, HostPlanning.placesOfStatus, filter_cons, hstatus,
      decide_true, if_true, flatMap_cons, Placer.firstFree, find?_append]
  · rw [if_neg hstatus]
    simp only [HostPlanning.firstPlace, HostPlanning.placesOfStatus, filter_cons, hstatus,
      decide_false, Bool.false_eq_true, if_false]

variable {search search' : CandidateSearch} {enabled : Bool} {result : CompatibilityResult}
  {positions : Option (List ℚ)}

theorem note_compatibleCandidate :
    (search.note resourceType enabled group result positions).compatibleCandidate =
      search.compatibleCandidate := by
  unfold CandidateSearch.note
  cases result.status <;> cases positions <;> cases enabled <;> rfl

theorem note_unknownCandidate :
    (search.note resourceType enabled group result positions).unknownCandidate =
      search.unknownCandidate.or
        (if result.status = .unknown ∧ enabled = false then
          positions.map fun positions => ⟨group, positions, result⟩ else none) := by
  unfold CandidateSearch.note
  cases result.status <;> cases positions <;> cases enabled <;> simp

theorem note_incompatibleCandidate :
    (search.note resourceType enabled group result positions).incompatibleCandidate =
      search.incompatibleCandidate.or
        (if result.status = .incompatible ∧ enabled = false then
          positions.map fun positions => ⟨group, positions, result⟩ else none) := by
  unfold CandidateSearch.note
  cases result.status <;> cases positions <;> cases enabled <;> simp

/-- What a search comes to: the first free place among the compatible groups,
else the first ones among the unknown and the incompatible groups. -/
def SearchOutcome (planning : HostPlanning) (component : InventoryItem)
    (prior : List ComponentAssignment) (resourceType : ResourceType) (size : ℚ)
    (occupancy : Occupancy) (groups : List ResourceGroup) (search search' : CandidateSearch) :
    Prop :=
  let place := planning.firstPlace component prior resourceType size occupancy
  search'.compatibleCandidate.map (·.allocation resourceType) = place .compatible groups ∧
    (place .compatible groups = none →
      search'.unknownCandidate.map (·.allocation resourceType) =
          (search.unknownCandidate.map (·.allocation resourceType)).or
            (if planning.compatibilityEnabled then none else place .unknown groups) ∧
        search'.incompatibleCandidate.map (·.allocation resourceType) =
          (search.incompatibleCandidate.map (·.allocation resourceType)).or
            (if planning.compatibilityEnabled then none else place .incompatible groups))

/-- A group that offers no compatible place is noted and passed. -/
theorem SearchOutcome.note
    (hresult : result = planning.candidateResult component prior resourceType (some group))
    (hpositions : firstConsecutivePositions occupancy resourceType group.id group.count
      (some size) = positions)
    (hcompatible : result.status = .compatible → positions = none)
    (h : SearchOutcome planning component prior resourceType size occupancy groups
      (search.note resourceType planning.compatibilityEnabled group result positions) search') :
    SearchOutcome planning component prior resourceType size occupancy (group :: groups)
      search search' := by
  obtain ⟨hfound, hothers⟩ := h
  have hsame : planning.firstPlace component prior resourceType size occupancy .compatible
      (group :: groups) =
      planning.firstPlace component prior resourceType size occupancy .compatible groups := by
    rw [firstPlace_cons, hpositions, ← hresult]
    split
    · rename_i hstatus
      rw [hcompatible hstatus]
      rfl
    · rfl
  refine ⟨by rw [hsame]; exact hfound, ?_⟩
  intro hnone
  rw [hsame] at hnone
  obtain ⟨hunknown, hincompatible⟩ := hothers hnone
  rw [hunknown, hincompatible, note_unknownCandidate, note_incompatibleCandidate]
  simp only [firstPlace_cons, hpositions, ← hresult]
  cases planning.compatibilityEnabled with
  | true => simp
  | false =>
    have hmap : (positions.map fun positions =>
          (⟨group, positions, result⟩ : PlacementCandidate)).map (·.allocation resourceType) =
        positions.map fun positions => ⟨resourceType, group.id, positions⟩ := by
      rw [Option.map_map]
      rfl
    cases result.status <;> simp [hmap, map_or, Option.or_assoc]

theorem searchCandidates_spec {assignments : List ComponentAssignment}
    (hprior : assignments.map (·.itemId) = prior.map (·.itemId))
    (hnone : search.compatibleCandidate = none)
    (h : searchCandidates planning component assignments resourceType size occupancy groups search =
      .ok search') :
    SearchOutcome planning component prior resourceType size occupancy groups search search' := by
  induction groups generalizing search with
  | nil =>
    obtain rfl := Except.ok.inj h
    simp [SearchOutcome, hnone, HostPlanning.firstPlace, HostPlanning.placesOfStatus,
      Placer.firstFree]
  | cons group rest ih =>
    obtain ⟨result, hresult, hnext⟩ := bind_eq_ok.mp h
    have heq := evaluateResourceCandidate_eq_ok hprior hresult
    have hpass := fun positions => @ih
      (search.note resourceType planning.compatibilityEnabled group result positions)
      (by rw [note_compatibleCandidate, hnone])
    cases hpositions :
        firstConsecutivePositions occupancy resourceType group.id group.count (some size) with
    | none =>
      simp only [hpositions] at hnext
      refine SearchOutcome.note heq hpositions (fun _ => rfl) (hpass none ?_)
      cases hstatus : result.status <;> simp only [hstatus] at hnext <;> exact hnext
    | some positions =>
      simp only [hpositions] at hnext
      cases hstatus : result.status with
      | compatible =>
        simp only [hstatus] at hnext
        obtain rfl := pure_eq_ok.mp hnext
        have hfirst : planning.firstPlace component prior resourceType size occupancy .compatible
            (group :: rest) = some ⟨resourceType, group.id, positions⟩ := by
          rw [firstPlace_cons, if_pos (heq ▸ hstatus), hpositions]
          rfl
        refine ⟨by rw [hfirst]; rfl, ?_⟩
        rw [hfirst]
        exact fun hnone => by cases hnone
      | unknown =>
        simp only [hstatus] at hnext
        exact SearchOutcome.note heq hpositions (by simp [hstatus]) (hpass _ hnext)
      | incompatible =>
        simp only [hstatus] at hnext
        exact SearchOutcome.note heq hpositions (by simp [hstatus]) (hpass _ hnext)

/-- The place selected is the first free candidate. -/
theorem SearchOutcome.selected
    (h : SearchOutcome planning component prior resourceType size occupancy
      (requiredGroups planning.host.capabilities resourceType).2 .empty search) :
    search.selected.map (·.allocation resourceType) =
      planning.placer.firstFree occupancy
        (planning.groupCandidates component prior resourceType size) := by
  obtain ⟨hfound, hothers⟩ := h
  have hcandidates : planning.placer.firstFree occupancy
      (planning.groupCandidates component prior resourceType size) =
      (planning.firstPlace component prior resourceType size occupancy .compatible
        (requiredGroups planning.host.capabilities resourceType).2).or
      (if planning.compatibilityEnabled then none else
        (planning.firstPlace component prior resourceType size occupancy .unknown
          (requiredGroups planning.host.capabilities resourceType).2).or
        (planning.firstPlace component prior resourceType size occupancy .incompatible
          (requiredGroups planning.host.capabilities resourceType).2)) := by
    rw [HostPlanning.groupCandidates, Placer.firstFree, find?_append]
    cases planning.compatibilityEnabled with
    | true => rfl
    | false => rw [if_neg Bool.false_ne_true, find?_append]; rfl
  have hselected : search.selected = search.compatibleCandidate.or
      (search.unknownCandidate.or search.incompatibleCandidate) := by
    rw [CandidateSearch.selected]
    cases search.compatibleCandidate <;> cases search.unknownCandidate <;> rfl
  rw [hselected, hcandidates, map_or, map_or, hfound]
  cases hcompatible : planning.firstPlace component prior resourceType size occupancy .compatible
      (requiredGroups planning.host.capabilities resourceType).2 with
  | some place => rfl
  | none =>
    obtain ⟨hunknown, hincompatible⟩ := hothers hcompatible
    rw [hunknown, hincompatible]
    cases planning.compatibilityEnabled <;> rfl

end

/-! ## The second pass -/

/-- What one turn of the second pass plans: the allocation `chosen` gives. -/
structure PlaceOutcome (state : Placing) (a : ComponentAssignment)
    (chosen : Option CompatibilityAllocation) (taken : Occupancy) (state' : Placing) : Prop where
  planned : state'.plannedAssignments =
    state.plannedAssignments ++ [{ a with allocation := chosen }]
  processed : state'.processedAssignments.map (·.clean) =
    state.processedAssignments.map (·.clean) ++ [a.clean]
  occupancy : state'.occupancy = taken

variable {placing placing' : Placing}

theorem PlaceOutcome.leave (result : CompatibilityResult) :
    PlaceOutcome placing a none placing.occupancy (placing.leave a result) where
  planned := rfl
  processed := map_append
  occupancy := rfl

theorem PlaceOutcome.place (result : CompatibilityResult) (allocation : CompatibilityAllocation) :
    PlaceOutcome placing a (some allocation) (placing.occupancy ++ allocation.cells)
      (placing.place a result allocation) where
  planned := rfl
  processed := map_append
  occupancy := rfl

/-- The cells taken after a choice. -/
def takenAfter (occupancy : Occupancy) (chosen : Option CompatibilityAllocation) : Occupancy :=
  match chosen with
  | none => occupancy
  | some allocation => occupancy ++ allocation.cells

/-- A processor or memory module gets the first free of its candidates. -/
theorem placeScalar_spec {component : InventoryItem} {resourceType : ResourceType} {size : ℚ}
    (h : placeScalar planning placing a component resourceType size = .ok placing') :
    let chosen := planning.placer.firstFree placing.occupancy
      (planning.scalarCandidates component (placing.processedAssignments.map (·.clean))
        resourceType size)
    PlaceOutcome placing a chosen (takenAfter placing.occupancy chosen) placing' := by
  intro chosen
  obtain ⟨result, hresult, hnext⟩ := bind_eq_ok.mp h
  have heq := evaluateResourceCandidate_eq_ok (map_itemId_clean _) hresult
  have hchosen : chosen =
      if (resultCanOccupyResource result planning.compatibilityEnabled ||
          (decide (resourceType = .cpu) && decide (result.status = .unknown))) = true then
        (firstConsecutivePositions placing.occupancy resourceType none
          (scalarCapacity planning.host.capabilities resourceType) (some size)).map
            fun positions => ⟨resourceType, none, positions⟩
      else none := by
    rw [← @firstFree_places planning]
    simp only [chosen, HostPlanning.scalarCandidates, ← heq]
    split <;> rfl
  simp only at hnext
  split at hnext <;> rename_i hoccupy
  · rw [Bool.not_eq_true'] at hoccupy
    rw [hchosen, hoccupy, if_neg Bool.false_ne_true]
    obtain rfl := pure_eq_ok.mp hnext
    exact PlaceOutcome.leave result
  · rw [Bool.not_eq_true', Bool.not_eq_false] at hoccupy
    rw [hoccupy, if_pos rfl] at hchosen
    split at hnext <;> rename_i hcapacity
    · rw [hcapacity] at hchosen
      have hnone : chosen = none := hchosen
      rw [hnone]
      obtain rfl := pure_eq_ok.mp hnext
      exact PlaceOutcome.leave _
    · cases hpositions : firstConsecutivePositions placing.occupancy resourceType none
          (scalarCapacity planning.host.capabilities resourceType) (some size) with
      | none =>
        rw [hpositions] at hnext hchosen
        have hnone : chosen = none := hchosen
        rw [hnone]
        obtain rfl := pure_eq_ok.mp hnext
        exact PlaceOutcome.leave _
      | some positions =>
        rw [hpositions] at hnext hchosen
        have hsome : chosen = some ⟨resourceType, none, positions⟩ := hchosen
        rw [hsome]
        obtain rfl := pure_eq_ok.mp hnext
        exact PlaceOutcome.place _ _

/-- A component for a group gets the first free of its candidates. -/
theorem placeInGroup_spec {component : InventoryItem} {resourceType : ResourceType} {size : ℚ}
    (h : placeInGroup planning placing a component resourceType size = .ok placing') :
    let chosen := planning.placer.firstFree placing.occupancy
      (planning.groupCandidates component (placing.processedAssignments.map (·.clean))
        resourceType size)
    PlaceOutcome placing a chosen (takenAfter placing.occupancy chosen) placing' := by
  intro chosen
  obtain ⟨search, hsearch, hnext⟩ := bind_eq_ok.mp h
  have hselected := (searchCandidates_spec (map_itemId_clean _) rfl hsearch).selected
  have hchosen : chosen = search.selected.map (·.allocation resourceType) := hselected.symm
  cases hcandidate : search.selected with
  | some candidate =>
    rw [hcandidate] at hnext hchosen
    have hsome : chosen = some (candidate.allocation resourceType) := hchosen
    rw [hsome]
    obtain rfl := pure_eq_ok.mp hnext
    exact PlaceOutcome.place _ _
  | none =>
    rw [hcandidate] at hnext hchosen
    have hnone : chosen = none := hchosen
    rw [hnone]
    obtain ⟨baseResult, -, hstate⟩ := bind_eq_ok.mp hnext
    obtain rfl := pure_eq_ok.mp hstate
    exact PlaceOutcome.leave _

variable {preserved : List (ℕ × (CompatibilityAllocation × CompatibilityResult))}

/-- What a turn of the second pass does, by what there is of its assignment. -/
inductive PlaceTurn (planning : HostPlanning)
    (preserved : List (ℕ × (CompatibilityAllocation × CompatibilityResult))) (placing : Placing)
    (a : ComponentAssignment) (placing' : Placing) : Prop
  | unknown : itemLookup planning.items a.itemId = none →
    get? preserved a.id = none →
    placing' = placing.leave a missingComponentResult → PlaceTurn planning preserved placing a placing'
  | kept (allocation : CompatibilityAllocation) (result : CompatibilityResult) :
    get? preserved a.id = some (allocation, result) →
    placing' =
      { placing with
        plannedAssignments :=
          placing.plannedAssignments ++ [{ a with allocation := some allocation }]
        results := placing.results ++ [planResult a result (some allocation)]
        processedAssignments :=
          placing.processedAssignments ++ [{ a with allocation := some allocation }] } →
    PlaceTurn planning preserved placing a placing'
  | undemanding (component : InventoryItem) (result : CompatibilityResult) :
    itemLookup planning.items a.itemId = some component →
    get? preserved a.id = none →
    (∀ resourceType size, planning.demand component ≠ (some resourceType, some size)) →
    placing' = placing.leave a result → PlaceTurn planning preserved placing a placing'
  | demanding (component : InventoryItem) (resourceType : ResourceType) (size : ℚ) :
    itemLookup planning.items a.itemId = some component →
    get? preserved a.id = none →
    planning.demand component = (some resourceType, some size) →
    (if resourceType.isScalar then placeScalar planning placing a component resourceType size
      else placeInGroup planning placing a component resourceType size) = .ok placing' →
    PlaceTurn planning preserved placing a placing'

section

variable (hfound : (get? preserved a.id).isSome = true →
    (itemLookup planning.items a.itemId).isSome = true)
  (h : placeStep planning preserved placing a = .ok placing')
include hfound h

theorem placeStep_turn : PlaceTurn planning preserved placing a placing' := by
  simp only [placeStep] at h
  cases hcomponent : itemLookup planning.items a.itemId with
  | none =>
    simp only [hcomponent] at h hfound
    refine .unknown hcomponent ?_ (pure_eq_ok.mp h).symm
    cases hget : get? preserved a.id with
    | none => rfl
    | some value => exact absurd (hfound (by rw [hget]; rfl)) (by simp)
  | some component =>
    simp only [hcomponent] at h
    cases hpreserved : get? preserved a.id with
    | some value =>
      simp only [hpreserved] at h
      exact .kept value.1 value.2 hpreserved (pure_eq_ok.mp h).symm
    | none =>
      simp only [hpreserved] at h
      rcases hdemand : planning.demand component with ⟨_ | resourceType, size⟩
      · simp only [hdemand] at h
        obtain ⟨result, -, hstate⟩ := bind_eq_ok.mp h
        refine .undemanding component _ hcomponent hpreserved ?_ (pure_eq_ok.mp hstate).symm
        rw [hdemand]
        rintro _ _ ⟨⟩
      cases size with
      | none =>
        simp only [hdemand] at h
        obtain ⟨result, -, hstate⟩ := bind_eq_ok.mp h
        refine .undemanding component _ hcomponent hpreserved ?_ (pure_eq_ok.mp hstate).symm
        rw [hdemand]
        rintro _ _ ⟨⟩
      | some size =>
        simp only [hdemand] at h
        exact .demanding component resourceType size hcomponent hpreserved hdemand h

/-- One turn of the second pass. -/
theorem placeStep_spec :
    match (withPreserved preserved a).allocation with
    | some allocation => PlaceOutcome placing a (some allocation) placing.occupancy placing'
    | none =>
      let chosen := planning.placer.firstFree placing.occupancy
        (planning.candidates ⟨a.clean, placing.processedAssignments.map (·.clean)⟩)
      PlaceOutcome placing a chosen (takenAfter placing.occupancy chosen) placing' := by
  simp only [withPreserved, HostPlanning.candidates, ComponentAssignment.clean]
  cases placeStep_turn hfound h with
  | unknown hcomponent hnone hnext =>
    simp only [hcomponent, hnone, map_none]
    exact hnext ▸ PlaceOutcome.leave _
  | kept allocation result hpreserved hnext =>
    obtain rfl := hnext
    simp only [hpreserved, map_some]
    exact ⟨rfl, by rw [map_append]; rfl, rfl⟩
  | undemanding component result hcomponent hnone hdemand hnext =>
    simp only [hcomponent, hnone, map_none]
    rcases hneeds : planning.demand component with ⟨_ | resourceType, _ | size⟩
    · exact hnext ▸ PlaceOutcome.leave _
    · exact hnext ▸ PlaceOutcome.leave _
    · exact hnext ▸ PlaceOutcome.leave _
    · exact absurd hneeds (hdemand resourceType size)
  | demanding component resourceType size hcomponent hnone hdemand hplace =>
    simp only [hcomponent, hnone, hdemand, map_none]
    by_cases hscalar : resourceType.isScalar = true
    · rw [if_pos hscalar] at hplace ⊢
      exact placeScalar_spec hplace
    · rw [if_neg hscalar] at hplace ⊢
      exact placeInGroup_spec hplace

end

/-- The second loop is the second pass of the placer. -/
theorem placeLoop_spec
    {final : Placing}
    (hfound : ∀ a ∈ l, (get? preserved a.id).isSome = true →
      (itemLookup planning.items a.itemId).isSome = true)
    (h : l.foldlM (placeStep planning preserved) placing = .ok final) :
    final.plannedAssignments = placing.plannedAssignments ++
      (planning.placer.placeRest placing.occupancy
        (turns (placing.processedAssignments.map (·.clean))
          (l.map (withPreserved preserved)))).map Turn.assigned := by
  induction l generalizing placing with
  | nil =>
    obtain rfl := pure_eq_ok.mp h
    simp [turns, Placer.placeRest]
  | cons a rest ih =>
    obtain ⟨next, hstep, hrest⟩ := foldlM_cons_eq_ok.mp h
    have hspec := placeStep_spec (hfound a mem_cons_self) hstep
    have hnext := ih (fun b hb => hfound b (mem_cons_of_mem _ hb)) hrest
    rw [map_cons, turns]
    have hclean : (withPreserved preserved a).clean = a.clean := rfl
    rw [hclean]
    cases hallocation : (withPreserved preserved a).allocation with
    | some allocation =>
      rw [hallocation] at hspec
      rw [hspec.planned, hspec.processed, hspec.occupancy, append_assoc] at hnext
      rw [hnext, Placer.placeRest]
      rfl
    | none =>
      rw [hallocation] at hspec
      have hcandidates : planning.placer.candidates
          ⟨a.clean, placing.processedAssignments.map (·.clean)⟩ =
          planning.candidates ⟨a.clean, placing.processedAssignments.map (·.clean)⟩ := rfl
      rw [hspec.planned, hspec.processed, hspec.occupancy, append_assoc] at hnext
      rw [hnext, Placer.placeRest, hcandidates]
      cases planning.placer.firstFree placing.occupancy
          (planning.candidates ⟨a.clean, placing.processedAssignments.map (·.clean)⟩) with
      | none => rfl
      | some allocation => rfl

/-! ## Both passes -/

theorem exists_mem_turns (h : a ∈ l) (prior : List ComponentAssignment) :
    ∃ before, (⟨a.clean, before⟩, a.allocation) ∈ turns prior l := by
  induction l generalizing prior with
  | nil => exact nomatch h
  | cons b rest ih =>
    rw [turns]
    rcases mem_cons.mp h with rfl | h
    · exact ⟨prior, mem_cons_self⟩
    · obtain ⟨before, hmem⟩ := ih h (prior ++ [b.clean])
      exact ⟨before, mem_cons_of_mem _ hmem⟩

/-- What the first loop preserves may be kept. -/
theorem keeps_of_preserved {preservation : Preservation} (hids : (l.map (·.id)).Nodup)
    (h : l.foldlM (preserveStep planning) ⟨[], [], []⟩ = .ok preservation) (ha : a ∈ l)
    {allocation : CompatibilityAllocation}
    (hallocation : (withPreserved preservation.preserved a).allocation = some allocation) :
    ∃ before, planning.keeps ⟨a.clean, before⟩ allocation = true := by
  obtain ⟨hkeep, -⟩ := preserveLoop_spec h hids fun _ _ => rfl
  obtain ⟨-, hkeeps, -, -⟩ := planning.placer.keepStored_spec [] (turns [] l)
  simp only [map_nil] at hkeep
  rw [hkeep] at hkeeps
  obtain ⟨before, hmem⟩ := exists_mem_turns
    (mem_map_of_mem (f := withPreserved preservation.preserved) ha) []
  exact ⟨before, hkeeps _ hmem allocation hallocation⟩

/-- The component of an assignment that the first loop preserves is known. -/
theorem found_of_preserved {preservation : Preservation} (hids : (l.map (·.id)).Nodup)
    (h : l.foldlM (preserveStep planning) ⟨[], [], []⟩ = .ok preservation) :
    ∀ a ∈ l, (get? preservation.preserved a.id).isSome = true →
      (itemLookup planning.items a.itemId).isSome = true := by
  intro a ha hsome
  obtain ⟨value, hvalue⟩ := isSome_iff_exists.mp hsome
  have hallocation : (withPreserved preservation.preserved a).allocation = some value.1 := by
    rw [withPreserved, hvalue]
    rfl
  obtain ⟨before, hkeeps⟩ := keeps_of_preserved hids h ha hallocation
  cases hcomponent : itemLookup planning.items a.itemId with
  | some component => rfl
  | none =>
    simp only [HostPlanning.keeps, ComponentAssignment.clean, hcomponent] at hkeeps
    exact nomatch hkeeps

/-- **Refinement.** The assignments a server is planned with are those of
two-pass placement on its positions. -/
theorem planServerAllocations_assignments {plan : AllocationPlan} (hids : (l.map (·.id)).Nodup)
    (h : planServerAllocations planning l = .ok plan) :
    plan.assignments = (planning.placer.plan (turns [] l)).map Turn.assigned := by
  obtain ⟨preservation, hpreserve, hrest⟩ := bind_eq_ok.mp h
  obtain ⟨placing, hplace, hplan⟩ := bind_eq_ok.mp hrest
  obtain rfl := pure_eq_ok.mp hplan
  obtain ⟨hkeep, -⟩ := preserveLoop_spec hpreserve hids fun _ _ => rfl
  simp only [map_nil] at hkeep
  have hplanned := placeLoop_spec (found_of_preserved hids hpreserve) hplace
  simp only [nil_append, map_nil] at hplanned
  rw [hplanned, Placer.plan, hkeep]

/-! ## When planning a server fails -/

theorem readsMissingMemory_of_evaluate {component : InventoryItem}
    {assignments : List ComponentAssignment} {resourceType : ResourceType}
    {group : Option ResourceGroup} (hserver : planning.host.type ≠ .pcBuild) :
    (∃ result, evaluateResourceCandidate planning component assignments resourceType group =
        .ok result) ↔
      readsMissingMemory planning.host component = false := by
  have hsame : ∀ host : InventoryItem, host.type = planning.host.type →
      host.capabilities.memory = planning.host.capabilities.memory →
      readsMissingMemory (effectiveHostForAssignment host assignments planning.items
        (some component)) component = readsMissingMemory planning.host component := by
    intro host htype hmemory
    rw [effectiveHostForAssignment, if_pos (htype ▸ hserver)]
    simp only [readsMissingMemory, hmemory]
  have hcandidate : ∀ host : InventoryItem, host.type = planning.host.type →
      host.capabilities.memory = planning.host.capabilities.memory →
      ((∃ result, evaluateAssignmentCompatibility planning.evaluation host component assignments
          planning.items planning.useVerifiedMemoryLimits = .ok result) ↔
        readsMissingMemory planning.host component = false) := by
    intro host htype hmemory
    simp only [evaluate_eq_ok, hsame host htype hmemory, exists_and_left, exists_eq', and_true]
  cases group with
  | none => exact hcandidate planning.host rfl rfl
  | some group =>
    refine hcandidate (candidateHost planning.host resourceType group) ?_ ?_
    · cases resourceType <;> rfl
    · cases resourceType <;> rfl

section

variable {component : InventoryItem} (hserver : planning.host.type ≠ .pcBuild)
  (hreadable : ∀ component, itemLookup planning.items a.itemId = some component →
    readsMissingMemory planning.host component = false)
include hserver hreadable

/-- A turn of the first pass over a readable component does not fail. -/
theorem preserveStep_total : ∃ state', preserveStep planning state a = .ok state' := by
  simp only [preserveStep]
  cases hcomponent : itemLookup planning.items a.itemId with
  | none => exact ⟨_, rfl⟩
  | some component =>
    have hevaluate := fun resourceType group =>
      (@readsMissingMemory_of_evaluate planning component state.priorAssignments resourceType group
        hserver).mpr (hreadable component hcomponent)
    dsimp only
    split
    · split
      · split
        · obtain ⟨result, hresult⟩ := hevaluate _ _
          rw [hresult, bind_ok]
          split <;> exact ⟨_, rfl⟩
        · split
          · obtain ⟨result, hresult⟩ := hevaluate _ _
            rw [hresult, bind_ok]
            split <;> exact ⟨_, rfl⟩
          · exact ⟨_, rfl⟩
      · exact ⟨_, rfl⟩
    · exact ⟨_, rfl⟩

/-- A turn of the second pass over a readable component does not fail. -/
theorem placeStep_total (preserved : List (ℕ × (CompatibilityAllocation × CompatibilityResult))) :
    ∃ placing', placeStep planning preserved placing a = .ok placing' := by
  simp only [placeStep]
  cases hcomponent : itemLookup planning.items a.itemId with
  | none => exact ⟨_, rfl⟩
  | some component =>
    have hreadable := hreadable component hcomponent
    have hcandidate := fun resourceType group =>
      (@readsMissingMemory_of_evaluate planning component placing.processedAssignments resourceType
        group hserver).mpr hreadable
    have hevaluate : ∃ result,
        planning.evaluate component placing.processedAssignments = .ok result :=
      hcandidate .cpu none
    obtain ⟨base, hbase⟩ := hevaluate
    dsimp only
    split
    · exact ⟨_, rfl⟩
    · split
      · rw [hbase]
        exact ⟨_, rfl⟩
      · rw [hbase]
        exact ⟨_, rfl⟩
      · split
        · obtain ⟨result, hresult⟩ := hcandidate _ _
          rw [placeScalar, hresult, bind_ok]
          dsimp only
          repeat' split
          all_goals exact ⟨_, rfl⟩
        · rename_i resourceType size _ _
          have hsearch : ∀ groups search, ∃ search', searchCandidates planning component
              placing.processedAssignments resourceType size placing.occupancy groups search =
                .ok search' := by
            intro groups
            induction groups with
            | nil => exact fun search => ⟨search, rfl⟩
            | cons group rest ih =>
              intro search
              obtain ⟨result, hresult⟩ := hcandidate resourceType (some group)
              rw [searchCandidates, hresult, bind_ok]
              dsimp only
              split
              · exact ⟨_, rfl⟩
              · exact ih _
          rw [placeInGroup]
          obtain ⟨search, hsearch⟩ := hsearch
            (requiredGroups planning.host.capabilities resourceType).2 .empty
          dsimp only
          rw [hsearch, bind_ok]
          split
          · exact ⟨_, rfl⟩
          · rw [hbase]
            exact ⟨_, rfl⟩

end

/-- The components of a server are readable. -/
def Readable (planning : HostPlanning) (a : ComponentAssignment) : Prop :=
  ∀ component, itemLookup planning.items a.itemId = some component →
    readsMissingMemory planning.host component = false

/-- A turn of the second pass that keeps nothing has read its component. -/
theorem readable_of_placeStep {placing placing' : Placing} (hserver : planning.host.type ≠ .pcBuild)
    (hnone : get? preserved a.id = none)
    (h : placeStep planning preserved placing a = .ok placing') : Readable planning a := by
  intro component hcomponent
  have hread := fun resourceType group =>
    (@readsMissingMemory_of_evaluate planning component placing.processedAssignments resourceType
      group hserver).mp
  simp only [placeStep, hcomponent, hnone] at h
  by_cases hram : component.type = .ram
  · have hdemand : planning.demand component = (some .memory, some 1) := by
      simp [HostPlanning.demand, resourceTypeFor, allocationSize, hram]
    rw [hdemand] at h
    have hscalar : ResourceType.isScalar .memory = true := rfl
    dsimp only at h
    rw [if_pos hscalar] at h
    obtain ⟨result, hresult, -⟩ := bind_eq_ok.mp h
    exact hread _ _ ⟨result, hresult⟩
  · simp [readsMissingMemory, hram]

/-- A stored memory allocation is kept only next to a memory section. -/
theorem readable_of_keeps {before : List ComponentAssignment}
    {allocation : CompatibilityAllocation}
    (h : planning.keeps ⟨a.clean, before⟩ allocation = true) : Readable planning a := by
  intro component hcomponent
  by_cases hram : component.type = .ram
  · have hdemand : planning.demand component = (some .memory, some 1) := by
      simp [HostPlanning.demand, resourceTypeFor, allocationSize, hram]
    cases hmemory : planning.host.capabilities.memory with
    | some support => simp [readsMissingMemory, hmemory]
    | none =>
      simp only [HostPlanning.keeps, ComponentAssignment.clean, hcomponent, hdemand] at h
      simp [ResourceType.isScalar, allocationMatchesResource, scalarCapacity, hmemory] at h
  · simp [readsMissingMemory, hram]

/-- Planning a server succeeds exactly when all its components are readable. -/
theorem planServerAllocations_ok_iff (hserver : planning.host.type ≠ .pcBuild)
    (hids : (l.map (·.id)).Nodup) :
    (∃ plan, planServerAllocations planning l = .ok plan) ↔ ∀ a ∈ l, Readable planning a := by
  constructor
  · rintro ⟨plan, hplan⟩ a ha
    obtain ⟨preservation, hpreserve, hrest⟩ := bind_eq_ok.mp hplan
    obtain ⟨placing, hplace, -⟩ := bind_eq_ok.mp hrest
    cases hget : get? preservation.preserved a.id with
    | some value =>
      have hallocation : (withPreserved preservation.preserved a).allocation = some value.1 := by
        rw [withPreserved, hget]
        rfl
      obtain ⟨before, hkeeps⟩ := keeps_of_preserved hids hpreserve ha hallocation
      exact readable_of_keeps hkeeps
    | none =>
      have hturn := forall_of_foldlM
        (P := fun a => get? preservation.preserved a.id = none → Readable planning a)
        hplace fun _ _ _ hstep hnone => readable_of_placeStep hserver hnone hstep
      exact hturn a ha hget
  · intro hreadable
    obtain ⟨preservation, hpreserve⟩ := foldlM_total (f := preserveStep planning)
      (s := ⟨[], [], []⟩) fun _ a ha => preserveStep_total hserver (hreadable a ha)
    obtain ⟨placing, hplace⟩ := foldlM_total (f := placeStep planning preservation.preserved)
      (s := ⟨preservation.occupancy, [], [], []⟩) fun _ a ha =>
        placeStep_total hserver (hreadable a ha) preservation.preserved
    exact ⟨_, bind_eq_ok.mpr ⟨_, hpreserve, bind_eq_ok.mpr ⟨_, hplace, rfl⟩⟩⟩

end HomelabInventory.Compatibility
