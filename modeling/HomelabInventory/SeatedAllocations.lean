import HomelabInventory.ServerPasses

/-!
# What an allocation of a server says about its place

Every allocation of a plan, kept or new, is a place of the resource that its component needs. The
group it names is found again by its number, and with checks on the component was found compatible
with that group alone.
-/

namespace HomelabInventory.Compatibility

open List

/-! ## Runs of positions -/

theorem consecutive_positionsFrom (start n : ℕ) :
    positionsAreConsecutive (positionsFrom start n) n = true := by
  rw [positionsAreConsecutive, Bool.and_eq_true, Bool.and_eq_true, beq_iff_eq]
  refine ⟨⟨by simp [positionsFrom], ?_⟩, ?_⟩
  · rw [all_eq_true]
    intro position hposition
    obtain ⟨index, -, rfl⟩ := mem_map.mp hposition
    rw [Bool.and_eq_true, decide_eq_true_iff]
    exact ⟨isInteger_iff.mpr ⟨((start + index : ℕ) : ℤ), by simp⟩, Nat.cast_nonneg _⟩
  · induction n generalizing start with
    | zero => rfl
    | succ n ih =>
      rw [positionsFrom_succ, tail_cons]
      cases n with
      | zero => rfl
      | succ n =>
        have hrest := ih (start + 1)
        rw [positionsFrom_succ, tail_cons] at hrest
        rw [positionsFrom_succ, zip_cons_cons, all_cons, Bool.and_eq_true, beq_iff_eq]
        exact ⟨by push_cast; ring, hrest⟩

variable {limit size : ℚ}

/-- What occupies positions below a limit is consecutive and below the limit. -/
theorem Occupies.positions {positions : List ℚ} (h : Occupies positions size limit) :
    positionsAreConsecutive positions size = true ∧
      positions.all (fun position => decide (position < limit)) = true := by
  obtain ⟨start, n, rfl, rfl, hlimit⟩ := h
  refine ⟨consecutive_positionsFrom start n, ?_⟩
  rw [all_eq_true]
  intro position hposition
  obtain ⟨index, hindex, rfl⟩ := mem_map.mp hposition
  rw [mem_range] at hindex
  have hlt : ((start + index : ℕ) : ℚ) < ((start + n : ℕ) : ℚ) := by
    exact_mod_cast Nat.add_lt_add_left hindex start
  exact decide_eq_true (hlt.trans_le hlimit)

/-! ## Groups by their numbers -/

/-- A valid group is the only one of its number. -/
theorem eq_of_mem_validResourceGroups {groups : List ResourceGroup} {group other : ResourceGroup}
    (h : group ∈ validResourceGroups groups) (h' : other ∈ validResourceGroups groups)
    (hid : other.id = group.id) : other = group := by
  obtain ⟨hmem, hvalid⟩ := mem_filter.mp h
  have hmem' := (mem_filter.mp h').1
  cases hsafe : safeGroupId group with
  | none =>
    rw [hsafe] at hvalid
    exact nomatch hvalid
  | some id =>
    rw [hsafe] at hvalid
    simp only [Bool.and_eq_true, beq_iff_eq] at hvalid
    have hsafe' : safeGroupId other = some id := by
      rw [safeGroupId, hid]
      exact hsafe
    have hone : (groups.filter fun group => safeGroupId group == some id).length = 1 := by
      have hcount := hvalid.1.1
      rw [List.count, countP_filterMap] at hcount
      rw [← countP_eq_length_filter, ← hcount]
      refine countP_congr fun group _ => ?_
      cases safeGroupId group <;> simp
    obtain ⟨only, honly⟩ := length_eq_one_iff.mp hone
    have hin : ∀ candidate ∈ groups, safeGroupId candidate = some id → candidate = only := by
      intro candidate hcandidate hsame
      have hfiltered : candidate ∈ groups.filter fun group => safeGroupId group == some id := by
        rw [mem_filter, hsame]
        exact ⟨hcandidate, beq_self_eq_true _⟩
      rw [honly] at hfiltered
      exact mem_singleton.mp hfiltered
    rw [hin other hmem' hsafe', hin group hmem hsafe]

/-- The valid groups of a resource are those of a list of groups. -/
theorem exists_validResourceGroups (capabilities : HostCapabilities) (resourceType : ResourceType) :
    ∃ groups, (requiredGroups capabilities resourceType).2 = validResourceGroups groups := by
  unfold requiredGroups
  split
  · exact ⟨_, rfl⟩
  · exact ⟨_, rfl⟩
  · exact ⟨_, rfl⟩
  · exact ⟨[], rfl⟩

variable {resourceType : ResourceType}

/-- A valid group is found by its number. -/
theorem find?_requiredGroups {capabilities : HostCapabilities} {group : ResourceGroup}
    (h : group ∈ (requiredGroups capabilities resourceType).2) :
    (requiredGroups capabilities resourceType).2.find?
      (fun candidate => decide (candidate.id = group.id)) = some group := by
  obtain ⟨groups, hgroups⟩ := exists_validResourceGroups capabilities resourceType
  rw [hgroups] at h ⊢
  cases hfind : (validResourceGroups groups).find?
      fun candidate => decide (candidate.id = group.id) with
  | none =>
    rw [find?_eq_none] at hfind
    exact absurd (decide_eq_true rfl) (hfind group h)
  | some other =>
    have hid : other.id = group.id := by simpa using find?_some hfind
    rw [eq_of_mem_validResourceGroups h (mem_of_find?_eq_some hfind) hid]

/-! ## Seats -/

namespace HostPlanning

variable (planning : HostPlanning)

/-- The group that an allocation names: none for processors and memory. -/
def ownGroup (allocation : CompatibilityAllocation) : Option ResourceGroup :=
  if allocation.resourceType.isScalar then none
  else (requiredGroups planning.host.capabilities allocation.resourceType).2.find?
    fun candidate => candidate.id = allocation.groupId

/-- The component at its own place: against the group of its allocation alone, or the host itself. -/
def ownResult (component : InventoryItem) (prior : List ComponentAssignment)
    (allocation : CompatibilityAllocation) : CompatibilityResult :=
  planning.candidateResult component prior allocation.resourceType (planning.ownGroup allocation)

/-- The allocation is a place of the resource that the component needs. -/
def MatchesPlace (component : InventoryItem) (allocation : CompatibilityAllocation) : Prop :=
  ∃ size, planning.demand component = (some allocation.resourceType, some size) ∧
    (allocation.resourceType.isScalar = false → (planning.ownGroup allocation).isSome = true) ∧
    allocationMatchesResource allocation allocation.resourceType (planning.ownGroup allocation) size
      [] (if allocation.resourceType.isScalar then
        scalarCapacity planning.host.capabilities allocation.resourceType else none) = true

/-- What the plan of a server says about an allocation: it is a place of the component, and with
checks on its group accepted the component. -/
def Seated (turn : Turn) (allocation : CompatibilityAllocation) : Prop :=
  ∃ component, itemLookup planning.items turn.assignment.itemId = some component ∧
    planning.MatchesPlace component allocation ∧
    (planning.compatibilityEnabled = true → allocation.resourceType.isScalar = false →
      (planning.ownResult component turn.prior allocation).status = .compatible)

end HostPlanning

variable {planning : HostPlanning} {turn : Turn} {allocation : CompatibilityAllocation}

theorem compatible_of_canOccupy {result : CompatibilityResult}
    (h : resultCanOccupyResource result true = true) : result.status = .compatible := by
  simpa [resultCanOccupyResource] using h

/-- What matches a resource is of it. -/
theorem resourceType_of_matches {group : Option ResourceGroup} {capacity : Option ℚ}
    (h : allocationMatchesResource allocation resourceType group size [] capacity = true) :
    allocation.resourceType = resourceType := by
  simp only [allocationMatchesResource, Bool.and_eq_true, decide_eq_true_iff] at h
  exact h.1.1.1.1

/-- An allocation may be kept when it is a place of its component and that place accepts it. -/
theorem keeps_iff :
    planning.keeps turn allocation = true ↔
      ∃ component, itemLookup planning.items turn.assignment.itemId = some component ∧
        planning.MatchesPlace component allocation ∧
        resultCanOccupyResource (planning.ownResult component turn.prior allocation)
          planning.compatibilityEnabled = true := by
  unfold HostPlanning.keeps
  cases hcomponent : itemLookup planning.items turn.assignment.itemId with
  | none =>
    refine ⟨fun h => absurd h Bool.false_ne_true, ?_⟩
    rintro ⟨component, hsome, -⟩
    exact nomatch hsome
  | some component =>
    simp only [Option.some.injEq, exists_eq_left']
    have hwithout : ∀ demand, planning.demand component = demand →
        (∀ resourceType size, demand ≠ (some resourceType, some size)) →
        ¬ planning.MatchesPlace component allocation := by
      rintro demand hdemand hne ⟨size, hsome, -⟩
      exact hne _ _ (hdemand.symm.trans hsome)
    match hdemand : planning.demand component with
    | (none, size) =>
      exact ⟨fun h => absurd h Bool.false_ne_true,
        fun h => absurd h.1 (hwithout _ hdemand (by simp))⟩
    | (some resourceType, none) =>
      exact ⟨fun h => absurd h Bool.false_ne_true,
        fun h => absurd h.1 (hwithout _ hdemand (by simp))⟩
    | (some resourceType, some size) =>
      dsimp only
      have hsame : ∀ size', planning.demand component =
          (some allocation.resourceType, some size') →
          allocation.resourceType = resourceType ∧ size' = size := by
        intro size' h
        rw [hdemand] at h
        obtain ⟨htype, hsize⟩ := Prod.mk.inj h
        exact ⟨(Option.some.inj htype).symm, (Option.some.inj hsize).symm⟩
      by_cases hscalar : resourceType.isScalar = true
      · rw [if_pos hscalar, Bool.and_eq_true]
        constructor
        · rintro ⟨hoccupy, hmatches⟩
          obtain rfl := resourceType_of_matches hmatches
          have hgroup : planning.ownGroup allocation = none := if_pos hscalar
          refine ⟨⟨size, hdemand, fun h => absurd hscalar (by simp [h]), ?_⟩, ?_⟩
          · rw [hgroup, if_pos hscalar]
            exact hmatches
          · rw [HostPlanning.ownResult, hgroup]
            exact hoccupy
        · rintro ⟨⟨size', hsome, -, hmatches⟩, hoccupy⟩
          obtain ⟨rfl, rfl⟩ := hsame size' hsome
          have hgroup : planning.ownGroup allocation = none := if_pos hscalar
          rw [hgroup, if_pos hscalar] at hmatches
          rw [HostPlanning.ownResult, hgroup] at hoccupy
          exact ⟨hoccupy, hmatches⟩
      · rw [if_neg hscalar]
        constructor
        · intro h
          split at h
          · exact nomatch h
          · rename_i group hfind
            rw [Bool.and_eq_true] at h
            obtain rfl := resourceType_of_matches h.2
            have hgroup : planning.ownGroup allocation = some group := (if_neg hscalar).trans hfind
            refine ⟨⟨size, hdemand, fun _ => by rw [hgroup]; rfl, ?_⟩, ?_⟩
            · rw [hgroup, if_neg hscalar]
              exact h.2
            · rw [HostPlanning.ownResult, hgroup]
              exact h.1
        · rintro ⟨⟨size', hsome, hfound, hmatches⟩, hoccupy⟩
          obtain ⟨rfl, rfl⟩ := hsame size' hsome
          obtain ⟨group, hgroup⟩ := Option.isSome_iff_exists.mp
            (hfound (Bool.not_eq_true _ ▸ hscalar))
          have hfind := hgroup
          rw [HostPlanning.ownGroup, if_neg hscalar] at hfind
          rw [hgroup, if_neg hscalar] at hmatches
          rw [HostPlanning.ownResult, hgroup] at hoccupy
          rw [hfind]
          exact Bool.and_eq_true_iff.mpr ⟨hoccupy, hmatches⟩

theorem seated_of_keeps (h : planning.keeps turn allocation = true) :
    planning.Seated turn allocation := by
  obtain ⟨component, hcomponent, hplace, hoccupy⟩ := keeps_iff.mp h
  refine ⟨component, hcomponent, hplace, fun henabled _ => ?_⟩
  rw [henabled] at hoccupy
  exact compatible_of_canOccupy hoccupy

/-- A run of positions in a resource is a place of it. -/
theorem matches_of_occupies {groupId : Option ℚ}
    {positions : List ℚ} {group : Option ResourceGroup} {capacity : Option ℚ}
    (hgroup : if resourceType.isScalar then groupId = none ∧ capacity = some limit
      else ∃ own, group = some own ∧ groupId = own.id ∧ own.count = some limit)
    (h : Occupies positions size limit) :
    allocationMatchesResource ⟨resourceType, groupId, positions⟩ resourceType group size []
      capacity = true := by
  obtain ⟨hconsecutive, hbelow⟩ := h.positions
  have hfree : positionsAreFree [] resourceType groupId positions = true := by
    simp [positionsAreFree]
  simp only [allocationMatchesResource, Bool.and_eq_true, decide_eq_true_iff, hconsecutive, hfree,
    and_true, true_and]
  split at hgroup <;> rename_i hscalar
  · obtain ⟨rfl, rfl⟩ := hgroup
    simp [hscalar, hbelow]
  · obtain ⟨own, rfl, rfl, hcount⟩ := hgroup
    simp [hscalar, hcount, hbelow]

theorem seated_of_candidate (h : allocation ∈ planning.candidates turn) :
    planning.Seated turn allocation := by
  unfold HostPlanning.candidates at h
  cases hcomponent : itemLookup planning.items turn.assignment.itemId with
  | none =>
    rw [hcomponent] at h
    cases h
  | some component =>
    simp only [hcomponent] at h
    rcases hdemand : planning.demand component with ⟨_ | resourceType, size⟩
    · rw [hdemand] at h
      cases h
    cases size with
    | none =>
      rw [hdemand] at h
      cases h
    | some size =>
      simp only [hdemand] at h
      by_cases hscalar : resourceType.isScalar = true
      · rw [if_pos hscalar, HostPlanning.scalarCandidates] at h
        split at h
        · obtain ⟨positions, hpositions, rfl⟩ := mem_map.mp h
          obtain ⟨count, size', hcount, hsize, hoccupies⟩ :=
            occupies_of_mem_candidatePositions hpositions
          obtain rfl := Option.some.inj hsize
          refine ⟨component, hcomponent, ⟨size, hdemand, fun h => absurd hscalar (by simp [h]), ?_⟩,
            fun _ h => absurd hscalar (by simp [h])⟩
          refine matches_of_occupies ?_ hoccupies
          rw [if_pos hscalar, if_pos hscalar]
          exact ⟨rfl, hcount⟩
        · cases h
      · rw [if_neg hscalar, HostPlanning.groupCandidates] at h
        have hplace : ∀ status, allocation ∈ planning.placesOfStatus component turn.prior
            resourceType size status (requiredGroups planning.host.capabilities resourceType).2 →
            (planning.compatibilityEnabled = true → status = .compatible) →
            planning.Seated turn allocation := by
          intro status hmem hstatus
          obtain ⟨group, hgroup, hmem⟩ := mem_flatMap.mp hmem
          obtain ⟨positions, hpositions, rfl⟩ := mem_map.mp hmem
          obtain ⟨count, size', hcount, hsize, hoccupies⟩ :=
            occupies_of_mem_candidatePositions hpositions
          obtain rfl := Option.some.inj hsize
          obtain ⟨hvalid, hresult⟩ := mem_filter.mp hgroup
          have hown : planning.ownGroup ⟨resourceType, group.id, positions⟩ = some group :=
            (if_neg hscalar).trans (find?_requiredGroups hvalid)
          refine ⟨component, hcomponent, ⟨size, hdemand, fun _ => by rw [hown]; rfl, ?_⟩, ?_⟩
          · refine matches_of_occupies ?_ hoccupies
            rw [if_neg hscalar]
            exact ⟨group, hown, rfl, hcount⟩
          · intro henabled _
            rw [HostPlanning.ownResult, hown]
            exact (of_decide_eq_true hresult).trans (hstatus henabled)
        rcases mem_append.mp h with h | h
        · exact hplace _ h fun _ => rfl
        · split at h
          · cases h
          · rename_i hdisabled
            rcases mem_append.mp h with h | h
            · exact hplace _ h fun henabled => absurd henabled hdisabled
            · exact hplace _ h fun henabled => absurd henabled hdisabled

end HomelabInventory.Compatibility
