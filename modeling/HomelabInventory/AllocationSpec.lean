import HomelabInventory.Allocation
import Mathlib.Data.List.Lattice
import Mathlib.Tactic.Ring

/-!
# Sound allocations

What a plan of a host should be: the assignments it was asked for, with
allocations that overlap nowhere and fit. The searches of the planner go through
runs of positions that fit.
-/

namespace HomelabInventory.Compatibility

open List

/-! ## Positions -/

/-- The positions are a run of the given size below the count. -/
def Occupies (positions : List ℚ) (size count : ℚ) : Prop :=
  ∃ start n : ℕ, positions = positionsFrom start n ∧ (n : ℚ) = size ∧
    ((start + n : ℕ) : ℚ) ≤ count

theorem positionsFrom_succ (start n : ℕ) :
    positionsFrom start (n + 1) = (start : ℚ) :: positionsFrom (start + 1) n := by
  simp only [positionsFrom, range_succ_eq_map, map_cons, map_map, Nat.add_zero]
  refine congrArg _ (map_congr_left fun index _ => ?_)
  simp only [Function.comp_apply, Nat.succ_eq_add_one]
  push_cast
  ring

variable {size value : ℚ}

theorem isInteger_iff : isInteger value = true ↔ ∃ n : ℤ, value = n := by
  rw [isInteger, beq_iff_eq]
  constructor
  · intro h
    exact ⟨value.num, (Rat.den_eq_one_iff value).mp h ▸ rfl⟩
  · rintro ⟨n, rfl⟩
    exact Rat.den_intCast n

theorem exists_nat_of_isInteger (hint : isInteger value = true) (hnonneg : 0 ≤ value) :
    ∃ n : ℕ, value = n := by
  obtain ⟨m, rfl⟩ := isInteger_iff.mp hint
  obtain ⟨n, rfl⟩ := Int.eq_ofNat_of_zero_le (by exact_mod_cast hnonneg)
  exact ⟨n, by simp⟩

variable {positions : List ℚ}

/-- Consecutive whole positions are a run. -/
theorem exists_positionsFrom (h : positionsAreConsecutive positions size = true) :
    ((positions.length : ℕ) : ℚ) = size ∧
      ∃ start, positions = positionsFrom start positions.length := by
  rw [positionsAreConsecutive, Bool.and_eq_true, Bool.and_eq_true, beq_iff_eq] at h
  obtain ⟨⟨hsize, hwhole⟩, hsteps⟩ := h
  refine ⟨hsize, ?_⟩
  clear hsize
  induction positions with
  | nil => exact ⟨0, rfl⟩
  | cons p rest ih =>
    rw [all_cons, Bool.and_eq_true, Bool.and_eq_true, decide_eq_true_iff] at hwhole
    obtain ⟨⟨hint, hnonneg⟩, hrest⟩ := hwhole
    obtain ⟨start, rfl⟩ := exists_nat_of_isInteger hint hnonneg
    refine ⟨start, ?_⟩
    rw [length_cons, positionsFrom_succ]
    cases rest with
    | nil => rfl
    | cons q rest =>
      rw [tail_cons, zip_cons_cons, all_cons, Bool.and_eq_true, beq_iff_eq] at hsteps
      obtain ⟨start', hstart'⟩ := ih hsteps.2 hrest
      have hhead : q = (start' : ℚ) := by
        rw [length_cons, positionsFrom_succ] at hstart'
        exact (List.cons.inj hstart').1
      have hnext : start' = start + 1 := by
        have heq : (start' : ℚ) = start + 1 := hhead ▸ hsteps.1
        exact_mod_cast heq
      rw [hstart', hnext]
      simp [positionsFrom]

/-- A run below a whole limit ends there at the latest. -/
theorem occupies_of_consecutive {size limit : ℚ} (h : positionsAreConsecutive positions size = true)
    (hsize : size ≠ 0) (hlimit : isInteger limit = true)
    (hbelow : positions.all (fun position => decide (position < limit)) = true) :
    Occupies positions size limit := by
  obtain ⟨hlength, start, hpositions⟩ := exists_positionsFrom h
  refine ⟨start, positions.length, hpositions, hlength, ?_⟩
  obtain ⟨m, rfl⟩ := isInteger_iff.mp hlimit
  have hpos : 0 < positions.length := by
    rcases Nat.eq_zero_or_pos positions.length with hzero | hpos
    · rw [hzero, Nat.cast_zero] at hlength
      exact absurd hlength.symm hsize
    · exact hpos
  have hlast : ((start + (positions.length - 1) : ℕ) : ℚ) ∈ positions := by
    have hmem : positions.length - 1 ∈ List.range positions.length :=
      mem_range.mpr (Nat.sub_lt hpos Nat.one_pos)
    have hlast : ((start + (positions.length - 1) : ℕ) : ℚ) ∈
        positionsFrom start positions.length :=
      mem_map_of_mem hmem
    rwa [← hpositions] at hlast
  have hlt := all_eq_true.mp hbelow _ hlast
  rw [decide_eq_true_iff] at hlt
  have hlt' : ((start + (positions.length - 1) : ℕ) : ℤ) < m := by exact_mod_cast hlt
  have hle : ((start + positions.length : ℕ) : ℤ) ≤ m := by omega
  exact_mod_cast hle

/-! ## Candidates -/

/-- The runs of positions tried, in order. -/
def candidatePositions (count size : Option ℚ) : List (List ℚ) :=
  match count, size with
  | some count, some size =>
    if isInteger count && decide (0 < count) && isInteger size && decide (0 < size) &&
        decide (size ≤ count) then
      (List.range ((count - size).num.toNat + 1)).map fun start =>
        positionsFrom start size.num.toNat
    else []
  | _, _ => []

/-- The first free run is the first of the candidates that is free. -/
theorem firstConsecutivePositions_eq_find? (occupancy : Occupancy) (resourceType : ResourceType)
    (groupId count size : Option ℚ) :
    firstConsecutivePositions occupancy resourceType groupId count size =
      (candidatePositions count size).find? (positionsAreFree occupancy resourceType groupId) := by
  cases count with
  | none => rfl
  | some count =>
    cases size with
    | none => rfl
    | some size =>
      simp only [firstConsecutivePositions, candidatePositions]
      split <;> rfl

/-- Every candidate is a run of the size below the count. -/
theorem occupies_of_mem_candidatePositions {count size : Option ℚ}
    (h : positions ∈ candidatePositions count size) :
    ∃ c s, count = some c ∧ size = some s ∧ Occupies positions s c := by
  match count, size with
  | none, _ => exact nomatch h
  | some count, none => exact nomatch h
  | some count, some size =>
    refine ⟨count, size, rfl, rfl, ?_⟩
    rw [candidatePositions] at h
    split at h
    · rename_i hguard
      simp only [Bool.and_eq_true, decide_eq_true_iff] at hguard
      obtain ⟨⟨⟨⟨hcount, -⟩, hsize⟩, hpos⟩, hle⟩ := hguard
      obtain ⟨start, hstart, rfl⟩ := mem_map.mp h
      rw [mem_range] at hstart
      obtain ⟨c, rfl⟩ := isInteger_iff.mp hcount
      obtain ⟨s, rfl⟩ := isInteger_iff.mp hsize
      have hpos' : 0 < s := by exact_mod_cast hpos
      have hle' : s ≤ c := by exact_mod_cast hle
      have hnum : ((c : ℚ) - s).num = c - s := by
        rw [← Int.cast_sub, Rat.num_intCast]
      rw [hnum] at hstart
      refine ⟨start, s.toNat, rfl, ?_, ?_⟩
      · have hcast : ((s.toNat : ℕ) : ℤ) = s := Int.toNat_of_nonneg hpos'.le
        exact_mod_cast hcast
      · have hbound : ((start + s.toNat : ℕ) : ℤ) ≤ c := by omega
        exact_mod_cast hbound
    · exact nomatch h

/-- The first free run is free and fits. -/
theorem firstConsecutivePositions_eq_some {occupancy : Occupancy} {resourceType : ResourceType}
    {groupId count size : Option ℚ}
    (h : firstConsecutivePositions occupancy resourceType groupId count size = some positions) :
    positionsAreFree occupancy resourceType groupId positions = true ∧
      ∃ c s, count = some c ∧ size = some s ∧ Occupies positions s c := by
  rw [firstConsecutivePositions_eq_find?] at h
  exact ⟨find?_some h, occupies_of_mem_candidatePositions (mem_of_find?_eq_some h)⟩

/-! ## Sound plans -/

/-- The cells of an assignment. -/
def ComponentAssignment.cells (a : ComponentAssignment) : Occupancy :=
  (a.allocation.map CompatibilityAllocation.cells).getD []

/-- A host with these capabilities offers so many positions: in a valid group, or
of its own. -/
def Offers (capabilities : HostCapabilities) (own : ResourceType → Option ℚ)
    (resourceType : ResourceType) (groupId : Option ℚ) (count : ℚ) : Prop :=
  (groupId = none ∧ own resourceType = some count) ∨
    ∃ group ∈ (requiredGroups capabilities resourceType).2,
      group.id = groupId ∧ group.count = some count

/-- The allocation is of the resource and size its component needs, and lies
within what the host offers. -/
def AllocationFits (items : InventoryItems) (demand : InventoryItem → Option (ResourceType × ℚ))
    (offers : ResourceType → Option ℚ → ℚ → Prop) (a : ComponentAssignment)
    (allocation : CompatibilityAllocation) : Prop :=
  ∃ component size count, itemLookup items a.itemId = some component ∧
    demand component = some (allocation.resourceType, size) ∧
    offers allocation.resourceType allocation.groupId count ∧
    Occupies allocation.positions size count

/-- The planned assignments are those asked for, in their order, and their
allocations overlap nowhere and fit. -/
structure SoundPlan (fits : ComponentAssignment → CompatibilityAllocation → Prop)
    (asked planned : List ComponentAssignment) : Prop where
  same : planned.map (·.clean) = asked.map (·.clean)
  disjoint : planned.Pairwise fun a b => a.cells.Disjoint b.cells
  fits : ∀ a ∈ planned, ∀ allocation, a.allocation = some allocation → fits a allocation

theorem map_id_clean (l : List ComponentAssignment) :
    l.map (·.id) = (l.map (·.clean)).map (·.id) := by
  rw [map_map]
  rfl

/-- Assignments that differ in their allocations only have the same numbers. -/
theorem map_id_of_clean {l planned : List ComponentAssignment}
    (h : planned.map (·.clean) = l.map (·.clean)) : planned.map (·.id) = l.map (·.id) := by
  rw [map_id_clean, h, ← map_id_clean]

end HomelabInventory.Compatibility
