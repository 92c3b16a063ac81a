import HomelabInventory.GridAlignment
import Mathlib.Data.List.Pairwise

/-!
# Aligned layouts

A layout that is on the grid already, with its nodes apart from each other, is what aligning it
returns: no node finds another in its way, so the cascade never starts. The result of aligning any
nodes is such a layout. The nodes of a result are listed in the reading order of the positions that
they had before, which may not be the order of the positions that they have now, so aligning a
result may list the same nodes in another order.
-/

namespace HomelabInventory

open CascadingPlacementState List

section Layouts

variable {nodes result : List (GeometryNode ℚ)} {gridSize : ℚ} {maxRings : ℕ}

/-- Valid nodes on the grid, with distinct ids and apart from each other. -/
structure AlignedLayout (nodes : List (GeometryNode ℚ)) (gridSize : ℚ) : Prop where
  valid : ∀ node ∈ nodes, node.validate = .ok ()
  ids : (nodes.map (·.itemId)).Nodup
  onGrid : ∀ node ∈ nodes, (∃ n : ℤ, node.bounds.x = n * gridSize) ∧
    ∃ n : ℤ, node.bounds.y = n * gridSize
  apart : nodes.Pairwise fun first second => first.bounds.overlaps second.bounds = false

/-- The nodes in the order of their positions. -/
def readingOrder (nodes : List (GeometryNode ℚ)) : List (GeometryNode ℚ) :=
  (alignmentEntries nodes).map fun entry => ⟨entry.1, entry.2⟩

/-- The nodes are in the order of their positions. -/
def InReadingOrder (nodes : List (GeometryNode ℚ)) : Prop :=
  nodes.Pairwise fun first second =>
    (comparePosition (first.itemId, first.bounds) (second.itemId, second.bounds)).isLE = true

/-- The reading order lists the same nodes. -/
theorem perm_readingOrder (nodes : List (GeometryNode ℚ)) : (readingOrder nodes).Perm nodes := by
  have hperm := (perm_sortBy comparePosition
    (nodes.map fun node => (node.itemId, node.bounds))).map
      fun entry => (⟨entry.1, entry.2⟩ : GeometryNode ℚ)
  rw [map_map] at hperm
  rw [readingOrder, alignmentEntries]
  refine hperm.trans (List.Perm.of_eq ?_)
  exact map_id _

/-- Nodes in reading order stay where they are. -/
theorem InReadingOrder.readingOrder_eq (h : InReadingOrder nodes) : readingOrder nodes = nodes := by
  have hsorted : (nodes.map fun node => (node.itemId, node.bounds)).Pairwise
      fun first second => (comparePosition first second).isLE = true :=
    pairwise_map.mpr h
  rw [readingOrder, alignmentEntries, sortBy, List.Pairwise.insertionSort_eq hsorted, map_map]
  exact map_id _

/-! ## A node on the grid -/

/-- A whole multiple of the grid size is its own nearest grid line. -/
theorem snapToGrid_multiple (hgrid : 0 < gridSize) (n : ℤ) :
    snapToGrid ((n : ℚ) * gridSize) gridSize = n * gridSize := by
  have hround : Scalar.round (n : ℚ) = (n : ℚ) := by
    change Scalar.roundRat n = n
    rw [Scalar.roundRat]
    split
    · rw [Int.cast_inj, Int.floor_eq_iff]
      constructor <;> linarith
    · rw [Int.cast_inj, Int.ceil_eq_iff]
      constructor <;> linarith
  rw [snapToGrid, mul_div_cancel_right₀ _ hgrid.ne', hround]

/-- The first candidate of a node on the grid is its own place. -/
theorem cascadeCandidates_onGrid (maxRings : ℕ) (hgrid : 0 < gridSize) {original : Rect ℚ}
    (hx : ∃ n : ℤ, original.x = n * gridSize) (hy : ∃ n : ℤ, original.y = n * gridSize) :
    ∃ candidates, cascadeCandidates gridSize maxRings original = original :: candidates := by
  have hoffsets : ∃ offsets, cascadeOffsets maxRings = (0, 0) :: offsets := by
    rw [cascadeOffsets, range_succ_eq_map, flatMap_cons]
    exact ⟨_, rfl⟩
  obtain ⟨offsets, hoffsets⟩ := hoffsets
  obtain ⟨n, hn⟩ := hx
  obtain ⟨m, hm⟩ := hy
  have hsnapped : ({ original with
      x := snapToGrid original.x gridSize
      y := snapToGrid original.y gridSize } : Rect ℚ) = original := by
    rw [hn, hm, snapToGrid_multiple hgrid, snapToGrid_multiple hgrid, ← hn, ← hm]
  rw [cascadeCandidates, hoffsets, map_cons, hsnapped]
  refine ⟨_, congrArg (· :: _) ?_⟩
  have hzero : (Scalar.ofInt ((0 : ℕ) : ℤ) : ℚ) = 0 := rfl
  simp only [translated, hzero, zero_mul, add_zero]

/-! ## The cascade on an aligned layout -/

/-- A state in which every node is at a valid place on the grid, apart from the others. -/
structure Settled (gridSize : ℚ) (bounds : BTreeMap String (Rect ℚ)) : Prop where
  onGrid : ∀ (id : String) (rect : Rect ℚ), bounds[id]? = some rect → OnGrid gridSize rect
  apart : ∀ (id other : String) (rect rect' : Rect ℚ), bounds[id]? = some rect →
    bounds[other]? = some rect' → id ≠ other → rect.overlaps rect' = false

variable {state : CascadingPlacementState ℚ}

/-- Nothing is in the way of a settled node. -/
theorem Settled.blocker?_eq_none (h : Settled gridSize state.bounds) {itemId : String}
    {rect : Rect ℚ} (hrect : state.bounds[itemId]? = some rect) :
    ({ state with bounds := state.bounds.erase itemId } :
      CascadingPlacementState ℚ).blocker? rect = none := by
  rw [blocker?, Option.map_eq_none_iff, minBy?_eq_none, filter_eq_nil_iff]
  rintro ⟨id, other⟩ hentry
  rw [Std.ExtTreeMap.mem_toList_iff_getElem?_eq_some, getElem?_erase_ite] at hentry
  split at hentry
  · cases hentry
  · rename_i hne
    rw [h.apart id itemId other rect hentry hrect hne]
    exact Bool.false_ne_true

/-- **A settled node stays where it is.** -/
theorem Settled.placeCascadingItem_eq (hgrid : 0 < gridSize) (h : Settled gridSize state.bounds)
    {itemId : String} {rect : Rect ℚ} (hrect : state.bounds[itemId]? = some rect) (fuel : ℕ) :
    ∃ finalized, placeCascadingItem gridSize maxRings (fuel + 1) [] itemId state =
      .ok { bounds := state.bounds, finalized := finalized } := by
  rw [placeCascadingItem]
  split
  · exact ⟨state.finalized, rfl⟩
  obtain ⟨hx, hy, hvalid⟩ := h.onGrid itemId rect hrect
  obtain ⟨candidates, hcandidates⟩ := cascadeCandidates_onGrid maxRings hgrid hx hy
  rw [cascadeCandidates] at hcandidates
  simp only [hrect, hcandidates]
  rw [tryCandidates, hvalid, bind_ok, any_nil, if_neg Bool.false_ne_true, clearBlockers]
  have hfree := h.blocker?_eq_none hrect
  -- the way is clear, and nothing else overlaps the place
  have hoverlaps : (state.bounds.erase itemId).values.any (·.overlaps rect) = false := by
    rw [any_eq_false]
    intro other hother
    obtain ⟨id, hid⟩ := mem_values.mp hother
    rw [CascadingPlacementState.blocker?_eq_none hfree hid]
    exact Bool.false_ne_true
  -- putting the node back gives the state from before
  have hback : (state.bounds.erase itemId).insert itemId rect = state.bounds := by
    refine Std.ExtTreeMap.ext_getElem? fun id => ?_
    rw [getElem?_insert_ite, getElem?_erase_ite]
    split
    · rename_i hid
      rw [hid, hrect]
    · rfl
  simp only [hfree, bind_ok]
  rw [hoverlaps, if_neg Bool.false_ne_true, hback]
  exact ⟨_, rfl⟩

/-- Placing the nodes of a settled state in turn leaves all of them where they are. -/
theorem Settled.foldlM_eq (hgrid : 0 < gridSize) (h : Settled gridSize state.bounds)
    {entries : List (String × Rect ℚ)}
    (hentries : ∀ entry ∈ entries, state.bounds[entry.1]? = some entry.2) (fuel : ℕ) :
    ∃ finalized, entries.foldlM (fun state entry =>
      placeCascadingItem gridSize maxRings (fuel + 1) [] entry.1 state) state =
        .ok { bounds := state.bounds, finalized := finalized } := by
  induction entries generalizing state with
  | nil => exact ⟨state.finalized, rfl⟩
  | cons entry entries ih =>
    obtain ⟨hentry, hentries⟩ := forall_mem_cons.mp hentries
    obtain ⟨finalized, hplace⟩ := h.placeCascadingItem_eq hgrid hentry fuel
    rw [foldlM_cons, hplace]
    exact ih h hentries

/-- An aligned layout is a settled start. -/
theorem AlignedLayout.settled (h : AlignedLayout nodes gridSize) :
    Settled gridSize (alignmentStart nodes).bounds := by
  constructor
  · intro id rect hrect
    have hnode := (alignmentStart_bounds h.ids).mp hrect
    obtain ⟨hx, hy⟩ := h.onGrid _ hnode
    exact ⟨hx, hy, Rect.validate_eq_ok.mpr (SpatialIndex.inBounds_of_validate (h.valid _ hnode))⟩
  · intro id other rect rect' hrect hrect' hne
    have hnode := (alignmentStart_bounds h.ids).mp hrect
    have hother := (alignmentStart_bounds h.ids).mp hrect'
    have : Std.Symm fun first second : GeometryNode ℚ =>
        first.bounds.overlaps second.bounds = false := by
      refine ⟨fun first second hapart => ?_⟩
      rw [Rect.overlaps_comm]
      exact hapart
    exact h.apart.forall hnode hother fun hsame =>
      hne (congrArg GeometryNode.itemId hsame)

theorem pos_of_validateStep (h : validateStep gridSize = .ok ()) : 0 < gridSize := by
  obtain ⟨_, -, h⟩ := bind_eq_ok.mp h
  split at h
  · cases h
  · rename_i hpos
    exact not_le.mp hpos

/-- **Aligning an aligned layout** returns its nodes with their rectangles, in reading order. -/
theorem AlignedLayout.snapNodesToGrid_eq (h : AlignedLayout nodes gridSize)
    (hstep : validateStep gridSize = .ok ()) (hrings : 0 < maxRings) :
    snapNodesToGrid nodes gridSize maxRings = .ok (readingOrder nodes) := by
  have hgrid := pos_of_validateStep hstep
  have hentries : ∀ entry ∈ alignmentEntries nodes,
      (alignmentStart nodes).bounds[entry.1]? = some entry.2 := by
    intro entry hentry
    rw [alignmentEntries, mem_sortBy, mem_map] at hentry
    obtain ⟨node, hnode, rfl⟩ := hentry
    exact (alignmentStart_bounds h.ids).mpr hnode
  obtain ⟨finalized, hrun⟩ : ∃ finalized, (alignmentEntries nodes).foldlM (fun state entry =>
      placeCascadingItem gridSize maxRings (nodes.length + 1) [] entry.1 state)
        (alignmentStart nodes) =
        .ok { bounds := (alignmentStart nodes).bounds, finalized := finalized } :=
    h.settled.foldlM_eq hgrid hentries nodes.length
  rw [HomelabInventory.snapNodesToGrid_eq h.valid h.ids hrings, hstep, bind_ok, hrun, bind_ok,
    alignedNodes, readingOrder]
  refine congrArg _ (map_congr_left fun entry hentry => ?_)
  rw [hentries entry hentry, Option.getD_some]

/-! ## The nodes of a result -/

/-- Nodes whose rectangles are collected are valid and have distinct ids. -/
theorem valid_of_collectBounds {bounds collected : BTreeMap String (Rect ℚ)}
    (h : collectBounds bounds nodes = .ok collected) :
    (∀ node ∈ nodes, node.validate = .ok ()) ∧ (nodes.map (·.itemId)).Nodup ∧
      ∀ node ∈ nodes, node.itemId ∉ bounds := by
  induction nodes generalizing bounds with
  | nil => simp
  | cons node nodes ih =>
    rw [collectBounds] at h
    obtain ⟨_, hnode, h⟩ := bind_eq_ok.mp h
    split at h
    · cases h
    rename_i hfresh
    obtain ⟨hvalid, hids, hlater⟩ := ih h
    have hapart : ∀ other ∈ nodes, other.itemId ≠ node.itemId ∧ other.itemId ∉ bounds := by
      intro other hother
      have hnot := hlater other hother
      rw [Std.ExtTreeMap.mem_insert, Std.LawfulEqOrd.compare_eq_iff_eq, not_or] at hnot
      exact ⟨Ne.symm hnot.1, hnot.2⟩
    refine ⟨forall_mem_cons.mpr ⟨hnode, hvalid⟩, nodup_cons.mpr ⟨?_, hids⟩,
      forall_mem_cons.mpr ⟨by simpa using hfresh, fun other hother => (hapart other hother).2⟩⟩
    intro hmem
    obtain ⟨other, hother, hsame⟩ := mem_map.mp hmem
    exact (hapart other hother).1 hsame

/-- Nodes that are aligned are valid, with distinct ids; the grid size and the number of rings are
accepted. -/
theorem accepted_of_snapNodesToGrid (h : snapNodesToGrid nodes gridSize maxRings = .ok result) :
    (∀ node ∈ nodes, node.validate = .ok ()) ∧ (nodes.map (·.itemId)).Nodup ∧
      validateStep gridSize = .ok () ∧ 0 < maxRings := by
  rw [snapNodesToGrid] at h
  obtain ⟨_, hstep, h⟩ := bind_eq_ok.mp h
  split at h
  · cases h
  rename_i hrings
  obtain ⟨bounds, hbounds, -⟩ := bind_eq_ok.mp h
  obtain ⟨hvalid, hids, -⟩ := valid_of_collectBounds hbounds
  exact ⟨hvalid, hids, hstep, Nat.pos_of_ne_zero (by simpa using hrings)⟩

theorem not_blank_of_validate {node : GeometryNode ℚ} (h : node.validate = .ok ()) :
    isBlank node.itemId = false := by
  rw [GeometryNode.validate] at h
  cases hblank : isBlank node.itemId with
  | false => rfl
  | true =>
    rw [if_pos hblank] at h
    cases h

/-- **A result is an aligned layout.** -/
theorem alignedLayout_of_snapNodesToGrid
    (h : snapNodesToGrid nodes gridSize maxRings = .ok result) : AlignedLayout result gridSize := by
  obtain ⟨hvalid, hids, hstep, hrings⟩ := accepted_of_snapNodesToGrid h
  rw [HomelabInventory.snapNodesToGrid_eq hvalid hids hrings, hstep, bind_ok] at h
  obtain ⟨final, hfinal, h⟩ := bind_eq_ok.mp h
  obtain rfl := Except.ok.inj h
  obtain ⟨hprogress, haligned, hplaced⟩ :=
    foldlM_placeCascadingItem hfinal (aligned_alignmentStart nodes)
  have hresult := alignedResult hids hprogress haligned hplaced
  refine ⟨fun placed hmem => ?_, hresult.ids, fun placed hmem => ?_, hresult.apart⟩
  · -- the id is that of a valid node, the rectangle was checked when it was placed
    obtain ⟨node, hnode, hid⟩ := hresult.known placed hmem
    have hnamed : isBlank placed.itemId = false := by
      rw [← hid]
      exact not_blank_of_validate (hvalid node hnode)
    rw [GeometryNode.validate, hnamed, if_neg Bool.false_ne_true]
    exact (hresult.onGrid placed hmem).2.2
  · obtain ⟨hx, hy, -⟩ := hresult.onGrid placed hmem
    exact ⟨hx, hy⟩

/-! ## Aligning twice -/

/-- **Aligning leaves an aligned layout alone, and aligning twice is aligning once.** The nodes of
an aligned layout come back with their rectangles, in reading order. The result of aligning any
nodes is aligned to the same nodes with the same rectangles, and to itself when it is in reading
order. -/
theorem snapNodesToGrid_idempotent (nodes : List (GeometryNode ℚ)) (gridSize : ℚ) (maxRings : ℕ) :
    (AlignedLayout nodes gridSize → validateStep gridSize = .ok () → 0 < maxRings →
      snapNodesToGrid nodes gridSize maxRings = .ok (readingOrder nodes) ∧
        (readingOrder nodes).Perm nodes) ∧
    ∀ result, snapNodesToGrid nodes gridSize maxRings = .ok result →
      ∃ again, snapNodesToGrid result gridSize maxRings = .ok again ∧ again.Perm result ∧
        again = readingOrder result ∧ (InReadingOrder result → again = result) := by
  refine ⟨fun haligned hstep hrings =>
    ⟨haligned.snapNodesToGrid_eq hstep hrings, perm_readingOrder nodes⟩, fun result h => ?_⟩
  obtain ⟨-, -, hstep, hrings⟩ := accepted_of_snapNodesToGrid h
  have hagain := (alignedLayout_of_snapNodesToGrid h).snapNodesToGrid_eq hstep hrings
  exact ⟨_, hagain, perm_readingOrder result, rfl, fun horder => horder.readingOrder_eq⟩

/-- A router a little above a switch, off the grid. -/
def slantedPair : List (GeometryNode ℚ) :=
  [⟨"router", ⟨50, 1, 20, 10⟩⟩, ⟨"switch", ⟨0, 2, 20, 10⟩⟩]

/-- The pair on the same line of the grid. -/
def levelPair : List (GeometryNode ℚ) :=
  [⟨"router", ⟨50, 0, 20, 10⟩⟩, ⟨"switch", ⟨0, 0, 20, 10⟩⟩]

theorem snapNodesToGrid_slantedPair : snapNodesToGrid slantedPair 10 8 = .ok levelPair := by
  decide +kernel

/-- The pair is aligned to the same line of the grid, and once more to the same rectangles. -/
theorem snapNodesToGrid_idempotent_slantedPair :
    (snapNodesToGrid levelPair 10 8 = .ok (readingOrder levelPair) ∧
      (readingOrder levelPair).Perm levelPair) ∧
    ∃ again, snapNodesToGrid levelPair 10 8 = .ok again ∧ again.Perm levelPair := by
  have hlevel := alignedLayout_of_snapNodesToGrid snapNodesToGrid_slantedPair
  obtain ⟨again, hagain, hperm, -⟩ :=
    (snapNodesToGrid_idempotent slantedPair 10 8).2 _ snapNodesToGrid_slantedPair
  exact ⟨(snapNodesToGrid_idempotent levelPair 10 8).1 hlevel (by decide +kernel) (by decide),
    again, hagain, hperm⟩

/-- Aligned once more, the pair is listed in the other order: the router comes first in the first
result, for it was the upper one, and last in the second, for now it is the right one. -/
theorem slantedPair_reordered : snapNodesToGrid slantedPair 10 8 = .ok levelPair ∧
    ¬snapNodesToGrid levelPair 10 8 = .ok levelPair :=
  ⟨snapNodesToGrid_slantedPair, by decide +kernel⟩

end Layouts

end HomelabInventory
