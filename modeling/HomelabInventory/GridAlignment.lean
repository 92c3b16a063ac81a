import HomelabInventory.SpatialIndexing
import Mathlib.Data.Finset.Card

/-!
# Grid alignment

Aligning nodes to the grid places them in reading order. A node whose place is taken moves the
nodes in its way first, and these may move others in turn; when one of them finds no place, the
next candidate is tried from the state before. Every nested move works on one node less, so the
cascade ends, and the nodes that have been placed are on the grid and apart from each other.
-/

namespace HomelabInventory

/-! ## Runs of the cascade -/

/-- The candidates of a node, nearest first. -/
def cascadeCandidates (gridSize : ℚ) (maxRings : ℕ) (original : Rect ℚ) : List (Rect ℚ) :=
  (cascadeOffsets maxRings).map fun offset =>
    translated
      { original with x := snapToGrid original.x gridSize, y := snapToGrid original.y gridSize }
      (Scalar.ofInt offset.1 * gridSize) (Scalar.ofInt offset.2 * gridSize)

section Runs

variable (gridSize : ℚ) (maxRings : ℕ)

mutual

/-- Placing a node ends with an outcome. The runs are finite, so there is one exactly when the
recursion ends. -/
inductive Places : List (Rect ℚ) → String → CascadingPlacementState ℚ →
    Except GeometryError (CascadingPlacementState ℚ) → Prop
  | finalized {reserved itemId state} (h : state.finalized.contains itemId = true) :
    Places reserved itemId state (.ok state)
  | unknown {reserved itemId state} (h : state.finalized.contains itemId = false)
    (hmissing : state.bounds[itemId]? = none) :
    Places reserved itemId state (.error (.unknownIdentifier "grid placement item_id"))
  | search {reserved itemId state original outcome}
    (h : state.finalized.contains itemId = false) (horiginal : state.bounds[itemId]? = some original)
    (hrun : Tries reserved itemId { state with bounds := state.bounds.erase itemId }
      (cascadeCandidates gridSize maxRings original) outcome) :
    Places reserved itemId state outcome

/-- Trying candidates in turn ends with an outcome. -/
inductive Tries : List (Rect ℚ) → String → CascadingPlacementState ℚ → List (Rect ℚ) →
    Except GeometryError (CascadingPlacementState ℚ) → Prop
  | exhausted {reserved itemId state} : Tries reserved itemId state [] (.error .placementSearchExhausted)
  | invalid {reserved itemId state} {candidate : Rect ℚ} {candidates error}
    (h : candidate.validate = .error error) :
    Tries reserved itemId state (candidate :: candidates) (.error error)
  | reserved {reserved itemId state} {candidate : Rect ℚ} {candidates outcome}
    (h : candidate.validate = .ok ()) (hreserved : reserved.any (·.overlaps candidate) = true)
    (hrun : Tries reserved itemId state candidates outcome) :
    Tries reserved itemId state (candidate :: candidates) outcome
  | failed {reserved itemId state} {candidate : Rect ℚ} {candidates error}
    (h : candidate.validate = .ok ()) (hreserved : reserved.any (·.overlaps candidate) = false)
    (hclear : Clears (reserved ++ [candidate]) candidate state (.error error)) :
    Tries reserved itemId state (candidate :: candidates) (.error error)
  | blocked {reserved itemId state} {candidate : Rect ℚ} {candidates outcome}
    (h : candidate.validate = .ok ()) (hreserved : reserved.any (·.overlaps candidate) = false)
    (hclear : Clears (reserved ++ [candidate]) candidate state (.ok none))
    (hrun : Tries reserved itemId state candidates outcome) :
    Tries reserved itemId state (candidate :: candidates) outcome
  | overlapped {reserved itemId state cleared} {candidate : Rect ℚ} {candidates outcome}
    (h : candidate.validate = .ok ()) (hreserved : reserved.any (·.overlaps candidate) = false)
    (hclear : Clears (reserved ++ [candidate]) candidate state (.ok (some cleared)))
    (hoverlaps : cleared.bounds.values.any (·.overlaps candidate) = true)
    (hrun : Tries reserved itemId state candidates outcome) :
    Tries reserved itemId state (candidate :: candidates) outcome
  | placed {reserved itemId state cleared} {candidate : Rect ℚ} {candidates}
    (h : candidate.validate = .ok ()) (hreserved : reserved.any (·.overlaps candidate) = false)
    (hclear : Clears (reserved ++ [candidate]) candidate state (.ok (some cleared)))
    (hoverlaps : cleared.bounds.values.any (·.overlaps candidate) = false) :
    Tries reserved itemId state (candidate :: candidates)
      (.ok { bounds := cleared.bounds.insert itemId candidate
             finalized := cleared.finalized.insert itemId })

/-- Moving the nodes in the way of a candidate ends with an outcome. -/
inductive Clears : List (Rect ℚ) → Rect ℚ → CascadingPlacementState ℚ →
    Except GeometryError (Option (CascadingPlacementState ℚ)) → Prop
  | clear {reserved candidate state} (h : state.blocker? candidate = none) :
    Clears reserved candidate state (.ok (some state))
  | finalized {reserved candidate state blockerId} (h : state.blocker? candidate = some blockerId)
    (hfinalized : state.finalized.contains blockerId = true) :
    Clears reserved candidate state (.ok none)
  | moved {reserved candidate state blockerId next outcome}
    (h : state.blocker? candidate = some blockerId)
    (hfinalized : state.finalized.contains blockerId = false)
    (hplace : Places reserved blockerId state (.ok next))
    (hrun : Clears reserved candidate next outcome) : Clears reserved candidate state outcome
  | stuck {reserved candidate state blockerId} (h : state.blocker? candidate = some blockerId)
    (hfinalized : state.finalized.contains blockerId = false)
    (hplace : Places reserved blockerId state (.error .placementSearchExhausted)) :
    Clears reserved candidate state (.ok none)
  | failed {reserved candidate state blockerId error}
    (h : state.blocker? candidate = some blockerId)
    (hfinalized : state.finalized.contains blockerId = false)
    (hplace : Places reserved blockerId state (.error error))
    (herror : error ≠ .placementSearchExhausted) :
    Clears reserved candidate state (.error error)

end

/-- Placing nodes one after the other ends with an outcome. -/
inductive PlacesAll : List String → CascadingPlacementState ℚ →
    Except GeometryError (CascadingPlacementState ℚ) → Prop
  | done {state} : PlacesAll [] state (.ok state)
  | failed {itemId itemIds state error} (h : Places gridSize maxRings [] itemId state (.error error)) :
    PlacesAll (itemId :: itemIds) state (.error error)
  | placed {itemId itemIds state next outcome}
    (h : Places gridSize maxRings [] itemId state (.ok next)) (hrun : PlacesAll itemIds next outcome) :
    PlacesAll (itemId :: itemIds) state outcome

end Runs

section Outcomes

variable {gridSize : ℚ} {maxRings : ℕ}

mutual

/-- Placing a node has one outcome. -/
theorem Places.unique {reserved itemId state outcome outcome'} :
    Places gridSize maxRings reserved itemId state outcome →
    Places gridSize maxRings reserved itemId state outcome' → outcome = outcome'
  | .finalized h, h' => by
    cases h' with
    | finalized => rfl
    | unknown hpending | search hpending => exact absurd (h.symm.trans hpending) (by decide)
  | .unknown h hmissing, h' => by
    cases h' with
    | finalized hfinalized => exact absurd (h.symm.trans hfinalized) (by decide)
    | unknown => rfl
    | search _ horiginal => exact absurd (hmissing.symm.trans horiginal) (by simp)
  | .search h horiginal hrun, h' => by
    cases h' with
    | finalized hfinalized => exact absurd (h.symm.trans hfinalized) (by decide)
    | unknown _ hmissing => exact absurd (hmissing.symm.trans horiginal) (by simp)
    | search _ horiginal' hrun' =>
      obtain rfl := Option.some.inj (horiginal.symm.trans horiginal')
      exact hrun.unique hrun'

theorem Tries.unique {reserved itemId state candidates outcome outcome'} :
    Tries gridSize maxRings reserved itemId state candidates outcome →
    Tries gridSize maxRings reserved itemId state candidates outcome' → outcome = outcome'
  | .exhausted, h' => by
    cases h'
    rfl
  | .invalid h, h' => by
    cases h' with
    | invalid hvalid => exact congrArg _ (Except.error.inj (h.symm.trans hvalid))
    | reserved hvalid | failed hvalid | blocked hvalid | overlapped hvalid | placed hvalid =>
      cases h.symm.trans hvalid
  | .reserved h hreserved hrun, h' => by
    cases h' with
    | invalid hvalid => cases h.symm.trans hvalid
    | reserved _ _ hrun' => exact hrun.unique hrun'
    | failed _ hfree | blocked _ hfree | overlapped _ hfree | placed _ hfree =>
      cases hreserved.symm.trans hfree
  | .failed h hreserved hclear, h' => by
    cases h' with
    | invalid hvalid => cases h.symm.trans hvalid
    | reserved _ htaken => cases hreserved.symm.trans htaken
    | failed _ _ hclear' =>
      exact congrArg _ (Except.error.inj (hclear.unique hclear'))
    | blocked _ _ hclear' | overlapped _ _ hclear' | placed _ _ hclear' =>
      cases hclear.unique hclear'
  | .blocked h hreserved hclear hrun, h' => by
    cases h' with
    | invalid hvalid => cases h.symm.trans hvalid
    | reserved _ htaken => cases hreserved.symm.trans htaken
    | blocked _ _ _ hrun' => exact hrun.unique hrun'
    | failed _ _ hclear' | overlapped _ _ hclear' | placed _ _ hclear' =>
      cases hclear.unique hclear'
  | .overlapped h hreserved hclear hoverlaps hrun, h' => by
    cases h' with
    | invalid hvalid => cases h.symm.trans hvalid
    | reserved _ htaken => cases hreserved.symm.trans htaken
    | overlapped _ _ _ _ hrun' => exact hrun.unique hrun'
    | placed _ _ hclear' hfree =>
      obtain rfl := Option.some.inj (Except.ok.inj (hclear.unique hclear'))
      cases hoverlaps.symm.trans hfree
    | failed _ _ hclear' | blocked _ _ hclear' =>
      cases hclear.unique hclear'
  | .placed h hreserved hclear hfree, h' => by
    cases h' with
    | invalid hvalid => cases h.symm.trans hvalid
    | reserved _ htaken => cases hreserved.symm.trans htaken
    | overlapped _ _ hclear' hoverlaps =>
      obtain rfl := Option.some.inj (Except.ok.inj (hclear.unique hclear'))
      cases hoverlaps.symm.trans hfree
    | placed _ _ hclear' =>
      obtain rfl := Option.some.inj (Except.ok.inj (hclear.unique hclear'))
      rfl
    | failed _ _ hclear' | blocked _ _ hclear' =>
      cases hclear.unique hclear'

theorem Clears.unique {reserved candidate state outcome outcome'} :
    Clears gridSize maxRings reserved candidate state outcome →
    Clears gridSize maxRings reserved candidate state outcome' → outcome = outcome'
  | .clear h, h' => by
    cases h' with
    | clear => rfl
    | finalized hblocker | moved hblocker | stuck hblocker | failed hblocker =>
      cases h.symm.trans hblocker
  | .finalized h hfinalized, h' => by
    cases h' with
    | clear hclear => cases h.symm.trans hclear
    | finalized => rfl
    | moved hblocker hpending | stuck hblocker hpending | failed hblocker hpending =>
      obtain rfl := Option.some.inj (h.symm.trans hblocker)
      cases hfinalized.symm.trans hpending
  | .moved h hpending hplace hrun, h' => by
    cases h' with
    | clear hclear => cases h.symm.trans hclear
    | finalized hblocker hfinalized =>
      obtain rfl := Option.some.inj (h.symm.trans hblocker)
      cases hpending.symm.trans hfinalized
    | moved hblocker _ hplace' hrun' =>
      obtain rfl := Option.some.inj (h.symm.trans hblocker)
      obtain rfl := Except.ok.inj (hplace.unique hplace')
      exact hrun.unique hrun'
    | stuck hblocker _ hplace' | failed hblocker _ hplace' =>
      obtain rfl := Option.some.inj (h.symm.trans hblocker)
      cases hplace.unique hplace'
  | .stuck h hpending hplace, h' => by
    cases h' with
    | clear hclear => cases h.symm.trans hclear
    | finalized => rfl
    | stuck => rfl
    | moved hblocker _ hplace' =>
      obtain rfl := Option.some.inj (h.symm.trans hblocker)
      cases hplace.unique hplace'
    | failed hblocker _ hplace' herror =>
      obtain rfl := Option.some.inj (h.symm.trans hblocker)
      exact absurd (Except.error.inj (hplace.unique hplace')).symm herror
  | .failed h hpending hplace herror, h' => by
    cases h' with
    | clear hclear => cases h.symm.trans hclear
    | finalized hblocker hfinalized =>
      obtain rfl := Option.some.inj (h.symm.trans hblocker)
      cases hpending.symm.trans hfinalized
    | moved hblocker _ hplace' =>
      obtain rfl := Option.some.inj (h.symm.trans hblocker)
      cases hplace.unique hplace'
    | stuck hblocker _ hplace' =>
      obtain rfl := Option.some.inj (h.symm.trans hblocker)
      exact absurd (Except.error.inj (hplace.unique hplace')) herror
    | failed hblocker _ hplace' =>
      obtain rfl := Option.some.inj (h.symm.trans hblocker)
      exact congrArg _ (Except.error.inj (hplace.unique hplace'))

end

/-- Placing nodes one after the other has one outcome. -/
theorem PlacesAll.unique {itemIds : List String} {state outcome outcome'}
    (h : PlacesAll gridSize maxRings itemIds state outcome)
    (h' : PlacesAll gridSize maxRings itemIds state outcome') : outcome = outcome' := by
  induction h with
  | done =>
    cases h'
    rfl
  | failed hplace =>
    cases h' with
    | failed hplace' => exact congrArg _ (Except.error.inj (hplace.unique hplace'))
    | placed hplace' => cases hplace.unique hplace'
  | placed hplace _ ih =>
    cases h' with
    | failed hplace' => cases hplace.unique hplace'
    | placed hplace' hrun' =>
      obtain rfl := Except.ok.inj (hplace.unique hplace')
      exact ih hrun'

end Outcomes

/-! ## What a move changes -/

namespace CascadingPlacementState

variable {state next final : CascadingPlacementState ℚ} {itemId : String} {candidate : Rect ℚ}

/-- The nodes that are on the canvas and not yet placed. -/
def pending (state : CascadingPlacementState ℚ) : Finset String :=
  state.bounds.keys.toFinset.filter fun id => state.finalized.contains id = false

theorem mem_pending {id : String} :
    id ∈ state.pending ↔ id ∈ state.bounds ∧ state.finalized.contains id = false := by
  rw [pending, Finset.mem_filter, List.mem_toFinset, Std.ExtTreeMap.mem_keys]

theorem card_pending_le : state.pending.card ≤ state.bounds.size := by
  rw [← Std.ExtTreeMap.length_keys]
  exact (Finset.card_filter_le _ _).trans (List.toFinset_card_le _)

/-- Taking a node off the canvas leaves one node less to place. -/
theorem card_pending_erase (hmem : itemId ∈ state.bounds)
    (hpending : state.finalized.contains itemId = false) :
    ({ state with bounds := state.bounds.erase itemId } : CascadingPlacementState ℚ).pending.card <
      state.pending.card := by
  apply Finset.card_lt_card
  rw [Finset.ssubset_iff_of_subset]
  · refine ⟨itemId, mem_pending.mpr ⟨hmem, hpending⟩, ?_⟩
    simp [mem_pending]
  · intro id hid
    obtain ⟨hid, hfinalized⟩ := mem_pending.mp hid
    exact mem_pending.mpr ⟨Std.ExtTreeMap.mem_of_mem_erase hid, hfinalized⟩

/-- Nodes keep their sizes, none comes or goes, and a node that is placed stays placed. -/
structure Progress (state next : CascadingPlacementState ℚ) : Prop where
  sizes : ∀ id : String, (next.bounds[id]?).map (fun rect : Rect ℚ => (rect.width, rect.height)) =
    (state.bounds[id]?).map fun rect => (rect.width, rect.height)
  finalized : ∀ id : String, state.finalized.contains id = true → next.finalized.contains id = true

namespace Progress

theorem refl (state : CascadingPlacementState ℚ) : Progress state state :=
  ⟨fun _ => rfl, fun _ h => h⟩

theorem trans (h : Progress state next) (h' : Progress next final) : Progress state final :=
  ⟨fun id => (h'.sizes id).trans (h.sizes id), fun id hid => h'.finalized id (h.finalized id hid)⟩

theorem mem_iff (h : Progress state next) (id : String) : id ∈ next.bounds ↔ id ∈ state.bounds := by
  have hsome := congrArg Option.isSome (h.sizes id)
  rw [Option.isSome_map, Option.isSome_map] at hsome
  rw [Std.ExtTreeMap.mem_iff_isSome_getElem?, Std.ExtTreeMap.mem_iff_isSome_getElem?, hsome]

theorem pending_subset (h : Progress state next) : next.pending ⊆ state.pending := by
  intro id hid
  obtain ⟨hmem, hpending⟩ := mem_pending.mp hid
  refine mem_pending.mpr ⟨(h.mem_iff id).mp hmem, ?_⟩
  rw [← Bool.not_eq_true]
  intro hfinalized
  rw [h.finalized id hfinalized] at hpending
  cases hpending

/-- A move that places a node leaves fewer nodes to place. -/
theorem card_pending_lt (h : Progress state next) (hmem : itemId ∈ state.bounds)
    (hpending : state.finalized.contains itemId = false)
    (hplaced : next.finalized.contains itemId = true) :
    next.pending.card < state.pending.card := by
  apply Finset.card_lt_card
  rw [Finset.ssubset_iff_of_subset h.pending_subset]
  refine ⟨itemId, mem_pending.mpr ⟨hmem, hpending⟩, ?_⟩
  rw [mem_pending, hplaced]
  simp

/-- Putting a node back on the canvas in its size ends its move. -/
theorem place {original : Rect ℚ} (horiginal : state.bounds[itemId]? = some original)
    (h : Progress { state with bounds := state.bounds.erase itemId } next)
    (hsize : (candidate.width, candidate.height) = (original.width, original.height)) :
    Progress state { bounds := next.bounds.insert itemId candidate
                     finalized := next.finalized.insert itemId } := by
  constructor
  · intro id
    rw [getElem?_insert_ite]
    split
    · rename_i hid
      rw [hid, horiginal, Option.map_some, Option.map_some, hsize]
    · rename_i hid
      rw [h.sizes id, getElem?_erase_ite, if_neg hid]
  · intro id hid
    rw [Std.ExtTreeSet.contains_insert, h.finalized id hid, Bool.or_true]

end Progress

/-- A node in the way of a candidate is on the canvas. -/
theorem blocker?_eq_some {blockerId : String} (h : state.blocker? candidate = some blockerId) :
    blockerId ∈ state.bounds := by
  obtain ⟨⟨id, rect⟩, hmin, rfl⟩ := Option.map_eq_some_iff.mp h
  have hentry := (List.mem_filter.mp (mem_of_minBy? hmin)).1
  rw [Std.ExtTreeMap.mem_toList_iff_getElem?_eq_some] at hentry
  rw [Std.ExtTreeMap.mem_iff_isSome_getElem?, hentry]
  rfl

/-- Nothing is in the way of a candidate when there is no first node. -/
theorem blocker?_eq_none (h : state.blocker? candidate = none) {id : String} {rect : Rect ℚ}
    (hrect : state.bounds[id]? = some rect) : rect.overlaps candidate = false := by
  rw [blocker?, Option.map_eq_none_iff, minBy?_eq_none, List.filter_eq_nil_iff] at h
  rw [← Bool.not_eq_true]
  exact h (id, rect) (Std.ExtTreeMap.mem_toList_iff_getElem?_eq_some.mpr hrect)

/-! ## Moving the nodes in the way -/

section Clearing

variable {place : String → CascadingPlacementState ℚ →
  Except GeometryError (CascadingPlacementState ℚ)}

/-- A placement that succeeds places its node, and keeps the others and their sizes. -/
def Advances (place : String → CascadingPlacementState ℚ →
    Except GeometryError (CascadingPlacementState ℚ)) : Prop :=
  ∀ itemId state next, place itemId state = .ok next →
    Progress state next ∧ next.finalized.contains itemId = true

/-- What every placement keeps is kept when the way is cleared, and then nothing is in it. -/
theorem clearBlockers_eq_ok {P : CascadingPlacementState ℚ → Prop}
    (hplace : ∀ itemId state next, place itemId state = .ok next → P state → P next) {fuel : ℕ}
    {cleared : CascadingPlacementState ℚ}
    (h : clearBlockers place candidate fuel state = .ok (some cleared)) (hstate : P state) :
    P cleared ∧ cleared.blocker? candidate = none := by
  induction fuel generalizing state with
  | zero => cases h
  | succ fuel ih =>
    rw [clearBlockers] at h
    cases hblocker : state.blocker? candidate with
    | none =>
      simp only [hblocker, Except.ok.injEq, Option.some.injEq] at h
      subst h
      exact ⟨hstate, hblocker⟩
    | some blockerId =>
      simp only [hblocker] at h
      split at h
      · cases h
      cases hmove : place blockerId state with
      | ok next =>
        rw [hmove] at h
        exact ih h (hplace _ _ _ hmove hstate)
      | error error =>
        rw [hmove] at h
        cases error <;> cases h

end Clearing

section Trying

variable {place : List (Rect ℚ) → String → CascadingPlacementState ℚ →
  Except GeometryError (CascadingPlacementState ℚ)}

/-- The candidate that is taken is valid and nothing is in its way. -/
theorem tryCandidates_eq_ok {reserved candidates : List (Rect ℚ)}
    (h : tryCandidates place itemId reserved state candidates = .ok next) :
    ∃ candidate ∈ candidates, candidate.validate = .ok () ∧
      ∃ cleared, clearBlockers (place (reserved ++ [candidate])) candidate (state.bounds.size + 1)
          state = .ok (some cleared) ∧
        next = { bounds := cleared.bounds.insert itemId candidate
                 finalized := cleared.finalized.insert itemId } := by
  induction candidates with
  | nil => cases h
  | cons candidate candidates ih =>
    rw [tryCandidates] at h
    obtain ⟨_, hvalid, h⟩ := bind_eq_ok.mp h
    -- a candidate that is not taken leaves the search to the others
    have hlater (h : tryCandidates place itemId reserved state candidates = .ok next) :
        ∃ other ∈ candidate :: candidates, other.validate = .ok () ∧
          ∃ cleared, clearBlockers (place (reserved ++ [other])) other (state.bounds.size + 1)
              state = .ok (some cleared) ∧
            next = { bounds := cleared.bounds.insert itemId other
                     finalized := cleared.finalized.insert itemId } := by
      obtain ⟨other, hother, hrest⟩ := ih h
      exact ⟨other, List.mem_cons_of_mem _ hother, hrest⟩
    split at h
    · exact hlater h
    obtain ⟨_ | cleared, hclear, h⟩ := bind_eq_ok.mp h
    · exact hlater h
    dsimp only at h
    split at h
    · exact hlater h
    · exact ⟨candidate, List.mem_cons_self, hvalid, cleared, hclear, (pure_eq_ok.mp h).symm⟩

end Trying

/-! ## Placing a node -/

section Placing

variable {gridSize : ℚ} {maxRings : ℕ}

variable {bound fuel : ℕ}

/-- A node that is placed was placed before, or it takes one of its candidates. -/
theorem placeCascadingItem_eq_ok {reserved : List (Rect ℚ)}
    (h : placeCascadingItem gridSize maxRings (fuel + 1) reserved itemId state = .ok next) :
    (state.finalized.contains itemId = true ∧ next = state) ∨
      state.finalized.contains itemId = false ∧
        ∃ original, state.bounds[itemId]? = some original ∧
          ∃ candidate ∈ cascadeCandidates gridSize maxRings original, candidate.validate = .ok () ∧
            ∃ cleared, clearBlockers
                (placeCascadingItem gridSize maxRings fuel (reserved ++ [candidate])) candidate
                ((state.bounds.erase itemId).size + 1)
                { state with bounds := state.bounds.erase itemId } = .ok (some cleared) ∧
              next = { bounds := cleared.bounds.insert itemId candidate
                       finalized := cleared.finalized.insert itemId } := by
  rw [placeCascadingItem] at h
  split at h
  · rename_i hfinalized
    exact .inl ⟨hfinalized, (Except.ok.inj h).symm⟩
  rename_i hpending
  split at h
  · cases h
  rename_i original horiginal
  exact .inr ⟨Bool.eq_false_iff.mpr hpending, original, horiginal, tryCandidates_eq_ok h⟩

/-- The candidates of a node have its size. -/
theorem size_of_mem_cascadeCandidates {original : Rect ℚ}
    (h : candidate ∈ cascadeCandidates gridSize maxRings original) :
    (candidate.width, candidate.height) = (original.width, original.height) := by
  obtain ⟨offset, -, rfl⟩ := List.mem_map.mp h
  rfl

/-- Placing a node keeps the others and their sizes. -/
theorem placeCascadingItem_advances (fuel : ℕ) (reserved : List (Rect ℚ)) :
    Advances (placeCascadingItem gridSize maxRings fuel reserved) := by
  induction fuel generalizing reserved with
  | zero =>
    intro itemId state next h
    cases h
  | succ fuel ih =>
    intro itemId state next h
    obtain ⟨hfinalized, rfl⟩ | ⟨-, original, horiginal, candidate, hcandidate, -, cleared, hclear, rfl⟩ :=
      placeCascadingItem_eq_ok h
    · exact ⟨.refl _, hfinalized⟩
    · have hstep : ∀ blockerId state' next', placeCascadingItem gridSize maxRings fuel
          (reserved ++ [candidate]) blockerId state' = .ok next' →
          Progress { state with bounds := state.bounds.erase itemId } state' →
          Progress { state with bounds := state.bounds.erase itemId } next' :=
        fun _ _ _ hplace hstate => hstate.trans (ih _ _ _ _ hplace).1
      have hcleared := (clearBlockers_eq_ok hstep hclear (.refl _)).1
      refine ⟨hcleared.place horiginal (size_of_mem_cascadeCandidates hcandidate), ?_⟩
      exact Std.ExtTreeSet.contains_insert_self

/-! ## The cascade ends -/

/-- Clearing the way ends when every placement that it starts does. -/
theorem clears_clearBlockers {place : String → CascadingPlacementState ℚ →
      Except GeometryError (CascadingPlacementState ℚ)}
    {reserved : List (Rect ℚ)} (hadvances : Advances place)
    (hplace : ∀ itemId state, state.pending.card < bound →
      Places gridSize maxRings reserved itemId state (place itemId state))
    (hbound : state.pending.card < bound) (hfuel : state.pending.card < fuel) :
    Clears gridSize maxRings reserved candidate state (clearBlockers place candidate fuel state) := by
  induction fuel generalizing state with
  | zero => exact absurd hfuel (Nat.not_lt_zero _)
  | succ fuel ih =>
    rw [clearBlockers]
    cases hblocker : state.blocker? candidate with
    | none => exact .clear hblocker
    | some blockerId =>
      dsimp only
      split
      · rename_i hfinalized
        exact .finalized hblocker hfinalized
      rename_i hpending
      rw [Bool.not_eq_true] at hpending
      have hrun := hplace blockerId state hbound
      cases hmove : place blockerId state with
      | ok next =>
        rw [hmove] at hrun
        -- the blocker is placed, so less is left to place
        obtain ⟨hprogress, hplaced⟩ := hadvances _ _ _ hmove
        have hless := hprogress.card_pending_lt (blocker?_eq_some hblocker) hpending hplaced
        exact .moved hblocker hpending hrun (ih (hless.trans hbound) (by omega))
      | error error =>
        rw [hmove] at hrun
        cases error
        case placementSearchExhausted => exact .stuck hblocker hpending hrun
        all_goals exact .failed hblocker hpending hrun (by simp)

/-- Trying candidates ends when every placement that it starts does. -/
theorem tries_tryCandidates {place : List (Rect ℚ) → String → CascadingPlacementState ℚ →
      Except GeometryError (CascadingPlacementState ℚ)}
    {reserved candidates : List (Rect ℚ)}
    (hadvances : ∀ reserved, Advances (place reserved))
    (hplace : ∀ reserved itemId state, state.pending.card < bound →
      Places gridSize maxRings reserved itemId state (place reserved itemId state))
    (hbound : state.pending.card < bound) :
    Tries gridSize maxRings reserved itemId state candidates
      (tryCandidates place itemId reserved state candidates) := by
  induction candidates with
  | nil => exact .exhausted
  | cons candidate candidates ih =>
    rw [tryCandidates]
    cases hvalid : candidate.validate with
    | error error => exact .invalid hvalid
    | ok u =>
      rw [bind_ok]
      split
      · rename_i hreserved
        exact .reserved hvalid hreserved ih
      rename_i hreserved
      rw [Bool.not_eq_true] at hreserved
      have hclear : Clears gridSize maxRings (reserved ++ [candidate]) candidate state
          (clearBlockers (place (reserved ++ [candidate])) candidate (state.bounds.size + 1) state) :=
        clears_clearBlockers (hadvances _) (hplace _) hbound (Nat.lt_succ_of_le card_pending_le)
      cases hcleared : clearBlockers (place (reserved ++ [candidate])) candidate
          (state.bounds.size + 1) state with
      | error error =>
        rw [hcleared] at hclear
        exact .failed hvalid hreserved hclear
      | ok answer =>
        rw [hcleared] at hclear
        rw [bind_ok]
        cases answer with
        | none => exact .blocked hvalid hreserved hclear ih
        | some cleared =>
          dsimp only
          split
          · rename_i hoverlaps
            exact .overlapped hvalid hreserved hclear hoverlaps ih
          · rename_i hoverlaps
            exact .placed hvalid hreserved hclear (Bool.eq_false_iff.mpr hoverlaps)

/-- **Placing a node ends.** A fuel above the number of nodes that are left to place is enough. -/
theorem places_placeCascadingItem (reserved : List (Rect ℚ)) (itemId : String)
    (hfuel : state.pending.card < fuel) :
    Places gridSize maxRings reserved itemId state
      (placeCascadingItem gridSize maxRings fuel reserved itemId state) := by
  induction fuel generalizing reserved itemId state with
  | zero => exact absurd hfuel (Nat.not_lt_zero _)
  | succ fuel ih =>
    rw [placeCascadingItem]
    split
    · rename_i hfinalized
      exact .finalized hfinalized
    rename_i hpending
    rw [Bool.not_eq_true] at hpending
    cases horiginal : state.bounds[itemId]? with
    | none => exact .unknown hpending horiginal
    | some original =>
      have hmem : itemId ∈ state.bounds := by
        rw [Std.ExtTreeMap.mem_iff_isSome_getElem?, horiginal]
        rfl
      have hless := card_pending_erase hmem hpending
      exact .search hpending horiginal (tries_tryCandidates (placeCascadingItem_advances fuel)
        (fun reserved itemId state h => ih reserved itemId h) (by omega))

/-- Placing the nodes in turn ends, with the outcome of the loop of the model. -/
theorem placesAll_foldlM {entries : List (String × Rect ℚ)} (hfuel : state.pending.card < fuel) :
    PlacesAll gridSize maxRings (entries.map (·.1)) state
      (entries.foldlM
        (fun state entry => placeCascadingItem gridSize maxRings fuel [] entry.1 state) state) := by
  induction entries generalizing state with
  | nil => exact .done
  | cons entry entries ih =>
    have hrun : Places gridSize maxRings [] entry.1 state
        (placeCascadingItem gridSize maxRings fuel [] entry.1 state) :=
      places_placeCascadingItem [] entry.1 hfuel
    rw [List.map_cons, List.foldlM_cons]
    cases hplace : placeCascadingItem gridSize maxRings fuel [] entry.1 state with
    | error error =>
      rw [hplace] at hrun
      exact .failed hrun
    | ok next =>
      rw [hplace] at hrun
      have hprogress := (placeCascadingItem_advances fuel [] _ _ _ hplace).1
      exact .placed hrun (ih ((Finset.card_le_card hprogress.pending_subset).trans_lt hfuel))

end Placing

/-! ## The nodes that have been placed -/

/-- A rectangle on the grid, within the limits of the canvas. -/
structure OnGrid (gridSize : ℚ) (rect : Rect ℚ) : Prop where
  x : ∃ n : ℤ, rect.x = n * gridSize
  y : ∃ n : ℤ, rect.y = n * gridSize
  valid : rect.validate = .ok ()

/-- The nodes that have been placed are on the grid and apart from each other. -/
structure Aligned (gridSize : ℚ) (state : CascadingPlacementState ℚ) : Prop where
  onGrid : ∀ (id : String) (rect : Rect ℚ), state.bounds[id]? = some rect →
    state.finalized.contains id = true → OnGrid gridSize rect
  apart : ∀ (id other : String) (rect rect' : Rect ℚ), state.bounds[id]? = some rect →
    state.bounds[other]? = some rect' → state.finalized.contains id = true →
    state.finalized.contains other = true → id ≠ other → rect.overlaps rect' = false

section Alignment

variable {gridSize : ℚ} {maxRings : ℕ}

/-- The candidates of a node are at whole steps of the grid. -/
theorem onGrid_of_mem_cascadeCandidates {original : Rect ℚ}
    (h : candidate ∈ cascadeCandidates gridSize maxRings original)
    (hvalid : candidate.validate = .ok ()) : OnGrid gridSize candidate := by
  have hround : ∀ value : ℚ, ∃ n : ℤ, Scalar.round value = (n : ℚ) := by
    intro value
    change ∃ n : ℤ, Scalar.roundRat value = n
    rw [Scalar.roundRat]
    split
    · exact ⟨_, rfl⟩
    · exact ⟨_, rfl⟩
  obtain ⟨offset, -, rfl⟩ := List.mem_map.mp h
  obtain ⟨n, hn⟩ := hround (original.x / gridSize)
  obtain ⟨m, hm⟩ := hround (original.y / gridSize)
  have hofInt : ∀ k : ℕ, (Scalar.ofInt (k : ℤ) : ℚ) = (k : ℤ) := fun _ => rfl
  refine ⟨⟨n + offset.1, ?_⟩, ⟨m + offset.2, ?_⟩, hvalid⟩
  · simp only [translated, snapToGrid, hn, hofInt]
    push_cast
    ring
  · simp only [translated, snapToGrid, hm, hofInt]
    push_cast
    ring

/-- Taking a node off the canvas leaves the others where they are. -/
theorem Aligned.erase (h : Aligned gridSize state) :
    Aligned gridSize { state with bounds := state.bounds.erase itemId } := by
  have hkept : ∀ {id : String} {rect : Rect ℚ}, (state.bounds.erase itemId)[id]? = some rect →
      state.bounds[id]? = some rect := by
    intro id rect hrect
    rw [getElem?_erase_ite] at hrect
    split at hrect
    · cases hrect
    · exact hrect
  exact ⟨fun id rect hrect => h.onGrid id rect (hkept hrect),
    fun id other rect rect' hrect hrect' => h.apart id other rect rect' (hkept hrect) (hkept hrect')⟩

/-- A node that is put where nothing is in its way is apart from the others. -/
theorem Aligned.place (h : Aligned gridSize state) (hgrid : OnGrid gridSize candidate)
    (hfree : state.blocker? candidate = none) :
    Aligned gridSize { bounds := state.bounds.insert itemId candidate
                       finalized := state.finalized.insert itemId } := by
  have hfinalized : ∀ {id : String}, id ≠ itemId →
      (state.finalized.insert itemId).contains id = true → state.finalized.contains id = true := by
    intro id hne hid
    rw [Std.ExtTreeSet.contains_insert, Bool.or_eq_true, beq_iff_eq,
      Std.LawfulEqOrd.compare_eq_iff_eq] at hid
    exact hid.resolve_left (Ne.symm hne)
  constructor
  · intro id rect hrect hid
    rw [getElem?_insert_ite] at hrect
    split at hrect
    · obtain rfl := Option.some.inj hrect
      exact hgrid
    · rename_i hne
      exact h.onGrid id rect hrect (hfinalized hne hid)
  · intro id other rect rect' hrect hrect' hid hother hne
    rw [getElem?_insert_ite] at hrect hrect'
    split at hrect
    · obtain rfl := Option.some.inj hrect
      rename_i hitem
      rw [if_neg fun hother => hne (hitem.trans hother.symm)] at hrect'
      rw [Rect.overlaps_comm]
      exact blocker?_eq_none hfree hrect'
    · rename_i hitem
      split at hrect'
      · obtain rfl := Option.some.inj hrect'
        exact blocker?_eq_none hfree hrect
      · rename_i hitem'
        exact h.apart id other rect rect' hrect hrect' (hfinalized hitem hid)
          (hfinalized hitem' hother) hne

/-- Placing a node keeps the placed nodes on the grid and apart. -/
theorem Aligned.placeCascadingItem {fuel : ℕ} {reserved : List (Rect ℚ)}
    (hstate : Aligned gridSize state)
    (h : HomelabInventory.placeCascadingItem gridSize maxRings fuel reserved itemId state =
      .ok next) : Aligned gridSize next := by
  induction fuel generalizing reserved itemId state next with
  | zero => cases h
  | succ fuel ih =>
    obtain ⟨-, rfl⟩ |
        ⟨-, original, -, candidate, hcandidate, hvalid, cleared, hclear, rfl⟩ :=
      placeCascadingItem_eq_ok h
    · exact hstate
    · have hstep : ∀ blockerId state' next', HomelabInventory.placeCascadingItem gridSize maxRings fuel
          (reserved ++ [candidate]) blockerId state' = .ok next' →
          Aligned gridSize state' → Aligned gridSize next' :=
        fun _ _ _ hplace hstate => ih hstate hplace
      obtain ⟨hcleared, hfree⟩ := clearBlockers_eq_ok hstep hclear hstate.erase
      exact hcleared.place (onGrid_of_mem_cascadeCandidates hcandidate hvalid) hfree

/-- Placing the nodes in turn places all of them. -/
theorem foldlM_placeCascadingItem {fuel : ℕ} {entries : List (String × Rect ℚ)}
    (h : entries.foldlM (fun state entry =>
      HomelabInventory.placeCascadingItem gridSize maxRings fuel [] entry.1 state) state = .ok final)
    (hstate : Aligned gridSize state) :
    Progress state final ∧ Aligned gridSize final ∧
      ∀ entry ∈ entries, final.finalized.contains entry.1 = true := by
  induction entries generalizing state with
  | nil =>
    obtain rfl := pure_eq_ok.mp h
    exact ⟨.refl _, hstate, by simp⟩
  | cons entry entries ih =>
    obtain ⟨next, hplace, hrest⟩ := foldlM_cons_eq_ok.mp h
    obtain ⟨hprogress, hplaced⟩ := placeCascadingItem_advances fuel [] _ _ _ hplace
    obtain ⟨hlater, haligned, hall⟩ := ih hrest (hstate.placeCascadingItem hplace)
    refine ⟨hprogress.trans hlater, haligned, ?_⟩
    intro other hother
    obtain rfl | hother := List.mem_cons.mp hother
    · exact hlater.finalized _ hplaced
    · exact hall other hother

end Alignment

end CascadingPlacementState

/-! ## Aligning nodes -/

section Nodes

open CascadingPlacementState List Option

variable {nodes result : List (GeometryNode ℚ)} {gridSize : ℚ} {maxRings : ℕ}

/-- The nodes in the order in which they are placed. -/
def alignmentEntries (nodes : List (GeometryNode ℚ)) : List (String × Rect ℚ) :=
  sortBy comparePosition (nodes.map fun node => (node.itemId, node.bounds))

/-- The state in which no node is placed. -/
def alignmentStart (nodes : List (GeometryNode ℚ)) : CascadingPlacementState ℚ where
  bounds := collectEntries (nodes.map fun node => (node.itemId, node.bounds))

/-- The nodes with their rectangles of a state. -/
def alignedNodes (nodes : List (GeometryNode ℚ)) (state : CascadingPlacementState ℚ) :
    List (GeometryNode ℚ) :=
  (alignmentEntries nodes).map fun entry => ⟨entry.1, state.bounds[entry.1]?.getD entry.2⟩

/-- Valid nodes with distinct identifiers are collected. -/
theorem collectBounds_eq_ok (hvalid : ∀ node ∈ nodes, node.validate = .ok ())
    (hids : (nodes.map (·.itemId)).Nodup) {bounds : BTreeMap String (Rect ℚ)}
    (hfresh : ∀ node ∈ nodes, node.itemId ∉ bounds) :
    collectBounds bounds nodes =
      .ok (insertEntries bounds (nodes.map fun node => (node.itemId, node.bounds))) := by
  induction nodes generalizing bounds with
  | nil => rfl
  | cons node nodes ih =>
    obtain ⟨hnode, hvalid⟩ := forall_mem_cons.mp hvalid
    obtain ⟨hnew, hfresh⟩ := forall_mem_cons.mp hfresh
    rw [map_cons, nodup_cons] at hids
    rw [collectBounds, hnode, bind_ok, if_neg (by simpa using hnew)]
    refine (ih hvalid hids.2 ?_)
    intro other hother
    rw [Std.ExtTreeMap.mem_insert, Std.LawfulEqOrd.compare_eq_iff_eq, not_or]
    refine ⟨fun hsame => hids.1 ?_, hfresh other hother⟩
    rw [hsame]
    exact mem_map_of_mem hother

/-- Aligning valid nodes with distinct identifiers is placing them in turn. -/
theorem snapNodesToGrid_eq (hvalid : ∀ node ∈ nodes, node.validate = .ok ())
    (hids : (nodes.map (·.itemId)).Nodup) (hrings : 0 < maxRings) :
    snapNodesToGrid nodes gridSize maxRings = (validateStep gridSize >>= fun _ =>
      (alignmentEntries nodes).foldlM (fun state entry =>
        placeCascadingItem gridSize maxRings (nodes.length + 1) [] entry.1 state)
        (alignmentStart nodes) >>= fun state => .ok (alignedNodes nodes state)) := by
  have hbounds : collectBounds ∅ nodes = .ok (alignmentStart nodes).bounds :=
    collectBounds_eq_ok hvalid hids (by simp)
  have hring : ¬(maxRings == 0) = true := by simp [hrings.ne']
  rw [snapNodesToGrid, if_neg hring, hbounds]
  rfl

/-- A node of the start is one of the nodes. -/
theorem alignmentStart_bounds (hids : (nodes.map (·.itemId)).Nodup) {id : String} {rect : Rect ℚ} :
    (alignmentStart nodes).bounds[id]? = some rect ↔ (⟨id, rect⟩ : GeometryNode ℚ) ∈ nodes := by
  have hentry : ∀ {id : String} {rect : Rect ℚ},
      (id, rect) ∈ nodes.map (fun node => (node.itemId, node.bounds)) ↔
        (⟨id, rect⟩ : GeometryNode ℚ) ∈ nodes := by
    intro id rect
    rw [List.mem_map]
    constructor
    · rintro ⟨node, hnode, hsame⟩
      obtain ⟨rfl, rfl⟩ := Prod.mk.inj hsame
      exact hnode
    · exact fun hnode => ⟨_, hnode, rfl⟩
  rw [alignmentStart, getElem?_collectEntries, hentry]
  intro key first second hfirst hsecond
  have hsame := inj_on_of_nodup_map hids (hentry.mp hfirst) (hentry.mp hsecond) rfl
  exact congrArg GeometryNode.bounds hsame

/-- What aligning nodes is for: every node once and in its size, on the grid, within the limits
of the canvas and apart from the others. -/
structure AlignedResult (nodes : List (GeometryNode ℚ)) (gridSize : ℚ)
    (result : List (GeometryNode ℚ)) : Prop where
  ids : (result.map (·.itemId)).Nodup
  complete : ∀ node ∈ nodes, ∃ placed ∈ result, placed.itemId = node.itemId ∧
    placed.bounds.width = node.bounds.width ∧ placed.bounds.height = node.bounds.height
  known : ∀ placed ∈ result, ∃ node ∈ nodes, node.itemId = placed.itemId
  onGrid : ∀ placed ∈ result, (∃ n : ℤ, placed.bounds.x = n * gridSize) ∧
    (∃ n : ℤ, placed.bounds.y = n * gridSize) ∧ placed.bounds.validate = .ok ()
  apart : result.Pairwise fun first second => first.bounds.overlaps second.bounds = false

/-- A state reached from the start in which every node is placed aligns the nodes. -/
theorem alignedResult (hids : (nodes.map (·.itemId)).Nodup) {final : CascadingPlacementState ℚ}
    (hprogress : Progress (alignmentStart nodes) final) (haligned : Aligned gridSize final)
    (hplaced : ∀ entry ∈ alignmentEntries nodes, final.finalized.contains entry.1 = true) :
    AlignedResult nodes gridSize (alignedNodes nodes final) := by
  have hentries : ∀ {entry : String × Rect ℚ}, entry ∈ alignmentEntries nodes ↔
      (⟨entry.1, entry.2⟩ : GeometryNode ℚ) ∈ nodes := by
    intro entry
    rw [alignmentEntries, mem_sortBy, List.mem_map]
    exact ⟨by rintro ⟨node, hnode, rfl⟩; exact hnode, fun hnode => ⟨_, hnode, rfl⟩⟩
  -- every entry has a rectangle of its size at the end
  have hrect : ∀ entry ∈ alignmentEntries nodes, ∃ rect : Rect ℚ, final.bounds[entry.1]? = some rect ∧
      rect.width = entry.2.width ∧ rect.height = entry.2.height := by
    intro entry hentry
    have hsize := hprogress.sizes entry.1
    rw [(alignmentStart_bounds hids).mpr (hentries.mp hentry), map_some,
      map_eq_some_iff] at hsize
    obtain ⟨rect, hrect, hsize⟩ := hsize
    exact ⟨rect, hrect, Prod.mk.inj hsize⟩
  have hget : ∀ placed ∈ alignedNodes nodes final, ∃ entry ∈ alignmentEntries nodes,
      placed.itemId = entry.1 ∧ final.bounds[placed.itemId]? = some placed.bounds ∧
        placed.bounds.width = entry.2.width ∧ placed.bounds.height = entry.2.height := by
    intro placed h
    obtain ⟨entry, hentry, rfl⟩ := mem_map.mp h
    obtain ⟨rect, hrect, hsize⟩ := hrect entry hentry
    refine ⟨entry, hentry, rfl, ?_⟩
    simp only [hrect, getD_some]
    exact ⟨trivial, hsize⟩
  have hnodup : ((alignedNodes nodes final).map (·.itemId)).Nodup := by
    have hperm := (perm_sortBy comparePosition
      (nodes.map fun node => (node.itemId, node.bounds))).map Prod.fst
    rw [alignedNodes, List.map_map]
    refine hperm.nodup_iff.mpr ?_
    rw [List.map_map]
    exact hids
  refine ⟨hnodup, ?_, ?_, ?_, ?_⟩
  · intro node hnode
    have hentry : (node.itemId, node.bounds) ∈ alignmentEntries nodes := hentries.mpr hnode
    obtain ⟨rect, hrect, hsize⟩ := hrect _ hentry
    refine ⟨_, mem_map_of_mem hentry, rfl, ?_⟩
    simp only [hrect, getD_some]
    exact hsize
  · intro placed h
    obtain ⟨entry, hentry, hid, -⟩ := hget placed h
    exact ⟨_, hentries.mp hentry, hid.symm⟩
  · intro placed h
    obtain ⟨entry, hentry, hid, hbounds, -⟩ := hget placed h
    have hgrid := haligned.onGrid _ _ hbounds (hid ▸ hplaced entry hentry)
    exact ⟨hgrid.x, hgrid.y, hgrid.valid⟩
  · rw [List.Nodup, pairwise_map] at hnodup
    refine hnodup.imp_of_mem ?_
    intro first second hfirst hsecond hne
    obtain ⟨entry, hentry, hid, hbounds, -⟩ := hget first hfirst
    obtain ⟨entry', hentry', hid', hbounds', -⟩ := hget second hsecond
    exact haligned.apart _ _ _ _ hbounds hbounds' (hid ▸ hplaced entry hentry)
      (hid' ▸ hplaced entry' hentry') hne

/-- No node is placed at the start. -/
theorem aligned_alignmentStart (nodes : List (GeometryNode ℚ)) :
    Aligned gridSize (alignmentStart nodes) := by
  have hnone : ∀ id : String, (alignmentStart nodes).finalized.contains id ≠ true := by
    intro id
    simp [alignmentStart]
  exact ⟨fun id _ _ h => absurd h (hnone id), fun id _ _ _ _ _ h => absurd h (hnone id)⟩

/-- At most all nodes are left to place at the start. -/
theorem card_pending_alignmentStart (hids : (nodes.map (·.itemId)).Nodup) :
    (alignmentStart nodes).pending.card < nodes.length + 1 := by
  have hsubset : (alignmentStart nodes).pending ⊆ (nodes.map (·.itemId)).toFinset := by
    intro id hid
    have hmem := (mem_pending.mp hid).1
    rw [Std.ExtTreeMap.mem_iff_isSome_getElem?, isSome_iff_exists] at hmem
    obtain ⟨rect, hrect⟩ := hmem
    rw [List.mem_toFinset]
    exact mem_map_of_mem (f := (·.itemId)) ((alignmentStart_bounds hids).mp hrect)
  have hcard := (Finset.card_le_card hsubset).trans (toFinset_card_le _)
  rw [length_map] at hcard
  omega

/-- **Grid alignment ends, and its result is aligned.** The cascade has exactly one outcome, the
one that the model returns; when it is a result, every node is on the grid and apart from the
others. -/
theorem snapNodesToGrid_sound (nodes : List (GeometryNode ℚ)) (gridSize : ℚ) (maxRings : ℕ)
    (hvalid : ∀ node ∈ nodes, node.validate = .ok ()) (hids : (nodes.map (·.itemId)).Nodup)
    (hrings : 0 < maxRings) :
    (∃ outcome, (∀ outcome', PlacesAll gridSize maxRings ((alignmentEntries nodes).map (·.1))
        (alignmentStart nodes) outcome' ↔ outcome' = outcome) ∧
      snapNodesToGrid nodes gridSize maxRings =
        (validateStep gridSize >>= fun _ => outcome >>= fun state => .ok (alignedNodes nodes state))) ∧
      ∀ result, snapNodesToGrid nodes gridSize maxRings = .ok result →
        AlignedResult nodes gridSize result := by
  have hrun : PlacesAll gridSize maxRings ((alignmentEntries nodes).map (·.1)) (alignmentStart nodes)
      ((alignmentEntries nodes).foldlM (fun state entry =>
        placeCascadingItem gridSize maxRings (nodes.length + 1) [] entry.1 state)
        (alignmentStart nodes)) := placesAll_foldlM (card_pending_alignmentStart hids)
  refine ⟨⟨_, fun outcome' => ⟨fun h => h.unique hrun, fun h => h ▸ hrun⟩,
    snapNodesToGrid_eq hvalid hids hrings⟩, ?_⟩
  intro result h
  rw [snapNodesToGrid_eq hvalid hids hrings] at h
  obtain ⟨_, -, h⟩ := bind_eq_ok.mp h
  obtain ⟨final, hfinal, h⟩ := bind_eq_ok.mp h
  obtain rfl := Except.ok.inj h
  obtain ⟨hprogress, haligned, hplaced⟩ :=
    foldlM_placeCascadingItem hfinal (aligned_alignmentStart nodes)
  exact alignedResult hids hprogress haligned hplaced

/-- Two nodes on top of each other are aligned. -/
theorem snapNodesToGrid_sound_stack : ∃ result,
    snapNodesToGrid [⟨"router", ⟨4, 4, 20, 10⟩⟩, ⟨"switch", ⟨6, 6, 20, 10⟩⟩] (10 : ℚ) 8 =
        .ok result ∧
      AlignedResult [⟨"router", ⟨4, 4, 20, 10⟩⟩, ⟨"switch", ⟨6, 6, 20, 10⟩⟩] 10 result := by
  have hrouter : ({ x := 4, y := 4, width := 20, height := 10 } : Rect ℚ).validate = .ok () := by
    rw [Rect.validate_eq_ok]
    constructor <;> norm_num [Rect.right, Rect.bottom]
  have hswitch : ({ x := 6, y := 6, width := 20, height := 10 } : Rect ℚ).validate = .ok () := by
    rw [Rect.validate_eq_ok]
    constructor <;> norm_num [Rect.right, Rect.bottom]
  obtain ⟨result, hresult, -⟩ : ∃ result, snapNodesToGrid
      [⟨"router", ⟨4, 4, 20, 10⟩⟩, ⟨"switch", ⟨6, 6, 20, 10⟩⟩] (10 : ℚ) 8 = .ok result ∧ True :=
    exists_ok_of_any (by decide +kernel)
  refine ⟨result, hresult, (snapNodesToGrid_sound _ 10 8 ?_ (by decide) (by decide)).2 result hresult⟩
  intro node hnode
  simp only [mem_cons, not_mem_nil, or_false] at hnode
  obtain rfl | rfl := hnode
  · rw [GeometryNode.validate, hrouter]
    rfl
  · rw [GeometryNode.validate, hswitch]
    rfl

end Nodes

end HomelabInventory
