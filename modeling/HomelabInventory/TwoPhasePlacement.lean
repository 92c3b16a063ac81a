import Mathlib.Data.List.Basic
import Mathlib.Data.List.Forall2
import Mathlib.Data.List.Lattice

/-!
# Placement in two passes

Elements take turns at covering cells. A first pass keeps every stored placement
that may stay and does not collide with one kept before it; a second pass gives
every element that kept none the first of its candidates that is free. The
result is packed (no cell is covered twice), and a second run over the result of
the first changes nothing.
-/

namespace HomelabInventory

open List Option

universe u v w

variable {E : Type u} {P : Type v} {C : Type w}

/-- How elements are placed: the cells a placement covers, the stored placements
an element may keep, and the candidates for an element that keeps none, in order
of preference. -/
structure Placer (E : Type u) (P : Type v) (C : Type w) where
  /-- the cells a placement covers -/
  cells : P → List C
  /-- the stored placements an element may keep -/
  keeps : E → P → Bool
  /-- the candidates for an element that keeps none -/
  candidates : E → List P

namespace Placer

section

variable (placer : Placer E P C)

/-- The cells an entry covers. -/
def entryCells (entry : E × Option P) : List C := (entry.2.map placer.cells).getD []

/-- The cells a list of entries covers. -/
def covered (entries : List (E × Option P)) : List C := entries.flatMap placer.entryCells

/-- No cell is covered twice. -/
def Packed (entries : List (E × Option P)) : Prop :=
  entries.Pairwise fun a b => (placer.entryCells a).Disjoint (placer.entryCells b)

/-- The entry with its placement only when the placement may be kept. -/
def restrict (entry : E × Option P) : E × Option P :=
  (entry.1, entry.2.filter (placer.keeps entry.1))

end

section

variable {placer : Placer E P C} {taken : List C} {e : E} {p : P} {entries : List (E × Option P)}

@[simp] theorem entryCells_some : placer.entryCells (e, some p) = placer.cells p := rfl

@[simp] theorem entryCells_none : placer.entryCells (e, none) = [] := rfl

@[simp] theorem covered_nil : placer.covered ([] : List (E × Option P)) = [] := rfl

@[simp] theorem covered_cons (entry : E × Option P) :
    placer.covered (entry :: entries) = placer.entryCells entry ++ placer.covered entries := rfl

theorem entryCells_subset_covered {entry : E × Option P} (h : entry ∈ entries) :
    placer.entryCells entry ⊆ placer.covered entries :=
  fun _ hc => mem_flatMap.mpr ⟨entry, h, hc⟩

theorem disjoint_covered {cells : List C} :
    cells.Disjoint (placer.covered entries) ↔
      ∀ entry ∈ entries, cells.Disjoint (placer.entryCells entry) := by
  constructor
  · intro h entry hentry c hc hcell
    exact h hc (entryCells_subset_covered hentry hcell)
  · intro h c hc hcov
    obtain ⟨entry, hentry, hcell⟩ := mem_flatMap.mp hcov
    exact h entry hentry hc hcell

theorem packed_cons {entry : E × Option P} :
    placer.Packed (entry :: entries) ↔
      (placer.entryCells entry).Disjoint (placer.covered entries) ∧ placer.Packed entries := by
  rw [Packed, pairwise_cons, disjoint_covered]
  rfl

theorem entryCells_restrict (entry : E × Option P) :
    placer.entryCells (placer.restrict entry) ⊆ placer.entryCells entry := by
  obtain ⟨e, stored⟩ := entry
  cases stored with
  | none => exact List.Subset.refl _
  | some p =>
    rw [restrict, filter_some]
    split
    · exact List.Subset.refl _
    · exact nil_subset _

theorem covered_restrict (entries : List (E × Option P)) :
    placer.covered (entries.map placer.restrict) ⊆ placer.covered entries := by
  intro c hc
  obtain ⟨entry, hentry, hcell⟩ := mem_flatMap.mp hc
  obtain ⟨original, horiginal, rfl⟩ := mem_map.mp hentry
  exact entryCells_subset_covered horiginal (entryCells_restrict original hcell)

end

variable [DecidableEq C] (placer : Placer E P C)

/-- None of the cells of a placement is taken. -/
def isFree (taken : List C) (p : P) : Bool := (placer.cells p).all fun c => decide (c ∉ taken)

/-- The first of the candidates whose cells are all free. -/
def firstFree (taken : List C) (candidates : List P) : Option P :=
  candidates.find? (placer.isFree taken)

/-- The stored placement an element keeps next to the cells taken. -/
def kept (taken : List C) (e : E) (stored : Option P) : Option P :=
  stored.filter fun p => placer.keeps e p && placer.isFree taken p

/-- The first pass: keep the stored placements that may stay. -/
def keepStored (taken : List C) : List (E × Option P) → List (E × Option P) × List C
  | [] => ([], taken)
  | (e, stored) :: rest =>
    match placer.kept taken e stored with
    | some p =>
      let (entries, final) := keepStored (taken ++ placer.cells p) rest
      ((e, some p) :: entries, final)
    | none =>
      let (entries, final) := keepStored taken rest
      ((e, none) :: entries, final)

/-- The second pass: choose placements for the rest. -/
def placeRest (taken : List C) : List (E × Option P) → List (E × Option P)
  | [] => []
  | (e, some p) :: rest => (e, some p) :: placeRest taken rest
  | (e, none) :: rest =>
    match placer.firstFree taken (placer.candidates e) with
    | some p => (e, some p) :: placeRest (taken ++ placer.cells p) rest
    | none => (e, none) :: placeRest taken rest

/-- Both passes. -/
def plan (entries : List (E × Option P)) : List (E × Option P) :=
  placer.placeRest (placer.keepStored [] entries).2 (placer.keepStored [] entries).1

variable {placer} {taken more : List C} {e : E} {p : P} {entries : List (E × Option P)}

/-! ## Free cells -/

theorem isFree_iff : placer.isFree taken p = true ↔ ∀ c ∈ placer.cells p, c ∉ taken := by
  simp [isFree]

/-- Fewer cells taken leave a placement free. -/
theorem isFree_of_subset (hsub : taken ⊆ more) (h : placer.isFree more p = true) :
    placer.isFree taken p = true := by
  rw [isFree_iff] at h ⊢
  exact fun c hc hmem => h c hc (hsub hmem)

theorem isFree_append {other : List C} :
    placer.isFree (taken ++ other) p = true ↔
      placer.isFree taken p = true ∧ (placer.cells p).Disjoint other := by
  simp only [isFree_iff, mem_append, not_or, List.Disjoint]
  exact ⟨fun h => ⟨fun c hc => (h c hc).1, fun c hc => (h c hc).2⟩,
    fun h c hc => ⟨h.1 c hc, h.2 hc⟩⟩

variable {candidates : List P}

theorem firstFree_isFree (h : placer.firstFree taken candidates = some p) :
    placer.isFree taken p = true :=
  find?_some h

theorem mem_of_firstFree (h : placer.firstFree taken candidates = some p) : p ∈ candidates :=
  mem_of_find?_eq_some h

/-- Taking more cells never frees a candidate. -/
theorem firstFree_none (hsub : taken ⊆ more) (h : placer.firstFree taken candidates = none) :
    placer.firstFree more candidates = none := by
  rw [firstFree, find?_eq_none] at h ⊢
  exact fun q hq hfree => h q hq (isFree_of_subset hsub hfree)

/-- The first free candidate stays the first one as long as it is free. -/
theorem firstFree_again (hsub : taken ⊆ more) (h : placer.firstFree taken candidates = some p)
    (hfree : placer.isFree more p = true) : placer.firstFree more candidates = some p := by
  induction candidates with
  | nil => exact nomatch h
  | cons q rest ih =>
    rw [firstFree, find?_cons] at h ⊢
    cases hq : placer.isFree taken q with
    | true =>
      rw [hq] at h
      obtain rfl := Option.some.inj h
      rw [hfree]
    | false =>
      rw [hq] at h
      have hmore : placer.isFree more q = false := by
        by_contra hne
        rw [Bool.not_eq_false] at hne
        rw [isFree_of_subset hsub hne] at hq
        exact nomatch hq
      rw [hmore]
      exact ih h

/-! ## Packed results -/

theorem kept_eq_some {stored : Option P} :
    placer.kept taken e stored = some p ↔
      stored = some p ∧ placer.keeps e p = true ∧ placer.isFree taken p = true := by
  rw [kept, filter_eq_some_iff, Bool.and_eq_true]

/-- The first pass takes the cells of what it keeps, keeps nothing that may not
stay, and keeps no cell twice. -/
theorem keepStored_spec (placer : Placer E P C) (taken : List C) (entries : List (E × Option P)) :
    (placer.keepStored taken entries).2 =
        taken ++ placer.covered (placer.keepStored taken entries).1 ∧
      (∀ entry ∈ (placer.keepStored taken entries).1, ∀ p, entry.2 = some p →
        placer.keeps entry.1 p = true) ∧
      taken.Disjoint (placer.covered (placer.keepStored taken entries).1) ∧
      placer.Packed (placer.keepStored taken entries).1 := by
  induction entries generalizing taken with
  | nil => simp [keepStored, Packed]
  | cons entry rest ih =>
    obtain ⟨e, stored⟩ := entry
    rw [keepStored]
    cases hkept : placer.kept taken e stored with
    | none =>
      obtain ⟨hfinal, hkeeps, hdisjoint, hpacked⟩ := ih taken
      refine ⟨by simpa using hfinal, ?_, by simpa using hdisjoint, ?_⟩
      · intro entry hentry p hp
        rcases mem_cons.mp hentry with rfl | hentry
        · exact nomatch hp
        · exact hkeeps entry hentry p hp
      · exact packed_cons.mpr ⟨by simp, hpacked⟩
    | some p =>
      obtain ⟨-, hkeep, hfree⟩ := kept_eq_some.mp hkept
      obtain ⟨hfinal, hkeeps, hdisjoint, hpacked⟩ := ih (taken ++ placer.cells p)
      rw [disjoint_append_left] at hdisjoint
      refine ⟨?_, ?_, ?_, ?_⟩
      · simp only [covered_cons, entryCells_some]
        rw [hfinal, append_assoc]
      · intro entry hentry q hq
        rcases mem_cons.mp hentry with rfl | hentry
        · obtain rfl := Option.some.inj hq
          exact hkeep
        · exact hkeeps entry hentry q hq
      · simp only [covered_cons, entryCells_some, disjoint_append_right]
        exact ⟨fun c hc hcell => isFree_iff.mp hfree c hcell hc, hdisjoint.1⟩
      · exact packed_cons.mpr ⟨hdisjoint.2, hpacked⟩

/-- The second pass covers new cells only, and no cell twice. -/
theorem placeRest_packed (htaken : placer.covered entries ⊆ taken)
    (hpacked : placer.Packed entries) :
    placer.Packed (placer.placeRest taken entries) ∧
      ∀ c ∈ placer.covered (placer.placeRest taken entries),
        c ∈ placer.covered entries ∨ c ∉ taken := by
  induction entries generalizing taken with
  | nil => simp [placeRest, Packed]
  | cons entry rest ih =>
    obtain ⟨e, stored⟩ := entry
    obtain ⟨hhead, hrest⟩ := packed_cons.mp hpacked
    rw [covered_cons, append_subset] at htaken
    obtain ⟨htakenHead, htakenRest⟩ := htaken
    cases stored with
    | some p =>
      obtain ⟨hout, hnew⟩ := ih htakenRest hrest
      rw [placeRest]
      refine ⟨packed_cons.mpr ⟨?_, hout⟩, ?_⟩
      · intro c hc hcov
        rcases hnew c hcov with h | h
        · exact hhead hc h
        · exact h (htakenHead hc)
      · intro c hc
        rw [covered_cons, mem_append] at hc ⊢
        rcases hc with hc | hc
        · exact Or.inl (Or.inl hc)
        · exact (hnew c hc).imp_left Or.inr
    | none =>
      rw [placeRest]
      cases hchoose : placer.firstFree taken (placer.candidates e) with
      | none =>
        obtain ⟨hout, hnew⟩ := ih htakenRest hrest
        exact ⟨packed_cons.mpr ⟨by simp, hout⟩, by simpa using hnew⟩
      | some p =>
        have hfree := isFree_iff.mp (firstFree_isFree hchoose)
        have hsub : placer.covered rest ⊆ taken ++ placer.cells p :=
          fun c hc => mem_append_left _ (htakenRest hc)
        obtain ⟨hout, hnew⟩ := ih hsub hrest
        refine ⟨packed_cons.mpr ⟨?_, hout⟩, ?_⟩
        · intro c hc hcov
          rcases hnew c hcov with h | h
          · exact hfree c hc (htakenRest h)
          · exact h (mem_append_right _ hc)
        · intro c hc
          rw [covered_cons, mem_append] at hc
          rcases hc with hc | hc
          · exact Or.inr (hfree c hc)
          · refine (hnew c hc).imp (fun h => ?_) (fun h hmem => h (mem_append_left _ hmem))
            exact mem_append_right _ h

/-- **Packing.** Both passes together cover no cell twice. -/
theorem plan_packed (placer : Placer E P C) (entries : List (E × Option P)) :
    placer.Packed (placer.plan entries) := by
  obtain ⟨hfinal, -, -, hpacked⟩ := placer.keepStored_spec [] entries
  refine (placeRest_packed ?_ hpacked).1
  rw [hfinal]
  exact List.Subset.refl _

/-- Every placement of the second pass fits when those it starts from do. -/
theorem placeRest_fits {Fits : E → P → Prop}
    (hcandidates : ∀ e, ∀ p ∈ placer.candidates e, Fits e p)
    (hfits : ∀ entry ∈ entries, ∀ p, entry.2 = some p → Fits entry.1 p) :
    ∀ entry ∈ placer.placeRest taken entries, ∀ p, entry.2 = some p → Fits entry.1 p := by
  induction entries generalizing taken with
  | nil => simp [placeRest]
  | cons entry rest ih =>
    obtain ⟨e, stored⟩ := entry
    have hrest : ∀ entry ∈ rest, ∀ p, entry.2 = some p → Fits entry.1 p :=
      fun entry hentry => hfits entry (mem_cons_of_mem _ hentry)
    cases stored with
    | some p =>
      rw [placeRest]
      intro entry hentry q hq
      rcases mem_cons.mp hentry with rfl | hentry
      · exact hfits _ mem_cons_self q hq
      · exact ih hrest entry hentry q hq
    | none =>
      rw [placeRest]
      cases hchoose : placer.firstFree taken (placer.candidates e) with
      | none =>
        intro entry hentry q hq
        rcases mem_cons.mp hentry with rfl | hentry
        · exact nomatch hq
        · exact ih hrest entry hentry q hq
      | some p =>
        intro entry hentry q hq
        rcases mem_cons.mp hentry with rfl | hentry
        · obtain rfl := Option.some.inj hq
          exact hcandidates e _ (mem_of_firstFree hchoose)
        · exact ih hrest entry hentry q hq

/-- **Fitting.** Every placement of the plan fits its element. -/
theorem plan_fits {Fits : E → P → Prop} (hkeep : ∀ e p, placer.keeps e p = true → Fits e p)
    (hcandidates : ∀ e, ∀ p ∈ placer.candidates e, Fits e p) (entries : List (E × Option P)) :
    ∀ entry ∈ placer.plan entries, ∀ p, entry.2 = some p → Fits entry.1 p := by
  obtain ⟨-, hkeeps, -, -⟩ := placer.keepStored_spec [] entries
  refine placeRest_fits hcandidates ?_
  exact fun entry hentry p hp => hkeep _ _ (hkeeps entry hentry p hp)

/-! ## Elements -/

theorem map_fst_keepStored :
    (placer.keepStored taken entries).1.map Prod.fst = entries.map Prod.fst := by
  induction entries generalizing taken with
  | nil => rfl
  | cons entry rest ih =>
    obtain ⟨e, stored⟩ := entry
    rw [keepStored]
    cases placer.kept taken e stored <;> simp [ih]

/-- The second pass is about the elements it starts from. -/
theorem map_fst_placeRest :
    (placer.placeRest taken entries).map Prod.fst = entries.map Prod.fst := by
  induction entries generalizing taken with
  | nil => rfl
  | cons entry rest ih =>
    obtain ⟨e, stored⟩ := entry
    cases stored with
    | some p => simp [placeRest, ih]
    | none =>
      rw [placeRest]
      cases placer.firstFree taken (placer.candidates e) <;> simp [ih]

/-- The plan is about the elements it was asked for, in their order. -/
theorem map_fst_plan (placer : Placer E P C) (entries : List (E × Option P)) :
    (placer.plan entries).map Prod.fst = entries.map Prod.fst := by
  rw [plan, map_fst_placeRest, map_fst_keepStored]

/-! ## Planning again -/

/-- Over a packed list the first pass keeps everything that may be kept. -/
theorem keepStored_of_packed (hpacked : placer.Packed entries)
    (hdisjoint : taken.Disjoint (placer.covered entries)) :
    placer.keepStored taken entries =
      (entries.map placer.restrict, taken ++ placer.covered (entries.map placer.restrict)) := by
  induction entries generalizing taken with
  | nil => simp [keepStored]
  | cons entry rest ih =>
    obtain ⟨e, stored⟩ := entry
    obtain ⟨hhead, hrest⟩ := packed_cons.mp hpacked
    rw [covered_cons, disjoint_append_right] at hdisjoint
    obtain ⟨hdisjointHead, hdisjointRest⟩ := hdisjoint
    have hkept : placer.kept taken e stored = stored.filter (placer.keeps e) := by
      cases stored with
      | none => rfl
      | some p =>
        have hfree : placer.isFree taken p = true :=
          isFree_iff.mpr fun c hc hmem => hdisjointHead hmem hc
        rw [kept, filter_some, filter_some, hfree, Bool.and_true]
    rw [keepStored, hkept, map_cons, restrict, covered_cons]
    cases hfilter : stored.filter (placer.keeps e) with
    | none => simp [ih hrest hdisjointRest]
    | some p =>
      obtain ⟨hstored, -⟩ := filter_eq_some_iff.mp hfilter
      subst hstored
      have hnext : (taken ++ placer.cells p).Disjoint (placer.covered rest) :=
        disjoint_append_left.mpr ⟨hdisjointRest, hhead⟩
      simp [ih hrest hnext]

omit [DecidableEq C] in
/-- A placement that may not be kept covers no cell of one that may. -/
theorem disjoint_covered_restrict (hpacked : placer.Packed entries) {entry : E × Option P}
    (hentry : entry ∈ entries) (hp : entry.2 = some p) (hkeeps : placer.keeps entry.1 p = false) :
    (placer.cells p).Disjoint (placer.covered (entries.map placer.restrict)) := by
  induction entries with
  | nil => exact nomatch hentry
  | cons first rest ih =>
    obtain ⟨hhead, hrest⟩ := packed_cons.mp hpacked
    rw [map_cons, covered_cons, disjoint_append_right]
    obtain ⟨e, stored⟩ := entry
    subst hp
    rcases mem_cons.mp hentry with rfl | hmem
    · refine ⟨?_, fun c hc hcov => hhead hc (covered_restrict rest hcov)⟩
      rw [restrict, filter_some, if_neg (by simpa using hkeeps)]
      exact disjoint_nil_right _
    · refine ⟨fun c hc hcell => ?_, ih hrest hmem⟩
      exact hhead (entryCells_restrict first hcell) (entryCells_subset_covered hmem hc)

/-- What was kept is kept again after the second pass. -/
theorem covered_subset_restrict
    (hkeeps : ∀ entry ∈ entries, ∀ p, entry.2 = some p → placer.keeps entry.1 p = true) :
    placer.covered entries ⊆
      placer.covered ((placer.placeRest taken entries).map placer.restrict) := by
  induction entries generalizing taken with
  | nil => exact nil_subset _
  | cons entry rest ih =>
    obtain ⟨e, stored⟩ := entry
    have hrest : ∀ entry ∈ rest, ∀ p, entry.2 = some p → placer.keeps entry.1 p = true :=
      fun entry hentry => hkeeps entry (mem_cons_of_mem _ hentry)
    rw [covered_cons, append_subset]
    cases stored with
    | some p =>
      have hrestrict : placer.restrict (e, some p) = (e, some p) := by
        rw [restrict, filter_some, if_pos (hkeeps _ mem_cons_self p rfl)]
      rw [placeRest, map_cons, hrestrict, covered_cons]
      exact ⟨subset_append_left _ _, fun c hc => mem_append_right _ (ih hrest hc)⟩
    | none =>
      refine ⟨nil_subset _, ?_⟩
      rw [placeRest]
      cases placer.firstFree taken (placer.candidates e) with
      | none =>
        rw [map_cons, covered_cons]
        exact fun c hc => mem_append_right _ (ih hrest hc)
      | some p =>
        rw [map_cons, covered_cons]
        exact fun c hc => mem_append_right _ (ih hrest hc)

/-- The second pass over what a run kept of its own result restores the result:
what may be kept is skipped, the other choices are made again in the same order. -/
theorem placeRest_again
    (hkeeps : ∀ entry ∈ entries, ∀ p, entry.2 = some p → placer.keeps entry.1 p = true)
    (hmore : taken ⊆ more)
    (hpacked : placer.Packed (placer.placeRest taken entries))
    (hcovered : placer.covered ((placer.placeRest taken entries).map placer.restrict) ⊆ more)
    (hfree : ∀ entry ∈ placer.placeRest taken entries, ∀ p, entry.2 = some p →
      placer.keeps entry.1 p = false → placer.isFree more p = true) :
    placer.placeRest more ((placer.placeRest taken entries).map placer.restrict) =
      placer.placeRest taken entries := by
  induction entries generalizing taken more with
  | nil => rfl
  | cons entry rest ih =>
    obtain ⟨e, stored⟩ := entry
    have hkeepsRest : ∀ entry ∈ rest, ∀ p, entry.2 = some p → placer.keeps entry.1 p = true :=
      fun entry hentry => hkeeps entry (mem_cons_of_mem _ hentry)
    cases stored with
    | some p =>
      rw [placeRest] at hpacked hcovered hfree ⊢
      have hrestrict : placer.restrict (e, some p) = (e, some p) := by
        rw [restrict, filter_some, if_pos (hkeeps _ mem_cons_self p rfl)]
      rw [map_cons, covered_cons, append_subset] at hcovered
      rw [map_cons, hrestrict, placeRest]
      rw [ih hkeepsRest hmore (packed_cons.mp hpacked).2 hcovered.2
        fun entry hentry => hfree entry (mem_cons_of_mem _ hentry)]
    | none =>
      rw [placeRest] at hpacked hcovered hfree ⊢
      cases hchoose : placer.firstFree taken (placer.candidates e) with
      | none =>
        rw [hchoose] at hpacked hcovered hfree
        simp only [map_cons, covered_cons] at hcovered ⊢
        rw [append_subset] at hcovered
        have hrestrict : placer.restrict (e, none) = (e, (none : Option P)) := rfl
        rw [hrestrict, placeRest, firstFree_none hmore hchoose]
        simp only
        rw [ih hkeepsRest hmore (packed_cons.mp hpacked).2 hcovered.2
          fun entry hentry => hfree entry (mem_cons_of_mem _ hentry)]
      | some p =>
        rw [hchoose] at hpacked hcovered hfree
        simp only [map_cons, covered_cons] at hcovered ⊢
        rw [append_subset] at hcovered
        obtain ⟨hhead, hrest⟩ := packed_cons.mp hpacked
        cases hkeep : placer.keeps e p with
        | true =>
          have hrestrict : placer.restrict (e, some p) = (e, some p) := by
            rw [restrict, filter_some, if_pos hkeep]
          rw [hrestrict] at hcovered ⊢
          have hmore' : taken ++ placer.cells p ⊆ more := append_subset.mpr ⟨hmore, hcovered.1⟩
          rw [placeRest, ih hkeepsRest hmore' hrest hcovered.2
            fun entry hentry => hfree entry (mem_cons_of_mem _ hentry)]
        | false =>
          have hrestrict : placer.restrict (e, some p) = (e, none) := by
            rw [restrict, filter_some, if_neg (by simp [hkeep])]
          have hfreeHead := hfree _ mem_cons_self p rfl hkeep
          rw [hrestrict, placeRest, firstFree_again hmore hchoose hfreeHead]
          have hmore' : taken ++ placer.cells p ⊆ more ++ placer.cells p :=
            fun c hc => mem_append.mpr ((mem_append.mp hc).imp_left fun h => hmore h)
          have hcovered' : placer.covered
              ((placer.placeRest (taken ++ placer.cells p) rest).map placer.restrict) ⊆
              more ++ placer.cells p :=
            fun c hc => mem_append_left _ (hcovered.2 hc)
          simp only
          rw [ih hkeepsRest hmore' hrest hcovered' ?_]
          intro entry hentry q hq hloose
          refine isFree_append.mpr ⟨hfree entry (mem_cons_of_mem _ hentry) q hq hloose, ?_⟩
          intro c hc hcell
          have hcov : placer.entryCells entry ⊆ _ := entryCells_subset_covered hentry
          rw [entryCells, hq] at hcov
          exact hhead hcell (hcov hc)

/-- **Idempotence.** Planning the result of a plan changes nothing. -/
theorem plan_plan (placer : Placer E P C) (entries : List (E × Option P)) :
    placer.plan (placer.plan entries) = placer.plan entries := by
  have hpacked := placer.plan_packed entries
  obtain ⟨hfinal, hkeeps, -, -⟩ := placer.keepStored_spec [] entries
  have hsecond := @keepStored_of_packed _ _ _ _ placer [] _ hpacked (by simp)
  rw [plan, hsecond, nil_append]
  refine placeRest_again hkeeps ?_ hpacked (List.Subset.refl _) ?_
  · rw [hfinal, nil_append]
    exact covered_subset_restrict hkeeps
  · intro entry hentry p hp hloose
    have hdisjoint := disjoint_covered_restrict hpacked hentry hp hloose
    exact isFree_iff.mpr fun c hc hmem => hdisjoint hc hmem

end Placer

end HomelabInventory
