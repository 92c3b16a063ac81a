import HomelabInventory.SpeedNegotiation
import Mathlib.Logic.Relation
import Mathlib.Order.Bounds.Basic

/-!
# Network components

The traversal of a graph finds the component of its start: the endpoints that paths lead to. So the
speed that is negotiated at an endpoint is the lowest one that any endpoint advertises to which a
path leads.
-/

namespace HomelabInventory

open List

open Relation (ReflTransGen)

/-! ## Paths -/

section Paths

variable {α : Type} {step : α → α → Prop} {kept : α → Prop}

theorem stays_of_path (hkept : ∀ a b, kept a → step a b → kept b) {a b : α} (ha : kept a)
    (hpath : ReflTransGen step a b) : kept b := by
  induction hpath with
  | refl => exact ha
  | tail _ hstep ih => exact hkept _ _ ih hstep

/-- Paths of a symmetric relation enter nothing that no step leaves. -/
theorem outside_of_path (hsymm : ∀ a b, step a b → step b a)
    (hkept : ∀ a b, kept a → step a b → kept b) {a b : α} (ha : ¬kept a)
    (hpath : ReflTransGen step a b) : ¬kept b :=
  @stays_of_path α step (fun x => ¬kept x)
    (fun x y hx hstep hy => hx (hkept y x hy (hsymm x y hstep))) a b ha hpath

/-- Paths of a symmetric relation lead to the same from both of their ends. -/
theorem path_congr (hsymm : ∀ a b, step a b → step b a) {a b c : α}
    (hpath : ReflTransGen step a b) : ReflTransGen step a c ↔ ReflTransGen step b c := by
  have hback : ReflTransGen step b a := by
    induction hpath with
    | refl => exact .refl
    | tail _ hstep ih => exact .head (hsymm _ _ hstep) ih
  exact ⟨hback.trans, hpath.trans⟩

end Paths

/-! ## The lowest number of a set -/

/-- The lowest of some numbers, if there are any. -/
def IsLowest (numbers : Set ℕ) : Option ℕ → Prop
  | none => numbers = ∅
  | some lowest => IsLeast numbers lowest

theorem isLowest_min? (numbers : List ℕ) : IsLowest { n | n ∈ numbers } numbers.min? := by
  cases hmin : numbers.min? with
  | none =>
    rw [min?_eq_none_iff] at hmin
    simp [IsLowest, hmin]
  | some lowest =>
    obtain ⟨hmem, hlower⟩ := min?_eq_some_iff.mp hmin
    exact ⟨hmem, fun n hn => hlower n hn⟩

/-! ## Neighbors -/

/-- The second vertex is a neighbor of the first. -/
def EndpointGraph.Joined (adjacency : EndpointGraph) (vertex neighbor : EndpointRef) : Prop :=
  ∃ neighbors, adjacency[vertex]? = some neighbors ∧ neighbor ∈ neighbors

variable {neighbor vertex : EndpointRef}
variable {adjacency : EndpointGraph}

theorem EndpointGraph.joined_iff :
    adjacency.Joined vertex neighbor ↔ neighbor ∈ adjacency[vertex]?.getD ∅ := by
  rw [Joined]
  cases adjacency[vertex]? <;> simp

/-- An edge joins its ends, in both directions. -/
theorem joined_addGraphEdge {edge : EndpointRef × EndpointRef} :
    EndpointGraph.Joined (addGraphEdge adjacency edge) vertex neighbor ↔
      adjacency.Joined vertex neighbor ∨ (vertex, neighbor) = edge ∨ (neighbor, vertex) = edge := by
  obtain ⟨source, target⟩ := edge
  have hjoined : ∀ e, neighbor ∈ (adjacency[vertex]?.getD ∅).insert e ↔
      adjacency.Joined vertex neighbor ∨ neighbor = e := by
    intro e
    rw [Std.ExtTreeSet.mem_insert, Std.LawfulEqOrd.compare_eq_iff_eq, ← EndpointGraph.joined_iff,
      or_comm, eq_comm]
  rw [EndpointGraph.joined_iff]
  simp only [addGraphEdge, getElem?_insert_ite, Prod.mk.injEq]
  by_cases htarget : vertex = target
  · subst htarget
    by_cases hsource : vertex = source
    · subst hsource
      rw [if_pos rfl, if_pos rfl, Option.getD_some, Option.getD_some, Std.ExtTreeSet.mem_insert,
        Std.LawfulEqOrd.compare_eq_iff_eq, hjoined]
      tauto
    · rw [if_pos rfl, if_neg hsource, Option.getD_some, hjoined]
      tauto
  · by_cases hsource : vertex = source
    · subst hsource
      rw [if_neg htarget, if_pos rfl, Option.getD_some, hjoined]
      tauto
    · rw [if_neg htarget, if_neg hsource, ← EndpointGraph.joined_iff]
      tauto

/-- The edges of a list join their ends. -/
theorem joined_graphOfEdges {edges : List (EndpointRef × EndpointRef)} :
    (graphOfEdges edges).Joined vertex neighbor ↔
      (vertex, neighbor) ∈ edges ∨ (neighbor, vertex) ∈ edges := by
  suffices h : ∀ adjacency : EndpointGraph,
      EndpointGraph.Joined (edges.foldl addGraphEdge adjacency) vertex neighbor ↔
        adjacency.Joined vertex neighbor ∨ (vertex, neighbor) ∈ edges ∨
          (neighbor, vertex) ∈ edges by
    rw [graphOfEdges, h ∅]
    simp [EndpointGraph.Joined]
  induction edges with
  | nil => simp
  | cons edge edges ih =>
    intro adjacency
    rw [foldl_cons, ih, joined_addGraphEdge, mem_cons, mem_cons]
    tauto

theorem joined_symm_graphOfEdges (edges : List (EndpointRef × EndpointRef))
    (vertex neighbor : EndpointRef) (h : (graphOfEdges edges).Joined vertex neighbor) :
    (graphOfEdges edges).Joined neighbor vertex :=
  joined_graphOfEdges.mpr (joined_graphOfEdges.mp h).symm

theorem EndpointGraph.Joined.mem (h : adjacency.Joined vertex neighbor) : vertex ∈ adjacency := by
  obtain ⟨neighbors, hneighbors, -⟩ := h
  exact Std.ExtTreeMap.mem_iff_isSome_getElem?.mpr (by rw [hneighbors]; rfl)

/-! ## What a traversal finds -/

namespace Traversal

variable {adjacency : EndpointGraph} {advertised : EndpointRef → Option ℕ}
  {before : BTreeSet EndpointRef} {start : EndpointRef} {t : Traversal}

/-- Pushing vertices visits them and keeps those pending that were not visited before. -/
theorem foldl_push (neighbors : List EndpointRef) (t : Traversal) :
    (∀ e, e ∈ (neighbors.foldl push t).visited ↔ e ∈ t.visited ∨ e ∈ neighbors) ∧
    (∀ e, e ∈ t.pending ∨ e ∈ (neighbors.foldl push t).pending ↔
      e ∈ (neighbors.foldl push t).pending) ∧
    (∀ e ∈ neighbors, e ∈ t.visited ∨ e ∈ (neighbors.foldl push t).pending) ∧
    (neighbors.foldl push t).component = t.component ∧
    (neighbors.foldl push t).speeds = t.speeds := by
  induction neighbors generalizing t with
  | nil => simp
  | cons neighbor neighbors ih =>
    obtain ⟨hvisited, hkept, hpushed, hcomponent, hspeeds⟩ := ih (push t neighbor)
    rw [foldl_cons]
    have hpush : (∀ e, e ∈ (push t neighbor).visited ↔ e ∈ t.visited ∨ e = neighbor) ∧
        (∀ e ∈ t.pending, e ∈ (push t neighbor).pending) ∧
        (neighbor ∈ t.visited ∨ neighbor ∈ (push t neighbor).pending) ∧
        (push t neighbor).component = t.component ∧ (push t neighbor).speeds = t.speeds := by
      unfold push
      split
      · rename_i hknown
        refine ⟨fun e => ⟨.inl, ?_⟩, fun e he => he, .inl hknown, rfl, rfl⟩
        rintro (he | rfl)
        · exact he
        · exact hknown
      · refine ⟨fun e => ?_, fun e he => mem_cons_of_mem _ he, .inr mem_cons_self, rfl, rfl⟩
        rw [Std.ExtTreeSet.mem_insert, Std.LawfulEqOrd.compare_eq_iff_eq, or_comm, eq_comm]
    obtain ⟨hvisited', hkept', hpushed', hcomponent', hspeeds'⟩ := hpush
    refine ⟨fun e => ?_, fun e => ⟨?_, .inr⟩, ?_, hcomponent.trans hcomponent',
      hspeeds.trans hspeeds'⟩
    · rw [hvisited, hvisited', mem_cons, or_assoc]
    · rintro (he | he)
      · exact (hkept e).mp (.inl (hkept' e he))
      · exact he
    · intro e he
      obtain rfl | he := mem_cons.mp he
      · exact hpushed'.imp_right fun hmem => (hkept e).mp (.inl hmem)
      · obtain hknown | hmem := hpushed e he
        · obtain hold | rfl := (hvisited' e).mp hknown
          · exact .inl hold
          · exact hpushed'.imp_right fun hmem => (hkept e).mp (.inl hmem)
        · exact .inr hmem

/-- **The invariant of a traversal**: what was visited since it began is pending or in the component,
is reached from the start, and the neighbors of the component were visited. -/
structure Searched (adjacency : EndpointGraph) (advertised : EndpointRef → Option ℕ)
    (before : BTreeSet EndpointRef) (start : EndpointRef) (t : Traversal) : Prop where
  visited_iff : ∀ e, e ∈ t.visited ↔ e ∈ before ∨ e ∈ t.component ∨ e ∈ t.pending
  start_mem : start ∈ t.component ∨ start ∈ t.pending
  reached : ∀ e, e ∈ t.component ∨ e ∈ t.pending → ReflTransGen adjacency.Joined start e
  closed : ∀ e ∈ t.component, ∀ neighbor, adjacency.Joined e neighbor → neighbor ∈ t.visited
  speeds_eq : t.speeds = t.component.filterMap advertised

/-- A traversal begins with its start. -/
theorem searched_start (before : BTreeSet EndpointRef) (start : EndpointRef) :
    Searched adjacency advertised before start
      { visited := before.insert start, pending := [start] } where
  visited_iff := by
    intro e
    rw [Std.ExtTreeSet.mem_insert, Std.LawfulEqOrd.compare_eq_iff_eq]
    simp [or_comm, eq_comm]
  start_mem := .inr (mem_singleton_self start)
  reached := by
    rintro e (he | he)
    · cases he
    · rw [mem_singleton.mp he]
  closed := by
    intro e he
    cases he
  speeds_eq := rfl

theorem Searched.visit {current : EndpointRef} {pending : List EndpointRef}
    (h : Searched adjacency advertised before start t) (hpending : t.pending = current :: pending) :
    Searched adjacency advertised before start
      (Traversal.visit adjacency advertised { t with pending := pending } current) := by
  have hcurrent : ReflTransGen adjacency.Joined start current :=
    h.reached current (.inr (by rw [hpending]; exact mem_cons_self))
  have hneighbors : ∀ e, e ∈ (adjacency[current]?.getD ∅).toList ↔ adjacency.Joined current e := by
    intro e
    rw [Std.ExtTreeSet.mem_toList, EndpointGraph.joined_iff]
  obtain ⟨hvisited, hkept, hpushed, hcomponent, hspeeds⟩ :=
    foldl_push (adjacency[current]?.getD ∅).toList
      { t with
        pending := pending
        component := t.component ++ [current]
        speeds := t.speeds ++ (advertised current).toList }
  have hadded := fun e => @mem_pending_push
    { t with
      pending := pending
      component := t.component ++ [current]
      speeds := t.speeds ++ (advertised current).toList }
    (adjacency[current]?.getD ∅).toList e
  unfold Traversal.visit
  dsimp only at hvisited hkept hpushed hcomponent hspeeds hadded ⊢
  generalize (adjacency[current]?.getD ∅).toList.foldl push { t with
        pending := pending
        component := t.component ++ [current]
        speeds := t.speeds ++ (advertised current).toList } = next at *
  refine ⟨fun e => ?_, ?_, fun e he => ?_, fun e he neighbor hjoined => ?_, ?_⟩
  · rw [hvisited, h.visited_iff, hpending, hcomponent, mem_append, mem_singleton,
      mem_cons]
    constructor
    · rintro ((hold | hold | rfl | hold) | hnew)
      · exact .inl hold
      · exact .inr (.inl (.inl hold))
      · exact .inr (.inl (.inr rfl))
      · exact .inr (.inr ((hkept e).mp (.inl hold)))
      · obtain hold | hnew := hpushed e hnew
        · obtain hold | hold | hold := (h.visited_iff e).mp hold
          · exact .inl hold
          · exact .inr (.inl (.inl hold))
          · rw [hpending] at hold
            obtain rfl | hold := mem_cons.mp hold
            · exact .inr (.inl (.inr rfl))
            · exact .inr (.inr ((hkept e).mp (.inl hold)))
        · exact .inr (.inr hnew)
    · rintro (hold | (hold | rfl) | hnew)
      · exact .inl (.inl hold)
      · exact .inl (.inr (.inl hold))
      · exact .inl (.inr (.inr (.inl rfl)))
      · exact (hadded e hnew).imp_left fun hold => .inr (.inr (.inr hold))
  · rw [hcomponent, mem_append, mem_singleton]
    obtain hstart | hstart := h.start_mem
    · exact .inl (.inl hstart)
    · rw [hpending] at hstart
      obtain hstart | hstart := mem_cons.mp hstart
      · exact .inl (.inr hstart)
      · exact .inr ((hkept start).mp (.inl hstart))
  · rw [hcomponent, mem_append, mem_singleton] at he
    obtain (hold | rfl) | hnew := he
    · exact h.reached e (.inl hold)
    · exact hcurrent
    · obtain hold | hnew := hadded e hnew
      · exact h.reached e (.inr (by rw [hpending]; exact mem_cons_of_mem _ hold))
      · exact hcurrent.tail ((hneighbors e).mp hnew)
  · rw [hcomponent, mem_append, mem_singleton] at he
    rw [hvisited]
    obtain hold | rfl := he
    · exact .inl (h.closed e hold neighbor hjoined)
    · exact .inr ((hneighbors neighbor).mpr hjoined)
  · rw [hspeeds, hcomponent, h.speeds_eq, filterMap_append]
    cases hspeed : advertised current <;> simp [hspeed]

theorem Searched.run (h : Searched adjacency advertised before start t) (fuel : ℕ) :
    Searched adjacency advertised before start (Traversal.run adjacency advertised fuel t) := by
  induction fuel generalizing t with
  | zero => exact h
  | succ fuel ih =>
    unfold Traversal.run
    split
    · exact h
    · rename_i current pending hpending
      exact ih (h.visit hpending)

/-- **A traversal finds the component of its start** when no edge leaves what was visited before. -/
theorem Searched.mem_component (h : Searched adjacency advertised before start t)
    (hdone : t.pending = []) (hsymm : ∀ a b, adjacency.Joined a b → adjacency.Joined b a)
    (hbefore : ∀ a b, a ∈ before → adjacency.Joined a b → b ∈ before) (hstart : start ∉ before)
    (e : EndpointRef) : e ∈ t.component ↔ ReflTransGen adjacency.Joined start e := by
  constructor
  · exact fun he => h.reached e (.inl he)
  · intro hpath
    -- no edge leaves what was visited, and a path from the start does not enter what was before
    have hclosed : ∀ a b, a ∈ before ∨ a ∈ t.component → adjacency.Joined a b →
        b ∈ before ∨ b ∈ t.component := by
      rintro a b (ha | ha) hjoined
      · exact .inl (hbefore a b ha hjoined)
      · simpa [hdone] using (h.visited_iff b).mp (h.closed a ha b hjoined)
    have hfirst : start ∈ before ∨ start ∈ t.component := by
      simpa [hdone, hstart] using h.start_mem
    exact (stays_of_path hclosed hfirst hpath).resolve_left
      (outside_of_path hsymm hbefore hstart hpath)

end Traversal

/-! ## Negotiated speeds -/

section Negotiation

variable {adjacency : EndpointGraph} {advertised : EndpointRef → Option ℕ}

/-- The speeds that are advertised where paths from a vertex lead. -/
def EndpointGraph.speedsFrom (adjacency : EndpointGraph) (advertised : EndpointRef → Option ℕ)
    (vertex : EndpointRef) : Set ℕ :=
  { speed | ∃ e, ReflTransGen adjacency.Joined vertex e ∧ advertised e = some speed }

/-- **The invariant of a negotiation**: no edge leaves what was visited, and every vertex that was
visited has the lowest speed of its component. -/
structure Negotiated (adjacency : EndpointGraph) (advertised : EndpointRef → Option ℕ)
    (acc : BTreeMap EndpointRef (Option ℕ) × BTreeSet EndpointRef) : Prop where
  closed : ∀ a b, a ∈ acc.2 → adjacency.Joined a b → b ∈ acc.2
  lowest : ∀ e ∈ acc.2, ∃ speed, acc.1[e]? = some speed ∧
    IsLowest (adjacency.speedsFrom advertised e) speed

/-- The traversal of a component keeps the invariant. -/
theorem Negotiated.component {speeds : BTreeMap EndpointRef (Option ℕ)}
    {visited : BTreeSet EndpointRef} (h : Negotiated adjacency advertised (speeds, visited))
    (hsymm : ∀ a b, adjacency.Joined a b → adjacency.Joined b a) {start : EndpointRef}
    (hstart : start ∉ visited) {t : Traversal}
    (hsearched : Traversal.Searched adjacency advertised visited start t) (hdone : t.pending = []) :
    Negotiated adjacency advertised
      (insertEntries speeds (t.component.map fun endpoint => (endpoint, t.speeds.min?)),
        t.visited) := by
  have hcomponent := hsearched.mem_component hdone hsymm h.closed hstart
  have hvisited : ∀ e, e ∈ t.visited ↔ e ∈ visited ∨ e ∈ t.component := by
    intro e
    rw [hsearched.visited_iff, hdone]
    simp
  -- every vertex of the component has its lowest speed
  have hlowest : ∀ e ∈ t.component, IsLowest (adjacency.speedsFrom advertised e) t.speeds.min? := by
    intro e he
    have hset : adjacency.speedsFrom advertised e = { speed | speed ∈ t.speeds } := by
      ext speed
      rw [hsearched.speeds_eq]
      simp only [EndpointGraph.speedsFrom, Set.mem_ofPred_eq, mem_filterMap, hcomponent,
        path_congr hsymm ((hcomponent e).mp he)]
    rw [hset]
    exact isLowest_min? t.speeds
  refine ⟨fun a b ha hjoined => ?_, fun e he => ?_⟩
  · rw [hvisited] at ha ⊢
    obtain ha | ha := ha
    · exact .inl (h.closed a b ha hjoined)
    · exact .inr ((hcomponent b).mpr (((hcomponent a).mp ha).tail hjoined))
  · dsimp only
    obtain ⟨speed, hmem, hget⟩ | ⟨hother, hget⟩ := getElem?_insertEntries speeds
      (t.component.map fun endpoint => (endpoint, t.speeds.min?)) e
    · obtain ⟨_, hfound, hsame⟩ := mem_map.mp hmem
      obtain ⟨rfl, rfl⟩ := Prod.mk.inj hsame
      exact ⟨_, hget, hlowest _ hfound⟩
    · rw [hget]
      obtain hold | hnew := (hvisited e).mp he
      · exact h.lowest e hold
      · exact absurd rfl (hother _ (mem_map_of_mem hnew))

/-- **The speed that is negotiated at a vertex is the lowest** that is advertised where paths from it
lead. -/
theorem negotiateSpeeds_lowest (hclosed : adjacency.Closed)
    (hsymm : ∀ a b, adjacency.Joined a b → adjacency.Joined b a)
    (advertised : EndpointRef → Option ℕ) {vertex : EndpointRef} (hvertex : vertex ∈ adjacency) :
    ∃ speed, (negotiateSpeeds adjacency advertised)[vertex]? = some speed ∧
      IsLowest (adjacency.speedsFrom advertised vertex) speed := by
  unfold negotiateSpeeds
  -- the loop keeps the invariant and visits the vertices that it passes
  suffices hloop : ∀ (starts : List EndpointRef)
      (acc final : BTreeMap EndpointRef (Option ℕ) × BTreeSet EndpointRef),
      Negotiated adjacency advertised acc →
      starts.foldl
        (fun (acc : BTreeMap EndpointRef (Option ℕ) × BTreeSet EndpointRef) start =>
          if start ∈ acc.2 then acc
          else
            let t := Traversal.run adjacency advertised (adjacency.size + 1)
              { visited := acc.2.insert start, pending := [start] }
            (insertEntries acc.1 (t.component.map fun endpoint => (endpoint, t.speeds.min?)),
              t.visited)) acc = final →
      Negotiated adjacency advertised final ∧ ∀ e, e ∈ starts ∨ e ∈ acc.2 → e ∈ final.2 by
    obtain ⟨hnegotiated, hvisited⟩ := hloop adjacency.keys (∅, ∅) _
      ⟨fun a b ha => absurd ha Std.ExtTreeSet.not_mem_empty,
        fun e he => absurd he Std.ExtTreeSet.not_mem_empty⟩ rfl
    exact hnegotiated.lowest vertex (hvisited vertex (.inl (Std.ExtTreeMap.mem_keys.mpr hvertex)))
  intro starts
  induction starts with
  | nil =>
    rintro acc _ h rfl
    exact ⟨h, fun e he => he.resolve_left not_mem_nil⟩
  | cons start starts ih =>
    rintro ⟨speeds, visited⟩ final h hrun
    rw [foldl_cons] at hrun
    dsimp only at hrun
    split at hrun
    · rename_i hknown
      obtain ⟨hnegotiated, hvisited⟩ := ih (speeds, visited) final h hrun
      refine ⟨hnegotiated, fun e he => hvisited e ?_⟩
      obtain he | he := he
      · obtain rfl | he := mem_cons.mp he
        · exact .inr hknown
        · exact .inl he
      · exact .inr he
    · rename_i hfresh
      have hsearched := (@Traversal.searched_start adjacency advertised visited start).run
        (adjacency.size + 1)
      have hdone := negotiateSpeeds_fuel hclosed advertised visited start
      obtain ⟨hnegotiated, hvisited⟩ := ih _ final (h.component hsymm hfresh hsearched hdone) hrun
      refine ⟨hnegotiated, fun e he => hvisited e ?_⟩
      dsimp only
      rw [hsearched.visited_iff]
      obtain he | he := he
      · obtain rfl | he := mem_cons.mp he
        · exact .inr (.inr hsearched.start_mem)
        · exact .inl he
      · exact .inr (.inl he)

end Negotiation

end HomelabInventory
