import Mathlib.Data.List.Sort
import Std.Data.ExtTreeMap
import Std.Data.ExtTreeSet

/-!
# Ordered maps, ordered sets and stable sorting

The containers the verified programs are written with: maps and sets that
iterate in key order, and sorting by a comparison function. Maps and sets are
the extensional tree maps of the standard library, so two maps with the same
lookups are equal; this file adds the few rules that folds of insertions and
the lexicographic key orders need.
-/

namespace HomelabInventory

open List

universe u v

/-- A map iterated in ascending key order. -/
abbrev BTreeMap (κ : Type u) (ν : Type v) [Ord κ] : Type (max u v) :=
  Std.ExtTreeMap κ ν compare

/-- A set iterated in ascending order. -/
abbrev BTreeSet (κ : Type u) [Ord κ] : Type u := Std.ExtTreeSet κ compare

section LexicographicOrder

variable {α : Type u}

/-- A lexicographic comparison decides equality as soon as its two components
together do. -/
theorem lawfulEqCmp_compareLex {cmp₁ cmp₂ : α → α → Ordering} [Std.ReflCmp cmp₁] [Std.ReflCmp cmp₂]
    (h : ∀ a b, cmp₁ a b = .eq → cmp₂ a b = .eq → a = b) :
    Std.LawfulEqCmp (compareLex cmp₁ cmp₂) where
  compare_self := by
    intro a
    simp [compareLex, Std.ReflCmp.compare_self]
  eq_of_compare := by
    intro a b hab
    rw [compareLex, Ordering.then_eq_eq] at hab
    exact h a b hab.1 hab.2

end LexicographicOrder

section Folds

variable {κ : Type u} {ν : Type v} [Ord κ] [Std.TransOrd κ] [Std.LawfulEqOrd κ]

/-- Insert a list of entries, later entries replacing earlier ones. -/
def insertEntries (m : BTreeMap κ ν) (entries : List (κ × ν)) : BTreeMap κ ν :=
  entries.foldl (fun m e => m.insert e.1 e.2) m

/-- The map collected from a list of entries. -/
def collectEntries (entries : List (κ × ν)) : BTreeMap κ ν := insertEntries ∅ entries

/-- The set collected from a list. -/
def collectSet (keys : List κ) : BTreeSet κ := keys.foldl (fun s k => s.insert k) ∅

omit [Std.LawfulEqOrd κ] in
@[simp] theorem insertEntries_cons (m : BTreeMap κ ν) (e : κ × ν) (es : List (κ × ν)) :
    insertEntries m (e :: es) = insertEntries (m.insert e.1 e.2) es := rfl

omit [Std.LawfulEqOrd κ] in
theorem insertEntries_append (m : BTreeMap κ ν) (es fs : List (κ × ν)) :
    insertEntries m (es ++ fs) = insertEntries (insertEntries m es) fs := by
  simp [insertEntries, foldl_append]

/-- A lookup in a map extended by entries finds one of the entries, or finds
what the map held when no entry has the key. -/
theorem getElem?_insertEntries (m : BTreeMap κ ν) (entries : List (κ × ν)) (k : κ) :
    (∃ v, (k, v) ∈ entries ∧ (insertEntries m entries)[k]? = some v) ∨
      ((∀ e ∈ entries, e.1 ≠ k) ∧ (insertEntries m entries)[k]? = m[k]?) := by
  induction entries generalizing m with
  | nil => exact Or.inr ⟨by simp, rfl⟩
  | cons e es ih =>
    rw [insertEntries_cons]
    rcases ih (m.insert e.1 e.2) with ⟨v, hv, hget⟩ | ⟨hno, hget⟩
    · exact Or.inl ⟨v, mem_cons_of_mem _ hv, hget⟩
    · by_cases hk : e.1 = k
      · refine Or.inl ⟨e.2, ?_, ?_⟩
        · rw [← hk]
          exact mem_cons_self ..
        · rw [hget, ← hk, Std.ExtTreeMap.getElem?_insert_self]
      · refine Or.inr ⟨?_, ?_⟩
        · intro f hf
          rcases mem_cons.mp hf with rfl | hf
          · exact hk
          · exact hno f hf
        · rw [hget, Std.ExtTreeMap.getElem?_insert]
          simp [hk]

/-- When the entries give each key one value, a collected map holds exactly the
entries. -/
theorem getElem?_collectEntries {entries : List (κ × ν)}
    (hfun : ∀ k v w, (k, v) ∈ entries → (k, w) ∈ entries → v = w) {k : κ} {v : ν} :
    (collectEntries entries)[k]? = some v ↔ (k, v) ∈ entries := by
  rcases getElem?_insertEntries (∅ : BTreeMap κ ν) entries k with ⟨w, hw, hget⟩ | ⟨hno, hget⟩
  · rw [collectEntries, hget]
    constructor
    · intro h
      obtain rfl := Option.some.inj h
      exact hw
    · intro h
      rw [hfun k w v hw h]
  · rw [collectEntries, hget]
    constructor
    · intro h
      simp at h
    · intro h
      exact absurd rfl (hno _ h)

/-- Membership in a collected set is membership in the list. -/
theorem mem_collectSet {keys : List κ} {k : κ} : k ∈ collectSet keys ↔ k ∈ keys := by
  suffices h : ∀ (s : BTreeSet κ), k ∈ keys.foldl (fun s k => s.insert k) s ↔ k ∈ keys ∨ k ∈ s by
    have hempty := h ∅
    simp only [collectSet, hempty, Std.ExtTreeSet.not_mem_empty, or_false]
  induction keys with
  | nil => simp
  | cons a as ih =>
    intro s
    rw [foldl_cons, ih, Std.ExtTreeSet.mem_insert, Std.LawfulEqOrd.compare_eq_iff_eq,
      mem_cons]
    constructor
    · rintro (h | rfl | h)
      · exact Or.inl (Or.inr h)
      · exact Or.inl (Or.inl rfl)
      · exact Or.inr h
    · rintro ((rfl | h) | h)
      · exact Or.inr (Or.inl rfl)
      · exact Or.inl h
      · exact Or.inr (Or.inr h)

/-- Set the entry of a key, or remove it. -/
def setEntry (m : BTreeMap κ ν) (k : κ) : Option ν → BTreeMap κ ν
  | some v => m.insert k v
  | none => m.erase k

theorem getElem?_setEntry [DecidableEq κ] (m : BTreeMap κ ν) (k : κ) (entry : Option ν) (j : κ) :
    (setEntry m k entry)[j]? = if j = k then entry else m[j]? := by
  have hcompare : compare k j = .eq ↔ j = k := by
    rw [Std.LawfulEqOrd.compare_eq_iff_eq, eq_comm]
  cases entry with
  | none => simp only [setEntry, Std.ExtTreeMap.getElem?_erase, hcompare]
  | some v => simp only [setEntry, Std.ExtTreeMap.getElem?_insert, hcompare]

theorem getElem?_insert_ite [DecidableEq κ] (m : BTreeMap κ ν) (k : κ) (v : ν) (j : κ) :
    (m.insert k v)[j]? = if j = k then some v else m[j]? :=
  getElem?_setEntry m k (some v) j

theorem getElem?_erase_ite [DecidableEq κ] (m : BTreeMap κ ν) (k j : κ) :
    (m.erase k)[j]? = if j = k then none else m[j]? :=
  getElem?_setEntry m k none j

omit [Std.LawfulEqOrd κ] in
/-- The values of a map, in the order of its keys. -/
theorem values_eq_map_toList (m : BTreeMap κ ν) : m.values = m.toList.map Prod.snd := by
  obtain ⟨m⟩ := m
  induction m using Std.ExtDTreeMap.inductionOn with
  | _ m =>
    show m.inner.values = (Std.DTreeMap.Internal.Impl.Const.toList m.inner).map Prod.snd
    rw [Std.DTreeMap.Internal.Impl.values_eq_map_snd,
      Std.DTreeMap.Internal.Impl.Const.toList_eq_toListModel_map, map_map]
    rfl

theorem mem_values {m : BTreeMap κ ν} {v : ν} : v ∈ m.values ↔ ∃ k : κ, m[k]? = some v := by
  simp only [values_eq_map_toList, mem_map, Prod.exists,
    Std.ExtTreeMap.mem_toList_iff_getElem?_eq_some, exists_eq_right]

/-- The keys of a map, read off values that know their keys. -/
theorem map_key_values {m : BTreeMap κ ν} {key : ν → κ}
    (hkey : ∀ k v, m[k]? = some v → key v = k) : m.values.map key = m.keys := by
  rw [values_eq_map_toList, map_map, ← Std.ExtTreeMap.map_fst_toList_eq_keys]
  apply map_congr_left
  rintro ⟨k, v⟩ hmem
  exact hkey k v (Std.ExtTreeMap.mem_toList_iff_getElem?_eq_some.mp hmem)

end Folds

section Sorting

variable {α : Type u}

/-- Stable sort by a comparison function. -/
def sortBy (cmp : α → α → Ordering) (l : List α) : List α :=
  l.insertionSort fun a b => (cmp a b).isLE

/-- Stable sort by a key. -/
def sortByKey {κ : Type v} [Ord κ] (key : α → κ) (l : List α) : List α :=
  sortBy (compareOn key) l

theorem perm_sortBy (cmp : α → α → Ordering) (l : List α) : (sortBy cmp l).Perm l :=
  perm_insertionSort _ l

variable {l : List α}
variable {cmp : α → α → Ordering}
variable {a : α}

@[simp] theorem mem_sortBy : a ∈ sortBy cmp l ↔ a ∈ l :=
  (perm_sortBy cmp l).mem_iff

@[simp] theorem mem_sortByKey {κ : Type v} [Ord κ] {key : α → κ} : a ∈ sortByKey key l ↔ a ∈ l :=
  mem_sortBy

@[simp] theorem length_sortBy : (sortBy cmp l).length = l.length :=
  (perm_sortBy cmp l).length_eq

/-- The first of the smallest elements of a list. -/
def minBy? (cmp : α → α → Ordering) : List α → Option α
  | [] => none
  | a :: as => some (as.foldl (fun best b => if (cmp b best).isLT then b else best) a)

theorem minBy?_eq_none : minBy? cmp l = none ↔ l = [] := by
  cases l <;> simp [minBy?]

theorem mem_of_minBy? (h : minBy? cmp l = some a) : a ∈ l := by
  cases l with
  | nil => cases h
  | cons first rest =>
    obtain rfl := Option.some.inj h
    -- the best element so far is one of the elements seen so far
    refine List.foldlRecOn rest _ mem_cons_self ?_
    intro best hbest b hb
    split
    · exact mem_cons_of_mem _ hb
    · exact hbest

end Sorting

end HomelabInventory
