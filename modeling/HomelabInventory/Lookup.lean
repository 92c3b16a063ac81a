import HomelabInventory.OrderedMap

/-!
# Lists searched by key

The entry of a list with a given key, and how it fares when the list is
changed, sorted, or collected into an ordered map.
-/

namespace HomelabInventory

open List

variable {κ ρ : Type} [DecidableEq κ] {key : ρ → κ}

/-- The first entry of a list with a key. -/
def lookup (key : ρ → κ) (l : List ρ) (k : κ) : Option ρ := l.find? fun x => decide (key x = k)

@[simp] theorem lookup_nil (k : κ) : lookup key [] k = none := rfl

theorem lookup_cons (x : ρ) (xs : List ρ) (k : κ) :
    lookup key (x :: xs) k = if key x = k then some x else lookup key xs k := by
  by_cases h : key x = k <;> simp [lookup, h]

theorem lookup_append (xs ys : List ρ) (k : κ) :
    lookup key (xs ++ ys) k = (lookup key xs k).or (lookup key ys k) := by
  simp [lookup, find?_append]

variable {xs : List ρ}
variable {k : κ}
variable {x : ρ}

theorem lookup_eq_some (h : lookup key xs k = some x) : x ∈ xs ∧ key x = k := by
  refine ⟨mem_of_find?_eq_some h, ?_⟩
  simpa using find?_some h

theorem lookup_eq_none : lookup key xs k = none ↔ ∀ x ∈ xs, key x ≠ k := by
  simp [lookup]

/-- A change of entries that keeps their keys changes the entry of a key. -/
theorem lookup_map {σ : Type} {key' : σ → κ} {f : ρ → σ} (hkey : ∀ x, key' (f x) = key x)
    (xs : List ρ) (k : κ) : lookup key' (xs.map f) k = (lookup key xs k).map f := by
  induction xs with
  | nil => rfl
  | cons x xs ih =>
    rw [map_cons, lookup_cons, lookup_cons, hkey, ih]
    by_cases h : key x = k <;> simp [h]

theorem lookup_filter_ne {key : ρ → ℕ} (xs : List ρ) (dropped k : ℕ) :
    lookup key (xs.filter fun x => key x != dropped) k =
      if k = dropped then none else lookup key xs k := by
  induction xs with
  | nil => simp
  | cons x xs ih =>
    by_cases hx : key x = dropped
    · have hkeep : (key x != dropped) = false := by simp [hx]
      rw [filter_cons, hkeep, if_neg Bool.false_ne_true, ih, lookup_cons]
      by_cases hk : k = dropped
      · simp [hk]
      · have hne : key x ≠ k := fun h => hk (h.symm.trans hx)
        simp [hk, hne]
    · have hkeep : (key x != dropped) = true := by simp [hx]
      rw [filter_cons, hkeep, if_pos rfl, lookup_cons, lookup_cons, ih]
      by_cases hk : k = dropped
      · have hne : key x ≠ k := fun h => hx (h.trans hk)
        simp [hk, hx]
      · simp [hk]

/-- When keys are distinct, a lookup finds every entry. -/
theorem lookup_of_mem (hnodup : (xs.map key).Nodup) (hx : x ∈ xs) :
    lookup key xs (key x) = some x := by
  induction xs with
  | nil => cases hx
  | cons y ys ih =>
    rw [map_cons, nodup_cons] at hnodup
    rw [lookup_cons]
    rcases mem_cons.mp hx with rfl | hmem
    · simp
    · have hne : key y ≠ key x := fun h => hnodup.1 (h ▸ mem_map_of_mem hmem)
      rw [if_neg hne]
      exact ih hnodup.2 hmem

/-- Sorting by the key keeps the first entry of each key first. -/
theorem lookup_sortByKey {κ : Type} [DecidableEq κ] [Ord κ] [Std.TransOrd κ]
    {key : ρ → κ} (xs : List ρ) (k : κ) : lookup key (sortByKey key xs) k = lookup key xs k := by
  have hinsert : ∀ (x : ρ) (ys : List ρ),
      lookup key (ys.orderedInsert (fun a b => (compareOn key a b).isLE) x) k =
        lookup key (x :: ys) k := by
    intro x ys
    induction ys with
    | nil => rfl
    | cons y ys ih =>
      rw [orderedInsert_cons]
      by_cases hle : (compareOn key x y).isLE
      · rw [if_pos hle]
      · rw [if_neg hle, lookup_cons, ih, lookup_cons, lookup_cons, lookup_cons]
        by_cases hx : key x = k
        · -- the inserted entry goes past larger keys only
          have hne : key y ≠ k := by
            rintro hy
            apply hle
            have hself : compare k k = .eq := Std.ReflCmp.compare_self
            rw [compareOn, hx, hy, hself]
            rfl
          simp [hx, hne]
        · simp [hx]
  induction xs with
  | nil => rfl
  | cons x xs ih =>
    rw [sortByKey, sortBy, insertionSort_cons, hinsert, lookup_cons, lookup_cons]
    rw [sortByKey, sortBy] at ih
    rw [ih]

/-- When keys are distinct, a lookup finds exactly the entries of the list. -/
theorem lookup_eq_some_iff (hnodup : (xs.map key).Nodup) :
    lookup key xs k = some x ↔ x ∈ xs ∧ key x = k := by
  constructor
  · exact lookup_eq_some
  · rintro ⟨hx, rfl⟩
    exact lookup_of_mem hnodup hx

/-! ## Lists and ordered maps -/

section OrderedMaps

variable {κ ν : Type} [DecidableEq κ] [Ord κ] [Std.TransOrd κ] [Std.LawfulEqOrd κ] {key : ν → κ}

/-- Collecting a list with distinct keys keeps its lookups. -/
theorem getElem?_collectEntries_map {l : List ν} (hnodup : (l.map key).Nodup) (k : κ) :
    (collectEntries (l.map fun v => (key v, v)))[k]? = lookup key l k := by
  have hmem : ∀ k v, (k, v) ∈ l.map (fun v => (key v, v)) ↔ lookup key l k = some v := by
    intro k v
    rw [lookup_eq_some_iff hnodup, mem_map]
    constructor
    · rintro ⟨w, hw, hkey⟩
      cases hkey
      exact ⟨hw, rfl⟩
    · rintro ⟨hv, rfl⟩
      exact ⟨v, hv, rfl⟩
  ext v
  rw [getElem?_collectEntries, hmem]
  intro k v w hv hw
  rw [hmem] at hv hw
  exact Option.some.inj (hv.symm.trans hw)

/-- The values of a map whose values know their keys. -/
theorem lookup_values {m : BTreeMap κ ν} (hkey : ∀ k v, m[k]? = some v → key v = k) (k : κ) :
    lookup key m.values k = m[k]? := by
  ext v
  rw [lookup_eq_some_iff (map_key_values hkey ▸ Std.ExtTreeMap.nodup_keys), mem_values]
  constructor
  · rintro ⟨⟨k', hget⟩, rfl⟩
    rw [hkey k' v hget]
    exact hget
  · intro hget
    exact ⟨⟨k, hget⟩, hkey k v hget⟩

end OrderedMaps

end HomelabInventory
