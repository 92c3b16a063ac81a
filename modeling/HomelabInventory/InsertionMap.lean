import Mathlib.Data.List.Induction
import Mathlib.Data.List.Nodup

/-!
# Maps in insertion order

Maps that iterate in the order in which their keys were first set, as lists of
entries with a key at most once.
-/

namespace HomelabInventory

open List Option

universe u v

variable {κ : Type u} {ν : Type v} [DecidableEq κ]

namespace InsertionMap

/-- The value of a key. -/
def get? (entries : List (κ × ν)) (key : κ) : Option ν :=
  (entries.find? fun entry => decide (entry.1 = key)).map (·.2)

/-- Set the value of a key, in its place when it has one. -/
def set (entries : List (κ × ν)) (key : κ) (value : ν) : List (κ × ν) :=
  match entries with
  | [] => [(key, value)]
  | entry :: rest =>
    if entry.1 = key then (key, value) :: rest else entry :: set rest key value

/-- Remove a key. -/
def delete (entries : List (κ × ν)) (key : κ) : List (κ × ν) :=
  entries.filter fun entry => decide (entry.1 ≠ key)

/-- The map of a list of entries, later entries replacing earlier ones. -/
def ofEntries (entries : List (κ × ν)) : List (κ × ν) :=
  entries.foldl (fun m entry => set m entry.1 entry.2) []

@[simp] theorem get?_nil (key : κ) : get? ([] : List (κ × ν)) key = none := rfl

theorem get?_cons (entry : κ × ν) (rest : List (κ × ν)) (key : κ) :
    get? (entry :: rest) key = if entry.1 = key then some entry.2 else get? rest key := by
  by_cases h : entry.1 = key <;> simp [get?, h]

theorem get?_set (entries : List (κ × ν)) (key : κ) (value : ν) (other : κ) :
    get? (set entries key value) other = if other = key then some value else get? entries other := by
  induction entries with
  | nil => simp [set, get?_cons, eq_comm]
  | cons entry rest ih =>
    by_cases hkey : entry.1 = key
    · by_cases hother : other = key
      · simp [set, hkey, hother, get?_cons]
      · have hne : ¬key = other := fun h => hother h.symm
        simp [set, hkey, hother, hne, get?_cons]
    · by_cases hother : other = key
      · subst hother
        simp [set, hkey, get?_cons, ih]
      · simp [set, hkey, hother, get?_cons, ih]

variable {entries more : List (κ × ν)}
variable {key : κ}

/-- A key that was never set has no value. -/
theorem get?_eq_none : get? entries key = none ↔ ∀ entry ∈ entries, entry.1 ≠ key := by
  simp [get?]

variable {value : ν}

/-- A value that is found belongs to an entry. -/
theorem mem_of_get?_eq_some (h : get? entries key = some value) : (key, value) ∈ entries := by
  rw [get?, map_eq_some_iff] at h
  obtain ⟨entry, hfind, rfl⟩ := h
  have hkey := find?_some hfind
  rw [decide_eq_true_iff] at hkey
  rw [← hkey]
  exact mem_of_find?_eq_some hfind

/-- Removing a key keeps the values of the others. -/
theorem get?_delete_of_ne {key other : κ} (hne : other ≠ key) :
    get? (delete entries key) other = get? entries other := by
  induction entries with
  | nil => rfl
  | cons entry rest ih =>
    by_cases hkey : entry.1 = key
    · have hcons : delete (entry :: rest) key = delete rest key := by simp [delete, hkey]
      have hother : entry.1 ≠ other := fun h => hne (h ▸ hkey)
      rw [hcons, ih, get?_cons, if_neg hother]
    · have hcons : delete (entry :: rest) key = entry :: delete rest key := by
        simp [delete, hkey]
      rw [hcons, get?_cons, get?_cons, ih]

/-- Keeping the entries of some keys keeps their values. -/
theorem get?_filter_key (entries : List (κ × ν)) (keep : κ → Bool) (key : κ) :
    get? (entries.filter fun entry => keep entry.1) key =
      if keep key then get? entries key else none := by
  induction entries with
  | nil => simp
  | cons entry rest ih =>
    rw [filter_cons, get?_cons]
    by_cases hkey : entry.1 = key
    · cases hkeep : keep key <;> simp [hkey, hkeep, ih, get?_cons]
    · split <;> simp [hkey, ih, get?_cons]

/-- The value of a key in the map that gives each of some keys its value, if it has one. -/
theorem get?_filterMap_keys (keys : List κ) (value : κ → Option ν) (key : κ) :
    get? (keys.filterMap fun key => (value key).map fun v => (key, v)) key =
      if key ∈ keys then value key else none := by
  induction keys with
  | nil => simp
  | cons first rest ih =>
    rw [filterMap_cons]
    cases hvalue : value first with
    | none =>
      simp only [map_none, ih, mem_cons]
      by_cases hfirst : key = first
      · simp [hfirst, hvalue]
      · simp [hfirst]
    | some v =>
      simp only [map_some, get?_cons, ih, mem_cons]
      by_cases hfirst : key = first
      · simp [hfirst, hvalue]
      · simp [hfirst, Ne.symm hfirst]

theorem mem_set {entry : κ × ν} (h : entry ∈ set entries key value) :
    entry ∈ entries ∨ entry = (key, value) := by
  induction entries with
  | nil =>
    rw [set, mem_singleton] at h
    exact Or.inr h
  | cons first rest ih =>
    rw [set] at h
    split at h
    · rcases mem_cons.mp h with rfl | h
      · exact Or.inr rfl
      · exact Or.inl (mem_cons_of_mem _ h)
    · rcases mem_cons.mp h with rfl | h
      · exact Or.inl mem_cons_self
      · rcases ih h with h | h
        · exact Or.inl (mem_cons_of_mem _ h)
        · exact Or.inr h

/-- The map of a list has only entries of the list. -/
theorem mem_ofEntries {entry : κ × ν} (h : entry ∈ ofEntries entries) : entry ∈ entries := by
  induction entries using List.reverseRecOn with
  | nil => exact h
  | append_singleton entries last ih =>
    rw [ofEntries, foldl_append, foldl_cons, foldl_nil] at h
    rw [mem_append, mem_singleton]
    rcases mem_set h with h | h
    · exact Or.inl (ih h)
    · exact Or.inr h

/-- The value of a key is the one it was set to last. -/
theorem get?_ofEntries_append (entries : List (κ × ν)) (entry : κ × ν) (key : κ) :
    get? (ofEntries (entries ++ [entry])) key =
      if key = entry.1 then some entry.2 else get? (ofEntries entries) key := by
  rw [ofEntries, foldl_append, foldl_cons, foldl_nil, get?_set]
  rfl

/-- The values of the map of a list are those of its last entries. -/
theorem get?_ofEntries (entries : List (κ × ν)) (key : κ) :
    get? (ofEntries entries) key = get? entries.reverse key := by
  induction entries using List.reverseRecOn with
  | nil => rfl
  | append_singleton entries entry ih =>
    rw [get?_ofEntries_append, ih, reverse_append, reverse_singleton,
      singleton_append, get?_cons]
    simp only [eq_comm]

/-- When all entries of a key have one value, this is its value in the map of the list. -/
theorem get?_ofEntries_of_forall {value : Option ν} (h : ∀ v, (key, v) ∈ entries ↔ value = some v) :
    get? (ofEntries entries) key = value := by
  cases hget : get? (ofEntries entries) key with
  | some v => exact ((h v).mp (mem_ofEntries (mem_of_get?_eq_some hget))).symm
  | none =>
    rw [get?_ofEntries, get?_eq_none] at hget
    cases value with
    | none => rfl
    | some v => exact absurd rfl (hget _ (mem_reverse.mpr ((h v).mpr rfl)))

/-- When a list sets each key once, the map of the list has exactly its entries. -/
theorem get?_ofEntries_eq_some (hnodup : (entries.map (·.1)).Nodup) :
    get? (ofEntries entries) key = some value ↔ (key, value) ∈ entries := by
  induction entries using List.reverseRecOn with
  | nil => simp [ofEntries]
  | append_singleton entries entry ih =>
    rw [map_append, nodup_append] at hnodup
    obtain ⟨hentries, -, hdisjoint⟩ := hnodup
    rw [get?_ofEntries_append, mem_append, mem_singleton]
    by_cases hkey : key = entry.1
    · subst hkey
      simp only [if_true, Option.some.injEq]
      constructor
      · rintro rfl
        exact Or.inr rfl
      · rintro (hmem | heq)
        · exact absurd rfl (hdisjoint _ (mem_map_of_mem hmem) _ (by simp))
        · exact (congrArg Prod.snd heq).symm
    · rw [if_neg hkey, ih hentries]
      constructor
      · exact Or.inl
      · rintro (hmem | heq)
        · exact hmem
        · exact absurd (congrArg Prod.fst heq) hkey

/-- Setting a key that is not there appends its entry. -/
theorem set_of_not_mem (h : ∀ entry ∈ entries, entry.1 ≠ key) :
    set entries key value = entries ++ [(key, value)] := by
  induction entries with
  | nil => rfl
  | cons entry rest ih =>
    rw [set, if_neg (h entry mem_cons_self),
      ih fun other hother => h other (mem_cons_of_mem _ hother), cons_append]

/-- Setting a key to the only value it has changes nothing. -/
theorem set_of_mem (hmem : (key, value) ∈ entries) (h : ∀ v, (key, v) ∈ entries → v = value) :
    set entries key value = entries := by
  induction entries with
  | nil => exact nomatch hmem
  | cons entry rest ih =>
    rw [set]
    split
    · rename_i hkey
      have hvalue := h entry.2 (by rw [← hkey]; exact mem_cons_self)
      rw [← hkey, ← hvalue]
    · rename_i hkey
      rcases mem_cons.mp hmem with rfl | hmem
      · exact absurd rfl hkey
      · rw [ih hmem fun v hv => h v (mem_cons_of_mem _ hv)]

/-- When the keys of a list determine its entries, the first entry of a kind in
the map of the list is the first of the list. -/
theorem find?_ofEntries
    (h : ∀ entry ∈ entries, ∀ other ∈ entries, entry.1 = other.1 → entry = other)
    (p : κ × ν → Bool) : (ofEntries entries).find? p = entries.find? p := by
  induction entries using List.reverseRecOn with
  | nil => rfl
  | append_singleton entries last ih =>
    have hentries := ih fun entry hentry other hother =>
      h entry (mem_append_left _ hentry) other (mem_append_left _ hother)
    have hlast : last ∈ entries ++ [last] := mem_append_right _ (mem_singleton_self _)
    rw [ofEntries, foldl_append, foldl_cons, foldl_nil]
    change (set (ofEntries entries) last.1 last.2).find? p = _
    by_cases hold : ∃ entry ∈ ofEntries entries, entry.1 = last.1
    · obtain ⟨entry, hentry, hkey⟩ := hold
      obtain rfl : entry = last :=
        h entry (mem_append_left _ (mem_ofEntries hentry)) last hlast hkey
      rw [set_of_mem hentry, hentries, find?_append]
      · cases hfind : entries.find? p with
        | some found => rfl
        | none =>
          have hp := find?_eq_none.mp hfind entry (mem_ofEntries hentry)
          rw [none_or, find?_cons, Bool.eq_false_iff.mpr hp, find?_nil]
      · intro v hv
        have hsame := h _ (mem_append_left _ (mem_ofEntries hv)) entry hlast rfl
        exact congrArg Prod.snd hsame
    · have hfresh : ∀ entry ∈ ofEntries entries, entry.1 ≠ last.1 :=
        fun entry hentry hkey => hold ⟨entry, hentry, hkey⟩
      rw [set_of_not_mem hfresh, find?_append, find?_append, hentries]

/-! ## Keys -/

/-- The keys, in insertion order. -/
def keys (entries : List (κ × ν)) : List κ := entries.map (·.1)

/-- The distinct elements of a list, in the order in which they first occur. -/
def distinct (l : List κ) : List κ := keys (ofEntries (l.map fun k => (k, ())))

theorem keys_set (entries : List (κ × ν)) (key : κ) (value : ν) :
    keys (set entries key value) =
      if key ∈ keys entries then keys entries else keys entries ++ [key] := by
  induction entries with
  | nil => simp [set, keys]
  | cons entry rest ih =>
    rw [set]
    by_cases hkey : entry.1 = key
    · simp [keys, hkey]
    · have hne : ¬key = entry.1 := fun h => hkey h.symm
      rw [if_neg hkey]
      simp only [keys, map_cons, mem_cons, hne, false_or] at ih ⊢
      rw [ih]
      by_cases hmem : key ∈ rest.map (·.1) <;> simp [hmem]

/-- The map of a list has each key once, and has the keys of the list. -/
theorem keys_ofEntries (entries : List (κ × ν)) :
    (keys (ofEntries entries)).Nodup ∧ ∀ k, k ∈ keys (ofEntries entries) ↔ k ∈ keys entries := by
  induction entries using List.reverseRecOn with
  | nil => exact ⟨nodup_nil, fun _ => Iff.rfl⟩
  | append_singleton entries entry ih =>
    obtain ⟨hnodup, hmem⟩ := ih
    rw [ofEntries, foldl_append, foldl_cons, foldl_nil, keys_set]
    rw [ofEntries] at hnodup hmem
    split
    · rename_i hkey
      refine ⟨hnodup, ?_⟩
      intro k
      rw [hmem] at hkey
      rw [hmem, keys, keys, map_append, mem_append, map_singleton,
        mem_singleton, iff_self_or]
      rintro rfl
      exact hkey
    · rename_i hkey
      refine ⟨?_, ?_⟩
      · rw [nodup_append]
        refine ⟨hnodup, nodup_singleton _, ?_⟩
        rintro k hk k' hk' rfl
        rw [mem_singleton.mp hk'] at hk
        exact hkey hk
      · intro k
        simp only [keys, map_append, mem_append, map_cons, map_nil] at hmem ⊢
        rw [hmem]

theorem nodup_distinct (l : List κ) : (distinct l).Nodup := (keys_ofEntries _).1

theorem mem_distinct {l : List κ} {k : κ} : k ∈ distinct l ↔ k ∈ l := by
  rw [distinct, (keys_ofEntries _).2]
  simp [keys]

/-! ## Setting several keys -/

/-- Set the keys of some entries, one after the other. -/
def setAll (entries more : List (κ × ν)) : List (κ × ν) :=
  more.foldl (fun m entry => set m entry.1 entry.2) entries

theorem setAll_cons (entries : List (κ × ν)) (entry : κ × ν) (more : List (κ × ν)) :
    setAll entries (entry :: more) = setAll (set entries entry.1 entry.2) more := rfl

/-- The entries that are set come first, when they set each key once. -/
theorem get?_setAll (hnodup : (keys more).Nodup) (entries : List (κ × ν)) (key : κ) :
    get? (setAll entries more) key = (get? more key).or (get? entries key) := by
  induction more generalizing entries with
  | nil => rfl
  | cons entry rest ih =>
    rw [keys, map_cons, nodup_cons] at hnodup
    rw [setAll_cons, ih hnodup.2, get?_cons, get?_set]
    by_cases hkey : entry.1 = key
    · subst hkey
      have hnone : get? rest entry.1 = none := get?_eq_none.mpr fun other hother heq =>
        hnodup.1 (mem_map.mpr ⟨other, hother, heq⟩)
      rw [hnone, if_pos rfl, if_pos rfl, none_or, some_or]
    · rw [if_neg hkey, if_neg (Ne.symm hkey)]

variable (h : (keys entries).Nodup)
include h

theorem nodup_keys_set (key : κ) (value : ν) : (keys (set entries key value)).Nodup := by
  rw [keys_set]
  split
  · exact h
  · rename_i hnew
    refine nodup_append.mpr ⟨h, nodup_singleton _, ?_⟩
    rintro other hother key' hkey' rfl
    exact hnew (mem_singleton.mp hkey' ▸ hother)

/-- Where keys are there once, what is found are the entries. -/
theorem get?_eq_some_iff_mem :
    get? entries key = some value ↔ (key, value) ∈ entries := by
  refine ⟨mem_of_get?_eq_some, fun hmem => ?_⟩
  induction entries with
  | nil => exact absurd hmem not_mem_nil
  | cons entry rest ih =>
    rw [keys, map_cons, nodup_cons] at h
    rw [get?_cons]
    rcases mem_cons.mp hmem with rfl | hmem
    · exact if_pos rfl
    · have hne : entry.1 ≠ key := fun heq => h.1 (heq ▸ mem_map_of_mem hmem)
      rw [if_neg hne]
      exact ih h.2 hmem

omit h in
theorem get?_delete_self (entries : List (κ × ν)) (key : κ) :
    get? (delete entries key) key = none := by
  rw [get?_eq_none]
  intro entry hentry
  simpa using (mem_filter.mp hentry).2

theorem length_delete (hget : get? entries key = some value) :
    (delete entries key).length + 1 = entries.length := by
  induction entries with
  | nil => exact absurd hget (by simp)
  | cons entry rest ih =>
    rw [keys, map_cons, nodup_cons] at h
    rw [get?_cons] at hget
    by_cases hkey : entry.1 = key
    · have hrest : delete rest key = rest := by
        rw [delete, filter_eq_self]
        intro other hother
        have hne : other.1 ≠ key := fun heq =>
          h.1 (by rw [hkey, ← heq]; exact mem_map_of_mem hother)
        simpa using hne
      have hcons : delete (entry :: rest) key = delete rest key := by simp [delete, hkey]
      rw [hcons, hrest, length_cons]
    · rw [if_neg hkey] at hget
      have hcons : delete (entry :: rest) key = entry :: delete rest key := by
        simp [delete, hkey]
      rw [hcons, length_cons, length_cons, ih h.2 hget]

theorem nodup_keys_delete (key : κ) : (keys (delete entries key)).Nodup :=
  h.sublist ((filter_sublist).map _)

end InsertionMap

end HomelabInventory
