import HomelabInventory.InsertionMap
import HomelabInventory.StableSorting
import Mathlib.Algebra.Group.Int.Defs
import Mathlib.Data.List.Perm.Subperm

/-!
# The cache of workspace runtimes

`WorkspaceRuntimeCache` of `lib/workspace-runtime-cache.ts`: a bounded number of runtimes is kept;
pruning disposes the least recently used ones, but never the active one or one that is busy.
-/

namespace HomelabInventory.RuntimeCache

open InsertionMap

/-! ## The cache -/

/-- A cached runtime with the sequence number of its last use. -/
structure StoredRuntime (Runtime : Type) where
  entry : Runtime
  accessSequence : ℕ
deriving DecidableEq

/-- A cache, with the `busy` fields of all runtimes and what was disposed so far. -/
structure Cache (Runtime : Type) where
  entries : List (String × StoredRuntime Runtime)
  capacity : ℕ
  activeKey : Option String
  sequence : ℕ
  busy : Runtime → Bool
  disposed : List Runtime

section Operations

variable {Runtime : Type} [DecidableEq Runtime]

/-- A new cache. -/
def empty (capacity : ℕ) (busy : Runtime → Bool) : Cache Runtime where
  entries := []
  capacity := capacity
  activeKey := none
  sequence := 0
  busy := busy
  disposed := []

/-- The constructor. -/
def create (capacity : ℤ) (busy : Runtime → Bool) : Except String (Cache Runtime) :=
  if capacity < 1 ∨ 2 ^ 53 - 1 < capacity then
    .error "Workspace runtime cache capacity must be a positive safe integer."
  else .ok (empty capacity.toNat busy)

/-- The runtime that is cached under a key. -/
def Cache.find (cache : Cache Runtime) (key : String) : Option (StoredRuntime Runtime) :=
  get? cache.entries key

/-- `disposeStored` -/
def disposeStored (cache : Cache Runtime) (key : String) (stored : StoredRuntime Runtime) :
    Cache Runtime :=
  if cache.find key = some stored then
    { cache with
      entries := InsertionMap.delete cache.entries key
      disposed := cache.disposed ++ [stored.entry] }
  else cache

/-- A runtime becomes the one that is cached under a key, used just now. -/
def Cache.store (cache : Cache Runtime) (key : String) (entry : Runtime) : Cache Runtime :=
  { cache with
    entries := InsertionMap.set cache.entries key ⟨entry, cache.sequence + 1⟩
    sequence := cache.sequence + 1 }

variable (keyOf : Runtime → String)

/-- A cached runtime is neither active nor busy. -/
def Cache.isIdle (cache : Cache Runtime) (entry : Runtime) : Bool :=
  cache.activeKey != some (keyOf entry) && !cache.busy entry

/-- The order of use. -/
def compareAccess (left right : StoredRuntime Runtime) : Ordering :=
  compare left.accessSequence right.accessSequence

instance : Std.TransCmp (@compareAccess Runtime) :=
  inferInstanceAs (Std.TransCmp (compareOn fun stored : StoredRuntime Runtime =>
    stored.accessSequence))

/-- The idle runtimes in the order of their last use. -/
def candidates (cache : Cache Runtime) : List (StoredRuntime Runtime) :=
  sortBy compareAccess
    ((cache.entries.map (·.2)).filter fun stored => cache.isIdle keyOf stored.entry)

/-- The loop of `prune`, for at most so many rounds. -/
def pruneLoop : ℕ → Cache Runtime → Cache Runtime
  | 0, cache => cache
  | rounds + 1, cache =>
    if cache.entries.length ≤ cache.capacity then cache
    else
      match (candidates keyOf cache).head? with
      | none => cache
      | some candidate =>
        pruneLoop rounds (disposeStored cache (keyOf candidate.entry) candidate)

/-- `prune`. Each round but the last disposes a runtime. -/
def prune (cache : Cache Runtime) : Cache Runtime := pruneLoop keyOf cache.entries.length cache

/-- What `insert` has done when it prunes. -/
def inserted (cache : Cache Runtime) (entry : Runtime) : Cache Runtime :=
  match cache.find (keyOf entry) with
  | some existing =>
    if existing.entry ≠ entry then
      (disposeStored cache (keyOf entry) existing).store (keyOf entry) entry
    else cache.store (keyOf entry) entry
  | none => cache.store (keyOf entry) entry

/-- `insert`, which returns the entry. -/
def insert (cache : Cache Runtime) (entry : Runtime) : Cache Runtime × Runtime :=
  (prune keyOf (inserted keyOf cache entry), entry)

/-- `activate`. The active key is written before it is looked up. -/
def activate (cache : Cache Runtime) (key : Option String) :
    Cache Runtime × Except String Unit :=
  let cache := { cache with activeKey := key }
  match key with
  | none => (prune keyOf cache, .ok ())
  | some key =>
    match cache.find key with
    | none => (cache, .error s!"Workspace runtime {key} is not cached.")
    | some stored => (prune keyOf (cache.store key stored.entry), .ok ())

/-- A runtime becomes busy or is no longer busy. -/
def Cache.mark (cache : Cache Runtime) (entry : Runtime) (busy : Bool) : Cache Runtime :=
  { cache with busy := fun other => if other = entry then busy else cache.busy other }

/-- `setBusy` -/
def setBusy (cache : Cache Runtime) (key : String) (busy : Bool) : Cache Runtime :=
  match cache.find key with
  | none => cache
  | some stored =>
    if busy then cache.mark stored.entry busy else prune keyOf (cache.mark stored.entry busy)

/-- `remove` -/
def remove (cache : Cache Runtime) (key : String) : Cache Runtime × Bool :=
  match cache.find key with
  | none => (cache, false)
  | some stored =>
    let cache := if cache.activeKey = some key then { cache with activeKey := none } else cache
    (disposeStored cache key stored, true)

/-- `clear` -/
def clear (cache : Cache Runtime) : Cache Runtime :=
  { cache with
    entries := []
    activeKey := none
    disposed := cache.disposed ++ cache.entries.map (·.2.entry) }

/-- A call of a method. -/
inductive Call (Runtime : Type) where
  | insert (entry : Runtime)
  | activate (key : Option String)
  | setBusy (key : String) (busy : Bool)
  | remove (key : String)
  | clear

/-- The cache after a call, whether it returns or throws. -/
def perform (cache : Cache Runtime) : Call Runtime → Cache Runtime
  | .insert entry => (insert keyOf cache entry).1
  | .activate key => (activate keyOf cache key).1
  | .setBusy key busy => setBusy keyOf cache key busy
  | .remove key => (remove cache key).1
  | .clear => clear cache

end Operations

/-! ## Rounds of pruning -/

section Rounds

variable {Runtime : Type} [DecidableEq Runtime] {keyOf : Runtime → String}

/-- Every runtime is cached under its own key, each key once. -/
structure Keyed (keyOf : Runtime → String) (cache : Cache Runtime) : Prop where
  nodup : (keys cache.entries).Nodup
  own_key : ∀ key stored, cache.find key = some stored → keyOf stored.entry = key

variable {cache : Cache Runtime}
variable {stored : StoredRuntime Runtime}
variable {key : String}

omit [DecidableEq Runtime] in
/-- What is cached is what is found under its key. -/
theorem Keyed.find_iff (h : Keyed keyOf cache) :
    cache.find key = some stored ↔ (key, stored) ∈ cache.entries :=
  get?_eq_some_iff_mem h.nodup

/-- The runtime that a round disposes: idle, and used before all other idle ones. -/
structure IsOldest (keyOf : Runtime → String) (cache : Cache Runtime)
    (candidate : StoredRuntime Runtime) : Prop where
  cached : cache.find (keyOf candidate.entry) = some candidate
  idle : cache.isIdle keyOf candidate.entry = true
  oldest : ∀ key stored, cache.find key = some stored →
    cache.isIdle keyOf stored.entry = true → candidate.accessSequence ≤ stored.accessSequence

omit [DecidableEq Runtime] in
/-- Candidates are the idle runtimes. -/
theorem mem_candidates (h : Keyed keyOf cache) :
    stored ∈ candidates keyOf cache ↔
      cache.find (keyOf stored.entry) = some stored ∧ cache.isIdle keyOf stored.entry = true := by
  rw [candidates, mem_sortBy, List.mem_filter, List.mem_map]
  constructor
  · rintro ⟨⟨⟨key, stored⟩, hmem, rfl⟩, hidle⟩
    have hfind := h.find_iff.mpr hmem
    exact ⟨by rw [h.own_key key stored hfind]; exact hfind, hidle⟩
  · rintro ⟨hfind, hidle⟩
    exact ⟨⟨_, h.find_iff.mp hfind, rfl⟩, hidle⟩

omit [DecidableEq Runtime] in
theorem isOldest_of_head? (h : Keyed keyOf cache) {candidate : StoredRuntime Runtime}
    (hhead : (candidates keyOf cache).head? = some candidate) : IsOldest keyOf cache candidate := by
  obtain ⟨rest, hcons⟩ := List.head?_eq_some_iff.mp hhead
  have hmem : candidate ∈ candidates keyOf cache := by
    rw [hcons]
    exact List.mem_cons_self
  obtain ⟨hfind, hidle⟩ := (mem_candidates h).mp hmem
  refine ⟨hfind, hidle, fun key stored hstored hidle' => ?_⟩
  have hsorted := pairwise_isLE_sortBy compareAccess
    ((cache.entries.map (·.2)).filter fun stored => cache.isIdle keyOf stored.entry)
  rw [show sortBy compareAccess _ = candidates keyOf cache from rfl, hcons,
    List.pairwise_cons] at hsorted
  have hmem' : stored ∈ candidates keyOf cache :=
    (mem_candidates h).mpr ⟨by rw [h.own_key key stored hstored]; exact hstored, hidle'⟩
  rw [hcons] at hmem'
  rcases List.mem_cons.mp hmem' with rfl | hrest
  · exact Nat.le_refl _
  · exact Nat.isLE_compare.mp (hsorted.1 stored hrest)

/-- A runtime that is cached is disposed and goes. -/
theorem disposeStored_of_find (h : cache.find key = some stored) :
    disposeStored cache key stored =
      { cache with
        entries := InsertionMap.delete cache.entries key
        disposed := cache.disposed ++ [stored.entry] } := if_pos h

/-- What is found once a cached runtime is gone. -/
theorem find_disposeStored (h : cache.find key = some stored) (other : String) :
    (disposeStored cache key stored).find other =
      if other = key then none else cache.find other := by
  rw [disposeStored_of_find h]
  by_cases hother : other = key
  · rw [if_pos hother, hother]
    exact get?_delete_self _ _
  · rw [if_neg hother]
    exact get?_delete_of_ne hother

/-- Other runtimes stay under their own keys. -/
theorem Keyed.disposeStored (h : Keyed keyOf cache) (hfind : cache.find key = some stored) :
    Keyed keyOf (disposeStored cache key stored) := by
  refine ⟨?_, fun other stored' hother => ?_⟩
  · rw [disposeStored_of_find hfind]
    exact nodup_keys_delete h.nodup key
  · rw [find_disposeStored hfind] at hother
    by_cases heq : other = key
    · rw [if_pos heq] at hother
      exact absurd hother (by simp)
    · rw [if_neg heq] at hother
      exact h.own_key other stored' hother

/-- **A round of pruning**: the cache is too large, and the oldest idle runtime is disposed. -/
inductive Round (keyOf : Runtime → String) (cache : Cache Runtime) : Cache Runtime → Prop where
  | dispose (candidate : StoredRuntime Runtime) (hlarge : cache.capacity < cache.entries.length)
      (holdest : IsOldest keyOf cache candidate) :
      Round keyOf cache (disposeStored cache (keyOf candidate.entry) candidate)

theorem pruneLoop_rec {P : Cache Runtime → Prop} (hround : ∀ cache cache', P cache →
    Keyed keyOf cache → Round keyOf cache cache' → P cache') (rounds : ℕ)
    (hkeyed : Keyed keyOf cache) (h : P cache) :
    P (pruneLoop keyOf rounds cache) ∧ Keyed keyOf (pruneLoop keyOf rounds cache) := by
  induction rounds generalizing cache with
  | zero => exact ⟨h, hkeyed⟩
  | succ rounds ih =>
    rw [pruneLoop]
    by_cases hsmall : cache.entries.length ≤ cache.capacity
    · rw [if_pos hsmall]
      exact ⟨h, hkeyed⟩
    · rw [if_neg hsmall]
      cases hhead : (candidates keyOf cache).head? with
      | none => exact ⟨h, hkeyed⟩
      | some candidate =>
        have holdest := isOldest_of_head? hkeyed hhead
        exact ih (hkeyed.disposeStored holdest.cached)
          (hround _ _ h hkeyed (.dispose candidate (by omega) holdest))

/-- **What rounds keep, pruning keeps.** -/
theorem prune_rec {P : Cache Runtime → Prop} (hround : ∀ cache cache', P cache →
    Keyed keyOf cache → Round keyOf cache cache' → P cache')
    (hkeyed : Keyed keyOf cache) (h : P cache) :
    P (prune keyOf cache) ∧ Keyed keyOf (prune keyOf cache) := pruneLoop_rec hround _ hkeyed h

theorem pruneLoop_settled (rounds : ℕ) (hkeyed : Keyed keyOf cache)
    (hrounds : cache.entries.length ≤ rounds) :
    (pruneLoop keyOf rounds cache).entries.length ≤ (pruneLoop keyOf rounds cache).capacity ∨
      ∀ key stored, (pruneLoop keyOf rounds cache).find key = some stored →
        (pruneLoop keyOf rounds cache).isIdle keyOf stored.entry = false := by
  induction rounds generalizing cache with
  | zero => exact Or.inl (Nat.le_trans hrounds (Nat.zero_le _))
  | succ rounds ih =>
    rw [pruneLoop]
    by_cases hsmall : cache.entries.length ≤ cache.capacity
    · rw [if_pos hsmall]
      exact Or.inl hsmall
    · rw [if_neg hsmall]
      cases hhead : (candidates keyOf cache).head? with
      | none =>
        refine Or.inr fun key stored hfind => ?_
        by_contra hidle
        have hmem : stored ∈ candidates keyOf cache := (mem_candidates hkeyed).mpr
          ⟨by rw [hkeyed.own_key key stored hfind]; exact hfind, by simpa using hidle⟩
        rw [List.head?_eq_none_iff.mp hhead] at hmem
        exact absurd hmem List.not_mem_nil
      | some candidate =>
        have holdest := isOldest_of_head? hkeyed hhead
        have hlength := length_delete hkeyed.nodup holdest.cached
        refine ih (hkeyed.disposeStored holdest.cached) ?_
        rw [disposeStored_of_find holdest.cached]
        change (InsertionMap.delete _ _).length ≤ rounds
        omega

/-- **Pruning ends with a small cache or without idle runtimes.** -/
theorem prune_settled (hkeyed : Keyed keyOf cache) :
    (prune keyOf cache).entries.length ≤ (prune keyOf cache).capacity ∨
      ∀ key stored, (prune keyOf cache).find key = some stored →
        (prune keyOf cache).isIdle keyOf stored.entry = false :=
  pruneLoop_settled _ hkeyed (Nat.le_refl _)

end Rounds

end HomelabInventory.RuntimeCache
