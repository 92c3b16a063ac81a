import HomelabInventory.RuntimeCacheInvariant

/-!
# Runs of the runtime cache

What holds after every call of a run: the active key is cached, every runtime that was inserted is
cached or was disposed once, pruning follows the order of use, and the cache is only too large when
its runtimes are active or busy. It holds exactly in the runs that activate cached keys only, insert
no disposed runtime again and leave room for what they insert.
-/

namespace HomelabInventory.RuntimeCache

open List

variable {Runtime : Type} [DecidableEq Runtime]

section Calls

variable {keyOf : Runtime → String}

/-! ## One call -/

/-- **What every call keeps.** -/
structure Invariant (keyOf : Runtime → String) (used : List Runtime) (cache : Cache Runtime) :
    Prop where
  tied : Tied keyOf used cache
  active : cache.ActiveCached
  bounded : cache.Bounded

variable {cache : Cache Runtime}
variable {used : List Runtime}

/-- Pruning makes what it prunes bounded. -/
theorem Tied.invariant_prune (h : Tied keyOf used cache) (hactive : cache.ActiveCached) :
    Invariant keyOf used (RuntimeCache.prune keyOf cache) :=
  ⟨h.prune, hactive.prune h.keyed, bounded_prune h.keyed⟩

theorem Invariant.insert (h : Invariant keyOf used cache) {entry : Runtime}
    (hnew : entry ∉ cache.disposed) :
    Invariant keyOf (entry :: used) (prune keyOf (inserted keyOf cache entry)) := by
  refine (h.tied.inserted hnew).invariant_prune fun key hkey => ?_
  obtain ⟨-, hactive, -⟩ := inserted_frame keyOf cache entry
  rw [hactive] at hkey
  rw [find_inserted]
  by_cases hentry : key = keyOf entry
  · rw [if_pos hentry]
    rfl
  · rw [if_neg hentry]
    exact h.active key hkey

variable {key : String}
variable {stored : StoredRuntime Runtime}

theorem Tied.activated (h : Tied keyOf used cache) (hfind : cache.find key = some stored) :
    Tied keyOf (stored.entry :: used)
      (({ cache with activeKey := some key } : Cache Runtime).store key stored.entry) := by
  have hkey := h.keyed.own_key key stored hfind
  have htied : Tied keyOf used ({ cache with activeKey := some key } : Cache Runtime) :=
    h.congr rfl rfl rfl
  have hstored : Tied keyOf (stored.entry :: used)
      (({ cache with activeKey := some key } : Cache Runtime).store (keyOf stored.entry)
        stored.entry) := by
    refine htied.store (fun stored' hstored' => ?_) (h.live key stored hfind)
    rw [hkey] at hstored'
    rw [Option.some.inj (hstored'.symm.trans hfind)]
  rw [hkey] at hstored
  exact hstored

theorem Invariant.activate (h : Invariant keyOf used cache) (hfind : cache.find key = some stored) :
    Invariant keyOf (stored.entry :: used)
      (prune keyOf
        (({ cache with activeKey := some key } : Cache Runtime).store key stored.entry)) := by
  refine (h.tied.activated hfind).invariant_prune fun other hother => ?_
  obtain rfl : key = other := Option.some.inj hother
  rw [find_store, if_pos rfl]
  rfl

theorem Invariant.deactivate (h : Invariant keyOf used cache) :
    Invariant keyOf used (prune keyOf { cache with activeKey := none }) :=
  Tied.invariant_prune (h.tied.congr rfl rfl rfl) fun _ hkey => nomatch hkey

theorem Invariant.setBusy (h : Invariant keyOf used cache) (key : String) (busy : Bool) :
    Invariant keyOf used (setBusy keyOf cache key busy) := by
  rw [RuntimeCache.setBusy]
  cases hfind : cache.find key with
  | none => exact h
  | some stored =>
    have htied : Tied keyOf used (cache.mark stored.entry busy) := h.tied.congr rfl rfl rfl
    cases busy with
    | false => exact htied.invariant_prune h.active
    | true =>
      refine ⟨htied, h.active, fun hlarge other stored' hother hactive => ?_⟩
      change (if stored'.entry = stored.entry then true else cache.busy stored'.entry) = true
      by_cases heq : stored'.entry = stored.entry
      · rw [if_pos heq]
      · rw [if_neg heq]
        exact h.bounded hlarge other stored' hother hactive

theorem Invariant.remove (h : Invariant keyOf used cache) (key : String) :
    Invariant keyOf used (remove cache key).1 := by
  rw [RuntimeCache.remove]
  cases hfind : cache.find key with
  | none => exact h
  | some stored =>
    change Invariant keyOf used (disposeStored
      (if cache.activeKey = some key then { cache with activeKey := none } else cache) key stored)
    have hlength := InsertionMap.length_delete h.tied.keyed.nodup hfind
    by_cases hactive : cache.activeKey = some key
    · rw [if_pos hactive]
      have htied : Tied keyOf used ({ cache with activeKey := none } : Cache Runtime) :=
        h.tied.congr rfl rfl rfl
      have hfind' : ({ cache with activeKey := none } : Cache Runtime).find key = some stored :=
        hfind
      refine ⟨htied.disposeStored hfind', fun other hother => ?_,
        fun hlarge other stored' hother _ => ?_⟩
      · rw [disposeStored_of_find hfind'] at hother
        exact nomatch hother
      · rw [find_disposeStored hfind'] at hother
        rw [disposeStored_of_find hfind'] at hlarge ⊢
        by_cases hne : other = key
        · rw [if_pos hne] at hother
          exact nomatch hother
        · rw [if_neg hne] at hother
          change cache.capacity < (InsertionMap.delete cache.entries key).length at hlarge
          refine h.bounded (by omega) other stored' hother ?_
          rw [hactive, ne_eq, Option.some.injEq]
          exact fun heq => hne heq.symm
    · rw [if_neg hactive]
      refine ⟨h.tied.disposeStored hfind, fun other hother => ?_,
        fun hlarge other stored' hother hother' => ?_⟩
      · rw [disposeStored_of_find hfind] at hother
        rw [find_disposeStored hfind, if_neg]
        · exact h.active other hother
        · rintro rfl
          exact hactive hother
      · rw [find_disposeStored hfind] at hother
        rw [disposeStored_of_find hfind] at hlarge hother' ⊢
        by_cases hne : other = key
        · rw [if_pos hne] at hother
          exact nomatch hother
        · rw [if_neg hne] at hother
          change cache.capacity < (InsertionMap.delete cache.entries key).length at hlarge
          exact h.bounded (by omega) other stored' hother hother'

theorem Invariant.clear (h : Invariant keyOf used cache) : Invariant keyOf used (clear cache) := by
  have hfind : ∀ key stored, ¬ (RuntimeCache.clear cache).find key = some stored :=
    fun key stored hfind => nomatch hfind
  have hmem : ∀ entry, entry ∈ cache.entries.map (·.2.entry) ↔ cache.Caches keyOf entry := by
    intro entry
    rw [List.mem_map]
    constructor
    · rintro ⟨⟨key, stored⟩, hcached, rfl⟩
      have hstored := h.tied.keyed.find_iff.mpr hcached
      exact ⟨stored, by rw [h.tied.keyed.own_key key stored hstored]; exact hstored, rfl⟩
    · rintro ⟨stored, hstored, rfl⟩
      exact ⟨_, h.tied.keyed.find_iff.mp hstored, rfl⟩
  refine ⟨⟨⟨nodup_nil, fun key stored hkey => absurd hkey (hfind key stored)⟩, h.tied.counted,
    fun key stored hkey => absurd hkey (hfind key stored),
    fun key stored hkey => absurd hkey (hfind key stored), ?_, ?_⟩,
    (fun key hkey => nomatch hkey), fun hlarge => absurd hlarge (Nat.not_lt_zero _)⟩
  · -- what is cached was not disposed, and is cached once
    refine nodup_append.mpr ⟨h.tied.once, ?_, ?_⟩
    · refine List.Nodup.of_map keyOf ?_
      have hkeys : (cache.entries.map (·.2.entry)).map keyOf = InsertionMap.keys cache.entries := by
        rw [map_map, InsertionMap.keys]
        refine map_congr_left ?_
        rintro ⟨key, stored⟩ hcached
        exact h.tied.keyed.own_key key stored (h.tied.keyed.find_iff.mpr hcached)
      rw [hkeys]
      exact h.tied.keyed.nodup
    · rintro entry hdisposed other hother rfl
      obtain ⟨stored, hstored, rfl⟩ := (hmem entry).mp hother
      exact h.tied.live _ stored hstored hdisposed
  · intro entry hentry
    refine Or.inl (mem_append.mpr ((h.tied.known entry hentry).imp_right fun hcached => ?_))
    exact (hmem entry).mpr hcached

theorem perform_activate (hfind : cache.find key = some stored) :
    perform keyOf cache (.activate (some key)) = prune keyOf
      (({ cache with activeKey := some key } : Cache Runtime).store key stored.entry) := by
  have hfind' : ({ cache with activeKey := some key } : Cache Runtime).find key = some stored :=
    hfind
  simp only [perform, RuntimeCache.activate, hfind']

/-- What activating a key does that is not cached. -/
theorem perform_activate_missing (hfind : cache.find key = none) :
    perform keyOf cache (.activate (some key)) = { cache with activeKey := some key } := by
  have hfind' : ({ cache with activeKey := some key } : Cache Runtime).find key = none := hfind
  simp only [perform, RuntimeCache.activate, hfind']

/-- **An allowed call keeps the invariant.** -/
theorem Invariant.perform (h : Invariant keyOf used cache) {call : Call Runtime}
    (hallowed : Allowed keyOf cache call) :
    Invariant keyOf (usedBy cache call ++ used) (perform keyOf cache call) := by
  cases call with
  | insert entry => exact h.insert hallowed.1
  | activate key =>
    cases key with
    | none => exact h.deactivate
    | some key =>
      obtain ⟨stored, hfind⟩ := Option.isSome_iff_exists.mp hallowed
      have hused : usedBy cache (.activate (some key)) = [stored.entry] := by
        simp only [usedBy, hfind, Option.toList_some, List.map_cons, map_nil]
      rw [perform_activate hfind, hused]
      exact h.activate hfind
  | setBusy key busy => exact h.setBusy key busy
  | remove key => exact h.remove key
  | clear => exact h.clear

end Calls

/-! ## All calls of a run -/

section Runs

variable {keyOf : Runtime → String} {capacity : ℕ} {busy : Runtime → Bool}

theorem historyOf_snoc (calls : List (Call Runtime)) (call : Call Runtime) :
    historyOf keyOf capacity busy (calls ++ [call]) =
      (historyOf keyOf capacity busy calls).after keyOf call := by
  rw [historyOf, historyOf, foldl_append]
  rfl

variable {calls : List (Call Runtime)}

theorem mem_used_of_inserted {entry : Runtime} (h : entry ∈ insertedBy calls) :
    entry ∈ (historyOf keyOf capacity busy calls).used := by
  induction calls using List.reverseRecOn with
  | nil => exact absurd h not_mem_nil
  | append_singleton calls call ih =>
    rw [historyOf_snoc]
    change entry ∈ usedBy _ call ++ _
    rw [mem_append]
    rw [insertedBy, filterMap_append, mem_append] at h
    rcases h with h | h
    · exact Or.inr (ih h)
    · cases call with
      | insert other => exact Or.inl h
      | activate key => exact absurd h not_mem_nil
      | setBusy key busy => exact absurd h not_mem_nil
      | remove key => exact absurd h not_mem_nil
      | clear => exact absurd h not_mem_nil

/-- A new cache has nothing to keep. -/
theorem invariant_empty : Invariant keyOf [] (empty capacity busy) :=
  ⟨⟨⟨nodup_nil, fun _ _ h => nomatch h⟩, rfl, (fun _ _ h => nomatch h),
    (fun _ _ h => nomatch h), nodup_nil, (fun _ h => nomatch h)⟩, (fun _ h => nomatch h),
    fun h => absurd h (Nat.not_lt_zero _)⟩

variable {cache cache' : Cache Runtime}

theorem Invariant.sound {used inserted : List Runtime} (h : Invariant keyOf used cache)
    (hinserted : ∀ entry ∈ inserted, entry ∈ used) : Sound keyOf inserted cache := by
  refine ⟨h.active, fun entry hentry => ?_, h.bounded⟩
  rcases h.tied.known entry (hinserted entry hentry) with hmem | ⟨stored, hfind, rfl⟩
  · refine Or.inr ⟨?_, count_eq_one_of_mem h.tied.once hmem⟩
    rintro key stored hfind rfl
    exact h.tied.live key stored hfind hmem
  · exact Or.inl ⟨⟨stored, hfind, rfl⟩, count_eq_zero.mpr (h.tied.live _ stored hfind)⟩

variable {call : Call Runtime}

/-- What an allowed call prunes is tied to what was used. -/
theorem Invariant.tied_unpruned {used : List Runtime} (h : Invariant keyOf used cache)
    (hallowed : Allowed keyOf cache call) (hunpruned : unpruned keyOf cache call = some cache') :
    Tied keyOf (usedBy cache call ++ used) cache' := by
  cases call with
  | insert entry =>
    obtain rfl := Option.some.inj hunpruned
    exact h.tied.inserted hallowed.1
  | activate key =>
    cases key with
    | none =>
      obtain rfl := Option.some.inj hunpruned
      exact h.tied.congr rfl rfl rfl
    | some key =>
      obtain ⟨stored, hfind, rfl⟩ := Option.map_eq_some_iff.mp hunpruned
      have hused : usedBy cache (.activate (some key)) = [stored.entry] := by
        simp only [usedBy, hfind, Option.toList_some, List.map_cons, map_nil]
      rw [hused]
      exact h.tied.activated hfind
  | setBusy key busy =>
    cases busy with
    | true => exact nomatch hunpruned
    | false =>
      obtain ⟨stored, hfind, rfl⟩ := Option.map_eq_some_iff.mp hunpruned
      exact h.tied.congr rfl rfl rfl
  | remove key => exact nomatch hunpruned
  | clear => exact nomatch hunpruned

/-- A call prunes what it has made. -/
theorem perform_of_unpruned (hunpruned : unpruned keyOf cache call = some cache') :
    RuntimeCache.perform keyOf cache call = prune keyOf cache' := by
  cases call with
  | insert entry =>
    obtain rfl := Option.some.inj hunpruned
    rfl
  | activate key =>
    cases key with
    | none =>
      obtain rfl := Option.some.inj hunpruned
      rfl
    | some key =>
      obtain ⟨stored, hfind, rfl⟩ := Option.map_eq_some_iff.mp hunpruned
      exact perform_activate hfind
  | setBusy key busy =>
    cases busy with
    | true => exact nomatch hunpruned
    | false =>
      obtain ⟨stored, hfind, rfl⟩ := Option.map_eq_some_iff.mp hunpruned
      simp only [RuntimeCache.perform, RuntimeCache.setBusy, hfind]
      rfl
  | remove key => exact nomatch hunpruned
  | clear => exact nomatch hunpruned

/-- **An allowed call is sound.** -/
theorem callSound_of_allowed
    (h : Invariant keyOf (historyOf keyOf capacity busy calls).used
      (historyOf keyOf capacity busy calls).cache)
    (hallowed : Allowed keyOf (historyOf keyOf capacity busy calls).cache call) :
    CallSound keyOf capacity busy calls call := by
  refine ⟨?_, fun cache hunpruned => ?_, ?_⟩
  · have hkept : Invariant keyOf (historyOf keyOf capacity busy (calls ++ [call])).used
        (historyOf keyOf capacity busy (calls ++ [call])).cache := by
      rw [historyOf_snoc]
      exact h.perform hallowed
    exact hkept.sound fun entry hentry => mem_used_of_inserted hentry
  · rw [historyOf_snoc]
    exact ⟨perform_of_unpruned hunpruned, prunesInOrder (h.tied_unpruned hallowed hunpruned)⟩
  · rintro entry rfl
    rw [historyOf_snoc]
    exact (caches_prune_inserted_iff h.tied hallowed.1).mpr hallowed.2

/-- **A sound call was allowed.** -/
theorem allowed_of_callSound
    (h : Invariant keyOf (historyOf keyOf capacity busy calls).used
      (historyOf keyOf capacity busy calls).cache)
    (hsound : CallSound keyOf capacity busy calls call) :
    Allowed keyOf (historyOf keyOf capacity busy calls).cache call := by
  obtain ⟨hsound, -, hreturned⟩ := hsound
  rw [historyOf_snoc] at hsound hreturned
  cases call with
  | insert entry =>
    have hcached := hreturned entry rfl
    have hnew : entry ∉ (historyOf keyOf capacity busy calls).cache.disposed := by
      intro hmem
      -- a disposed runtime that is cached again is both
      have hdisposed : entry ∈ (prune keyOf
          (inserted keyOf (historyOf keyOf capacity busy calls).cache entry)).disposed := by
        obtain ⟨-, -, -, more, hmore⟩ :=
          inserted_frame keyOf (historyOf keyOf capacity busy calls).cache entry
        refine (prune_rec (P := fun cache => entry ∈ cache.disposed) ?_
          (h.tied.keyed.inserted entry) ?_).1
        · rintro cache _ hentry - ⟨candidate, -, holdest⟩
          rw [disposeStored_of_find holdest.cached]
          exact mem_append_left _ hentry
        · rw [hmore]
          exact mem_append_left _ hmem
      have hinserted : entry ∈ insertedBy (calls ++ [.insert entry]) := by
        rw [insertedBy, filterMap_append]
        exact mem_append_right _ (mem_singleton.mpr rfl)
      rcases hsound.accounted entry hinserted with ⟨-, hcount⟩ | ⟨hgone, -⟩
      · exact count_eq_zero.mp hcount hdisposed
      · obtain ⟨stored, hfind, heq⟩ := hcached
        exact hgone _ stored hfind heq
    exact ⟨hnew, (caches_prune_inserted_iff h.tied hnew).mp hcached⟩
  | activate key =>
    cases key with
    | none => trivial
    | some key =>
      change ((historyOf keyOf capacity busy calls).cache.find key).isSome = true
      cases hfind : (historyOf keyOf capacity busy calls).cache.find key with
      | some stored => rfl
      | none =>
        -- the key that is not cached has become the active one
        have hperform : RuntimeCache.perform keyOf (historyOf keyOf capacity busy calls).cache
            (.activate (some key)) =
            { (historyOf keyOf capacity busy calls).cache with activeKey := some key } :=
          perform_activate_missing hfind
        have hactive := hsound.active key
        change (RuntimeCache.perform keyOf _ _).activeKey = some key →
          ((RuntimeCache.perform keyOf _ _).find key).isSome = true at hactive
        rw [hperform] at hactive
        have hsome := hactive rfl
        change ((historyOf keyOf capacity busy calls).cache.find key).isSome = true at hsome
        rw [hfind] at hsome
        exact hsome
  | setBusy key busy => trivial
  | remove key => trivial
  | clear => trivial

/-- Runs of calls that are allowed or sound keep the invariant. -/
theorem invariant_historyOf
    (h : ∀ before call later, calls = before ++ call :: later →
      Allowed keyOf (historyOf keyOf capacity busy before).cache call ∨
        CallSound keyOf capacity busy before call) :
    Invariant keyOf (historyOf keyOf capacity busy calls).used
      (historyOf keyOf capacity busy calls).cache := by
  induction calls using List.reverseRecOn with
  | nil => exact invariant_empty
  | append_singleton calls call ih =>
    have hbefore := ih fun before call' later hsplit =>
      h before call' (later ++ [call]) (by rw [hsplit]; simp)
    rw [historyOf_snoc]
    refine hbefore.perform ?_
    rcases h calls call [] rfl with hallowed | hsound
    · exact hallowed
    · exact allowed_of_callSound hbefore hsound

omit [DecidableEq Runtime] in
theorem split_before {calls before : List (Call Runtime)} {later : List (Call Runtime)}
    (hsplit : calls = before ++ call :: later) {before' later' : List (Call Runtime)}
    {call' : Call Runtime} (hsplit' : before = before' ++ call' :: later') :
    calls = before' ++ call' :: (later' ++ call :: later) := by
  rw [hsplit, hsplit']
  simp

/-- **All calls of a run are sound exactly when all of them are allowed**, for every capacity, every
busy test at the start and every run on a new cache. -/
theorem callSound_iff_allowed (keyOf : Runtime → String) (capacity : ℕ) (busy : Runtime → Bool)
    (calls : List (Call Runtime)) :
    (∀ before call later, calls = before ++ call :: later →
      CallSound keyOf capacity busy before call) ↔
    ∀ before call later, calls = before ++ call :: later →
      Allowed keyOf (historyOf keyOf capacity busy before).cache call := by
  constructor
  · intro hsound before call later hsplit
    refine allowed_of_callSound (invariant_historyOf fun before' call' later' hsplit' => ?_)
      (hsound before call later hsplit)
    exact Or.inr (hsound before' call' _ (split_before hsplit hsplit'))
  · intro hallowed before call later hsplit
    refine callSound_of_allowed (invariant_historyOf fun before' call' later' hsplit' => ?_)
      (hallowed before call later hsplit)
    exact Or.inl (hallowed before' call' _ (split_before hsplit hsplit'))

end Runs

/-- **Runs with a call that is not sound.** A key becomes the active one though it is not cached, and a
runtime that is inserted next to a busy one in a cache for one is disposed at once. -/
theorem not_callSound_runs :
    (¬ ∀ before call later, [Call.activate (some "lab")] = before ++ call :: later →
      CallSound id 1 (fun _ => false) before call) ∧
    ¬ ∀ before call later, [Call.insert "lab", Call.insert "rack"] = before ++ call :: later →
      CallSound id 1 (fun runtime => runtime = "lab") before call := by
  refine ⟨fun h => ?_, fun h => ?_⟩
  · have hactive := (h [] (.activate (some "lab")) [] rfl).sound.active "lab"
    revert hactive
    decide +kernel
  · obtain ⟨stored, hfind, -⟩ := (h [.insert "lab"] (.insert "rack") [] rfl).returned "rack" rfl
    have hnone : (historyOf id 1 (fun runtime => runtime = "lab")
        ([Call.insert "lab"] ++ [Call.insert "rack"])).cache.find "rack" = none := by
      decide +kernel
    exact nomatch hnone.symm.trans hfind

end HomelabInventory.RuntimeCache
