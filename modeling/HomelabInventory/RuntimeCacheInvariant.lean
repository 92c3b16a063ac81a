import HomelabInventory.RuntimeCache

/-!
# What the runtime cache keeps

After every call of a run each runtime that was inserted is cached or was disposed once, and
pruning follows the order of use. What carries this: sequence numbers count the uses, cached
runtimes were not disposed, none was disposed twice and none got lost.
-/

namespace HomelabInventory.RuntimeCache

open InsertionMap List

variable {Runtime : Type} [DecidableEq Runtime] (keyOf : Runtime → String)

/-! ## Runs -/

/-- A cache with the runtimes in the order in which they were inserted or activated, the last
first. -/
structure History (Runtime : Type) where
  cache : Cache Runtime
  used : List Runtime

/-- The runtimes that a call inserts or activates. -/
def usedBy (cache : Cache Runtime) : Call Runtime → List Runtime
  | .insert entry => [entry]
  | .activate (some key) => (cache.find key).toList.map (·.entry)
  | _ => []

/-- A history after a call. -/
def History.after (history : History Runtime) (call : Call Runtime) : History Runtime where
  cache := perform keyOf history.cache call
  used := usedBy history.cache call ++ history.used

/-- The history of a run of calls on a new cache. -/
def historyOf (capacity : ℕ) (busy : Runtime → Bool) (calls : List (Call Runtime)) :
    History Runtime :=
  calls.foldl (History.after keyOf) ⟨empty capacity busy, []⟩

/-! ## Sound calls -/

/-- A runtime is cached under its own key. -/
def Cache.Caches (cache : Cache Runtime) (entry : Runtime) : Prop :=
  ∃ stored, cache.find (keyOf entry) = some stored ∧ stored.entry = entry

/-- **What holds after every call.** -/
structure Sound (inserted : List Runtime) (cache : Cache Runtime) : Prop where
  /-- The active key is none or a cached one. -/
  active : ∀ key, cache.activeKey = some key → (cache.find key).isSome = true
  /-- Every runtime ever inserted is cached under its own key or was disposed once, never both. -/
  accounted : ∀ entry ∈ inserted,
    (cache.Caches keyOf entry ∧ cache.disposed.count entry = 0) ∨
      ((∀ key stored, cache.find key = some stored → stored.entry ≠ entry) ∧
        cache.disposed.count entry = 1)
  /-- The cache is only too large when all runtimes but the active one are busy. -/
  bounded : cache.capacity < cache.entries.length → ∀ key stored, cache.find key = some stored →
    cache.activeKey ≠ some key → cache.busy stored.entry = true

/-- A runtime was used before another one. -/
def UsedBefore (used : List Runtime) (entry later : Runtime) : Prop :=
  used.idxOf later < used.idxOf entry

/-- **How pruning disposes**: no runtime that is active or busy, and in the order of use. -/
structure PrunesInOrder (used : List Runtime) (cache : Cache Runtime) (pruned : List Runtime) :
    Prop where
  disposed : (prune keyOf cache).disposed = cache.disposed ++ pruned
  idle : ∀ entry ∈ pruned, cache.activeKey ≠ some (keyOf entry) ∧ cache.busy entry = false
  ordered : pruned.Pairwise (UsedBefore used)
  oldest : ∀ entry ∈ pruned, ∀ key stored, (prune keyOf cache).find key = some stored →
    cache.activeKey ≠ some key → cache.busy stored.entry = false →
      UsedBefore used entry stored.entry

/-- The cache that a call prunes, when it does. -/
def unpruned (cache : Cache Runtime) : Call Runtime → Option (Cache Runtime)
  | .insert entry => some (inserted keyOf cache entry)
  | .activate none => some { cache with activeKey := none }
  | .activate (some key) =>
    (cache.find key).map fun stored =>
      ({ cache with activeKey := some key } : Cache Runtime).store key stored.entry
  | .setBusy key false => (cache.find key).map fun stored => cache.mark stored.entry false
  | _ => none

/-- The runtimes that a run inserts. -/
def insertedBy (calls : List (Call Runtime)) : List Runtime :=
  calls.filterMap fun
    | .insert entry => some entry
    | _ => none

/-- **A sound call** at the end of a run: the cache is sound after it, it prunes what is idle in the
order of use, and the entry that `insert` returns is cached and not disposed. -/
structure CallSound (capacity : ℕ) (busy : Runtime → Bool) (calls : List (Call Runtime))
    (call : Call Runtime) : Prop where
  sound : Sound keyOf (insertedBy (calls ++ [call]))
    (historyOf keyOf capacity busy (calls ++ [call])).cache
  prunes : ∀ cache, unpruned keyOf (historyOf keyOf capacity busy calls).cache call = some cache →
    (historyOf keyOf capacity busy (calls ++ [call])).cache = prune keyOf cache ∧
      ∃ pruned, PrunesInOrder keyOf (historyOf keyOf capacity busy (calls ++ [call])).used cache
        pruned
  returned : ∀ entry, call = .insert entry →
    (historyOf keyOf capacity busy (calls ++ [call])).cache.Caches keyOf
      (insert keyOf (historyOf keyOf capacity busy calls).cache entry).2

/-- The number of runtimes under other keys that pruning does not dispose. -/
def protectedOthers (cache : Cache Runtime) (entry : Runtime) : ℕ :=
  (cache.entries.filter fun cached =>
    cached.1 != keyOf entry && !cache.isIdle keyOf cached.2.entry).length

/-- **The calls that a run may make**: a key is activated when it is cached, and a runtime is
inserted that was never disposed and that pruning does not dispose at once: it is active or busy,
or fewer runtimes under other keys are protected from pruning than the cache has room for. -/
def Allowed (cache : Cache Runtime) : Call Runtime → Prop
  | .activate (some key) => (cache.find key).isSome = true
  | .insert entry => entry ∉ cache.disposed ∧
      (cache.isIdle keyOf entry = false ∨ protectedOthers keyOf cache entry < cache.capacity)
  | _ => True

/-! ## What is kept -/

section Invariant

variable {keyOf}

/-- **What ties the cache to its history.** Sequence numbers count the uses, cached runtimes were
not disposed, none was disposed twice, and none got lost. -/
structure Tied (keyOf : Runtime → String) (used : List Runtime) (cache : Cache Runtime) : Prop where
  keyed : Keyed keyOf cache
  counted : cache.sequence = used.length
  aged : ∀ key stored, cache.find key = some stored →
    stored.entry ∈ used ∧ stored.accessSequence + used.idxOf stored.entry = used.length
  live : ∀ key stored, cache.find key = some stored → stored.entry ∉ cache.disposed
  once : cache.disposed.Nodup
  known : ∀ entry ∈ used, entry ∈ cache.disposed ∨ cache.Caches keyOf entry

variable {cache cache' : Cache Runtime}
variable {used : List Runtime}
variable {stored stored' : StoredRuntime Runtime}
variable {key other : String}

variable (h : Tied keyOf used cache)
include h

/-- Runtimes under two keys are two. -/
theorem Tied.entry_ne (hfind : cache.find key = some stored)
    (hother : cache.find other = some stored') (hne : other ≠ key) :
    stored'.entry ≠ stored.entry := by
  intro heq
  rw [← h.keyed.own_key key stored hfind, ← h.keyed.own_key other stored' hother, heq] at hne
  exact hne rfl

theorem Tied.disposeStored (hfind : cache.find key = some stored) :
    Tied keyOf used (disposeStored cache key stored) := by
  have hkeyed := h.keyed.disposeStored hfind
  have hget := find_disposeStored hfind
  have hstays : ∀ {other stored'},
      (RuntimeCache.disposeStored cache key stored).find other = some stored' →
        other ≠ key ∧ cache.find other = some stored' := by
    intro other stored' hother
    rw [hget] at hother
    by_cases heq : other = key
    · rw [if_pos heq] at hother
      exact absurd hother (by simp)
    · rw [if_neg heq] at hother
      exact ⟨heq, hother⟩
  have hdisposed : (RuntimeCache.disposeStored cache key stored).disposed =
      cache.disposed ++ [stored.entry] := by rw [disposeStored_of_find hfind]
  refine ⟨hkeyed, ?_, ?_, ?_, ?_, ?_⟩
  · rw [disposeStored_of_find hfind]
    exact h.counted
  · exact fun other stored' hother => h.aged other stored' (hstays hother).2
  · intro other stored' hother hmem
    obtain ⟨hne, hother⟩ := hstays hother
    rw [hdisposed, mem_append, mem_singleton] at hmem
    exact hmem.elim (h.live other stored' hother) (h.entry_ne hfind hother hne)
  · rw [hdisposed]
    refine nodup_append.mpr ⟨h.once, nodup_singleton _, ?_⟩
    intro entry hentry entry' hentry' heq
    exact h.live key stored hfind (mem_singleton.mp hentry' ▸ heq ▸ hentry)
  · intro entry hentry
    rw [hdisposed, mem_append, mem_singleton]
    rcases h.known entry hentry with hmem | ⟨stored', hfind', rfl⟩
    · exact Or.inl (Or.inl hmem)
    · by_cases heq : keyOf stored'.entry = key
      · rw [heq, hfind] at hfind'
        exact Or.inl (Or.inr (congrArg _ (Option.some.inj hfind').symm))
      · exact Or.inr ⟨stored', by rw [hget, if_neg heq]; exact hfind', rfl⟩

omit h in
omit [DecidableEq Runtime] in
theorem find_store (cache : Cache Runtime) (key : String) (entry : Runtime) (other : String) :
    (cache.store key entry).find other =
      if other = key then some ⟨entry, cache.sequence + 1⟩ else cache.find other :=
  get?_set _ _ _ _

variable {entry : Runtime}

theorem Tied.store (hfree : ∀ stored, cache.find (keyOf entry) = some stored → stored.entry = entry)
    (hnew : entry ∉ cache.disposed) :
    Tied keyOf (entry :: used) (cache.store (keyOf entry) entry) := by
  have hget := find_store cache (keyOf entry) entry
  have hcases : ∀ {key stored}, (cache.store (keyOf entry) entry).find key = some stored →
      (key = keyOf entry ∧ stored = ⟨entry, cache.sequence + 1⟩) ∨
        (key ≠ keyOf entry ∧ cache.find key = some stored) := by
    intro key stored hfind
    rw [hget] at hfind
    by_cases heq : key = keyOf entry
    · rw [if_pos heq] at hfind
      exact Or.inl ⟨heq, (Option.some.inj hfind).symm⟩
    · rw [if_neg heq] at hfind
      exact Or.inr ⟨heq, hfind⟩
  refine ⟨⟨nodup_keys_set h.keyed.nodup _ _, ?_⟩, ?_, ?_, ?_, h.once, ?_⟩
  · intro key stored hfind
    rcases hcases hfind with ⟨rfl, rfl⟩ | ⟨-, hfind⟩
    · rfl
    · exact h.keyed.own_key key stored hfind
  · exact congrArg (· + 1) h.counted
  · intro key stored hfind
    rcases hcases hfind with ⟨rfl, rfl⟩ | ⟨hne, hfind⟩
    · refine ⟨mem_cons_self, ?_⟩
      rw [idxOf_cons_self, length_cons, h.counted]
    · obtain ⟨hmem, hage⟩ := h.aged key stored hfind
      have hdiffers : entry ≠ stored.entry := fun heq =>
        hne (by rw [heq]; exact (h.keyed.own_key key stored hfind).symm)
      refine ⟨mem_cons_of_mem _ hmem, ?_⟩
      rw [idxOf_cons_ne _ hdiffers, length_cons]
      omega
  · intro key stored hfind
    rcases hcases hfind with ⟨rfl, rfl⟩ | ⟨-, hfind⟩
    · exact hnew
    · exact h.live key stored hfind
  · intro other hother
    by_cases heq : other = entry
    · subst heq
      exact Or.inr ⟨_, by rw [hget, if_pos rfl], rfl⟩
    · rcases h.known other ((mem_cons.mp hother).resolve_left heq) with
        hmem | ⟨stored, hfind, rfl⟩
      · exact Or.inl hmem
      · refine Or.inr ⟨stored, ?_, rfl⟩
        rw [hget, if_neg]
        · exact hfind
        · intro hkey
          rw [hkey] at hfind
          exact heq (hfree stored hfind)

/-- The active key and the busy runtimes are no part of it. -/
theorem Tied.congr (hentries : cache'.entries = cache.entries)
    (hsequence : cache'.sequence = cache.sequence) (hdisposed : cache'.disposed = cache.disposed) :
    Tied keyOf used cache' := by
  have hfind : ∀ key, cache'.find key = cache.find key := fun key => by
    rw [Cache.find, Cache.find, hentries]
  refine ⟨⟨by rw [hentries]; exact h.keyed.nodup, fun key stored hkey => ?_⟩, ?_, ?_, ?_, ?_, ?_⟩
  · exact h.keyed.own_key key stored (hfind key ▸ hkey)
  · rw [hsequence, h.counted]
  · exact fun key stored hkey => h.aged key stored (hfind key ▸ hkey)
  · rw [hdisposed]
    exact fun key stored hkey => h.live key stored (hfind key ▸ hkey)
  · rw [hdisposed]
    exact h.once
  · intro entry hentry
    rw [hdisposed]
    refine (h.known entry hentry).imp_right ?_
    rintro ⟨stored, hkey, heq⟩
    exact ⟨stored, by rw [hfind]; exact hkey, heq⟩

theorem Tied.prune : Tied keyOf used (prune keyOf cache) := by
  refine (prune_rec (P := Tied keyOf used) ?_ h.keyed h).1
  rintro cache _ h - ⟨candidate, -, holdest⟩
  exact h.disposeStored holdest.cached

/-- The active key is none or a cached one. -/
def Cache.ActiveCached (cache : Cache Runtime) : Prop :=
  ∀ key, cache.activeKey = some key → (cache.find key).isSome = true

/-- The cache is only too large when all runtimes but the active one are busy. -/
def Cache.Bounded (cache : Cache Runtime) : Prop :=
  cache.capacity < cache.entries.length → ∀ key stored, cache.find key = some stored →
    cache.activeKey ≠ some key → cache.busy stored.entry = true

omit h in
omit [DecidableEq Runtime] in
theorem isIdle_iff :
    cache.isIdle keyOf entry = true ↔
      cache.activeKey ≠ some (keyOf entry) ∧ cache.busy entry = false := by
  rw [Cache.isIdle, Bool.and_eq_true, bne_iff_ne, Bool.not_eq_true']

omit h in
/-- What pruning never changes. -/
theorem prune_frame (h : Keyed keyOf cache) :
    (prune keyOf cache).capacity = cache.capacity ∧
      (prune keyOf cache).activeKey = cache.activeKey ∧ (prune keyOf cache).busy = cache.busy := by
  refine (prune_rec (P := fun cache' => cache'.capacity = cache.capacity ∧
    cache'.activeKey = cache.activeKey ∧ cache'.busy = cache.busy) ?_ h ⟨rfl, rfl, rfl⟩).1
  rintro cache' _ hframe - ⟨candidate, -, holdest⟩
  rw [disposeStored_of_find holdest.cached]
  exact hframe

omit h in
/-- Pruning keeps the active runtime. -/
theorem Cache.ActiveCached.prune (hactive : cache.ActiveCached) (h : Keyed keyOf cache) :
    (prune keyOf cache).ActiveCached := by
  refine (prune_rec (P := Cache.ActiveCached) ?_ h hactive).1
  rintro cache' _ hactive - ⟨candidate, -, holdest⟩ key hkey
  have hkey' : cache'.activeKey = some key := by
    rw [disposeStored_of_find holdest.cached] at hkey
    exact hkey
  rw [find_disposeStored holdest.cached, if_neg]
  · exact hactive key hkey'
  · rintro rfl
    exact (isIdle_iff.mp holdest.idle).1 hkey'

omit h in
/-- After pruning, the cache is only too large when all runtimes but the active one are busy. -/
theorem bounded_prune (h : Keyed keyOf cache) : (prune keyOf cache).Bounded := by
  intro hlarge key stored hfind hactive
  have hkeyed := (prune_rec (P := fun _ => True) (fun _ _ _ _ _ => trivial) h trivial).2
  rcases prune_settled h with hsmall | hidle
  · exact absurd hsmall (Nat.not_le_of_lt hlarge)
  · by_contra hbusy
    have hkey := hkeyed.own_key key stored hfind
    have := hidle key stored hfind
    rw [isIdle_iff.mpr ⟨by rw [hkey]; exact hactive, by simpa using hbusy⟩] at this
    exact absurd this (by simp)

/-- Of two cached runtimes, the one with the smaller sequence number was used before. -/
theorem Tied.usedBefore (hfind : cache.find key = some stored)
    (hother : cache.find other = some stored') (hne : other ≠ key)
    (hle : stored.accessSequence ≤ stored'.accessSequence) :
    UsedBefore used stored.entry stored'.entry := by
  obtain ⟨hmem, hage⟩ := h.aged key stored hfind
  obtain ⟨hmem', hage'⟩ := h.aged other stored' hother
  have hdiffers : used.idxOf stored'.entry ≠ used.idxOf stored.entry := fun heq =>
    h.entry_ne hfind hother hne ((idxOf_inj hmem').mp heq)
  rw [UsedBefore]
  omega

/-- **Pruning follows the order of use.** -/
theorem prunesInOrder :
    ∃ pruned, PrunesInOrder keyOf used cache pruned := by
  have hrec := (prune_rec (P := fun cache' => Tied keyOf used cache' ∧
    cache'.activeKey = cache.activeKey ∧ cache'.busy = cache.busy ∧
    ∃ pruned, cache'.disposed = cache.disposed ++ pruned ∧
      (∀ entry ∈ pruned, cache.isIdle keyOf entry = true) ∧ pruned.Pairwise (UsedBefore used) ∧
      ∀ entry ∈ pruned, ∀ key stored, cache'.find key = some stored →
        cache.isIdle keyOf stored.entry = true → UsedBefore used entry stored.entry)
    ?_ h.keyed ⟨h, rfl, rfl, [], by simp⟩).1
  · obtain ⟨htied, hactive, hbusy, pruned, hdisposed, hidle, hordered, holdest⟩ := hrec
    refine ⟨pruned, hdisposed, fun entry hentry => isIdle_iff.mp (hidle entry hentry), hordered, ?_⟩
    intro entry hentry key stored hfind hkey hstored
    refine holdest entry hentry key stored hfind (isIdle_iff.mpr ⟨?_, hstored⟩)
    rw [htied.keyed.own_key key stored hfind]
    exact hkey
  · rintro cache' _ ⟨htied, hactive, hbusy, pruned, hdisposed, hidle, hordered, hbefore⟩ -
      ⟨candidate, -, holdest⟩
    have hsame : ∀ entry, cache'.isIdle keyOf entry = cache.isIdle keyOf entry := fun entry => by
      rw [Cache.isIdle, Cache.isIdle, hactive, hbusy]
    have hcandidate := holdest.idle
    rw [hsame] at hcandidate
    refine ⟨htied.disposeStored holdest.cached, ?_, ?_, pruned ++ [candidate.entry], ?_, ?_, ?_, ?_⟩
    · rw [disposeStored_of_find holdest.cached]
      exact hactive
    · rw [disposeStored_of_find holdest.cached]
      exact hbusy
    · rw [disposeStored_of_find holdest.cached]
      change cache'.disposed ++ [candidate.entry] = _
      rw [hdisposed, append_assoc]
    · intro entry hentry
      rw [mem_append, mem_singleton] at hentry
      rcases hentry with hentry | rfl
      · exact hidle entry hentry
      · exact hcandidate
    · refine pairwise_append.mpr ⟨hordered, pairwise_singleton _ _, ?_⟩
      intro entry hentry last hlast
      rw [mem_singleton.mp hlast]
      exact hbefore entry hentry _ candidate holdest.cached hcandidate
    · intro entry hentry key stored hfind hstored
      rw [find_disposeStored holdest.cached] at hfind
      by_cases hkey : key = keyOf candidate.entry
      · rw [if_pos hkey] at hfind
        exact absurd hfind (by simp)
      · rw [if_neg hkey] at hfind
        rw [mem_append, mem_singleton] at hentry
        rcases hentry with hentry | rfl
        · exact hbefore entry hentry key stored hfind hstored
        · exact htied.usedBefore holdest.cached hfind hkey
            (holdest.oldest key stored hfind (by rw [hsame]; exact hstored))

/-! ## Insertion -/

omit h in
theorem find_inserted (cache : Cache Runtime) (entry : Runtime) (other : String) :
    (inserted keyOf cache entry).find other =
      if other = keyOf entry then some ⟨entry, cache.sequence + 1⟩ else cache.find other := by
  rw [inserted]
  cases hfind : cache.find (keyOf entry) with
  | none => exact find_store _ _ _ _
  | some existing =>
    by_cases hsame : existing.entry ≠ entry
    · have hsequence : (disposeStored cache (keyOf entry) existing).sequence = cache.sequence := by
        rw [disposeStored_of_find hfind]
      simp only [if_pos hsame]
      rw [find_store, find_disposeStored hfind, hsequence]
      by_cases hother : other = keyOf entry
      · rw [if_pos hother, if_pos hother]
      · rw [if_neg hother, if_neg hother, if_neg hother]
    · simp only [if_neg hsame]
      exact find_store _ _ _ _

omit h in
variable (keyOf) in
theorem inserted_frame (cache : Cache Runtime) (entry : Runtime) :
    (inserted keyOf cache entry).capacity = cache.capacity ∧
      (inserted keyOf cache entry).activeKey = cache.activeKey ∧
      (inserted keyOf cache entry).busy = cache.busy ∧
      ∃ more, (inserted keyOf cache entry).disposed = cache.disposed ++ more := by
  rw [inserted]
  cases hfind : cache.find (keyOf entry) with
  | none => exact ⟨rfl, rfl, rfl, [], (append_nil _).symm⟩
  | some existing =>
    by_cases hsame : existing.entry ≠ entry
    · simp only [if_pos hsame]
      rw [disposeStored_of_find hfind]
      exact ⟨rfl, rfl, rfl, _, rfl⟩
    · simp only [if_neg hsame]
      exact ⟨rfl, rfl, rfl, [], (append_nil _).symm⟩

omit h in
/-- Each runtime stays under its own key. -/
theorem Keyed.inserted (h : Keyed keyOf cache) (entry : Runtime) :
    Keyed keyOf (inserted keyOf cache entry) := by
  constructor
  · rw [RuntimeCache.inserted]
    cases hfind : cache.find (keyOf entry) with
    | none => exact nodup_keys_set h.nodup _ _
    | some existing =>
      by_cases hsame : existing.entry ≠ entry
      · simp only [if_pos hsame]
        exact nodup_keys_set (h.disposeStored hfind).nodup _ _
      · simp only [if_neg hsame]
        exact nodup_keys_set h.nodup _ _
  · intro key stored hstored
    rw [find_inserted] at hstored
    by_cases hkey : key = keyOf entry
    · rw [if_pos hkey, Option.some.injEq] at hstored
      rw [← hstored, hkey]
    · rw [if_neg hkey] at hstored
      exact h.own_key key stored hstored

theorem Tied.inserted (hnew : entry ∉ cache.disposed) :
    Tied keyOf (entry :: used) (inserted keyOf cache entry) := by
  rw [RuntimeCache.inserted]
  cases hfind : cache.find (keyOf entry) with
  | none =>
    refine h.store (fun stored hstored => ?_) hnew
    rw [hfind] at hstored
    exact nomatch hstored
  | some existing =>
    by_cases hsame : existing.entry ≠ entry
    · simp only [if_pos hsame]
      refine (h.disposeStored hfind).store (fun stored hstored => ?_) ?_
      · rw [find_disposeStored hfind, if_pos rfl] at hstored
        exact nomatch hstored
      · rw [disposeStored_of_find hfind]
        change entry ∉ cache.disposed ++ [existing.entry]
        rw [mem_append, mem_singleton]
        exact fun hmem => hmem.elim hnew fun heq => hsame heq.symm
    · simp only [if_neg hsame]
      refine h.store (fun stored hstored => ?_) hnew
      rw [hfind, Option.some.injEq] at hstored
      rw [← hstored]
      exact not_not.mp hsame

omit h in
/-- The protected runtimes under other keys are the same before and after an insertion. -/
theorem protectedOthers_inserted (h : Keyed keyOf cache) (entry : Runtime) :
    protectedOthers keyOf (inserted keyOf cache entry) entry =
      protectedOthers keyOf cache entry := by
  have hinserted := h.inserted entry
  obtain ⟨-, hactive, hbusy, -⟩ := inserted_frame keyOf cache entry
  have hidle : ∀ other,
      (inserted keyOf cache entry).isIdle keyOf other = cache.isIdle keyOf other := by
    intro other
    rw [Cache.isIdle, Cache.isIdle, hactive, hbusy]
  have hnodup : ∀ {cache : Cache Runtime}, Keyed keyOf cache → cache.entries.Nodup :=
    fun hkeyed => List.Nodup.of_map _ hkeyed.nodup
  rw [protectedOthers, protectedOthers]
  refine List.Perm.length_eq ((perm_ext_iff_of_nodup ((hnodup hinserted).filter _)
    ((hnodup h).filter _)).mpr ?_)
  rintro ⟨key, stored⟩
  rw [mem_filter, mem_filter, ← hinserted.find_iff, ← h.find_iff, hidle, find_inserted]
  by_cases hkey : key = keyOf entry
  · simp [hkey]
  · rw [if_neg hkey]

omit h in
/-- A round of pruning keeps the protected runtimes. -/
theorem protectedOthers_round (h : Keyed keyOf cache) (hround : Round keyOf cache cache')
    (entry : Runtime) : protectedOthers keyOf cache' entry = protectedOthers keyOf cache entry := by
  obtain ⟨candidate, -, holdest⟩ := hround
  rw [disposeStored_of_find holdest.cached, protectedOthers, protectedOthers]
  change ((InsertionMap.delete cache.entries _).filter fun cached =>
    cached.1 != keyOf entry && !cache.isIdle keyOf cached.2.entry).length = _
  rw [InsertionMap.delete, filter_filter]
  refine congrArg List.length (filter_congr ?_)
  rintro ⟨key, stored⟩ hmem
  by_cases hkey : key = keyOf candidate.entry
  · have hfind := h.find_iff.mpr hmem
    rw [hkey, holdest.cached, Option.some.injEq] at hfind
    simp [← hfind, holdest.idle]
  · simp [hkey]

omit h in
theorem protectedOthers_prune (h : Keyed keyOf cache) (entry : Runtime) :
    protectedOthers keyOf (prune keyOf cache) entry = protectedOthers keyOf cache entry :=
  (prune_rec (P := fun cache' => protectedOthers keyOf cache' entry =
    protectedOthers keyOf cache entry)
    (fun _ _ heq hkeyed hround => (protectedOthers_round hkeyed hround entry).trans heq) h rfl).1

omit h in
omit [DecidableEq Runtime] in
/-- There are no more protected runtimes under other keys than other runtimes. -/
theorem protectedOthers_lt (h : Keyed keyOf cache)
    (hfind : cache.find (keyOf entry) = some stored) :
    protectedOthers keyOf cache entry < cache.entries.length := by
  have hlength := length_delete h.nodup hfind
  have hle : protectedOthers keyOf cache entry ≤
      (InsertionMap.delete cache.entries (keyOf entry)).length := by
    rw [protectedOthers, InsertionMap.delete]
    refine List.Sublist.length_le (monotone_filter_right _ fun cached hcached => ?_)
    rw [Bool.and_eq_true, bne_iff_ne] at hcached
    simpa using hcached.1
  omega

/-- **An inserted runtime stays exactly when it is protected or there is room for it.** -/
theorem caches_prune_inserted_iff (hnew : entry ∉ cache.disposed) :
    (prune keyOf (inserted keyOf cache entry)).Caches keyOf entry ↔
      cache.isIdle keyOf entry = false ∨ protectedOthers keyOf cache entry < cache.capacity := by
  have htied := h.inserted hnew
  obtain ⟨hcapacity, hactive, hbusy, -⟩ := inserted_frame keyOf cache entry
  have hidle : (inserted keyOf cache entry).isIdle keyOf entry = cache.isIdle keyOf entry := by
    rw [Cache.isIdle, Cache.isIdle, hactive, hbusy]
  rw [← hidle, ← protectedOthers_inserted h.keyed, ← hcapacity]
  have hfind : (inserted keyOf cache entry).find (keyOf entry) =
      some ⟨entry, cache.sequence + 1⟩ := by rw [find_inserted, if_pos rfl]
  have hage : cache.sequence + 1 = (entry :: used).length := congrArg (· + 1) h.counted
  clear hidle hcapacity hactive hbusy
  generalize inserted keyOf cache entry = start at htied hfind ⊢
  obtain ⟨hcapacity, hactive, hbusy⟩ := prune_frame htied.keyed
  constructor
  · rintro ⟨stored, hstays, rfl⟩
    by_contra hnot
    rw [not_or, Bool.not_eq_false, Nat.not_lt] at hnot
    have hkeyed := (prune_rec (P := fun _ => True) (fun _ _ _ _ _ => trivial) htied.keyed trivial).2
    have hlt := protectedOthers_lt hkeyed hstays
    rw [protectedOthers_prune htied.keyed] at hlt
    rcases prune_settled htied.keyed with hsmall | hsettled
    · rw [hcapacity] at hsmall
      omega
    · have hstill := hsettled _ stored hstays
      rw [Cache.isIdle, hactive, hbusy] at hstill
      rw [Cache.isIdle, hstill] at hnot
      exact absurd hnot.1 (by simp)
  · intro hroom
    have hrec := (prune_rec (P := fun cache' => Tied keyOf (entry :: used) cache' ∧
      cache'.capacity = start.capacity ∧
      (∀ other, cache'.isIdle keyOf other = start.isIdle keyOf other) ∧
      protectedOthers keyOf cache' entry = protectedOthers keyOf start entry ∧
      cache'.find (keyOf entry) = some ⟨entry, cache.sequence + 1⟩)
      ?_ htied.keyed ⟨htied, rfl, fun _ => rfl, rfl, hfind⟩).1
    · exact ⟨_, hrec.2.2.2.2, rfl⟩
    · rintro cache' cache'' ⟨htied', hcapacity', hidle', hprotected, hfind'⟩ hkeyed hround
      have hprotected' := (protectedOthers_round hkeyed hround entry).trans hprotected
      obtain ⟨candidate, hlarge, holdest⟩ := hround
      refine ⟨htied'.disposeStored holdest.cached, ?_, ?_, hprotected', ?_⟩
      · rw [disposeStored_of_find holdest.cached]
        exact hcapacity'
      · intro other
        rw [← hidle', disposeStored_of_find holdest.cached]
        rfl
      · rw [find_disposeStored holdest.cached, if_neg]
        · exact hfind'
        · -- the new runtime is the oldest idle one only when all others are protected
          intro hkey
          have hcandidate := holdest.cached
          rw [← hkey, hfind', Option.some.injEq] at hcandidate
          have hentry : start.isIdle keyOf entry = true := by
            have := holdest.idle
            rw [← hcandidate, hidle'] at this
            exact this
          have hothers : ∀ key stored, cache'.find key = some stored → key ≠ keyOf entry →
              cache'.isIdle keyOf stored.entry = false := by
            intro key stored hstored hne
            by_contra hidleOther
            have hle := holdest.oldest key stored hstored (by simpa using hidleOther)
            rw [← hcandidate] at hle
            have hbefore := htied'.usedBefore hfind' hstored hne hle
            rw [UsedBefore, idxOf_cons_self] at hbefore
            exact absurd hbefore (Nat.not_lt_zero _)
          have hcount : protectedOthers keyOf cache' entry =
              (InsertionMap.delete cache'.entries (keyOf entry)).length := by
            rw [protectedOthers, InsertionMap.delete]
            refine congrArg List.length (filter_congr ?_)
            rintro ⟨key, stored⟩ hmem
            by_cases hne : key = keyOf entry
            · simp [hne]
            · simp [hne, hothers key stored (hkeyed.find_iff.mpr hmem) hne]
          have hlength := length_delete hkeyed.nodup hfind'
          rcases hroom with hroom | hroom
          · rw [hentry] at hroom
            exact absurd hroom (by simp)
          · omega

end Invariant

end HomelabInventory.RuntimeCache
