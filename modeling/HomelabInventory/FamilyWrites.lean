import HomelabInventory.TelemetryRepository

/-!
# The rows and the events of a family

What the loops over a delta do to the rows of a family, row by row, and how the
events of an entity follow the presence of its row. The rows stay addressed by
the entity keys as long as no two addresses in play join to one key.
-/

namespace HomelabInventory.Telemetry

open List

/-! ## The life of an entity -/

/-- Follow the life of an entity by one event: from absent (`none`) to present under a
lifecycle hash by being observed, from one hash to another by being changed, and back to
absent by being removed under the hash it has. Every other event has no place in a life. -/
def ComponentEvent.advance (event : ComponentEvent) : Option String → Option (Option String)
  | none =>
    match event.kind with
    | .observed => event.stateHash.map some
    | _ => none
  | some current =>
    match event.kind with
    | .observed => none
    | .changed => if event.stateHash = some current then none else event.stateHash.map some
    | .removed => if event.stateHash = some current then some none else none

/-- The life of an entity after some events: the lifecycle hash it is present under, if it is
present, and nothing when its events do not follow one another. -/
def lifecycle (family : EventFamily) (key : String) (events : List ComponentEvent) :
    Option (Option String) :=
  (events.filter fun event => event.family = family ∧ event.entityKey = key).foldlM
    (fun current event => event.advance current) none

section Lives

variable {family : EventFamily} {key : String} {events : List ComponentEvent}
  {event : ComponentEvent}

/-- An event of the entity carries its life on. -/
theorem lifecycle_append (h : event.family = family ∧ event.entityKey = key) :
    lifecycle family key (events ++ [event]) =
      (lifecycle family key events).bind event.advance := by
  have hkept : [event].filter (fun event => event.family = family ∧ event.entityKey = key)
      = [event] := filter_cons_of_pos (decide_eq_true h)
  rw [lifecycle, filter_append, hkept, foldlM_append, ← lifecycle]
  cases lifecycle family key events with
  | none => rfl
  | some current => exact bind_pure (event.advance current)

/-- An event of another entity does not touch it. -/
theorem lifecycle_append_of_not (h : ¬(event.family = family ∧ event.entityKey = key)) :
    lifecycle family key (events ++ [event]) = lifecycle family key events := by
  have hdropped : [event].filter (fun event => event.family = family ∧ event.entityKey = key)
      = [] := by
    rw [filter_cons_of_neg (by simpa using h), filter_nil]
  rw [lifecycle, filter_append, hdropped, append_nil, ← lifecycle]

end Lives

/-! ## Addressed rows -/

section Addresses

variable {rows : BTreeMap (List String) Row} {parts : List String} {row : Row} {key : String}
  {digest : String}

/-- A row with a lifecycle hash is stored under an entity key. -/
def StoredHash (rows : BTreeMap (List String) Row) (key digest : String) : Prop :=
  ∃ parts row, rows[parts]? = some row ∧ joinText keySeparator parts = key ∧
    row.lifecycleHash = some digest

/-- A key has the hash of the row that was just written under it. -/
theorem storedHash_insert_self
    (hunique : ∀ other, other ∈ rows → joinText keySeparator other = joinText keySeparator parts →
      other = parts) :
    StoredHash (rows.insert parts row) (joinText keySeparator parts) digest ↔
      row.lifecycleHash = some digest := by
  constructor
  · rintro ⟨other, found, hfound, hjoin, hdigest⟩
    rw [getElem?_insert_ite] at hfound
    split at hfound
    · obtain rfl := Option.some.inj hfound
      exact hdigest
    · rename_i hne
      have hmem : other ∈ rows := Std.ExtTreeMap.mem_iff_isSome_getElem?.mpr (by rw [hfound]; rfl)
      exact absurd (hunique other hmem hjoin) hne
  · intro hdigest
    exact ⟨parts, row, Std.ExtTreeMap.getElem?_insert_self, rfl, hdigest⟩

/-- A key keeps its hash with the rows of its addresses. -/
theorem storedHash_congr {rows' : BTreeMap (List String) Row}
    (hget : ∀ other, joinText keySeparator other = key → rows'[other]? = rows[other]?) :
    StoredHash rows' key digest ↔ StoredHash rows key digest := by
  constructor
  · rintro ⟨other, found, hfound, hjoin, hdigest⟩
    exact ⟨other, found, (hget other hjoin) ▸ hfound, hjoin, hdigest⟩
  · rintro ⟨other, found, hfound, hjoin, hdigest⟩
    exact ⟨other, found, (hget other hjoin).trans hfound, hjoin, hdigest⟩

/-- Writing a row does not touch the other keys. -/
theorem storedHash_insert_of_ne (hne : key ≠ joinText keySeparator parts) :
    StoredHash (rows.insert parts row) key digest ↔ StoredHash rows key digest := by
  refine storedHash_congr ?_
  rintro other rfl
  rw [getElem?_insert_ite, if_neg]
  rintro rfl
  exact hne rfl

/-- A key has no hash once its only row is erased. -/
theorem not_storedHash_erase_self
    (hunique : ∀ other, other ∈ rows → joinText keySeparator other = joinText keySeparator parts →
      other = parts) :
    ¬StoredHash (rows.erase parts) (joinText keySeparator parts) digest := by
  rintro ⟨other, found, hfound, hjoin, -⟩
  rw [getElem?_erase_ite] at hfound
  split at hfound
  · cases hfound
  · rename_i hne
    have hmem : other ∈ rows := Std.ExtTreeMap.mem_iff_isSome_getElem?.mpr (by rw [hfound]; rfl)
    exact hne (hunique other hmem hjoin)

/-- Erasing a row does not touch the other keys. -/
theorem storedHash_erase_of_ne (hne : key ≠ joinText keySeparator parts) :
    StoredHash (rows.erase parts) key digest ↔ StoredHash rows key digest := by
  refine storedHash_congr ?_
  rintro other rfl
  rw [getElem?_erase_ite, if_neg]
  rintro rfl
  exact hne rfl

end Addresses

/-! ## One turn of a loop -/

section Turns

variable {hash : List (String × Option Value) → String} {name : Family} {observedAtMs : ℤ}

/-- What a turn of the loop over the changed entities does. -/
theorem applyChange_eq_ok {loop next : ChangeLoop} {value : Entity}
    (h : applyChange hash name observedAtMs loop value = .ok next) :
    ∃ entityKey parts, name.key value = .ok entityKey ∧ tableKeyParts name value = .ok parts ∧
      next.writes.rows = loop.writes.rows.insert parts {
        lifecycleHash := semanticHash hash name value
        state := value } ∧
      next.writes.events = loop.writes.events ++
        changeEvent hash name entityKey observedAtMs loop.writes.rows[parts]? value ∧
      next.incoming = loop.incoming ++ [entityKey] := by
  obtain ⟨entityKey, hkey, h⟩ := bind_eq_ok.mp h
  obtain ⟨parts, hparts, h⟩ := bind_eq_ok.mp h
  obtain rfl := pure_eq_ok.mp h
  exact ⟨entityKey, parts, hkey, hparts, rfl, rfl, rfl⟩

/-- A removal that succeeds finds no row, or erases the row of the key with its event. -/
theorem removeState_eq_ok {rawKey : String} {writes next : FamilyWrites} {found : Bool}
    (h : removeState name rawKey observedAtMs writes = .ok (next, found)) :
    (splitText keySeparator rawKey).length = name.keyColumns.length ∧
      ((writes.rows[splitText keySeparator rawKey]? = none ∧ next = writes ∧ found = false) ∨
        ∃ row, writes.rows[splitText keySeparator rawKey]? = some row ∧ found = true ∧ next = {
          rows := writes.rows.erase (splitText keySeparator rawKey)
          events := writes.events ++ removalEvent name rawKey observedAtMs row }) := by
  rw [removeState] at h
  split at h
  · cases h
  · rename_i hlength
    refine ⟨not_not.mp hlength, ?_⟩
    split at h
    · rename_i hnone
      cases h
      exact .inl ⟨hnone, rfl, rfl⟩
    · rename_i row hrow
      cases h
      exact .inr ⟨row, hrow, rfl, rfl⟩

end Turns

/-! ## The invariant of the loops -/

/-- The rows of a family are kept under the columns and the key of their entity, with the hash
of its lifecycle state, and the events of each key are a life that ends as its row is. All
rows are at one of the addresses in play. -/
structure Sound (hash : List (String × Option Value) → String) (name : Family)
    (addresses : List String → Prop) (writes : FamilyWrites) : Prop where
  address : ∀ (parts : List String) (row : Row), writes.rows[parts]? = some row → addresses parts
  ownKey : ∀ (parts : List String) (row : Row), writes.rows[parts]? = some row →
    name.key row.state = .ok (joinText keySeparator parts)
  columns : ∀ (parts : List String) (row : Row), writes.rows[parts]? = some row →
    tableKeyParts name row.state = .ok parts
  hashed : ∀ (parts : List String) (row : Row), writes.rows[parts]? = some row →
    row.lifecycleHash = semanticHash hash name row.state
  lives : ∀ family, name.eventFamily = some family → ∀ key, ∃ current,
    lifecycle family key writes.events = some current ∧
      ∀ digest, current = some digest ↔ StoredHash writes.rows key digest

/-- No two of the addresses in play join to one key. -/
def Unambiguous (addresses : List String → Prop) : Prop :=
  ∀ parts other, addresses parts → addresses other →
    joinText keySeparator parts = joinText keySeparator other → parts = other

namespace Sound

variable {hash : List (String × Option Value) → String} {name : Family} {observedAtMs : ℤ}
  {addresses : List String → Prop}

variable {writes : FamilyWrites}
variable {parts : List String}

/-- The address of a key is the only row of the key. -/
theorem unique (h : Sound hash name addresses writes) (haddresses : Unambiguous addresses)
    (hparts : addresses parts) :
    ∀ other, other ∈ writes.rows →
      joinText keySeparator other = joinText keySeparator parts → other = parts := by
  intro other hother hjoin
  obtain ⟨row, hrow⟩ := Option.isSome_iff_exists.mp (Std.ExtTreeMap.mem_iff_isSome_getElem?.mp hother)
  exact haddresses other parts (h.address other row hrow) hparts hjoin

/-- The hash that a key is stored under is the one of the row at its address. -/
theorem storedHash_iff (h : Sound hash name addresses writes) (haddresses : Unambiguous addresses)
    (hparts : addresses parts) {digest : String} :
    StoredHash writes.rows (joinText keySeparator parts) digest ↔
      ∃ row, writes.rows[parts]? = some row ∧ row.lifecycleHash = some digest := by
  constructor
  · rintro ⟨other, row, hrow, hjoin, hdigest⟩
    have hmem : other ∈ writes.rows :=
      Std.ExtTreeMap.mem_iff_isSome_getElem?.mpr (by rw [hrow]; rfl)
    obtain rfl := h.unique haddresses hparts other hmem hjoin
    exact ⟨row, hrow, hdigest⟩
  · rintro ⟨row, hrow, hdigest⟩
    exact ⟨parts, row, hrow, rfl, hdigest⟩

/-- The events of a key stay a life when the row at its address is written with the event
that the change calls for. -/
theorem lives_changeEvent (h : Sound hash name addresses writes)
    (haddresses : Unambiguous addresses) (hparts : addresses parts) (value : Entity)
    {family : EventFamily} (hfamily : name.eventFamily = some family) :
    ∀ key, ∃ current,
      lifecycle family key (writes.events ++ changeEvent hash name (joinText keySeparator parts)
        observedAtMs writes.rows[parts]? value) = some current ∧
      ∀ digest, current = some digest ↔
        StoredHash (writes.rows.insert parts {
          lifecycleHash := semanticHash hash name value
          state := value }) key digest := by
  intro key
  obtain ⟨current, hcurrent, hdigest⟩ := h.lives family hfamily key
  have hsemantic : semanticHash hash name value = some (hash (lifecycleState family value)) := by
    rw [semanticHash, hfamily]
    rfl
  by_cases hkey : key = joinText keySeparator parts
  · subst hkey
    have hunique := h.unique haddresses hparts
    refine ⟨semanticHash hash name value, ?_, fun digest => by rw [storedHash_insert_self hunique]⟩
    simp only [h.storedHash_iff haddresses hparts] at hdigest
    simp only [changeEvent, hfamily]
    cases hrow : writes.rows[parts]? with
    | none =>
      -- there was no row, so the entity is absent and is observed now
      obtain rfl : current = none := by
        cases current with
        | none => rfl
        | some digest =>
          obtain ⟨row, hfound, -⟩ := (hdigest digest).mp rfl
          rw [hrow] at hfound
          cases hfound
      simp only [Option.any_none, Bool.false_eq_true, if_false]
      refine Eq.trans (lifecycle_append ?_) ?_
      · exact ⟨rfl, rfl⟩
      rw [hcurrent, hsemantic]
      rfl
    | some row =>
      -- the row carries the hash the life has come to
      have hrowHash := h.hashed parts row hrow
      rw [semanticHash, hfamily, Option.map_some] at hrowHash
      obtain rfl : current = row.lifecycleHash := by
        rw [hrowHash, hdigest]
        exact ⟨row, hrow, hrowHash⟩
      by_cases hsame : row.lifecycleHash = semanticHash hash name value
      · simp only [Option.any_some, hsame, decide_true, if_true, append_nil]
        rw [hcurrent, hsame]
      · simp only [Option.any_some, hsame, decide_false, Bool.false_eq_true, if_false]
        refine Eq.trans (lifecycle_append ?_) ?_
        · exact ⟨rfl, rfl⟩
        rw [hrowHash, eq_comm] at hsame
        rw [hcurrent, hrowHash, Option.bind_some]
        simp only [ComponentEvent.advance, Option.isSome_some, if_true, hsame, if_false]
        rw [hsemantic]
        rfl
  · refine ⟨current, ?_, fun digest => (hdigest digest).trans (storedHash_insert_of_ne hkey).symm⟩
    simp only [changeEvent, hfamily]
    rw [← hcurrent]
    split
    · rw [append_nil]
    · refine lifecycle_append_of_not ?_
      rintro ⟨-, hevent⟩
      exact hkey hevent.symm

/-- **A changed entity keeps the invariant** when its columns are an address in play and join
to its key. -/
theorem changed {loop next : ChangeLoop} {value : Entity}
    (h : Sound hash name addresses loop.writes) (haddresses : Unambiguous addresses)
    (hvalue : ∀ parts, tableKeyParts name value = .ok parts →
      addresses parts ∧ name.key value = .ok (joinText keySeparator parts))
    (hstep : applyChange hash name observedAtMs loop value = .ok next) :
    Sound hash name addresses next.writes := by
  obtain ⟨entityKey, parts, hkey, hparts, hrows, hevents, -⟩ := applyChange_eq_ok hstep
  obtain ⟨haddress, hjoin⟩ := hvalue parts hparts
  obtain rfl : entityKey = joinText keySeparator parts := by
    rw [hkey] at hjoin
    exact Except.ok.inj hjoin
  -- every row is the one just written, or was there before
  have hcases : ∀ other row, next.writes.rows[other]? = some row →
      (other = parts ∧ row = { lifecycleHash := semanticHash hash name value, state := value }) ∨
        loop.writes.rows[other]? = some row := by
    intro other row hrow
    rw [hrows, getElem?_insert_ite] at hrow
    split at hrow
    · rename_i heq
      exact .inl ⟨heq, (Option.some.inj hrow).symm⟩
    · exact .inr hrow
  refine ⟨?_, ?_, ?_, ?_, ?_⟩
  · intro other row hrow
    obtain ⟨rfl, -⟩ | hrow := hcases other row hrow
    · exact haddress
    · exact h.address other row hrow
  · intro other row hrow
    obtain ⟨rfl, rfl⟩ | hrow := hcases other row hrow
    · exact hkey
    · exact h.ownKey other row hrow
  · intro other row hrow
    obtain ⟨rfl, rfl⟩ | hrow := hcases other row hrow
    · exact hparts
    · exact h.columns other row hrow
  · intro other row hrow
    obtain ⟨rfl, rfl⟩ | hrow := hcases other row hrow
    · rfl
    · exact h.hashed other row hrow
  · intro family hfamily key
    rw [hrows, hevents]
    exact h.lives_changeEvent haddresses haddress value hfamily key

/-- **A removal keeps the invariant.** -/
theorem removed {writes next : FamilyWrites} {rawKey : String} {found : Bool}
    (h : Sound hash name addresses writes) (haddresses : Unambiguous addresses)
    (hstep : removeState name rawKey observedAtMs writes = .ok (next, found)) :
    Sound hash name addresses next := by
  obtain ⟨-, ⟨-, rfl, -⟩ | ⟨row, hrow, -, rfl⟩⟩ := removeState_eq_ok hstep
  · exact h
  have hkept : ∀ (other : List String) (row' : Row),
      (writes.rows.erase (splitText keySeparator rawKey))[other]? = some row' →
      writes.rows[other]? = some row' := by
    intro other row' hrow'
    rw [getElem?_erase_ite] at hrow'
    split at hrow'
    · cases hrow'
    · exact hrow'
  refine ⟨fun other row' hrow' => h.address other row' (hkept other row' hrow'),
    fun other row' hrow' => h.ownKey other row' (hkept other row' hrow'),
    fun other row' hrow' => h.columns other row' (hkept other row' hrow'),
    fun other row' hrow' => h.hashed other row' (hkept other row' hrow'), ?_⟩
  intro family hfamily key
  obtain ⟨current, hcurrent, hdigest⟩ := h.lives family hfamily key
  have haddress := h.address _ row hrow
  simp only [removalEvent, hfamily]
  by_cases hkey : key = rawKey
  · -- the life of the key ends with the hash of its row
    subst hkey
    refine ⟨none, ?_, ?_⟩
    · have hrowHash := h.hashed _ row hrow
      rw [semanticHash, hfamily, Option.map_some] at hrowHash
      obtain rfl : current = row.lifecycleHash := by
        rw [hrowHash, hdigest]
        exact ⟨_, row, hrow, joinText_splitText _ _, hrowHash⟩
      refine Eq.trans (lifecycle_append ?_) ?_
      · exact ⟨rfl, rfl⟩
      rw [hcurrent, hrowHash, Option.bind_some]
      simp only [ComponentEvent.advance, if_true]
    · intro digest
      have habsent : ¬StoredHash (writes.rows.erase (splitText keySeparator key))
          (joinText keySeparator (splitText keySeparator key)) digest :=
        not_storedHash_erase_self (h.unique haddresses haddress)
      rw [joinText_splitText] at habsent
      exact ⟨fun hsome => (by cases hsome), fun hstored => absurd hstored habsent⟩
  · refine ⟨current, ?_, ?_⟩
    · rw [← hcurrent]
      refine lifecycle_append_of_not ?_
      rintro ⟨-, hevent⟩
      exact hkey hevent.symm
    · intro digest
      rw [hdigest, storedHash_erase_of_ne]
      rwa [joinText_splitText]

end Sound

/-! ## Whole loops -/

section Loops

variable {hash : List (String × Option Value) → String} {name : Family} {observedAtMs : ℤ}
  {addresses : List String → Prop}

variable {values : List Entity}
variable {final loop : ChangeLoop}

/-- The loop over the changed entities keeps the invariant. -/
theorem Sound.changes
    (h : Sound hash name addresses loop.writes) (haddresses : Unambiguous addresses)
    (hvalues : ∀ value ∈ values, ∀ parts, tableKeyParts name value = .ok parts →
      addresses parts ∧ name.key value = .ok (joinText keySeparator parts))
    (hrun : values.foldlM (applyChange hash name observedAtMs) loop = .ok final) :
    Sound hash name addresses final.writes := by
  refine foldlM_invariant (P := fun loop => Sound hash name addresses loop.writes) hrun h ?_
  intro loop value hvalue next hloop hstep
  exact hloop.changed haddresses (hvalues value hvalue) hstep

/-- After the loop a row is that of a changed entity with its columns, or as it was when no
changed entity has these columns. -/
theorem rows_changes (hrun : values.foldlM (applyChange hash name observedAtMs) loop = .ok final)
    (parts : List String) :
    (∃ value ∈ values, tableKeyParts name value = .ok parts ∧
      final.writes.rows[parts]? = some {
        lifecycleHash := semanticHash hash name value
        state := value }) ∨
      ((∀ value ∈ values, tableKeyParts name value ≠ .ok parts) ∧
        final.writes.rows[parts]? = loop.writes.rows[parts]?) := by
  induction values generalizing loop with
  | nil =>
    obtain rfl := pure_eq_ok.mp hrun
    exact .inr ⟨by simp, rfl⟩
  | cons value values ih =>
    obtain ⟨next, hstep, hrest⟩ := foldlM_cons_eq_ok.mp hrun
    obtain ⟨-, columns, -, hcolumns, hrows, -, -⟩ := applyChange_eq_ok hstep
    obtain ⟨later, hlater, hparts, hrow⟩ | ⟨hnone, hrow⟩ := ih hrest
    · exact .inl ⟨later, mem_cons_of_mem value hlater, hparts, hrow⟩
    rw [hrow, hrows, getElem?_insert_ite]
    by_cases hsame : parts = columns
    · subst hsame
      exact .inl ⟨value, mem_cons_self, hcolumns, if_pos rfl⟩
    · refine .inr ⟨?_, if_neg hsame⟩
      intro other hother hparts
      obtain rfl | hother := mem_cons.mp hother
      · rw [hcolumns] at hparts
        exact hsame (Except.ok.inj hparts).symm
      · exact hnone other hother hparts

/-- Every entity of the loop has columns. -/
theorem columns_changes
    (hrun : values.foldlM (applyChange hash name observedAtMs) loop = .ok final) :
    ∀ value ∈ values, ∃ parts, tableKeyParts name value = .ok parts :=
  forall_of_foldlM hrun fun _ _ _ hstep => by
    obtain ⟨-, parts, -, hparts, -⟩ := applyChange_eq_ok hstep
    exact ⟨parts, hparts⟩

theorem incoming_changes
    (hrun : values.foldlM (applyChange hash name observedAtMs) loop = .ok final) (key : String) :
    key ∈ final.incoming ↔ key ∈ loop.incoming ∨ ∃ value ∈ values, name.key value = .ok key := by
  induction values generalizing loop with
  | nil =>
    obtain rfl := pure_eq_ok.mp hrun
    simp
  | cons value values ih =>
    obtain ⟨next, hstep, hrest⟩ := foldlM_cons_eq_ok.mp hrun
    obtain ⟨entityKey, -, hkey, -, -, -, hincoming⟩ := applyChange_eq_ok hstep
    have hvalue : name.key value = .ok key ↔ key = entityKey := by
      rw [hkey, Except.ok.injEq, eq_comm]
    rw [ih hrest, hincoming, mem_append, mem_singleton]
    simp only [mem_cons, exists_eq_or_imp, hvalue, or_assoc]

/-- A turn of the loop over removed keys is a removal. -/
theorem applyRemoval_eq_ok {loop next : RemovalLoop} {rawKey : String}
    (h : applyRemoval name observedAtMs loop rawKey = .ok next) :
    ∃ found, removeState name rawKey observedAtMs loop.writes = .ok (next.writes, found) := by
  obtain ⟨⟨writes, found⟩, hremove, h⟩ := bind_eq_ok.mp h
  obtain rfl := pure_eq_ok.mp h
  exact ⟨found, hremove⟩

theorem Sound.removals {removed : List String} {loop final : RemovalLoop}
    (h : Sound hash name addresses loop.writes) (haddresses : Unambiguous addresses)
    (hrun : removed.foldlM (applyRemoval name observedAtMs) loop = .ok final) :
    Sound hash name addresses final.writes := by
  refine foldlM_invariant (P := fun loop => Sound hash name addresses loop.writes) hrun h ?_
  intro loop rawKey _ next hloop hstep
  obtain ⟨found, hremove⟩ := applyRemoval_eq_ok hstep
  exact hloop.removed haddresses hremove

/-- The removed keys split into a value for each key column, and the loop erases the rows that
they address. -/
theorem rows_removals {removed : List String} {loop final : RemovalLoop}
    (hrun : removed.foldlM (applyRemoval name observedAtMs) loop = .ok final) :
    (∀ rawKey ∈ removed, (splitText keySeparator rawKey).length = name.keyColumns.length) ∧
    ∀ parts, final.writes.rows[parts]? =
      if parts ∈ removed.map (splitText keySeparator) then none else loop.writes.rows[parts]? := by
  induction removed generalizing loop with
  | nil =>
    obtain rfl := pure_eq_ok.mp hrun
    exact ⟨by simp, fun parts => by simp⟩
  | cons rawKey removed ih =>
    obtain ⟨next, hstep, hrest⟩ := foldlM_cons_eq_ok.mp hrun
    obtain ⟨found, hremove⟩ := applyRemoval_eq_ok hstep
    obtain ⟨hlength, hremoved⟩ := removeState_eq_ok hremove
    obtain ⟨hlengths, hrows⟩ := ih hrest
    refine ⟨?_, ?_⟩
    · intro key hkey
      obtain rfl | hkey := mem_cons.mp hkey
      · exact hlength
      · exact hlengths key hkey
    · intro parts
      have hnext : next.writes.rows[parts]? =
          if parts = splitText keySeparator rawKey then none else loop.writes.rows[parts]? := by
        obtain ⟨hnone, heq, -⟩ | ⟨row, -, -, heq⟩ := hremoved
        · rw [heq]
          split
          · rename_i hparts
            rw [hparts, hnone]
          · rfl
        · rw [heq, getElem?_erase_ite]
      rw [hrows, hnext]
      by_cases hparts : parts = splitText keySeparator rawKey <;> simp [hparts]

/-- The persisted keys that a full delta sweeps away: those that did not come in. -/
def sweptKeys (full : Bool) (incoming : List String) (rows : BTreeMap (List String) Row) :
    List String :=
  if full then
    (rows.keys.map (joinText keySeparator)).filter fun key => !incoming.contains key
  else []

/-- The loop of the sweep is a loop over removed keys. -/
theorem foldlM_sweepRow (incoming : List String) (rows : List (List String)) (loop : RemovalLoop) :
    rows.foldlM (sweepRow name observedAtMs incoming) loop =
      ((rows.map (joinText keySeparator)).filter fun key => !incoming.contains key).foldlM
        (applyRemoval name observedAtMs) loop := by
  induction rows generalizing loop with
  | nil => rfl
  | cons parts rows ih =>
    rw [foldlM_cons, map_cons, filter_cons, sweepRow]
    cases hcontains : incoming.contains (joinText keySeparator parts) with
    | true =>
      simp only [if_true, Bool.not_true, Bool.false_eq_true, if_false, bind_ok]
      exact ih loop
    | false =>
      simp only [Bool.false_eq_true, if_false, Bool.not_false, if_true, foldlM_cons, ih]

/-- The sweep removes the swept keys. -/
theorem sweep_eq (full : Bool) (incoming : List String) (loop : RemovalLoop) :
    sweep name full observedAtMs incoming loop =
      (sweptKeys full incoming loop.writes.rows).foldlM (applyRemoval name observedAtMs) loop := by
  cases full with
  | false => rfl
  | true => exact foldlM_sweepRow incoming loop.writes.rows.keys loop

end Loops

/-! ## The application of a delta -/

section Deltas

variable {hash : List (String × Option Value) → String} {name : Family} {delta : Delta}
  {observedAtMs : ℤ} {host next : HostTables} {applied : Applied}

/-- A delta of the stored revision or an earlier one is no news. -/
theorem applyFamily_of_le (h : delta.revision ≤ (host.families name).revision) :
    applyFamily hash name delta observedAtMs host = .ok (host, {
      accepted := (host.families name).revision
      reconcile := false
      live := none }) := by
  rw [applyFamily, if_pos h]

/-- An incremental delta that does not follow on the stored revision is left for
reconciliation. -/
theorem applyFamily_of_gap (hnew : (host.families name).revision < delta.revision)
    (hfull : delta.full = false) (hgap : delta.revision ≠ (host.families name).revision + 1) :
    applyFamily hash name delta observedAtMs host = .ok (host, {
      accepted := (host.families name).revision
      reconcile := true
      live := none }) := by
  rw [applyFamily, if_neg (Nat.not_le.mpr hnew), if_pos (by simp [hfull, hgap])]

/-- What the application of a delta does: the loop over its changed entities, the loop over its
removed keys, and the removal of the keys it sweeps. -/
structure Applies (hash : List (String × Option Value) → String) (name : Family) (delta : Delta)
    (observedAtMs : ℤ) (host next : HostTables) : Prop where
  newer : (host.families name).revision < delta.revision
  follows : delta.full = false → delta.revision = (host.families name).revision + 1
  loops : ∃ (changed : ChangeLoop) (removed swept : RemovalLoop),
    delta.changed.foldlM (applyChange hash name observedAtMs) {
      writes := { rows := (host.families name).rows, events := host.events }
      incoming := []
      changes := [] } = .ok changed ∧
    delta.removed.foldlM (applyRemoval name observedAtMs) {
      writes := changed.writes
      removedKeys := [] } = .ok removed ∧
    (sweptKeys delta.full changed.incoming removed.writes.rows).foldlM
      (applyRemoval name observedAtMs) removed = .ok swept ∧
    next = { host with
      families := Function.update host.families name {
        rows := swept.writes.rows
        revision := delta.revision }
      events := swept.writes.events }

/-- A delta of a new revision that is full, or follows on the stored one, is applied. -/
theorem applyFamily_applies (hnew : (host.families name).revision < delta.revision)
    (hfollows : delta.full = false → delta.revision = (host.families name).revision + 1)
    (h : applyFamily hash name delta observedAtMs host = .ok (next, applied)) :
    Applies hash name delta observedAtMs host next ∧ applied.reconcile = false := by
  have hgap : ¬(!delta.full && delta.revision != (host.families name).revision + 1) = true := by
    cases hfull : delta.full with
    | true => simp
    | false => simp [hfollows hfull]
  rw [applyFamily, if_neg (Nat.not_le.mpr hnew), if_neg hgap] at h
  obtain ⟨changed, hchanged, h⟩ := bind_eq_ok.mp h
  obtain ⟨removed, hremoved, h⟩ := bind_eq_ok.mp h
  obtain ⟨swept, hswept, h⟩ := bind_eq_ok.mp h
  rw [sweep_eq] at hswept
  cases pure_eq_ok.mp h
  exact ⟨⟨hnew, hfollows, changed, removed, swept, hchanged, hremoved, hswept, rfl⟩, rfl⟩

/-- A delta is no news, or left for reconciliation, or applied. -/
theorem applyFamily_cases (h : applyFamily hash name delta observedAtMs host = .ok (next, applied)) :
    (delta.revision ≤ (host.families name).revision ∧ next = host ∧ applied.reconcile = false) ∨
      ((host.families name).revision < delta.revision ∧ delta.full = false ∧
        delta.revision ≠ (host.families name).revision + 1 ∧ next = host ∧
        applied.reconcile = true) ∨
      Applies hash name delta observedAtMs host next ∧ applied.reconcile = false := by
  by_cases hnew : (host.families name).revision < delta.revision
  · by_cases hfollows : delta.full = false → delta.revision = (host.families name).revision + 1
    · exact .inr (.inr (applyFamily_applies hnew hfollows h))
    · simp only [Classical.not_imp] at hfollows
      obtain ⟨hfull, hgap⟩ := hfollows
      rw [applyFamily_of_gap hnew hfull hgap] at h
      cases h
      exact .inr (.inl ⟨hnew, hfull, hgap, rfl, rfl⟩)
  · have hle := Nat.not_lt.mp hnew
    rw [applyFamily_of_le hle] at h
    cases h
    exact .inl ⟨hle, rfl, rfl⟩

end Deltas

/-! ## Other families -/

section Frames

variable {hash : List (String × Option Value) → String} {name : Family} {observedAtMs : ℤ}
  {family : EventFamily}

/-- The events of a family. -/
def eventsOf (family : EventFamily) (events : List ComponentEvent) : List ComponentEvent :=
  events.filter fun event => event.family = family

/-- The life of an entity is read off the events of its family. -/
theorem lifecycle_eventsOf (family : EventFamily) (key : String) (events : List ComponentEvent) :
    lifecycle family key (eventsOf family events) = lifecycle family key events := by
  rw [lifecycle, lifecycle, eventsOf, filter_filter]
  congr 1
  apply filter_congr
  intro event _
  by_cases h : event.family = family <;> simp [h]

/-- Events of other families do not count. -/
theorem eventsOf_append {events added final : List ComponentEvent}
    (h : final = events ++ added) (hadded : ∀ event ∈ added, event.family ≠ family) :
    eventsOf family final = eventsOf family events := by
  have hnone : eventsOf family added = [] :=
    filter_eq_nil_iff.mpr fun event hevent => by
      simpa using hadded event hevent
  rw [eventsOf] at hnone
  rw [h, eventsOf, filter_append, hnone, append_nil, eventsOf]

/-- A turn of the loop over changed entities adds events of its own family only. -/
theorem eventsOf_applyChange {loop next : ChangeLoop} {value : Entity}
    (hother : name.eventFamily ≠ some family)
    (h : applyChange hash name observedAtMs loop value = .ok next) :
    eventsOf family next.writes.events = eventsOf family loop.writes.events := by
  obtain ⟨entityKey, parts, -, -, -, hevents, -⟩ := applyChange_eq_ok h
  refine eventsOf_append hevents ?_
  intro event hevent
  simp only [changeEvent] at hevent
  split at hevent
  · cases hevent
  · rename_i own hown
    split at hevent
    · cases hevent
    · rw [mem_singleton.mp hevent]
      rintro rfl
      exact hother hown

/-- A turn of the loop over removed keys adds events of its own family only. -/
theorem eventsOf_applyRemoval {loop next : RemovalLoop} {rawKey : String}
    (hother : name.eventFamily ≠ some family)
    (h : applyRemoval name observedAtMs loop rawKey = .ok next) :
    eventsOf family next.writes.events = eventsOf family loop.writes.events := by
  obtain ⟨found, hremove⟩ := applyRemoval_eq_ok h
  obtain ⟨-, ⟨-, heq, -⟩ | ⟨row, -, -, heq⟩⟩ := removeState_eq_ok hremove
  · rw [heq]
  · refine eventsOf_append (congrArg FamilyWrites.events heq) ?_
    intro event hevent
    simp only [removalEvent] at hevent
    split at hevent
    · cases hevent
    · rename_i own hown
      rw [mem_singleton.mp hevent]
      rintro rfl
      exact hother hown

/-- **A delta leaves the other families alone**: their tables, and the events of their
entities. -/
theorem applyFamily_frame {delta : Delta} {host next : HostTables} {applied : Applied}
    (h : applyFamily hash name delta observedAtMs host = .ok (next, applied)) :
    (∀ other, other ≠ name → next.families other = host.families other) ∧
      ∀ family, name.eventFamily ≠ some family →
        eventsOf family next.events = eventsOf family host.events := by
  obtain ⟨-, rfl, -⟩ | ⟨-, -, -, rfl, -⟩ | ⟨happlies, -⟩ := applyFamily_cases h
  · exact ⟨fun _ _ => rfl, fun _ _ => rfl⟩
  · exact ⟨fun _ _ => rfl, fun _ _ => rfl⟩
  obtain ⟨-, -, changed, removed, swept, hchanged, hremoved, hswept, rfl⟩ := happlies
  refine ⟨fun other hne => Function.update_of_ne hne _ _, ?_⟩
  intro family hother
  -- each of the three loops keeps the events of the other family
  have hwritten : eventsOf family changed.writes.events = eventsOf family host.events :=
    foldlM_invariant
      (P := fun loop : ChangeLoop => eventsOf family loop.writes.events = eventsOf family host.events)
      hchanged rfl fun _ _ _ _ hloop hstep => (eventsOf_applyChange hother hstep).trans hloop
  have hremovals : ∀ {keys : List String} {loop final : RemovalLoop},
      keys.foldlM (applyRemoval name observedAtMs) loop = .ok final →
      eventsOf family final.writes.events = eventsOf family loop.writes.events := by
    intro keys loop final hrun
    exact foldlM_invariant
      (P := fun l : RemovalLoop => eventsOf family l.writes.events = eventsOf family loop.writes.events)
      hrun rfl fun _ _ _ _ hloop hstep => (eventsOf_applyRemoval hother hstep).trans hloop
  exact (hremovals hswept).trans ((hremovals hremoved).trans hwritten)

end Frames

end HomelabInventory.Telemetry
