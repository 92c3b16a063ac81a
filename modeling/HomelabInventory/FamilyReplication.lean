import HomelabInventory.FamilyWrites

/-!
# Replication of an agent's entities

An agent numbers the states of a family of entities and sends each state in
full or as the change from the one before. Whatever is lost, repeated or
reordered on the way, the rows of the family are the entities of the state whose
revision is stored, as long as every entity is stored under its own key.
-/

namespace HomelabInventory.Telemetry

open List

/-- The numbered states of a family of entities at an agent, from the empty one on. The
entities of a state have keys, and no two of them one key. -/
structure AgentStates (name : Family) where
  states : ℕ → List Entity
  start : states 0 = []
  keyed : ∀ revision, ∀ value ∈ states revision, ∃ key, name.key value = .ok key
  distinct : ∀ revision, ((states revision).map name.key).Nodup

namespace AgentStates

variable {name : Family} (agent : AgentStates name)

/-- A delta describes the states of an agent: it carries a state in full, or the entities that
were added or changed and the keys that were removed since the state before. -/
structure Describes (delta : Delta) : Prop where
  full : delta.full = true →
    (∀ value, value ∈ delta.changed ↔ value ∈ agent.states delta.revision) ∧ delta.removed = []
  incremental : delta.full = false →
    (∀ value, value ∈ delta.changed ↔
      value ∈ agent.states delta.revision ∧ value ∉ agent.states (delta.revision - 1)) ∧
    ∀ key, key ∈ delta.removed ↔
      (∃ value ∈ agent.states (delta.revision - 1), name.key value = .ok key) ∧
        ∀ value ∈ agent.states delta.revision, name.key value ≠ .ok key

/-- The tables of a host hold the state of the stored revision: its rows are the entities of
the state under their columns, each under its own key, and the events of a key follow the
presence of its row. -/
structure Mirrors (host : HostTables) : Prop where
  rows : ∀ parts value,
    (∃ row, (host.families name).rows[parts]? = some row ∧ row.state = value) ↔
      value ∈ agent.states (host.families name).revision ∧ tableKeyParts name value = .ok parts
  ownKey : ∀ (parts : List String) (row : Row), (host.families name).rows[parts]? = some row →
    name.key row.state = .ok (joinText keySeparator parts)
  lives : ∀ family, name.eventFamily = some family → ∀ key, ∃ current,
    lifecycle family key host.events = some current ∧
      (current.isSome ↔ ∃ parts ∈ (host.families name).rows, joinText keySeparator parts = key)

variable {agent}

/-- The key of an entity finds it in its state. -/
theorem eq_of_key {revision : ℕ} {value other : Entity} (hvalue : value ∈ agent.states revision)
    (hother : other ∈ agent.states revision) (hkey : name.key value = name.key other) :
    value = other :=
  inj_on_of_nodup_map (agent.distinct revision) hvalue hother hkey

/-- A delta changes entities of its own state only. -/
theorem Describes.mem_states {delta : Delta} (h : agent.Describes delta) {value : Entity}
    (hvalue : value ∈ delta.changed) : value ∈ agent.states delta.revision := by
  cases hfull : delta.full with
  | true => exact ((h.full hfull).1 value).mp hvalue
  | false => exact (((h.incremental hfull).1 value).mp hvalue).1

end AgentStates

/-! ## The condition -/

/-- The entities of a delta that is applied are stored under their own keys: the columns of
each join to its entity key, and they are the columns of the row that has this key, when
there is one. -/
def Addressed (name : Family) (table : FamilyTable) (delta : Delta) : Prop :=
  table.revision < delta.revision → (delta.full = false → delta.revision = table.revision + 1) →
    ∀ value ∈ delta.changed, ∀ parts, tableKeyParts name value = .ok parts →
      name.key value = .ok (joinText keySeparator parts) ∧
      ∀ stored ∈ table.rows, joinText keySeparator stored = joinText keySeparator parts →
        stored = parts

/-! ## One delta -/

section Deltas

variable {hash : List (String × Option Value) → String} {name : Family}

/-- The invariant of replication: the rows and events of the family are sound, and the rows
are those of the state of the stored revision. -/
structure Replica (hash : List (String × Option Value) → String) (agent : AgentStates name)
    (host : HostTables) : Prop where
  sound : Sound hash name (fun parts => parts ∈ (host.families name).rows) {
    rows := (host.families name).rows
    events := host.events }
  stored : ∀ (parts : List String) (row : Row), (host.families name).rows[parts]? = some row →
    row.state ∈ agent.states (host.families name).revision
  present : ∀ value ∈ agent.states (host.families name).revision, ∃ parts row,
    tableKeyParts name value = .ok parts ∧ (host.families name).rows[parts]? = some row ∧
      row.state = value

variable {parts : List String}

theorem mem_of_getElem? {rows : BTreeMap (List String) Row} {row : Row}
    (h : rows[parts]? = some row) : parts ∈ rows :=
  Std.ExtTreeMap.mem_iff_isSome_getElem?.mpr (by rw [h]; rfl)

theorem getElem?_of_mem {rows : BTreeMap (List String) Row} (h : parts ∈ rows) :
    ∃ row, rows[parts]? = some row :=
  Option.isSome_iff_exists.mp (Std.ExtTreeMap.mem_iff_isSome_getElem?.mp h)

/-- The addresses of a sound family may be widened, and narrowed to those in use. -/
theorem Sound.of_address {addresses : List String → Prop} {writes : FamilyWrites}
    (h : Sound hash name addresses writes) (others : List String → Prop)
    (hothers : ∀ (parts : List String) (row : Row), writes.rows[parts]? = some row →
      others parts) : Sound hash name others writes :=
  ⟨hothers, h.ownKey, h.columns, h.hashed, h.lives⟩

/-- A replica mirrors the state of the stored revision. -/
theorem Replica.mirrors {agent : AgentStates name} {host : HostTables}
    (h : Replica hash agent host) : agent.Mirrors host where
  rows parts value := by
    constructor
    · rintro ⟨row, hrow, rfl⟩
      exact ⟨h.stored parts row hrow, h.sound.columns parts row hrow⟩
    · rintro ⟨hvalue, hparts⟩
      obtain ⟨columns, row, hcolumns, hrow, hstate⟩ := h.present value hvalue
      rw [hparts] at hcolumns
      obtain rfl := Except.ok.inj hcolumns
      exact ⟨row, hrow, hstate⟩
  ownKey := h.sound.ownKey
  lives family hfamily key := by
    obtain ⟨current, hcurrent, hdigest⟩ := h.sound.lives family hfamily key
    refine ⟨current, hcurrent, ?_⟩
    rw [Option.isSome_iff_exists]
    simp only [hdigest]
    constructor
    · rintro ⟨digest, parts, row, hrow, hjoin, -⟩
      exact ⟨parts, mem_of_getElem? hrow, hjoin⟩
    · rintro ⟨parts, hparts, hjoin⟩
      obtain ⟨row, hrow⟩ := getElem?_of_mem hparts
      have hhash := h.sound.hashed parts row hrow
      rw [semanticHash, hfamily, Option.map_some] at hhash
      exact ⟨_, parts, row, hrow, hjoin, hhash⟩

/-- The empty tables mirror the empty state. -/
theorem Replica.empty (agent : AgentStates name) : Replica hash agent {} where
  sound := by
    refine ⟨?_, ?_, ?_, ?_, ?_⟩
    · intro parts row hrow
      simp at hrow
    · intro parts row hrow
      simp at hrow
    · intro parts row hrow
      simp at hrow
    · intro parts row hrow
      simp at hrow
    · intro family _ key
      refine ⟨none, rfl, ?_⟩
      intro digest
      refine ⟨fun h => (by cases h), ?_⟩
      rintro ⟨parts, row, hrow, -⟩
      simp at hrow
  stored parts row hrow := by simp at hrow
  present value hvalue := by
    rw [show (({} : HostTables).families name).revision = 0 from rfl, agent.start] at hvalue
    cases hvalue

variable {agent : AgentStates name} {delta : Delta} {observedAtMs : ℤ} {host next : HostTables}

/-- The addresses in play while a delta is applied: those of the stored rows, and the columns
of the changed entities. -/
def InPlay (name : Family) (table : FamilyTable) (delta : Delta) (parts : List String) : Prop :=
  parts ∈ table.rows ∨ ∃ value ∈ delta.changed, tableKeyParts name value = .ok parts

/-- The addresses in play do not clash when the delta is addressed. -/
theorem Replica.unambiguous (h : Replica hash agent host) (hdelta : agent.Describes delta)
    (hkeys : ∀ value ∈ delta.changed, ∀ parts, tableKeyParts name value = .ok parts →
      name.key value = .ok (joinText keySeparator parts) ∧
      ∀ stored ∈ (host.families name).rows,
        joinText keySeparator stored = joinText keySeparator parts → stored = parts) :
    Unambiguous (InPlay name (host.families name) delta) := by
  rintro parts other (hparts | ⟨value, hvalue, hparts⟩) (hother | ⟨value', hvalue', hother⟩) hjoin
  · -- two rows of one key hold one entity
    obtain ⟨row, hrow⟩ := getElem?_of_mem hparts
    obtain ⟨row', hrow'⟩ := getElem?_of_mem hother
    have hsame : row.state = row'.state := by
      refine AgentStates.eq_of_key (h.stored parts row hrow) (h.stored other row' hrow') ?_
      rw [h.sound.ownKey parts row hrow, h.sound.ownKey other row' hrow', hjoin]
    have hcolumns := h.sound.columns parts row hrow
    rw [hsame, h.sound.columns other row' hrow'] at hcolumns
    exact (Except.ok.inj hcolumns).symm
  · exact (hkeys value' hvalue' other hother).2 parts hparts hjoin
  · exact ((hkeys value hvalue parts hparts).2 other hother hjoin.symm).symm
  · -- two changed entities of one key are one entity of the state
    have hsame : value = value' := by
      refine AgentStates.eq_of_key (hdelta.mem_states hvalue) (hdelta.mem_states hvalue') ?_
      rw [(hkeys value hvalue parts hparts).1, (hkeys value' hvalue' other hother).1, hjoin]
    rw [hsame, hother] at hparts
    exact (Except.ok.inj hparts).symm

/-- Among rows and keys of the right number of values, a row is addressed by a key exactly when
its columns join to the key. -/
theorem mem_map_splitText {keys : List String} {columns : ℕ}
    (hkeys : ∀ key ∈ keys, (splitText keySeparator key).length = columns)
    (hparts : parts.length = columns) :
    parts ∈ keys.map (splitText keySeparator) ↔ joinText keySeparator parts ∈ keys := by
  rw [mem_map]
  constructor
  · rintro ⟨key, hkey, rfl⟩
    rwa [joinText_splitText]
  · intro hkey
    exact ⟨_, hkey, splitText_joinText (by rw [hkeys _ hkey, hparts])⟩

/-- The rows that the removals and the sweep of a delta leave are those whose key was not
removed and, when the delta is full, came in. -/
theorem rows_removed {full : Bool} {removedKeys incoming : List String}
    {written removed swept : RemovalLoop}
    (hcolumns : ∀ (parts : List String) (row : Row), written.writes.rows[parts]? = some row →
      parts.length = name.keyColumns.length)
    (hremoved : removedKeys.foldlM (applyRemoval name observedAtMs) written = .ok removed)
    (hswept : (sweptKeys full incoming removed.writes.rows).foldlM
      (applyRemoval name observedAtMs) removed = .ok swept) (parts : List String) (row : Row) :
    swept.writes.rows[parts]? = some row ↔ written.writes.rows[parts]? = some row ∧
      joinText keySeparator parts ∉ removedKeys ∧
      (full = true → joinText keySeparator parts ∈ incoming) := by
  obtain ⟨hremovedKeys, hremovedRows⟩ := rows_removals hremoved
  obtain ⟨hsweptKeys, hsweptRows⟩ := rows_removals hswept
  rw [hsweptRows, hremovedRows]
  by_cases hrow : written.writes.rows[parts]? = some row
  · have hlength := hcolumns parts row hrow
    rw [if_congr (mem_map_splitText hsweptKeys hlength) rfl rfl,
      if_congr (mem_map_splitText hremovedKeys hlength) rfl rfl, hrow]
    by_cases hkey : joinText keySeparator parts ∈ removedKeys
    · simp [hkey]
    · -- the row is still there when the sweep looks at the persisted keys
      have hget : removed.writes.rows[parts]? = some row := by
        rw [hremovedRows, if_congr (mem_map_splitText hremovedKeys hlength) rfl rfl, if_neg hkey,
          hrow]
      have hpresent := mem_of_getElem? hget
      have hsweep : joinText keySeparator parts ∈ sweptKeys full incoming removed.writes.rows ↔
          full = true ∧ joinText keySeparator parts ∉ incoming := by
        cases full with
        | false => simp [sweptKeys]
        | true =>
          simp only [sweptKeys, if_true, mem_filter, mem_map, Bool.not_eq_true',
            contains_eq_mem, decide_eq_false_iff_not, true_and, and_iff_right_iff_imp]
          intro _
          exact ⟨parts, Std.ExtTreeMap.mem_keys.mpr hpresent, rfl⟩
      rw [if_neg hkey, if_congr hsweep rfl rfl]
      cases full <;> by_cases hin : joinText keySeparator parts ∈ incoming <;> simp [hkey, hin]
  · have hnone : ∀ (c c' : Prop) [Decidable c] [Decidable c'],
        ¬(if c then none else if c' then none else written.writes.rows[parts]?) = some row := by
      intro c c' _ _
      split
      · exact nofun
      · split
        · exact nofun
        · exact hrow
    exact ⟨fun h => absurd h (hnone _ _), fun h => absurd h.1 hrow⟩

/-- **A delta that is applied takes a replica to the state it describes**, when its entities
are stored under their own keys. -/
theorem Applies.replica (h : Replica hash agent host) (hdelta : agent.Describes delta)
    (haddressed : Addressed name (host.families name) delta)
    (happlies : Applies hash name delta observedAtMs host next) : Replica hash agent next := by
  obtain ⟨hnewer, hfollows, changed, removed, swept, hchanged, hremoved, hswept, hnext⟩ := happlies
  have hfamily : next.families name =
      { rows := swept.writes.rows, revision := delta.revision } := by
    rw [hnext]
    exact Function.update_self ..
  have hkeys := haddressed hnewer hfollows
  have hinPlay := h.unambiguous hdelta hkeys
  have hstart := h.sound.of_address (InPlay name (host.families name) delta)
    fun parts row hrow => .inl (mem_of_getElem? hrow)
  have hvalues : ∀ value ∈ delta.changed, ∀ parts, tableKeyParts name value = .ok parts →
      InPlay name (host.families name) delta parts ∧
        name.key value = .ok (joinText keySeparator parts) := by
    intro value hvalue parts hparts
    exact ⟨.inr ⟨value, hvalue, hparts⟩, (hkeys value hvalue parts hparts).1⟩
  have hwritten := hstart.changes hinPlay hvalues hchanged
  have hfinal := (hwritten.removals hinPlay hremoved).removals hinPlay hswept
  have hrows := rows_removed (fun parts row hrow =>
    length_tableKeyParts (hwritten.columns parts row hrow)) hremoved hswept
  have hincoming := incoming_changes hchanged
  have hwrites := rows_changes hchanged
  -- every changed entity was written to the row of its columns
  have hentities : ∀ value ∈ delta.changed, ∃ parts row, tableKeyParts name value = .ok parts ∧
      changed.writes.rows[parts]? = some row ∧ row.state = value := by
    intro value hvalue
    obtain ⟨parts, hparts⟩ := columns_changes hchanged value hvalue
    obtain ⟨other, hother, hcolumns, hrow⟩ | ⟨hnone, -⟩ := hwrites parts
    · refine ⟨parts, _, hparts, hrow, ?_⟩
      refine AgentStates.eq_of_key (hdelta.mem_states hother) (hdelta.mem_states hvalue) ?_
      rw [(hkeys other hother parts hcolumns).1, (hkeys value hvalue parts hparts).1]
    · exact absurd hparts (hnone value hvalue)
  refine ⟨?_, ?_, ?_⟩
  · rw [hfamily, hnext]
    exact hfinal.of_address _ fun parts row hrow => mem_of_getElem? hrow
  · intro parts row hrow
    rw [hfamily] at hrow ⊢
    obtain ⟨hrow, hremovedKey, hcame⟩ := (hrows parts row).mp hrow
    obtain ⟨value, hvalue, -, hvalueRow⟩ | ⟨hnone, hold⟩ := hwrites parts
    · rw [hrow] at hvalueRow
      rw [Option.some.inj hvalueRow]
      exact hdelta.mem_states hvalue
    -- the row is an old one, so no changed entity has its key
    have hkey := hwritten.ownKey parts row hrow
    have hunchanged : ∀ value ∈ delta.changed,
        name.key value ≠ .ok (joinText keySeparator parts) := by
      intro value hvalue hvalueKey
      obtain ⟨columns, row', hcolumns, hrow', -⟩ := hentities value hvalue
      have hjoin := (hkeys value hvalue columns hcolumns).1
      rw [hvalueKey] at hjoin
      obtain rfl := hinPlay parts columns (hwritten.address parts row hrow)
        (hwritten.address columns row' hrow') (Except.ok.inj hjoin)
      exact hnone value hvalue hcolumns
    cases hfull : delta.full with
    | true =>
      obtain hcame | ⟨value, hvalue, hvalueKey⟩ := (hincoming _).mp (hcame hfull)
      · cases hcame
      · exact absurd hvalueKey (hunchanged value hvalue)
    | false =>
      -- its entity is not removed, and so it is still in the state
      obtain ⟨hchange, hremove⟩ := hdelta.incremental hfull
      rw [hold] at hrow
      have hbefore : row.state ∈ agent.states (delta.revision - 1) := by
        rw [hfollows hfull, Nat.add_sub_cancel]
        exact h.stored parts row hrow
      by_contra hgone
      refine hremovedKey ((hremove _).mpr ⟨⟨row.state, hbefore, hkey⟩, ?_⟩)
      intro value hvalue hvalueKey
      by_cases hwas : value ∈ agent.states (delta.revision - 1)
      · have hsame := AgentStates.eq_of_key hwas hbefore (hvalueKey.trans hkey.symm)
        exact hgone (hsame ▸ hvalue)
      · exact hunchanged value ((hchange value).mpr ⟨hvalue, hwas⟩) hvalueKey
  · intro value hvalue
    rw [hfamily] at hvalue ⊢
    -- the entity was written now, or has been there since the state before
    have hthere : ∃ parts row, tableKeyParts name value = .ok parts ∧
        changed.writes.rows[parts]? = some row ∧ row.state = value := by
      by_cases hmem : value ∈ delta.changed
      · exact hentities value hmem
      cases hfull : delta.full with
      | true => exact absurd (((hdelta.full hfull).1 value).mpr hvalue) hmem
      | false =>
        have hbefore : value ∈ agent.states (host.families name).revision := by
          by_contra hnew
          refine hmem (((hdelta.incremental hfull).1 value).mpr ⟨hvalue, ?_⟩)
          rwa [hfollows hfull, Nat.add_sub_cancel]
        obtain ⟨parts, row, hparts, hrow, hstate⟩ := h.present value hbefore
        obtain ⟨other, hother, hcolumns, hrow'⟩ | ⟨-, hold⟩ := hwrites parts
        · refine ⟨parts, _, hparts, hrow', ?_⟩
          refine AgentStates.eq_of_key (hdelta.mem_states hother) hvalue ?_
          rw [(hkeys other hother parts hcolumns).1, ← hstate, h.sound.ownKey parts row hrow]
        · exact ⟨parts, row, hparts, hold.trans hrow, hstate⟩
    obtain ⟨parts, row, hparts, hrow, rfl⟩ := hthere
    have hkey := hwritten.ownKey parts row hrow
    refine ⟨parts, row, hparts, (hrows parts row).mpr ⟨hrow, ?_, ?_⟩, rfl⟩
    · intro hremovedKey
      cases hfull : delta.full with
      | true =>
        rw [(hdelta.full hfull).2] at hremovedKey
        cases hremovedKey
      | false => exact (((hdelta.incremental hfull).2 _).mp hremovedKey).2 _ hvalue hkey
    · intro hfull
      exact (hincoming _).mpr (.inr ⟨row.state, ((hdelta.full hfull).1 _).mpr hvalue, hkey⟩)

end Deltas

/-! ## One envelope -/

section Envelopes

variable {hash : List (String × Option Value) → String} {name : Family}
  {agent : AgentStates name}

/-- The families with events are told apart by them. -/
theorem eventFamily_ne {other : Family} {family : EventFamily}
    (hfamily : name.eventFamily = some family) (hne : other ≠ name) :
    other.eventFamily ≠ some family := by
  intro hother
  cases name <;> cases family <;> first | exact absurd hfamily (by decide) | skip
  all_goals cases other <;> first | exact absurd rfl hne | exact absurd hother (by decide)

variable {host next : HostTables}

/-- A replica depends on the table of its family and on the events of its entities only. -/
theorem Replica.frame (h : Replica hash agent host)
    (htable : next.families name = host.families name)
    (hevents : ∀ family, name.eventFamily = some family →
      eventsOf family next.events = eventsOf family host.events) :
    Replica hash agent next where
  sound := by
    rw [htable]
    refine ⟨h.sound.address, h.sound.ownKey, h.sound.columns, h.sound.hashed, ?_⟩
    intro family hfamily key
    obtain ⟨current, hcurrent, hdigest⟩ := h.sound.lives family hfamily key
    refine ⟨current, ?_, hdigest⟩
    rw [← lifecycle_eventsOf, hevents family hfamily, lifecycle_eventsOf]
    exact hcurrent
  stored := by
    rw [htable]
    exact h.stored
  present := by
    rw [htable]
    exact h.present

variable {observedAtMs : ℤ}

/-- A delta that describes the agent and is addressed keeps a replica. -/
theorem Replica.delta {delta : Delta} {applied : Applied} (h : Replica hash agent host)
    (hdelta : agent.Describes delta) (haddressed : Addressed name (host.families name) delta)
    (happly : applyFamily hash name delta observedAtMs host = .ok (next, applied)) :
    Replica hash agent next := by
  obtain ⟨-, rfl, -⟩ | ⟨-, -, -, rfl, -⟩ | ⟨happlies, -⟩ := applyFamily_cases happly
  · exact h
  · exact h
  · exact happlies.replica h hdelta haddressed

/-- A turn of the loop over the deltas applies one of them. -/
theorem applyDelta_eq_ok {loop next : DeltaLoop} {entry : Family × Delta}
    (h : applyDelta hash observedAtMs loop entry = .ok next) :
    ∃ applied, applyFamily hash entry.1 entry.2 observedAtMs loop.host = .ok (next.host, applied) ∧
      next.reconcile =
        if applied.reconcile then loop.reconcile ++ [entry.1] else loop.reconcile := by
  obtain ⟨⟨host, applied⟩, happly, h⟩ := bind_eq_ok.mp h
  obtain rfl := pure_eq_ok.mp h
  exact ⟨applied, happly, rfl⟩

variable {final loop : DeltaLoop}

/-- The loop over the deltas keeps a replica. -/
theorem Replica.deltas {deltas : List (Family × Delta)} (h : Replica hash agent loop.host)
    (hdistinct : (deltas.map (·.1)).Nodup)
    (hdeltas : ∀ delta, (name, delta) ∈ deltas →
      agent.Describes delta ∧ Addressed name (loop.host.families name) delta)
    (hrun : deltas.foldlM (applyDelta hash observedAtMs) loop = .ok final) :
    Replica hash agent final.host := by
  induction deltas generalizing loop with
  | nil =>
    obtain rfl := pure_eq_ok.mp hrun
    exact h
  | cons entry deltas ih =>
    obtain ⟨next, hstep, hrest⟩ := foldlM_cons_eq_ok.mp hrun
    obtain ⟨applied, happly, -⟩ := applyDelta_eq_ok hstep
    rw [map_cons, nodup_cons] at hdistinct
    by_cases hname : entry.1 = name
    · -- the other deltas are of other families
      obtain ⟨_, delta⟩ := entry
      subst hname
      obtain ⟨hdelta, haddressed⟩ := hdeltas delta mem_cons_self
      refine ih (h.delta hdelta haddressed happly) hdistinct.2 ?_ hrest
      intro other hother
      exact absurd (mem_map_of_mem hother) hdistinct.1
    · obtain ⟨htables, hevents⟩ := applyFamily_frame happly
      have htable := htables name (Ne.symm hname)
      refine ih (h.frame htable fun family hfamily => hevents family (eventFamily_ne hfamily hname))
        hdistinct.2 ?_ hrest
      intro delta hdelta
      rw [htable]
      exact hdeltas delta (mem_cons_of_mem entry hdelta)

/-- The loop reports each family once at most, and keeps the tables of the families that have
no delta. -/
theorem deltas_frame {deltas : List (Family × Delta)} (hname : name ∉ deltas.map (·.1))
    (hrun : deltas.foldlM (applyDelta hash observedAtMs) loop = .ok final) :
    final.host.families name = loop.host.families name ∧
      (name ∈ loop.reconcile → name ∈ final.reconcile) := by
  induction deltas generalizing loop with
  | nil =>
    obtain rfl := pure_eq_ok.mp hrun
    exact ⟨rfl, id⟩
  | cons entry deltas ih =>
    obtain ⟨next, hstep, hrest⟩ := foldlM_cons_eq_ok.mp hrun
    obtain ⟨applied, happly, hreconcile⟩ := applyDelta_eq_ok hstep
    rw [map_cons, mem_cons, not_or] at hname
    obtain ⟨htable, hreported⟩ := ih hname.2 hrest
    refine ⟨htable.trans ((applyFamily_frame happly).1 name hname.1), ?_⟩
    intro hmem
    apply hreported
    rw [hreconcile]
    split
    · exact mem_append_left _ hmem
    · exact hmem

/-- The delta of a family is applied to the table the family had before the envelope, and
what comes of it is what the envelope leaves. -/
theorem deltas_of_mem {deltas : List (Family × Delta)} {delta : Delta}
    (hdistinct : (deltas.map (·.1)).Nodup) (hmem : (name, delta) ∈ deltas)
    (hrun : deltas.foldlM (applyDelta hash observedAtMs) loop = .ok final) :
    ∃ host next applied, applyFamily hash name delta observedAtMs host = .ok (next, applied) ∧
      host.families name = loop.host.families name ∧
      final.host.families name = next.families name ∧
      (applied.reconcile = true → name ∈ final.reconcile) := by
  induction deltas generalizing loop with
  | nil => cases hmem
  | cons entry deltas ih =>
    obtain ⟨next, hstep, hrest⟩ := foldlM_cons_eq_ok.mp hrun
    obtain ⟨applied, happly, hreconcile⟩ := applyDelta_eq_ok hstep
    rw [map_cons, nodup_cons] at hdistinct
    obtain rfl | hmem := mem_cons.mp hmem
    · obtain ⟨htable, hreported⟩ := deltas_frame hdistinct.1 hrest
      refine ⟨loop.host, next.host, applied, happly, rfl, htable, ?_⟩
      intro happlied
      apply hreported
      rw [hreconcile, if_pos happlied]
      exact mem_append_right _ mem_cons_self
    · have hne : name ≠ entry.1 := by
        intro hname
        exact hdistinct.1 (mem_map.mpr ⟨(name, delta), hmem, hname⟩)
      obtain ⟨host, after, applied', happly', hhost, hafter⟩ := ih hdistinct.2 hmem hrest
      exact ⟨host, after, applied', happly', hhost.trans ((applyFamily_frame happly).1 name hne),
        hafter⟩

variable {envelope : Envelope}

/-- What an envelope says about its host leaves the families and the events alone. -/
theorem recordHost_frame (h : recordHost host envelope = .ok next) :
    next.families = host.families ∧ next.events = host.events := by
  obtain ⟨-, -, h⟩ := bind_eq_ok.mp h
  obtain ⟨-, -, h⟩ := bind_eq_ok.mp h
  obtain ⟨system, hsystem, h⟩ := bind_eq_ok.mp h
  obtain ⟨-, -, h⟩ := bind_eq_ok.mp h
  obtain rfl := pure_eq_ok.mp h
  cases hfacts : envelope.system with
  | none =>
    rw [hfacts] at hsystem
    cases hsystem
    exact ⟨rfl, rfl⟩
  | some facts =>
    rw [hfacts, recordSystem] at hsystem
    split at hsystem
    · obtain rfl := pure_eq_ok.mp hsystem
      exact ⟨rfl, rfl⟩
    · obtain ⟨keyed, -, hsystem⟩ := bind_eq_ok.mp hsystem
      obtain rfl := pure_eq_ok.mp hsystem
      exact ⟨rfl, rfl⟩

/-- An envelope that is recorded is a duplicate that changes nothing, or changes its host. -/
theorem recordEnvelope_eq_ok {database next : Database} {recorded : Recorded}
    (h : recordEnvelope hash database envelope = .ok (next, recorded)) :
    (recorded.duplicate = true ∧ next = database) ∨
      ∃ host loop, recordHost (database.hosts envelope.receipt.hostItemId) envelope = .ok host ∧
        envelope.deltas.foldlM (applyDelta hash envelope.receipt.receivedAtMs) { host } = .ok loop ∧
        next.hosts = Function.update database.hosts envelope.receipt.hostItemId loop.host ∧
        recorded.reconcile = loop.reconcile := by
  obtain ⟨-, -, h⟩ := bind_eq_ok.mp h
  split at h
  · cases pure_eq_ok.mp h
    exact .inl ⟨rfl, rfl⟩
  · obtain ⟨host, hhost, h⟩ := bind_eq_ok.mp h
    obtain ⟨loop, hloop, h⟩ := bind_eq_ok.mp h
    cases pure_eq_ok.mp h
    exact .inr ⟨host, loop, hhost, hloop, rfl, rfl⟩

/-- What recording an envelope promises for a family of a host: its revision does not decrease,
and a delta that is no news, or has a gap before it, changes no row; a gap is reported unless
the heartbeat is one that was received before. -/
structure KeepsUp (hash : List (String × Option Value) → String) (name : Family)
    (hostItemId : ℕ) (database : Database) (envelope : Envelope) : Prop where
  revision : ((database.hosts hostItemId).families name).revision ≤
    (((record hash database envelope).hosts hostItemId).families name).revision
  ignored : envelope.receipt.hostItemId = hostItemId →
    ∀ delta, (name, delta) ∈ envelope.deltas →
    (delta.revision ≤ ((database.hosts hostItemId).families name).revision ∨
      (delta.full = false ∧
        delta.revision ≠ ((database.hosts hostItemId).families name).revision + 1)) →
    (((record hash database envelope).hosts hostItemId).families name).rows =
      ((database.hosts hostItemId).families name).rows
  reported : envelope.receipt.hostItemId = hostItemId →
    ∀ delta, (name, delta) ∈ envelope.deltas → delta.full = false →
    ((database.hosts hostItemId).families name).revision + 1 < delta.revision →
    ∀ next recorded, recordEnvelope hash database envelope = .ok (next, recorded) →
      recorded.duplicate = false → name ∈ recorded.reconcile

/-- Recording an envelope changes nothing, or changes the tables of its host by the deltas. -/
theorem record_cases (database : Database) (envelope : Envelope) :
    record hash database envelope = database ∨
      ∃ host loop, recordHost (database.hosts envelope.receipt.hostItemId) envelope = .ok host ∧
        envelope.deltas.foldlM (applyDelta hash envelope.receipt.receivedAtMs) { host } = .ok loop ∧
        (record hash database envelope).hosts =
          Function.update database.hosts envelope.receipt.hostItemId loop.host := by
  rw [record]
  cases hrecord : recordEnvelope hash database envelope with
  | error message => exact .inl rfl
  | ok result =>
    obtain ⟨next, recorded⟩ := result
    obtain ⟨-, rfl⟩ | ⟨host, loop, hhost, hloop, hhosts, -⟩ := recordEnvelope_eq_ok hrecord
    · exact .inl rfl
    · exact .inr ⟨host, loop, hhost, hloop, hhosts⟩

/-- The revision that a delta leaves is not less than the one it found. -/
theorem revision_applyFamily {delta : Delta} {applied : Applied}
    (happly : applyFamily hash name delta observedAtMs host = .ok (next, applied)) :
    (host.families name).revision ≤ (next.families name).revision := by
  obtain ⟨-, rfl, -⟩ | ⟨-, -, -, rfl, -⟩ | ⟨happlies, -⟩ := applyFamily_cases happly
  · exact Nat.le_refl _
  · exact Nat.le_refl _
  · obtain ⟨hnewer, -, changed, removed, swept, -, -, -, hnext⟩ := happlies
    have htable : next.families name =
        { rows := swept.writes.rows, revision := delta.revision } := by
      rw [hnext]
      exact Function.update_self ..
    rw [htable]
    exact Nat.le_of_lt hnewer

/-- Every envelope keeps up, whatever the state it finds. -/
theorem keepsUp (database : Database) (envelope : Envelope) (hostItemId : ℕ) :
    KeepsUp hash name hostItemId database envelope where
  revision := by
    obtain hsame | ⟨host, loop, hhost, hloop, hhosts⟩ := record_cases database envelope
    · rw [hsame]
    rw [hhosts, Function.update_apply]
    split
    · rename_i hitem
      subst hitem
      have hfamilies := (recordHost_frame hhost).1
      by_cases hmem : name ∈ envelope.deltas.map (·.1)
      · obtain ⟨⟨_, delta⟩, hdelta, rfl⟩ := mem_map.mp hmem
        obtain ⟨before, after, applied, happly, hbefore, hafter, -⟩ :=
          deltas_of_mem envelope.distinct hdelta hloop
        rw [hafter, ← hfamilies, ← hbefore]
        exact revision_applyFamily happly
      · rw [(deltas_frame hmem hloop).1, hfamilies]
    · exact Nat.le_refl _
  ignored hitem delta hdelta hignored := by
    obtain hsame | ⟨host, loop, hhost, hloop, hhosts⟩ := record_cases database envelope
    · rw [hsame]
    subst hitem
    obtain ⟨before, after, applied, happly, hbefore, hafter, -⟩ :=
      deltas_of_mem envelope.distinct hdelta hloop
    rw [(recordHost_frame hhost).1] at hbefore
    rw [hhosts, Function.update_self, hafter]
    rw [← hbefore] at hignored ⊢
    obtain ⟨-, rfl, -⟩ | ⟨-, -, -, rfl, -⟩ | ⟨happlies, -⟩ := applyFamily_cases happly
    · rfl
    · rfl
    · -- a delta that is applied is newer and follows
      obtain hle | ⟨hfull, hgap⟩ := hignored
      · exact absurd hle (Nat.not_le.mpr happlies.newer)
      · exact absurd (happlies.follows hfull) hgap
  reported hitem delta hdelta hfull hgap next recorded hrecord hduplicate := by
    subst hitem
    obtain ⟨hseen, -⟩ | ⟨host, loop, hhost, hloop, -, hreconcile⟩ := recordEnvelope_eq_ok hrecord
    · rw [hduplicate] at hseen
      cases hseen
    obtain ⟨before, after, applied, happly, hbefore, -, hreported⟩ :=
      deltas_of_mem envelope.distinct hdelta hloop
    rw [(recordHost_frame hhost).1] at hbefore
    rw [← hbefore] at hgap
    rw [hreconcile]
    apply hreported
    rw [applyFamily_of_gap (by omega) hfull (by omega)] at happly
    cases happly
    rfl

/-- **An envelope keeps the replica of a host** when its deltas describe the agent and their
entities are stored under their own keys. -/
theorem Replica.record {database : Database} {hostItemId : ℕ}
    (h : Replica hash agent (database.hosts hostItemId))
    (hdeltas : envelope.receipt.hostItemId = hostItemId → ∀ delta,
      (name, delta) ∈ envelope.deltas → agent.Describes delta ∧
        Addressed name ((database.hosts hostItemId).families name) delta) :
    Replica hash agent ((record hash database envelope).hosts hostItemId) := by
  obtain hsame | ⟨host, loop, hhost, hloop, hhosts⟩ := @record_cases hash database envelope
  · rw [hsame]
    exact h
  rw [hhosts, Function.update_apply]
  split
  · rename_i hitem
    subst hitem
    obtain ⟨hfamilies, hevents⟩ := recordHost_frame hhost
    have hstart : Replica hash agent host := h.frame (by rw [hfamilies]) (by simp [hevents])
    have hdescribed : ∀ delta, (name, delta) ∈ envelope.deltas → agent.Describes delta ∧
        Addressed name (host.families name) delta := by
      intro delta hdelta
      rw [hfamilies]
      exact hdeltas rfl delta hdelta
    exact Replica.deltas hstart envelope.distinct hdescribed hloop
  · exact h

end Envelopes

/-! ## Runs -/

section Runs

variable {name : Family}

/-- The deltas of a family that reach a host describe the states of the agent. -/
def AgentStates.DescribedBy (agent : AgentStates name) (hostItemId : ℕ)
    (envelopes : List Envelope) : Prop :=
  ∀ envelope ∈ envelopes, envelope.receipt.hostItemId = hostItemId →
    ∀ delta, (name, delta) ∈ envelope.deltas → agent.Describes delta

/-- In a run, the entities of each delta that is applied are stored under their own keys. -/
def AddressedRun (hash : List (String × Option Value) → String) (name : Family)
    (hostItemId : ℕ) : Database → List Envelope → Prop
  | _, [] => True
  | database, envelope :: envelopes =>
    (envelope.receipt.hostItemId = hostItemId → ∀ delta, (name, delta) ∈ envelope.deltas →
      Addressed name ((database.hosts hostItemId).families name) delta) ∧
    AddressedRun hash name hostItemId (record hash database envelope) envelopes

/-- A run of addressed envelopes keeps a replica. -/
theorem Replica.recordAll {hash : List (String × Option Value) → String}
    {agent : AgentStates name} {hostItemId : ℕ} {database : Database} {envelopes : List Envelope}
    (h : Replica hash agent (database.hosts hostItemId))
    (hdescribed : agent.DescribedBy hostItemId envelopes)
    (haddressed : AddressedRun hash name hostItemId database envelopes) :
    Replica hash agent ((recordAll hash database envelopes).hosts hostItemId) := by
  induction envelopes generalizing database with
  | nil => exact h
  | cons envelope envelopes ih =>
    obtain ⟨hfirst, hrest⟩ := haddressed
    refine ih (h.record ?_) (fun later hlater => hdescribed later (mem_cons_of_mem _ hlater))
      hrest
    intro hitem delta hdelta
    exact ⟨hdescribed envelope mem_cons_self hitem delta hdelta, hfirst hitem delta hdelta⟩

/-- The first part of an addressed run is addressed. -/
theorem AddressedRun.of_append {hash : List (String × Option Value) → String} {hostItemId : ℕ}
    {database : Database} {first rest : List Envelope}
    (h : AddressedRun hash name hostItemId database (first ++ rest)) :
    AddressedRun hash name hostItemId database first := by
  induction first generalizing database with
  | nil => trivial
  | cons envelope first ih => exact ⟨h.1, ih h.2⟩

/-- **Telemetry families replicate the agent's state**: in a run whose deltas describe the
states of an agent and whose entities are stored under their own keys, after every envelope
the stored rows are those of the state of the stored revision, the events of each key follow
the presence of its row, and the envelope kept up. -/
theorem families_replicate (hash : List (String × Option Value) → String)
    (agent : AgentStates name) (hostItemId : ℕ) (envelopes : List Envelope)
    (hdescribed : agent.DescribedBy hostItemId envelopes)
    (haddressed : AddressedRun hash name hostItemId {} envelopes) (first rest : List Envelope)
    (envelope : Envelope) (hsplit : envelopes = first ++ envelope :: rest) :
    agent.Mirrors ((recordAll hash {} (first ++ [envelope])).hosts hostItemId) ∧
      KeepsUp hash name hostItemId (recordAll hash {} first) envelope := by
  have hinit : envelopes = (first ++ [envelope]) ++ rest := by simp [hsplit]
  have hreached : agent.DescribedBy hostItemId (first ++ [envelope]) := by
    intro other hother
    apply hdescribed
    rw [hinit]
    exact mem_append_left rest hother
  rw [hinit] at haddressed
  have hreplica := (Replica.empty agent).recordAll hreached haddressed.of_append
  exact ⟨hreplica.mirrors, keepsUp _ _ _⟩

end Runs

/-! ## A service with an untrimmed name -/

section Untrimmed

/-- The digest used in the runs on fixed inputs. -/
def sampleHash (_ : List (String × Option Value)) : String := "lifecycle"

/-- A service, whose name is stored as it is given. -/
def sampleService (name : String) : Entity :=
  collectEntries [("manager", .text "systemd"), ("name", .text name)]

/-- The key of a service by its name. -/
def sampleKey (name : String) : String := joinText keySeparator ["systemd", name]

/-- An agent that has two services in its first state and one of them from then on. -/
def sampleAgent (service : Entity) (key : String)
    (hkey : Family.services.key service = .ok key) (hne : key ≠ sampleKey "sshd") :
    AgentStates .services where
  states
    | 0 => []
    | 1 => [service, sampleService "sshd"]
    | _ => [service]
  start := rfl
  keyed revision value hvalue := by
    match revision, hvalue with
    | 1, hvalue =>
      obtain rfl | rfl := mem_pair.mp hvalue
      · exact ⟨key, hkey⟩
      · exact ⟨sampleKey "sshd", rfl⟩
    | _ + 2, hvalue => exact ⟨key, mem_singleton.mp hvalue ▸ hkey⟩
  distinct
    | 0 => nodup_nil
    | 1 => by
      have hsshd : Family.services.key (sampleService "sshd") = .ok (sampleKey "sshd") := rfl
      simp [hkey, hsshd, hne]
    | _ + 2 => nodup_singleton _

/-- An envelope with one change of the services. -/
def sampleEnvelope (sequence : ℕ) (delta : Delta) : Envelope where
  receipt := {
    agentId := 7
    hostItemId := 101
    hostType := .server
    hostId := 1
    sequence := sequence
    collectedAtMs := 0
    receivedAtMs := 0 }
  minuteBucketMs := 0
  deltas := [(.services, delta)]
  distinct := nodup_singleton _

/-- The first state of the services in full. -/
def sampleState (service : Entity) : Envelope :=
  sampleEnvelope 1 ⟨1, true, [service, sampleService "sshd"], []⟩

/-- The second state as the change from the first, in which a service went. -/
def sampleRemoval : Envelope := sampleEnvelope 2 ⟨2, false, [], [sampleKey "sshd"]⟩

theorem sample_described (service : Entity) (key : String)
    (hkey : Family.services.key service = .ok key) (hne : key ≠ sampleKey "sshd") :
    (sampleAgent service key hkey hne).DescribedBy 101 [sampleState service, sampleRemoval] := by
  have hsshd : Family.services.key (sampleService "sshd") = .ok (sampleKey "sshd") := rfl
  intro envelope henvelope _ delta hdelta
  obtain rfl | rfl := mem_pair.mp henvelope
  · cases mem_singleton.mp hdelta
    exact ⟨fun _ => ⟨fun _ => Iff.rfl, rfl⟩, nofun⟩
  · cases mem_singleton.mp hdelta
    -- nothing is new in the second state, and one key is gone
    refine ⟨nofun, fun _ => ⟨fun value => ?_, fun removed => ?_⟩⟩
    · refine ⟨fun h => absurd h not_mem_nil, fun ⟨hnew, hold⟩ => absurd ?_ hold⟩
      exact mem_cons.mpr (.inl (mem_singleton.mp hnew))
    · simp only [sampleAgent, mem_singleton, mem_pair, exists_eq_or_imp, exists_eq_left, forall_eq,
        hkey, hsshd, ne_eq, Except.ok.injEq]
      constructor
      · rintro rfl
        exact ⟨.inr rfl, hne⟩
      · rintro ⟨rfl | rfl, hother⟩
        · exact absurd rfl hother
        · rfl

/-- Two services are stored, and one of them goes with the next envelope. -/
theorem families_replicate_sample : ∃ hkey hne,
    (sampleAgent (sampleService "nginx") (sampleKey "nginx") hkey hne).Mirrors
      ((recordAll sampleHash {} [sampleState (sampleService "nginx"), sampleRemoval]).hosts 101) ∧
    KeepsUp sampleHash .services 101 (recordAll sampleHash {} [sampleState (sampleService "nginx")])
      sampleRemoval := by
  have hkey : Family.services.key (sampleService "nginx") = .ok (sampleKey "nginx") := rfl
  have hne : sampleKey "nginx" ≠ sampleKey "sshd" := by decide
  refine ⟨hkey, hne, families_replicate sampleHash _ 101 _ (sample_described _ _ hkey hne)
    ⟨?_, fun _ delta hdelta => ?_, trivial⟩ [sampleState (sampleService "nginx")] [] _ rfl⟩
  · intro _ delta hdelta
    cases mem_singleton.mp hdelta
    intro _ _ value hvalue parts hparts
    have hnone (stored : List String) :
        stored ∉ ((({} : Database).hosts 101).families .services).rows :=
      Std.ExtTreeMap.not_mem_empty
    obtain rfl | rfl := mem_pair.mp hvalue
    · cases (show tableKeyParts .services (sampleService "nginx") = .ok ["systemd", "nginx"] from
        rfl).symm.trans hparts
      exact ⟨hkey, fun stored hstored => absurd hstored (hnone stored)⟩
    · cases (show tableKeyParts .services (sampleService "sshd") = .ok ["systemd", "sshd"] from
        rfl).symm.trans hparts
      exact ⟨rfl, fun stored hstored => absurd hstored (hnone stored)⟩
  · cases mem_singleton.mp hdelta
    exact fun _ _ value hvalue => absurd hvalue not_mem_nil

/-- A service whose name has white space around it is observed and removed again by the sweep of
the same envelope, so that the stored revision has no row of it. -/
theorem families_replicate_untrimmed :
    ¬∀ (agent : AgentStates .services) (envelopes : List Envelope),
      agent.DescribedBy 101 envelopes →
      agent.Mirrors ((recordAll sampleHash {} envelopes).hosts 101) := by
  intro h
  have hkey : Family.services.key (sampleService " nginx") = .ok (sampleKey "nginx") := rfl
  have hne : sampleKey "nginx" ≠ sampleKey "sshd" := by decide
  have hmirrors := h _ _ (sample_described (sampleService " nginx") _ hkey hne)
  have hrow : (((recordAll sampleHash {} [sampleState (sampleService " nginx"),
      sampleRemoval]).hosts 101).families .services).rows[["systemd", " nginx"]]? = none := by
    rfl
  have hcolumns : tableKeyParts .services (sampleService " nginx") = .ok ["systemd", " nginx"] := by
    rfl
  obtain ⟨row, hfound, -⟩ :=
    (hmirrors.rows ["systemd", " nginx"] _).mpr ⟨mem_singleton_self _, hcolumns⟩
  rw [hrow] at hfound
  cases hfound

end Untrimmed

end HomelabInventory.Telemetry
