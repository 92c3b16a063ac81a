import HomelabInventory.WiringIntegrity

/-!
# Identifiers of connections

The engine gives a new connection the larger of two numbers: the next identifier that it
remembers, and the one after the highest identifier in use. As long as this number never falls,
no identifier is given out twice. It falls when the connection with the highest identifier is
removed from an engine that remembers no next identifier, be it because the project came without
one or because the last identifier has been given out.
-/

namespace HomelabInventory

open List

variable {K : Type}

/-- The connection that a patch adds first. -/
def ProjectPatch.addedConnection? : ProjectPatch K → Option (TopologyConnection K)
  | .addConnection connection => some connection
  | .batch (.addConnection connection :: _) => some connection
  | _ => none

variable [Scalar K]

/-- The identifier of the connection that an operation has created. -/
def Operation.createdId (operation : Operation K) (result : ResponseBody K) : Option ℕ :=
  match operation, result with
  | .createConnection _ _ _, .patch patches => patches.forward.addedConnection?.map (·.id)
  | _, _ => none

namespace Engine

/-- The identifiers of the connections created by some requests, in order. -/
def createdIds : Engine K → List (EngineRequest K) → List ℕ
  | _, [] => []
  | engine, request :: requests =>
    (request.operation.createdId (engine.dispatch request).2.result).toList ++
      createdIds (engine.dispatch request).1 requests

/-- The identifiers in use. -/
def connectionIds (engine : Engine K) : List ℕ :=
  engine.topology.snapshot.connections.map (·.id)

/-- The number that the next connection gets, if there is still one. -/
def freshId (engine : Engine K) : ℕ :=
  max (engine.nextConnectionId.getD 0) (engine.connectionIds.max?.getD 0 + 1)

/-- The remembered identifier is a machine integer. -/
def CounterFits (engine : Engine K) : Prop :=
  ∀ n, engine.nextConnectionId = some n → n ≤ u32Max

/-- A request does not make the engine forget the highest identifier: a connection is only
removed when the engine remembers a next identifier above it or a higher one stays in use. -/
def Remembers (engine : Engine K) (request : EngineRequest K) : Prop :=
  ∀ connectionId, request.operation = .removeConnection connectionId →
    connectionId ∈ engine.connectionIds →
    (∃ n, engine.nextConnectionId = some n ∧ connectionId < n) ∨
      ∃ other ∈ engine.connectionIds, connectionId < other

/-! ## The next identifier -/

section FreshId

variable {engine : Engine K}

theorem lt_freshId {id : ℕ} (h : id ∈ engine.connectionIds) : id < engine.freshId := by
  have hle : id ≤ engine.connectionIds.max?.getD 0 := le_max?_getD_of_mem h
  rw [freshId]
  omega

theorem le_freshId {n : ℕ} (h : engine.nextConnectionId = some n) : n ≤ engine.freshId := by
  rw [freshId, h]
  exact le_max_left _ _

theorem freshId_le {n : ℕ} (hcounter : ∀ m, engine.nextConnectionId = some m → m ≤ n)
    (hids : ∀ id ∈ engine.connectionIds, id < n) (hpos : 0 < n) : engine.freshId ≤ n := by
  rw [freshId]
  refine max_le ?_ ?_
  · cases hnext : engine.nextConnectionId with
    | none => exact Nat.zero_le _
    | some m => exact hcounter m hnext
  · cases hmax : engine.connectionIds.max? with
    | none => exact hpos
    | some id => exact hids id (max?_mem hmax)

theorem freshId_pos : 0 < engine.freshId := by
  rw [freshId]
  omega

end FreshId

/-! ## One request -/

/-- What a request does to the identifiers in use and to the remembered one. -/
inductive IdStep (engine next : Engine K) (operation : Operation K) (created : Option ℕ) : Prop
  /-- both stay as they are -/
  | kept (hcreated : created = none) (hids : next.connectionIds = engine.connectionIds)
      (hcounter : next.nextConnectionId = engine.nextConnectionId)
  /-- the next identifier is given out -/
  | created (hcreated : created = some engine.freshId)
      (hlocal : engine.connectionIds.max?.getD 0 < u32Max)
      (hids : ∀ id, id ∈ next.connectionIds ↔ id ∈ engine.connectionIds ∨ id = engine.freshId)
      (hcounter : next.nextConnectionId = checkedSucc engine.freshId)
  /-- a connection is removed -/
  | removed (connectionId : ℕ) (hcreated : created = none)
      (hoperation : operation = .removeConnection connectionId)
      (hmem : connectionId ∈ engine.connectionIds)
      (hids : ∀ id, id ∈ next.connectionIds ↔ id ∈ engine.connectionIds ∧ id ≠ connectionId)
      (hcounter : next.nextConnectionId = engine.nextConnectionId)

section Step

variable {engine next : Engine K} {patches : CommandPatchSet K}

variable {change : TopologyChange K}

theorem CommitOf.nextConnectionId_eq (h : engine.CommitOf change next patches) :
    next.nextConnectionId = engine.nextConnectionId := by
  obtain ⟨topology, -, rfl⟩ := h.state
  rfl

/-- A change that keeps the wiring keeps the identifiers. -/
theorem CommitOf.connectionIds_eq (h : engine.CommitOf change next patches)
    (hkeeps : change.KeepsWiring engine.topology.snapshot) :
    next.connectionIds = engine.connectionIds := by
  have hids := congrArg (List.map fun wiring => wiring.2.connectionId) hkeeps.2
  rw [map_map, map_map] at hids
  rw [connectionIds, h.snapshot_eq]
  exact hids

theorem allocateConnectionId_eq_freshId {id : ℕ}
    (h : allocateConnectionId engine.nextConnectionId engine.topology.snapshot.connections =
      .ok id) : engine.connectionIds.max?.getD 0 < u32Max ∧ id = engine.freshId := by
  rw [allocateConnectionId] at h
  split at h
  · cases h
  · rename_i localId hlocal
    obtain ⟨hlt, rfl⟩ := checkedSucc_eq_some.mp hlocal
    refine ⟨hlt, ?_⟩
    obtain rfl := Except.ok.inj h
    rw [freshId]
    -- without a remembered identifier both sides are the one after the highest
    cases engine.nextConnectionId with
    | none => exact (max_self _).trans (max_eq_right (Nat.zero_le _)).symm
    | some n => rfl

omit [Scalar K] in
theorem addedConnection?_batchPatch (connection : TopologyConnection K)
    (patches : List (ProjectPatch K)) :
    (batchPatch (.addConnection connection :: patches)).addedConnection? = some connection := by
  cases patches <;> rfl

/-- An addition puts one more identifier into use, and its patch names it. -/
theorem prepareAddition_ids {before : TopologySnapshot K} {connection : TopologyConnection K}
    (hfresh : ∀ other ∈ before.connections, other.id ≠ connection.id)
    (h : prepareAddition before connection = .ok change) :
    change.forward.addedConnection?.map (·.id) = some connection.id ∧
      ∀ id, id ∈ change.snapshot.connections.map (·.id) ↔
        id ∈ before.connections.map (·.id) ∨ id = connection.id := by
  obtain ⟨index, snapshot, hindex, rfl, rfl⟩ := prepareAddition_eq_ok hfresh h
  constructor
  · dsimp only
    rw [addedConnection?_batchPatch]
    rfl
  · intro id
    dsimp only
    rw [hindex, map_map]
    simp only [mem_map, mem_sortByKey, mem_append, mem_singleton]
    constructor
    · rintro ⟨other, hother | rfl, rfl⟩
      · exact .inl ⟨other, hother, rfl⟩
      · exact .inr rfl
    · rintro (⟨other, hother, rfl⟩ | rfl)
      · exact ⟨other, .inl hother, rfl⟩
      · exact ⟨connection, .inr rfl, rfl⟩

theorem idStep_createConnection {source target : EndpointRef} {createdAt : String}
    (h : engine.createConnection source target createdAt = (next, .patch patches)) :
    IdStep engine next (.createConnection source target createdAt)
      (patches.forward.addedConnection?.map (·.id)) := by
  obtain ⟨id, change, committed, hprepare, hcommit, rfl⟩ := createConnection_eq_patch.mp h
  obtain ⟨_, _, -, -, -, hid, -, hadd⟩ := prepareCreation_eq_ok.mp hprepare
  have hfresh := allocateConnectionId_eq_ok hid
  obtain ⟨hlocal, rfl⟩ := allocateConnectionId_eq_freshId hid
  obtain ⟨hadded, hids⟩ := prepareAddition_ids (fun other hother => (hfresh other hother).ne) hadd
  refine .created ?_ hlocal ?_ rfl
  · rw [hcommit.answer]
    exact hadded
  · intro other
    show other ∈ committed.topology.snapshot.connections.map (·.id) ↔ _
    rw [hcommit.snapshot_eq]
    exact hids other

theorem idStep_removeConnection {connectionId : ℕ}
    (h : engine.removeConnection connectionId = (next, .patch patches)) :
    IdStep engine next (.removeConnection connectionId) none := by
  obtain ⟨change, hprepare, hcommit⟩ := commitPrepared_eq_patch.mp h
  obtain ⟨connection, snapshot, hconnection, hsnapshot, rfl⟩ := prepareRemoval_eq_ok hprepare
  obtain ⟨index, hindex, rfl⟩ := normalizeConnectionDerived_eq_ok hsnapshot
  obtain ⟨hmem, rfl⟩ := lookup_eq_some hconnection
  refine .removed connection.id rfl rfl (mem_map_of_mem hmem) ?_ hcommit.nextConnectionId_eq
  intro id
  rw [connectionIds, hcommit.snapshot_eq]
  dsimp only
  rw [map_map, mem_map]
  simp only [mem_filter, bne_iff_ne, Function.comp_apply, connectionIds, mem_map]
  constructor
  · rintro ⟨other, ⟨hother, hne⟩, rfl⟩
    exact ⟨⟨other, hother, rfl⟩, hne⟩
  · rintro ⟨⟨other, hother, rfl⟩, hne⟩
    exact ⟨other, ⟨hother, hne⟩, rfl⟩

variable {operation : Operation K}

/-- **One command.** A command that is answered with a patch creates a connection, removes one,
or keeps the identifiers. -/
theorem idStep_of_patch (h : engine.perform operation = (next, .patch patches)) :
    IdStep engine next operation (operation.createdId (.patch patches)) := by
  have hkept : ∀ {change : TopologyChange K}, engine.CommitOf change next patches →
      change.KeepsWiring engine.topology.snapshot → operation.createdId (.patch patches) = none →
      IdStep engine next operation (operation.createdId (.patch patches)) :=
    fun hcommit hkeeps hnone =>
      .kept hnone (hcommit.connectionIds_eq hkeeps) hcommit.nextConnectionId_eq
  cases perform_commits h with
  | created => exact idStep_createConnection h
  | removed => exact idStep_removeConnection h
  | labelled hprepare hcommit => exact hkept hcommit (prepareLabel_keepsWiring hprepare) rfl
  | routed hprepare hcommit => exact hkept hcommit (prepareRoute_keepsWiring hprepare) rfl
  | batch hnot hbatch hcommit =>
    refine hkept hcommit hbatch.keepsWiring ?_
    unfold Operation.createdId
    split
    · exact absurd rfl (hnot _ _ _)
    · rfl
  | renamed h =>
    obtain ⟨-, -, rfl, -⟩ := updateProjectMetadata_eq_patch.mp h
    exact .kept rfl rfl rfl
  | assigned _ hprepare hcommit => exact hkept hcommit (prepareAssignments_keepsWiring hprepare) rfl
  | placed hoperation h =>
    obtain ⟨-, -, plan, placements, -, -, hcommit⟩ := updatePlacements_eq_patch h
    refine hkept hcommit ⟨rfl, rfl⟩ ?_
    obtain rfl | ⟨nodes, gridSize, maxRings, rfl⟩ := hoperation <;> rfl

omit [Scalar K] in
theorem createdId_eq_none {result : ResponseBody K} (h : isPatch result = false) :
    operation.createdId result = none := by
  unfold Operation.createdId
  split
  · cases h
  · rfl

/-- **One request.** -/
theorem idStep_dispatch (engine : Engine K) (request : EngineRequest K) :
    IdStep engine (engine.dispatch request).1 request.operation
      (request.operation.createdId (engine.dispatch request).2.result) := by
  show IdStep engine (engine.handle request).1 request.operation
    (request.operation.createdId (engine.handle request).2)
  unfold handle
  split
  · exact .kept (createdId_eq_none rfl) rfl rfl
  · split
    · exact .kept (createdId_eq_none rfl) rfl rfl
    · cases hbody : (engine.perform request.operation).2 with
      | patch patches => exact idStep_of_patch (Prod.ext rfl hbody)
      | _ =>
        have hpatch : isPatch (engine.perform request.operation).2 = false := by
          rw [hbody]
          rfl
        refine .kept (createdId_eq_none (hbody ▸ hpatch)) ?_ (perform_same hpatch).2
        rw [connectionIds, (perform_same hpatch).1]
        rfl

end Step

/-! ## Runs -/

/-- Every used identifier is below the next one, which is a machine integer or used up. -/
structure Unused (engine : Engine K) (used : List ℕ) : Prop where
  counter : engine.CounterFits
  below : ∀ id ∈ used, id < engine.freshId

section Runs

variable {engine next : Engine K} {used : List ℕ}

theorem unused_connectionIds (h : engine.CounterFits) : engine.Unused engine.connectionIds :=
  ⟨h, fun _ hid => lt_freshId hid⟩

variable {request : EngineRequest K}

/-- The next identifier does not fall when the engine remembers the highest one. -/
theorem IdStep.freshId_le {created : Option ℕ}
    (hstep : IdStep engine next request.operation created) (hremembers : engine.Remembers request) :
    engine.freshId ≤ next.freshId := by
  cases hstep with
  | kept _ hids hcounter =>
    rw [freshId, freshId, hids, hcounter]
  | created _ _ hids _ =>
    exact (lt_freshId ((hids _).mpr (.inr rfl))).le
  | removed connectionId _ hoperation hmem hids hcounter =>
    have hkept : ∀ {id : ℕ}, id ∈ engine.connectionIds → id ≠ connectionId → id < next.freshId :=
      fun hid hne => lt_freshId ((hids _).mpr ⟨hid, hne⟩)
    refine Engine.freshId_le (fun n hn => le_freshId (hcounter.trans hn)) ?_ freshId_pos
    intro id hid
    by_cases hremoved : id = connectionId
    · subst hremoved
      obtain ⟨n, hn, hlt⟩ | ⟨other, hother, hlt⟩ := hremembers id hoperation hmem
      · exact lt_of_lt_of_le hlt (le_freshId (hcounter.trans hn))
      · exact hlt.trans (hkept hother (Nat.ne_of_gt hlt))
    · exact hkept hid hremoved

/-- The next identifier is a machine integer when a connection can still get one. -/
theorem freshId_le_u32Max (hcounter : engine.CounterFits)
    (hlocal : engine.connectionIds.max?.getD 0 < u32Max) : engine.freshId ≤ u32Max :=
  Engine.freshId_le hcounter
    (fun _ hid => lt_of_le_of_lt (le_max?_getD_of_mem hid) hlocal) (by decide)

/-- **One step of a run.** A created identifier is larger than every used one, and everything
used so far stays below the next one. -/
theorem Unused.step {created : Option ℕ} (h : engine.Unused used)
    (hstep : IdStep engine next request.operation created) (hremembers : engine.Remembers request) :
    next.Unused (used ++ created.toList) ∧
      ∀ id, created = some id → id = engine.freshId ∧ id ≤ u32Max := by
  have hle := hstep.freshId_le hremembers
  have hbelow : ∀ id ∈ used, id < next.freshId := fun id hid => lt_of_lt_of_le (h.below id hid) hle
  cases hstep with
  | kept hcreated _ hcounter | removed _ hcreated _ _ _ hcounter =>
    subst hcreated
    refine ⟨⟨fun n hn => h.counter n (hcounter ▸ hn), ?_⟩, nofun⟩
    rw [Option.toList_none, append_nil]
    exact hbelow
  | created hcreated hlocal hids hcounter =>
    subst hcreated
    refine ⟨⟨?_, ?_⟩, ?_⟩
    · intro n hn
      obtain ⟨hlt, rfl⟩ := checkedSucc_eq_some.mp (hcounter ▸ hn)
      exact hlt
    · intro id hid
      rw [Option.toList_some, mem_append, mem_singleton] at hid
      obtain hid | rfl := hid
      · exact hbelow id hid
      · exact lt_freshId ((hids _).mpr (.inr rfl))
    · rintro id hid
      obtain rfl := Option.some.inj hid
      exact ⟨rfl, freshId_le_u32Max h.counter hlocal⟩

/-- When the last identifier is used, a creation is answered with an error. -/
theorem Unused.exhausted (h : engine.Unused used) (hfull : ∃ id ∈ used, u32Max ≤ id)
    {source target : EndpointRef} {createdAt : String}
    (hoperation : request.operation = .createConnection source target createdAt) :
    ∃ error, (engine.dispatch request).2.result = .error error := by
  show ∃ error, (engine.handle request).2 = .error error
  unfold handle
  split
  · exact ⟨_, rfl⟩
  · split
    · exact ⟨_, rfl⟩
    · rw [hoperation, perform, createConnection]
      split
      · exact ⟨_, rfl⟩
      · -- a prepared creation would get a machine integer that is larger than the last one
        rename_i id change hprepare
        obtain ⟨_, _, -, -, -, hid, -, -⟩ := prepareCreation_eq_ok.mp hprepare
        obtain ⟨hlocal, -⟩ := allocateConnectionId_eq_freshId hid
        obtain ⟨last, hlast, hmax⟩ := hfull
        have hbelow := h.below last hlast
        have hle := freshId_le_u32Max h.counter hlocal
        omega

/-- A run hands out increasing identifiers above the used ones, and keeps the used ones below
the next. -/
theorem Unused.run (h : engine.Unused used) {requests : List (EngineRequest K)}
    (hremembers : ∀ done request rest, requests = done ++ request :: rest →
      (engine.run done).Remembers request) :
    (engine.run requests).Unused (used ++ engine.createdIds requests) ∧
      (engine.createdIds requests).Pairwise (· < ·) ∧
      ∀ id ∈ engine.createdIds requests, (∀ known ∈ used, known < id) ∧ id ≤ u32Max := by
  induction requests generalizing engine used with
  | nil =>
    rw [createdIds, append_nil]
    exact ⟨h, .nil, nofun⟩
  | cons request requests ih =>
    obtain ⟨hnext, hcreated⟩ :=
      h.step (engine.idStep_dispatch request) (hremembers [] request requests rfl)
    obtain ⟨hrun, hincreasing, habove⟩ := ih hnext fun done other rest hsplit =>
      hremembers (request :: done) other rest (by rw [hsplit, cons_append])
    rw [createdIds, ← append_assoc]
    refine ⟨hrun, ?_, ?_⟩
    · rw [pairwise_append]
      refine ⟨?_, hincreasing, ?_⟩
      · cases request.operation.createdId (engine.dispatch request).2.result with
        | none => exact .nil
        | some id => exact pairwise_singleton _ _
      · intro first hfirst second hsecond
        exact (habove second hsecond).1 first (mem_append_right _ hfirst)
    · intro id hid
      obtain hid | hid := mem_append.mp hid
      · obtain ⟨rfl, hle⟩ := hcreated id (Option.mem_toList.mp hid)
        exact ⟨h.below, hle⟩
      · obtain ⟨hknown, hle⟩ := habove id hid
        exact ⟨fun known hmem => hknown known (mem_append_left _ hmem), hle⟩

end Runs

/-- **Identifiers of connections are not reused.** In a run in which the engine never forgets its
highest identifier, the created identifiers increase and lie above those at the start; a creation
for which no identifier is left is turned down and changes nothing. -/
theorem createdIds_increase (engine : Engine K) (hcounter : engine.CounterFits)
    (requests : List (EngineRequest K))
    (hremembers : ∀ done request rest, requests = done ++ request :: rest →
      (engine.run done).Remembers request) :
    (engine.createdIds requests).Pairwise (· < ·) ∧
      (∀ id ∈ engine.createdIds requests, (∀ known ∈ engine.connectionIds, known < id) ∧
        id ≤ u32Max) ∧
      ∀ done request rest, requests = done ++ request :: rest →
        ∀ source target createdAt, request.operation = .createConnection source target createdAt →
        (∀ id ≤ u32Max, ∃ used ∈ engine.connectionIds ++ engine.createdIds done, id ≤ used) →
        (∃ error, ((engine.run done).dispatch request).2.result = .error error) ∧
          ((engine.run done).dispatch request).1 = engine.run done := by
  obtain ⟨-, hincreasing, habove⟩ := (unused_connectionIds hcounter).run hremembers
  refine ⟨hincreasing, habove, ?_⟩
  intro done request rest hsplit source target createdAt hoperation hfull
  have hdone : ∀ before other after, done = before ++ other :: after →
      (engine.run before).Remembers other := by
    intro before other after hdone
    refine hremembers before other (after ++ request :: rest) ?_
    rw [hsplit, hdone, append_assoc, cons_append]
  obtain ⟨hunused, -, -⟩ := (unused_connectionIds hcounter).run hdone
  obtain ⟨error, herror⟩ := hunused.exhausted (hfull u32Max le_rfl) hoperation
  have hplan : request.operation.isPlanCableRoutes = false := by
    rw [hoperation]
    rfl
  exact ⟨⟨error, herror⟩, ((engine.run done).dispatch_atomic request hplan).1 error herror⟩

/-! ## A desk -/

/-- Plug the monitor in. -/
def plugMonitor (revision : ℕ) : EngineRequest ℚ where
  protocolVersion := 1
  requestId := revision
  baseRevision := revision
  operation := .createConnection { item := ⟨"monitor", 1⟩, portId := 1 }
    { item := ⟨"ups", 2⟩, portId := 1 } "today"

/-- Unplug a cable. -/
def unplug (revision connectionId : ℕ) : EngineRequest ℚ where
  protocolVersion := 1
  requestId := revision
  baseRevision := revision
  operation := .removeConnection connectionId

/-- Plugging the monitor in, out and in again takes two identifiers. -/
theorem createdIds_increase_desk : ∃ engine : Engine ℚ, engine.topology.snapshot = poweredDesk ∧
    engine.createdIds [plugMonitor 0, unplug 1 5, plugMonitor 2] = [5, 6] ∧
    (engine.createdIds [plugMonitor 0, unplug 1 5, plugMonitor 2]).Pairwise (· < ·) := by
  obtain ⟨topology, hbuild, hcreated, hnext⟩ : ∃ topology,
      TopologyIndex.build poweredDesk = .ok topology ∧
      (openedEngine 5 topology).createdIds [plugMonitor 0, unplug 1 5, plugMonitor 2] = [5, 6] ∧
      ((openedEngine 5 topology).run [plugMonitor 0]).nextConnectionId = some 6 :=
    exists_ok_of_any (by decide +kernel)
  have hcounter : (openedEngine 5 topology).CounterFits := by
    rintro n hn
    obtain rfl := Option.some.inj hn
    decide
  refine ⟨openedEngine 5 topology, TopologyIndex.build_eq_ok.mp hbuild, hcreated,
    (createdIds_increase _ hcounter _ ?_).1⟩
  intro done request rest hsplit connectionId hoperation _
  -- the second request is the only one that removes a cable
  rcases done with _ | ⟨_, _ | ⟨_, _ | ⟨_, done⟩⟩⟩ <;>
    simp only [nil_append, cons_append, List.cons.injEq] at hsplit
  · obtain ⟨rfl, -⟩ := hsplit
    cases hoperation
  · obtain ⟨rfl, rfl, -⟩ := hsplit
    cases hoperation
    exact .inl ⟨6, hnext, by decide⟩
  · obtain ⟨-, -, rfl, -⟩ := hsplit
    cases hoperation
  · obtain ⟨-, -, -, hsplit⟩ := hsplit
    exact absurd hsplit.symm (append_ne_nil_of_right_ne_nil _ (cons_ne_nil _ _))

/-- **An identifier can be reused.** After the last identifier the engine remembers none, so when
that connection is removed the next one starts again from the beginning. -/
theorem createdIds_restart : ∃ engine : Engine ℚ, engine.topology.snapshot = poweredDesk ∧
    engine.CounterFits ∧
    engine.createdIds [plugMonitor 0, unplug 1 4294967295, plugMonitor 2] = [4294967295, 1] ∧
    ¬(engine.createdIds [plugMonitor 0, unplug 1 4294967295, plugMonitor 2]).Pairwise (· < ·) := by
  obtain ⟨topology, hbuild, hcreated⟩ : ∃ topology,
      TopologyIndex.build poweredDesk = .ok topology ∧
      (openedEngine 4294967295 topology).createdIds
        [plugMonitor 0, unplug 1 4294967295, plugMonitor 2] = [4294967295, 1] :=
    exists_ok_of_any (by decide +kernel)
  refine ⟨openedEngine 4294967295 topology, TopologyIndex.build_eq_ok.mp hbuild, ?_, hcreated, ?_⟩
  · rintro n hn
    obtain rfl := Option.some.inj hn
    decide
  · rw [hcreated]
    decide

end Engine

end HomelabInventory
