import HomelabInventory.CommittedReplay
import HomelabInventory.WiringIntegrity

/-!
# Following a run

A client hears the answers to the requests of others and replays them on an engine
of its own, which has other geometry and routes. It shows the project of the
authority all along, since commands read and change the project alone.
-/

namespace HomelabInventory

open List

variable {K : Type}

variable [Scalar K]

namespace Engine

/-- The answers to some requests. -/
def responses (engine : Engine K) : List (EngineRequest K) → List (EngineResponse K)
  | [] => []
  | request :: requests =>
    (engine.dispatch request).2 :: (engine.dispatch request).1.responses requests

/-- The engine with the project of another. -/
def adopt (copy engine : Engine K) : Engine K :=
  { copy with
    revision := engine.revision
    projectName := engine.projectName
    nextConnectionId := engine.nextConnectionId
    topology := engine.topology }

/-! ## Commands act on the project alone -/

section Frame

variable (copy engine : Engine K)

@[simp] theorem adopt_revision : (copy.adopt engine).revision = engine.revision := rfl

@[simp] theorem adopt_topology : (copy.adopt engine).topology = engine.topology := rfl

@[simp] theorem adopt_nextConnectionId :
    (copy.adopt engine).nextConnectionId = engine.nextConnectionId := rfl

theorem install_adopt (change : TopologyChange K) :
    (copy.adopt engine).install change = (engine.install change).map copy.adopt id := by
  simp only [install]
  cases TopologyIndex.build change.snapshot <;> rfl

theorem commitPrepared_adopt (prepared : Except EngineError (TopologyChange K)) :
    (copy.adopt engine).commitPrepared prepared =
      (engine.commitPrepared prepared).map copy.adopt id := by
  cases prepared with
  | error error => rfl
  | ok change =>
    simp only [commitPrepared, commitTopology, install_adopt, apply_ite (Prod.map copy.adopt id)]
    rfl

theorem updatePlacements_adopt (changes : List (PlacementChange K)) :
    (copy.adopt engine).updatePlacements changes =
      (engine.updatePlacements changes).map copy.adopt id := by
  simp only [updatePlacements, adopt_topology, install_adopt, apply_ite (Prod.map copy.adopt id)]
  cases planPlacements engine.topology.snapshot changes with
  | error error => rfl
  | ok plan =>
    simp only [apply_ite (Prod.map copy.adopt id)]
    rfl

/-- **A command reads and changes the project alone**: with the geometry and the
routes of another engine it gives the same answer. -/
theorem perform_adopt {operation : Operation K} (h : operation.isCommand = true) :
    (copy.adopt engine).perform operation = (engine.perform operation).map copy.adopt id := by
  cases operation with
  | createConnection source target createdAt =>
    simp only [perform, createConnection, adopt_topology, adopt_nextConnectionId]
    cases prepareCreation engine.topology engine.nextConnectionId source target createdAt with
    | error error => rfl
    | ok prepared =>
      -- the next identifier belongs to the project, too
      change reserveConnectionId _ ((copy.adopt engine).commitPrepared (.ok prepared.2)) =
        (reserveConnectionId _ (engine.commitPrepared (.ok prepared.2))).map _ _
      rw [commitPrepared_adopt]
      obtain ⟨next, body⟩ := engine.commitPrepared (.ok prepared.2)
      cases body <;> rfl
  | updateProjectMetadata name =>
    simp only [perform, updateProjectMetadata, apply_ite (Prod.map copy.adopt id)]
    rfl
  | updateAssignments changes =>
    simp only [perform, updateAssignments, adopt_topology, apply_ite (Prod.map copy.adopt id)]
    cases prepareAssignments engine.topology.snapshot changes with
    | error error => rfl
    | ok change =>
      dsimp only
      rw [install_adopt]
      rfl
  | updatePlacements changes => exact updatePlacements_adopt copy engine changes
  | snapPlacementsToGrid nodes gridSize maxRings =>
    simp only [perform, snapPlacementsToGrid, adopt_topology]
    cases snapChanges engine.topology.snapshot nodes gridSize maxRings with
    | error error => rfl
    | ok changes => exact updatePlacements_adopt copy engine changes
  | _ => first | exact commitPrepared_adopt copy engine _ | cases h

end Frame

/-! ## What a request does to the project -/

theorem perform_revision {engine next : Engine K} {operation : Operation K}
    {patches : CommandPatchSet K} (h : engine.perform operation = (next, .patch patches)) :
    patches.revision = engine.revision + 1 ∧ next.revision = engine.revision + 1 := by
  have hplan : operation.isPlanCableRoutes = false := by
    cases operation <;> first | rfl | cases isCommand_of_perform_eq_patch h
  have houtcome := engine.perform_outcome hplan
  rw [h] at houtcome
  cases houtcome with
  | kept body hbody => cases hbody
  | advanced => exact ⟨rfl, rfl⟩

/-- Whatever is not answered with a patch keeps the project. -/
theorem handle_adopt {engine : Engine K} {request : EngineRequest K}
    (h : isPatch (engine.handle request).2 = false) (copy : Engine K) :
    copy.adopt (engine.handle request).1 = copy.adopt engine := by
  by_cases hplan : request.operation.isPlanCableRoutes = true
  · unfold handle
    split_ifs
    · rfl
    · rfl
    · cases hoperation : request.operation with
      | planCableRoutes plan => rfl
      | _ =>
        rw [hoperation] at hplan
        cases hplan
  · have houtcome := engine.handle_outcome (Bool.not_eq_true _ ▸ hplan)
    generalize engine.handle request = answer at h houtcome
    cases houtcome with
    | advanced => cases h
    | _ => rfl

/-- A request is answered with patches and carries out its operation, or it leaves
the project as it was. -/
theorem dispatch_cases (engine : Engine K) (request : EngineRequest K) :
    (∃ patches, (engine.dispatch request).2.result.patches? = some patches ∧
        (engine.dispatch request).2.baseRevision = engine.revision ∧
        engine.perform request.operation = ((engine.dispatch request).1, .patch patches)) ∨
      (engine.dispatch request).2.result.patches? = none ∧
        ∀ copy : Engine K, copy.adopt (engine.dispatch request).1 = copy.adopt engine := by
  cases hresult : (engine.dispatch request).2.result with
  | patch patches => exact .inl ⟨patches, rfl, (dispatch_eq_patch hresult).2⟩
  | _ => exact .inr ⟨rfl, handle_adopt (congrArg isPatch hresult :)⟩

/-! ## Following a run -/

/-- The engine of a client after an answer to somebody else's request. There is none
when the client has to build it anew from a snapshot. -/
def applyCommittedResponse (requestId : ℕ) (copy : Engine K) (response : EngineResponse K) :
    Option (Engine K) :=
  match response.result.patches? with
  | none => some copy
  | some committed =>
    if copy.revision = committed.revision then some copy
    else if response.baseRevision ≠ copy.revision then none
    else
      (operationForCommittedPatch committed.forward (some committed.inverse)).bind fun operation =>
        let (next, applied) := copy.dispatch
          { protocolVersion := protocolVersion
            requestId := requestId
            baseRevision := copy.revision
            operation := operation }
        if applied.result.patches?.map (·.revision) = some committed.revision then some next
        else none

/-- A client can read an operation off the patches of an answer, if there are any. -/
def replayable (response : EngineResponse K) : Bool :=
  response.result.patches?.all fun committed =>
    (operationForCommittedPatch committed.forward (some committed.inverse)).isSome

/-- A client that shows the project before a request shows the one after it. -/
theorem applyCommittedResponse_dispatch (copy engine : Engine K) (requestId : ℕ)
    (request : EngineRequest K) :
    applyCommittedResponse requestId (copy.adopt engine) (engine.dispatch request).2 =
      if replayable (engine.dispatch request).2 then some (copy.adopt (engine.dispatch request).1)
      else none := by
  obtain ⟨committed, hpatch, hbase, hperform⟩ | ⟨hpatch, hkept⟩ := engine.dispatch_cases request
  · generalize engine.dispatch request = answer at hpatch hbase hperform
    have hrevision := perform_revision hperform
    cases hoperation : operationForCommittedPatch committed.forward (some committed.inverse) with
    | none => simp [applyCommittedResponse, replayable, hpatch, hbase, hoperation, hrevision]
    | some operation =>
      obtain ⟨applied, happlied⟩ := perform_replay hperform hoperation
      have hcopy := perform_adopt copy engine (isCommand_of_perform_eq_patch happlied)
      rw [happlied] at hcopy
      simp [applyCommittedResponse, replayable, hpatch, hbase, hoperation, hrevision, dispatch,
        handle, hcopy, perform_revision happlied]
  · simp [applyCommittedResponse, replayable, hpatch, hkept copy]

/-- **A client that follows a run shows the project of the authority after it**, with
its own geometry and routes. It starts anew exactly when it cannot read an operation
off some patch. -/
theorem follow_run (copy engine : Engine K) (requestId : ℕ) (requests : List (EngineRequest K)) :
    (engine.responses requests).foldlM (applyCommittedResponse requestId) (copy.adopt engine) =
      if (engine.responses requests).all replayable then some (copy.adopt (engine.run requests))
      else none := by
  induction requests generalizing engine with
  | nil => rfl
  | cons request requests ih =>
    rw [responses, foldlM_cons, applyCommittedResponse_dispatch, all_cons]
    cases replayable (engine.dispatch request).2 with
    | false => rfl
    | true => exact ih (engine.dispatch request).1

/-! ## The patches of a run -/

/-- The patches a run is answered with. -/
def committed (engine : Engine K) (requests : List (EngineRequest K)) :
    List (CommandPatchSet K) :=
  (engine.responses requests).filterMap (·.result.patches?)

/-- **No revision is skipped or given twice.** In a run of requests the patches that are answered
with have consecutive revisions, whatever fails in between. -/
theorem run_revisions (engine : Engine K) (requests : List (EngineRequest K)) :
    (engine.committed requests).map (·.revision) =
        range' (engine.revision + 1) (engine.committed requests).length ∧
      (engine.run requests).revision = engine.revision + (engine.committed requests).length := by
  induction requests generalizing engine with
  | nil => exact ⟨rfl, rfl⟩
  | cons request requests ih =>
    obtain ⟨hrevisions, hlast⟩ := ih (engine.dispatch request).1
    change _ ∧ ((engine.dispatch request).1.run requests).revision = _
    simp only [committed, responses, filterMap_cons] at hrevisions hlast ⊢
    obtain ⟨patches, hpatch, -, hperform⟩ | ⟨hpatch, hkept⟩ := engine.dispatch_cases request
    · obtain ⟨hrevision, hnext⟩ := perform_revision hperform
      simp only [hpatch, map_cons, hrevisions, hlast, hrevision, hnext, length_cons, range'_succ]
      exact ⟨trivial, by omega⟩
    · have hrevision : (engine.dispatch request).1.revision = engine.revision :=
        (congrArg Engine.revision (hkept engine) :)
      simp only [hpatch, hrevisions, hlast, hrevision, and_self]

end Engine

end HomelabInventory
