import HomelabInventory.SharingPublication

/-!
# What every run of the sharing keeps

Rows are never removed, and what an operation asks for is never changed: the
statements on the tables either change rows in place or add one that is new.
The outline of the tables is what they do not change in place; every run keeps
it coherent, and every request that waits and every operation that the
coordinator holds refers to rows of it.
-/

namespace HomelabInventory.Sharing

open Repository List

/-! ## The outline of the tables -/

/-- What an operation asks for. -/
structure OperationRequest where
  id : ℕ
  shareId : ℕ
  localRevisionId : Option ℕ
  idempotencyKey : IdempotencyKey
  kind : OperationKind
  expectedRemoteRevision : Option ℕ
  revisionIntentProvenance : RevisionIntentProvenance
deriving DecidableEq

def PublicationOperation.request (operation : PublicationOperation) : OperationRequest where
  id := operation.id
  shareId := operation.shareId
  localRevisionId := operation.localRevisionId
  idempotencyKey := operation.idempotencyKey
  kind := operation.kind
  expectedRemoteRevision := operation.expectedRemoteRevision
  revisionIntentProvenance := operation.revisionIntentProvenance

/-- What of the tables is never changed in place. -/
structure Outline where
  shareIds : List ℕ
  revisions : List LocalRevision
  requests : List OperationRequest
  nextShareId : ℕ
  nextRevisionId : ℕ
  nextOperationId : ℕ

def Repository.outline (r : Repository) : Outline where
  shareIds := r.shares.map (·.id)
  revisions := r.revisions
  requests := r.operations.map (·.request)
  nextShareId := r.nextShareId
  nextRevisionId := r.nextRevisionId
  nextOperationId := r.nextOperationId

/-- A local revision of the share that shows this manifest is stored under the id. -/
def Stored (revisions : List LocalRevision) (id shareId : ℕ) (manifestHash : String) : Prop :=
  ∃ revision ∈ revisions, revision.id = id ∧ revision.shareId = shareId ∧
    revision.manifestHash = manifestHash

/-- A request was written by this version, and a publication has a stored revision, after which
its key is formed. -/
structure OperationRequest.Sound (revisions : List LocalRevision) (request : OperationRequest) :
    Prop where
  exact : request.revisionIntentProvenance = .exact
  kind : request.idempotencyKey.kind = request.kind
  publication : request.kind = .publish →
    request.expectedRemoteRevision ≠ none ∧
    ∃ id, request.localRevisionId = some id ∧
      Stored revisions id request.shareId request.idempotencyKey.subject ∧
      request.idempotencyKey.shareId = request.shareId

/-- **What holds of the rows in every run.** -/
structure Outline.Coherent (o : Outline) : Prop where
  shareIds : Counted o.shareIds o.nextShareId
  revisionIds : Counted (o.revisions.map (·.id)) o.nextRevisionId
  manifests : (o.revisions.map fun revision => (revision.shareId, revision.manifestHash)).Nodup
  operationIds : Counted (o.requests.map (·.id)) o.nextOperationId
  requests : ∀ request ∈ o.requests, request.Sound o.revisions

/-- **What a statement does to the rows**: it adds some, and keeps the tables coherent. -/
structure Outline.Advances (o o' : Outline) : Prop where
  shareIds : o.shareIds <+: o'.shareIds
  revisions : o.revisions <+: o'.revisions
  requests : o.requests <+: o'.requests
  coherent : o.Coherent → o'.Coherent

theorem Outline.Advances.refl (o : Outline) : o.Advances o :=
  ⟨prefix_refl _, prefix_refl _, prefix_refl _, fun h => h⟩

theorem Outline.Advances.trans {o o' o'' : Outline} (h : o.Advances o') (h' : o'.Advances o'') :
    o.Advances o'' where
  shareIds := h.shareIds.trans h'.shareIds
  revisions := h.revisions.trans h'.revisions
  requests := h.requests.trans h'.requests
  coherent hc := h'.coherent (h.coherent hc)

variable {o o' : Outline}

theorem Outline.Advances.of_eq (h : o' = o) : o.Advances o' := h ▸ .refl o

variable {expectedRevision id index localRevisionId revision shareId : ℕ}
variable {manifestHash : String}

/-- A stored revision stays stored. -/
theorem Stored.mono {revisions revisions' : List LocalRevision}
    (h : Stored revisions id shareId manifestHash) (hextends : revisions <+: revisions') :
    Stored revisions' id shareId manifestHash := by
  obtain ⟨revision, hmem, hrest⟩ := h
  exact ⟨revision, hextends.subset hmem, hrest⟩

theorem OperationRequest.Sound.mono {revisions revisions' : List LocalRevision}
    {request : OperationRequest} (h : request.Sound revisions) (hextends : revisions <+: revisions') :
    request.Sound revisions' where
  exact := h.exact
  kind := h.kind
  publication hkind := by
    obtain ⟨hexpected, id, hid, hstored, hkey⟩ := h.publication hkind
    exact ⟨hexpected, id, hid, hstored.mono hextends, hkey⟩

/-! ## Statements that change rows in place -/

variable {r r' : Repository}

theorem setShare_outline {f : ShareRecord → ShareRecord} (hf : ∀ share, (f share).id = share.id) :
    (r.setShare id f).outline = r.outline := by
  have hids : (updateWhere (fun share => share.id = id) f r.shares).map (·.id) =
      r.shares.map (·.id) := map_updateWhere (fun share _ => hf share) r.shares
  simp only [setShare, Repository.outline, hids]

theorem setOperation_outline {f : PublicationOperation → PublicationOperation}
    (hf : ∀ operation, (f operation).request = operation.request) :
    (r.setOperation id f).outline = r.outline := by
  have hrequests : (updateWhere (fun operation => operation.id = id) f r.operations).map
      (·.request) = r.operations.map (·.request) :=
    map_updateWhere (fun operation _ => hf operation) r.operations
  simp only [setOperation, Repository.outline, hrequests]

theorem cancelPendingOperations_outline (r : Repository) (shareId : ℕ) (kind : OperationKind) :
    (r.cancelPendingOperations shareId kind).outline = r.outline := by
  have hrequests : (updateWhere (fun operation => operation.isPending shareId kind)
      PublicationOperation.cancelled r.operations).map (·.request) =
      r.operations.map (·.request) :=
    map_updateWhere (f := PublicationOperation.cancelled) (fun _ _ => rfl) r.operations
  simp only [cancelPendingOperations, Repository.outline, hrequests]

theorem updateShare_eq_ok {patch : SharePatch}
    (h : r.updateShare id expectedRevision patch = .ok r') :
    ∃ current, r.getShare id = some current ∧ current.localRevision = expectedRevision ∧
      r' = r.setShare id fun share => share.patched patch := by
  simp only [updateShare] at h
  split at h
  · cases h
  · rename_i current hcurrent
    obtain ⟨_, hrevision, h⟩ := bind_eq_ok.mp h
    rw [failIf_eq_ok, not_not] at hrevision
    exact ⟨current, hcurrent, hrevision, (pure_eq_ok.mp h).symm⟩

theorem updateShare_outline {patch : SharePatch}
    (h : r.updateShare id expectedRevision patch = .ok r') : r'.outline = r.outline := by
  obtain ⟨_, -, -, rfl⟩ := updateShare_eq_ok h
  exact setShare_outline fun _ => rfl

variable {mutability : Mutability}
variable {syncMode : SyncMode}

theorem updateShareConfiguration_eq_ok
    (h : r.updateShareConfiguration id expectedRevision mutability syncMode = .ok r') :
    ∃ current nextState, r.getShare id = some current ∧
      current.localRevision = expectedRevision ∧
      r' = r.setShare id fun share => share.configured mutability syncMode nextState := by
  simp only [updateShareConfiguration] at h
  split at h
  · cases h
  · rename_i current hcurrent
    obtain ⟨_, hrevision, h⟩ := bind_eq_ok.mp h
    rw [failIf_eq_ok, not_not] at hrevision
    obtain ⟨_, -, h⟩ := bind_eq_ok.mp h
    exact ⟨current, _, hcurrent, hrevision, (pure_eq_ok.mp h).symm⟩

theorem applyRemoteEvent_eq (r : Repository) (publicId : String) (revision : ℕ)
    (state : ShareState) :
    r.applyRemoteEvent publicId revision state = r ∨
      ∃ id, r.applyRemoteEvent publicId revision state =
        r.setShare id fun share => share.informed revision state := by
  simp only [applyRemoteEvent]
  split
  · exact .inl rfl
  · split
    · exact .inr ⟨_, rfl⟩
    · exact .inl rfl

theorem updateOperation_eq_ok {patch : OperationPatch} (h : r.updateOperation id patch = .ok r') :
    r' = r.setOperation id fun operation => operation.patched patch := by
  simp only [updateOperation] at h
  split at h
  · cases h
  · obtain ⟨_, -, h⟩ := bind_eq_ok.mp h
    exact (pure_eq_ok.mp h).symm

/-- What `recordRemoteStage` did when it did not throw: an operation that succeeded stays as it
is, every other one is running. -/
theorem recordRemoteStage_eq_ok {stage : RemoteStage} (h : r.recordRemoteStage id stage = .ok r') :
    ∃ current, (r.operations.find? fun operation => operation.id = id) = some current ∧
      ((current.state = .succeeded ∧ stage.state = .active ∧ r' = r) ∨
      (current.state ≠ .succeeded ∧
        r' = r.setOperation id fun operation => operation.staged stage)) := by
  simp only [recordRemoteStage] at h
  obtain ⟨_, -, h⟩ := bind_eq_ok.mp h
  obtain ⟨_, -, h⟩ := bind_eq_ok.mp h
  obtain ⟨_, -, h⟩ := bind_eq_ok.mp h
  split at h
  · cases h
  · rename_i current hcurrent
    obtain ⟨_, -, h⟩ := bind_eq_ok.mp h
    obtain ⟨_, -, h⟩ := bind_eq_ok.mp h
    refine ⟨current, hcurrent, ?_⟩
    split at h
    · rename_i hsucceeded
      obtain ⟨_, hactive, h⟩ := bind_eq_ok.mp h
      rw [failIf_eq_ok, not_or, not_not] at hactive
      exact .inl ⟨hsucceeded, hactive.1, (pure_eq_ok.mp h).symm⟩
    · rename_i hsucceeded
      exact .inr ⟨hsucceeded, (pure_eq_ok.mp h).symm⟩

theorem recordRemoteStage_outline {stage : RemoteStage}
    (h : r.recordRemoteStage id stage = .ok r') : r'.outline = r.outline := by
  obtain ⟨_, -, ⟨-, -, rfl⟩ | ⟨-, rfl⟩⟩ := recordRemoteStage_eq_ok h
  · rfl
  · exact setOperation_outline fun _ => rfl

@[simp] theorem ShareRecord.advance_id (share : ShareRecord) (input : CompletionInput) :
    (share.advance input).id = share.id := by
  simp only [ShareRecord.advance]
  split
  · rfl
  · split <;> rfl

theorem completePublication_eq_ok {input : CompletionInput}
    (h : r.completePublication input = .ok r') :
    r' = r ∨ r' = (r.setShare input.shareId fun share => share.advance input).setOperation
      input.operationId fun operation => operation.completed input.activationRevisionId := by
  simp only [completePublication] at h
  split at h
  · cases h
  · obtain ⟨_, -, h⟩ := bind_eq_ok.mp h
    obtain ⟨_, -, h⟩ := bind_eq_ok.mp h
    obtain ⟨_, -, h⟩ := bind_eq_ok.mp h
    obtain ⟨_, -, h⟩ := bind_eq_ok.mp h
    obtain ⟨_, -, h⟩ := bind_eq_ok.mp h
    split at h
    · cases h
    · obtain ⟨_, -, h⟩ := bind_eq_ok.mp h
      split at h
      · obtain ⟨_, -, h⟩ := bind_eq_ok.mp h
        obtain ⟨_, -, h⟩ := bind_eq_ok.mp h
        exact .inl (pure_eq_ok.mp h).symm
      · exact .inr (pure_eq_ok.mp h).symm

theorem completePublication_outline {input : CompletionInput}
    (h : r.completePublication input = .ok r') : r'.outline = r.outline := by
  obtain rfl | rfl := completePublication_eq_ok h
  · rfl
  · have hshare : (r.setShare input.shareId fun share => share.advance input).outline = r.outline :=
      setShare_outline fun share => share.advance_id input
    rw [setOperation_outline (f := fun operation => operation.completed input.activationRevisionId)
      fun _ => rfl, hshare]

/-! ## Statements that add rows -/

theorem createShare_advances (h : r.createShare mutability syncMode = .ok r') :
    r.outline.Advances r'.outline := by
  obtain ⟨_, -, h⟩ := bind_eq_ok.mp h
  obtain rfl := pure_eq_ok.mp h
  refine ⟨?_, prefix_refl _, prefix_refl _, ?_⟩
  · simp only [Repository.outline, map_append]
    exact prefix_append _ _
  · intro hc
    refine ⟨?_, hc.revisionIds, hc.manifests, hc.operationIds, hc.requests⟩
    simpa [Repository.outline] using hc.shareIds.push

/-- `persistRevision` gives the id of a revision that shows the projection. -/
theorem persistRevision_advances {projection : Projection}
    (h : r.persistRevision shareId revision projection = .ok (id, r')) :
    r.outline.Advances r'.outline ∧ Stored r'.revisions id shareId projection.manifestHash ∧
      r'.shares = r.shares ∧ r'.operations = r.operations := by
  simp only [persistRevision] at h
  split at h
  · rename_i existing hfound
    obtain ⟨_, -, h⟩ := bind_eq_ok.mp h
    obtain ⟨rfl, rfl⟩ := Prod.mk.inj (pure_eq_ok.mp h)
    have hkey := find?_some hfound
    simp only [decide_eq_true_eq] at hkey
    exact ⟨.refl _, ⟨existing, mem_of_find?_eq_some hfound, rfl, hkey⟩, rfl, rfl⟩
  · rename_i hfound
    obtain ⟨_, -, h⟩ := bind_eq_ok.mp h
    obtain ⟨rfl, rfl⟩ := Prod.mk.inj (pure_eq_ok.mp h)
    refine ⟨⟨prefix_refl _, prefix_append _ _, prefix_refl _, ?_⟩,
      ⟨_, mem_append_right _ (mem_singleton_self _), rfl, rfl, rfl⟩, rfl, rfl⟩
    intro hc
    refine ⟨hc.shareIds, ?_, ?_, hc.operationIds, ?_⟩
    · simpa [Repository.outline] using hc.revisionIds.push
    · -- no stored revision of the share shows the same manifest
      refine nodup_map_push hc.manifests fun stored hstored hsame => ?_
      obtain ⟨hshare, hhash⟩ := Prod.mk.inj hsame
      have hnone := find?_eq_none.mp hfound stored hstored
      simp [hshare, hhash] at hnone
    · exact fun request hrequest => (hc.requests request hrequest).mono (prefix_append _ _)

variable {input : EnqueueInput}

theorem assertExpectation_eq_ok {u : Unit} (h : input.assertExpectation = .ok u)
    (hkind : input.kind = .publish) :
    input.localRevisionId ≠ none ∧ input.expectedRemoteRevision ≠ none := by
  rw [EnqueueInput.assertExpectation, if_pos hkind] at h
  obtain ⟨_, hrevision, h⟩ := bind_eq_ok.mp h
  exact ⟨failIf_eq_ok.mp hrevision, failIf_eq_ok.mp h⟩

/-- What `enqueueOperation` did when it did not throw: the operation of the key is there, or
one was added. -/
theorem enqueueOperation_eq_ok (h : r.enqueueOperation input = .ok (id, r')) :
    (∃ existing, r.keyed input.idempotencyKey = some existing ∧ existing.id = id ∧
      immutableMatches existing input ∧
      (existing.state = .cancelled ∧
          r' = r.setOperation id (fun operation => operation.requeued input.availableAtMs) ∨
        existing.state = .failed ∧ input.retryIdenticalFailed ∧
          r' = r.setOperation id (fun operation => operation.retried input.availableAtMs) ∨
        existing.state ≠ .cancelled ∧ r' = r)) ∨
    (r.keyed input.idempotencyKey = none ∧ id = r.nextOperationId ∧
      (input.kind = .publish →
        input.localRevisionId ≠ none ∧ input.expectedRemoteRevision ≠ none) ∧
      r' = { r with
        operations := r.operations ++ [input.operation r.nextOperationId]
        nextOperationId := r.nextOperationId + 1 }) := by
  obtain ⟨_, hexpectation, h⟩ := bind_eq_ok.mp h
  split at h
  · rename_i existing hkeyed
    obtain ⟨_, -, h⟩ := bind_eq_ok.mp h
    obtain ⟨_, hmatches, h⟩ := bind_eq_ok.mp h
    rw [failIf_eq_ok, not_not] at hmatches
    split at h
    · rename_i hcancelled
      obtain ⟨rfl, rfl⟩ := Prod.mk.inj (pure_eq_ok.mp h)
      exact .inl ⟨existing, hkeyed, rfl, hmatches, .inl ⟨hcancelled, rfl⟩⟩
    · rename_i hcancelled
      split at h
      · rename_i hfailed
        obtain ⟨_, -, h⟩ := bind_eq_ok.mp h
        obtain ⟨rfl, rfl⟩ := Prod.mk.inj (pure_eq_ok.mp h)
        exact .inl ⟨existing, hkeyed, rfl, hmatches, .inr (.inl ⟨hfailed.1, hfailed.2, rfl⟩)⟩
      · obtain ⟨rfl, rfl⟩ := Prod.mk.inj (pure_eq_ok.mp h)
        exact .inl ⟨existing, hkeyed, rfl, hmatches, .inr (.inr ⟨hcancelled, rfl⟩)⟩
  · rename_i hkeyed
    obtain ⟨rfl, rfl⟩ := Prod.mk.inj (pure_eq_ok.mp h)
    exact .inr ⟨hkeyed, rfl, assertExpectation_eq_ok hexpectation, rfl⟩

theorem enqueueOperation_advances (h : r.enqueueOperation input = .ok (id, r'))
    (hkind : input.idempotencyKey.kind = input.kind)
    (hstored : input.kind = .publish → ∃ revisionId, input.localRevisionId = some revisionId ∧
      Stored r.revisions revisionId input.shareId input.idempotencyKey.subject ∧
      input.idempotencyKey.shareId = input.shareId) :
    r.outline.Advances r'.outline := by
  obtain ⟨_, -, -, -, ⟨-, rfl⟩ | ⟨-, -, rfl⟩ | ⟨-, rfl⟩⟩ | ⟨-, rfl, hexpected, rfl⟩ :=
    enqueueOperation_eq_ok h
  · exact .of_eq (setOperation_outline fun _ => rfl)
  · exact .of_eq (setOperation_outline fun _ => rfl)
  · exact .refl _
  · refine ⟨prefix_refl _, prefix_refl _, ?_, ?_⟩
    · simp only [Repository.outline, map_append]
      exact prefix_append _ _
    · intro hc
      refine ⟨hc.shareIds, hc.revisionIds, hc.manifests, ?_, ?_⟩
      · simpa [Repository.outline, EnqueueInput.operation, PublicationOperation.request]
          using hc.operationIds.push
      · intro request hrequest
        simp only [Repository.outline, map_append, mem_append] at hrequest
        obtain hold | hnew := hrequest
        · exact hc.requests request hold
        · obtain rfl := mem_singleton.mp hnew
          exact ⟨rfl, hkind, fun h => ⟨(hexpected h).2, hstored h⟩⟩

/-! ## Requests -/

/-- What a request still has to do refers to rows that are stored. -/
def Task.Sound (o : Outline) : Task → Prop
  | .publishPreviewed shareId localRevisionId manifestHash =>
    Stored o.revisions localRevisionId shareId manifestHash
  | .schedule share _ => share.id ∈ o.shareIds
  | .schedulePreviewed share localRevisionId manifestHash _ =>
    share.id ∈ o.shareIds ∧ Stored o.revisions localRevisionId share.id manifestHash
  | _ => True

variable {task : Task}

theorem Task.Sound.mono (h : task.Sound o) (hadvances : o.Advances o') : task.Sound o' := by
  cases task with
  | publishPreviewed => exact Stored.mono h hadvances.revisions
  | schedule => exact hadvances.shareIds.subset h
  | schedulePreviewed => exact ⟨hadvances.shareIds.subset h.1, h.2.mono hadvances.revisions⟩
  | _ => trivial

theorem projected_advances {projection : Projection} {left : Option Task}
    (hsound : task.Sound r.outline) (h : task.projected r projection = .ok (left, r')) :
    r.outline.Advances r'.outline ∧ ∀ task ∈ left, task.Sound r'.outline := by
  cases task with
  | preview shareId localRevision =>
    obtain ⟨⟨id, r₁⟩, hpersist, h⟩ := bind_eq_ok.mp h
    obtain ⟨rfl, rfl⟩ := Prod.mk.inj (pure_eq_ok.mp h)
    exact ⟨(persistRevision_advances hpersist).1, by simp⟩
  | approve shareId localRevision manifestHash =>
    obtain ⟨_, -, h⟩ := bind_eq_ok.mp h
    obtain ⟨r₁, hupdate, h⟩ := bind_eq_ok.mp h
    obtain ⟨rfl, rfl⟩ := Prod.mk.inj (pure_eq_ok.mp h)
    exact ⟨.of_eq (updateShare_outline hupdate), by simp⟩
  | publish shareId localRevision =>
    obtain ⟨⟨id, r₁⟩, hpersist, h⟩ := bind_eq_ok.mp h
    obtain ⟨rfl, rfl⟩ := Prod.mk.inj (pure_eq_ok.mp h)
    obtain ⟨hadvances, hstored, -⟩ := persistRevision_advances hpersist
    refine ⟨hadvances, fun task htask => ?_⟩
    obtain rfl := Option.mem_some.mp htask
    exact hstored
  | schedule share availableAtMs =>
    obtain ⟨⟨id, r₁⟩, hpersist, h⟩ := bind_eq_ok.mp h
    obtain ⟨rfl, rfl⟩ := Prod.mk.inj (pure_eq_ok.mp h)
    obtain ⟨hadvances, hstored, -⟩ := persistRevision_advances hpersist
    refine ⟨hadvances, fun task htask => ?_⟩
    obtain rfl := Option.mem_some.mp htask
    exact ⟨hadvances.shareIds.subset hsound, hstored⟩
  | publishPreviewed =>
    obtain ⟨rfl, rfl⟩ := Prod.mk.inj (Except.ok.inj h)
    exact ⟨.refl _, by simpa using hsound⟩
  | schedulePreviewed =>
    obtain ⟨rfl, rfl⟩ := Prod.mk.inj (Except.ok.inj h)
    exact ⟨.refl _, by simpa using hsound⟩

variable {now : ℤ}

/-- What `enqueuePublish` did when it did not throw: the manifest was approved. -/
theorem enqueuePreviewed_eq_ok
    (h : enqueuePreviewed r shareId localRevisionId manifestHash now = .ok (id, r')) :
    ∃ current r₁, r.getShare shareId = some current ∧
      current.approvedPreviewHash = some manifestHash ∧
      r.enqueueOperation
        { shareId := shareId
          localRevisionId := some localRevisionId
          idempotencyKey := idempotencyKey shareId manifestHash
          kind := .publish
          availableAtMs := now
          expectedRemoteRevision := some (current.remoteRevision.getD 0)
          retryIdenticalFailed := true } = .ok (id, r₁) ∧
      r₁.updateShare shareId current.localRevision { state := some .publishing } = .ok r' := by
  simp only [enqueuePreviewed] at h
  split at h
  · cases h
  · rename_i current hcurrent
    obtain ⟨_, happroved, h⟩ := bind_eq_ok.mp h
    rw [failIf_eq_ok, not_not] at happroved
    obtain ⟨⟨operationId, r₁⟩, henqueue, h⟩ := bind_eq_ok.mp h
    obtain ⟨r₂, hupdate, h⟩ := bind_eq_ok.mp h
    obtain ⟨rfl, rfl⟩ := Prod.mk.inj (pure_eq_ok.mp h)
    exact ⟨current, r₁, hcurrent, happroved, henqueue, hupdate⟩

theorem enqueuePreviewed_advances
    (hstored : Stored r.revisions localRevisionId shareId manifestHash)
    (h : enqueuePreviewed r shareId localRevisionId manifestHash now = .ok (id, r')) :
    r.outline.Advances r'.outline := by
  obtain ⟨current, r₁, -, -, henqueue, hupdate⟩ := enqueuePreviewed_eq_ok h
  exact (enqueueOperation_advances henqueue rfl fun _ => ⟨_, rfl, hstored, rfl⟩).trans
    (.of_eq (updateShare_outline hupdate))

/-- `markSynced` changes the state of the share, or nothing. -/
theorem markSynced_eq_ok (h : markSynced r shareId = .ok r') :
    r' = r ∨ ∃ revision, r.updateShare shareId revision { state := some .synced } = .ok r' := by
  simp only [markSynced] at h
  split at h
  · cases h
  · split at h
    · exact .inr ⟨_, h⟩
    · exact .inl (Except.ok.inj h).symm

/-- What `scheduleCurrentState` asks the repository to enqueue. -/
def scheduleInput (share : ShareRecord) (localRevisionId : ℕ) (manifestHash : String)
    (availableAtMs : ℤ) : EnqueueInput where
  shareId := share.id
  localRevisionId := some localRevisionId
  idempotencyKey := idempotencyKey share.id manifestHash
  kind := .publish
  availableAtMs := availableAtMs
  expectedRemoteRevision := share.remoteRevision

/-- What `scheduleCurrentState` did: it cancelled, and then it may have marked the share or
enqueued an operation. -/
theorem schedulePreviewed_cases (r : Repository) (share : ShareRecord) (localRevisionId : ℕ)
    (manifestHash : String) (availableAtMs : ℤ) :
    (∃ failure, schedulePreviewed r share localRevisionId manifestHash availableAtMs =
        (.error failure, r.cancelPendingOperations share.id .publish)) ∨
    (∃ r', schedulePreviewed r share localRevisionId manifestHash availableAtMs = (.ok none, r') ∧
      share.activeManifestHash = some manifestHash ∧
      markSynced (r.cancelPendingOperations share.id .publish) share.id = .ok r') ∨
    (∃ id r', schedulePreviewed r share localRevisionId manifestHash availableAtMs =
        (.ok (some id), r') ∧
      share.activeManifestHash ≠ some manifestHash ∧
      (r.cancelPendingOperations share.id .publish).enqueueOperation
        (scheduleInput share localRevisionId manifestHash availableAtMs) = .ok (id, r')) := by
  simp only [schedulePreviewed]
  split
  · rename_i hactive
    split
    · exact .inl ⟨_, rfl⟩
    · rename_i r' hmarked
      exact .inr (.inl ⟨r', rfl, hactive, hmarked⟩)
  · split
    · exact .inl ⟨_, rfl⟩
    · rename_i hactive _ id r' henqueue
      exact .inr (.inr ⟨id, r', rfl, hactive, henqueue⟩)

theorem schedulePreviewed_advances {share : ShareRecord} {availableAtMs : ℤ}
    (hstored : Stored r.revisions localRevisionId share.id manifestHash) :
    r.outline.Advances
      (schedulePreviewed r share localRevisionId manifestHash availableAtMs).2.outline := by
  have hcancel := cancelPendingOperations_outline r share.id .publish
  obtain ⟨_, h⟩ | ⟨r', h, -, hmarked⟩ | ⟨id, r', h, -, henqueue⟩ :=
    schedulePreviewed_cases r share localRevisionId manifestHash availableAtMs
  · rw [h]
    exact .of_eq hcancel
  · rw [h]
    obtain rfl | ⟨_, hupdate⟩ := markSynced_eq_ok hmarked
    · exact .of_eq hcancel
    · exact .of_eq ((updateShare_outline hupdate).trans hcancel)
  · rw [h]
    exact (Outline.Advances.of_eq hcancel).trans
      (enqueueOperation_advances henqueue rfl fun _ => ⟨_, rfl, hstored, rfl⟩)

theorem enqueueLifecycle_advances {kind : OperationKind} (hkind : kind ≠ .publish)
    (h : enqueueLifecycle r shareId kind now = .ok (id, r')) : r.outline.Advances r'.outline := by
  simp only [enqueueLifecycle] at h
  split at h
  · cases h
  · split at h
    · exact enqueueOperation_advances h rfl fun h => absurd h hkind
    · cases h

theorem markRelevantChange_outline (h : markRelevantChange r shareId = .ok r') :
    r'.outline = r.outline := by
  simp only [markRelevantChange] at h
  split at h
  · exact congrArg _ (Except.ok.inj h).symm
  · split at h
    · exact congrArg _ (Except.ok.inj h).symm
    · exact updateShare_outline h

theorem resourceSnapshotSaved_outline (h : resourceSnapshotSaved r shareId = .ok r') :
    r'.outline = r.outline := by
  simp only [resourceSnapshotSaved] at h
  split at h
  · cases h
  · exact updateShare_outline h

theorem remoteAnswered_outline {state : Option ShareState}
    (h : System.remoteAnswered r shareId revision state = .ok r') : r'.outline = r.outline := by
  simp only [System.remoteAnswered] at h
  split at h
  · cases h
  · exact updateShare_outline h

theorem configured_outline {remote : Option (ℕ × ShareState)}
    (h : System.configured r shareId expectedRevision mutability syncMode remote = .ok r') :
    r'.outline = r.outline := by
  obtain ⟨r₁, hconfigure, h⟩ := bind_eq_ok.mp h
  have hfirst : r₁.outline = r.outline := by
    obtain ⟨_, _, -, -, rfl⟩ := updateShareConfiguration_eq_ok hconfigure
    exact setShare_outline fun _ => rfl
  split at h
  · exact (updateShare_outline h).trans hfirst
  · obtain rfl := pure_eq_ok.mp h
    exact hfirst

/-! ## The coordinator -/

/-- A publication goes by rows that are stored. -/
structure Publication.Sound (o : Outline) (publication : Publication) : Prop where
  request : publication.operation.request ∈ o.requests
  kind : publication.operation.kind = .publish
  revision : publication.revision ∈ o.revisions
  revisionId : publication.operation.localRevisionId = some publication.revision.id

/-- The coordinator holds an operation that is stored. -/
def Worker.Sound (o : Outline) : Worker → Prop
  | .idle => True
  | .staging publication | .uploading publication .. | .activating publication _
  | .restaging publication => publication.Sound o
  | .lifecycle operation => operation.request ∈ o.requests ∧ operation.kind ≠ .publish
  | .failing operation => operation.request ∈ o.requests

variable {publication : Publication}

theorem Publication.Sound.mono (h : publication.Sound o) (hadvances : o.Advances o') :
    publication.Sound o' :=
  ⟨hadvances.requests.subset h.request, h.kind, hadvances.revisions.subset h.revision, h.revisionId⟩

variable {worker : Worker}

theorem Worker.Sound.mono (h : worker.Sound o) (hadvances : o.Advances o') : worker.Sound o' := by
  cases worker with
  | idle => trivial
  | staging | uploading | activating | restaging => exact Publication.Sound.mono h hadvances
  | lifecycle => exact ⟨hadvances.requests.subset h.1, h.2⟩
  | failing => exact hadvances.requests.subset h

variable {operation : PublicationOperation}

/-- What the coordinator holds is stored. -/
theorem Worker.Sound.held (h : worker.Sound o) (hheld : worker.held = some operation) :
    operation.request ∈ o.requests := by
  cases worker with
  | idle => cases hheld
  | staging | uploading | activating | restaging =>
    obtain rfl := Option.some.inj hheld
    exact h.request
  | lifecycle =>
    obtain rfl := Option.some.inj hheld
    exact h.1
  | failing =>
    obtain rfl := Option.some.inj hheld
    exact h

theorem mem_requests (h : operation ∈ r.operations) : operation.request ∈ r.outline.requests :=
  mem_map_of_mem h

theorem getLocalRevision_eq_some {revision : LocalRevision}
    (h : r.getLocalRevision id = some revision) : revision ∈ r.revisions ∧ revision.id = id :=
  ⟨mem_of_find?_eq_some h, by simpa using find?_some h⟩

theorem begin_sound (h : operation ∈ r.operations) : (begin r operation).Sound r.outline := by
  have hrequest := mem_requests h
  cases hkind : operation.kind with
  | publish =>
    simp only [begin, hkind]
    split
    · rename_i share revision _ _ hrevision _
      obtain ⟨id, hid, hrevision⟩ := Option.bind_eq_some_iff.mp hrevision
      obtain ⟨hmem, rfl⟩ := getLocalRevision_eq_some hrevision
      exact ⟨hrequest, hkind, hmem, hid⟩
    · exact hrequest
  | unpublish | delete =>
    simp only [begin, hkind]
    split
    · exact ⟨hrequest, by simp [hkind]⟩
    · exact hrequest
  | resourceSnapshot =>
    simp only [begin, hkind]
    exact hrequest

theorem begin_held (r : Repository) (operation : PublicationOperation) :
    (begin r operation).held = some operation := by
  cases hkind : operation.kind <;> simp only [begin, hkind]
  all_goals (try split) <;> rfl

theorem uploads_sound (h : publication.Sound o) (stage : RemoteStage) (missing : List String) :
    (uploads publication stage missing).Sound o := by
  rw [uploads]
  split <;> exact h

theorem completeStaged_sound (h : publication.Sound r.outline) (remotePublicId : String)
    (stage : RemoteStage) :
    (completeStaged r publication remotePublicId stage).2.outline = r.outline ∧
      (completeStaged r publication remotePublicId stage).1.Sound r.outline := by
  simp only [completeStaged]
  split
  · split
    · exact ⟨rfl, h.request⟩
    · split
      · rename_i r' hcompleted
        exact ⟨completePublication_outline hcompleted, trivial⟩
      · exact ⟨rfl, h.request⟩
  · exact ⟨rfl, h.request⟩

section Recorded

variable {r : Repository} {publication : Publication} {remotePublicId : String}
  {stage : RemoteStage} {next : Worker × Repository}
  (hnext : next = staged r publication remotePublicId stage ∨
    next = restaged r publication remotePublicId stage)
include hnext

/-- What a stage leads to, whether it is the first one of the publication or a later one. -/
theorem recorded_cases : next = (.failing publication.operation, r) ∨
    ∃ r', r.recordRemoteStage publication.operation.id stage = .ok r' ∧
      ((stage.state = .active ∧ next = completeStaged r' publication remotePublicId stage) ∨
        (stage.state ≠ .active ∧ (next = (.failing publication.operation, r') ∨
          next = (uploads publication stage stage.missingHashes, r')))) := by
  rw [staged, restaged] at hnext
  cases hrecorded : r.recordRemoteStage publication.operation.id stage with
  | error failure =>
    simp only [hrecorded, or_self] at hnext
    exact .inl hnext
  | ok r' =>
    simp only [hrecorded] at hnext
    refine .inr ⟨r', rfl, ?_⟩
    by_cases hactive : stage.state = .active
    · rw [if_pos hactive, if_pos hactive, or_self] at hnext
      exact .inl ⟨hactive, hnext⟩
    · rw [if_neg hactive, if_neg hactive] at hnext
      refine .inr ⟨hactive, ?_⟩
      split at hnext
      · exact .inl (hnext.elim id id)
      · exact hnext.symm

theorem recorded_sound (h : publication.Sound r.outline) :
    next.2.outline = r.outline ∧ next.1.Sound r.outline := by
  obtain rfl | ⟨r', hrecorded, hnext⟩ := recorded_cases hnext
  · exact ⟨rfl, h.request⟩
  · rw [← recordRemoteStage_outline hrecorded] at h ⊢
    obtain ⟨-, rfl⟩ | ⟨-, rfl | rfl⟩ := hnext
    · exact completeStaged_sound h remotePublicId stage
    · exact ⟨rfl, h.request⟩
    · exact ⟨rfl, uploads_sound h stage stage.missingHashes⟩

end Recorded

/-- The operation is brought to the state after its failure, and then the share may fail. -/
theorem recordFailure_eq (r : Repository) (operation : PublicationOperation)
    (disposition : FailureDisposition) :
    recordFailure r operation disposition = r ∨
    ∃ r', r.updateOperation operation.id
        { state := if disposition.retryable then .retrying else .failed
          attemptCount := some (operation.attemptCount + 1)
          availableAtMs := some disposition.availableAtMs
          lastErrorCode := some (some disposition.errorCode) } = .ok r' ∧
      (recordFailure r operation disposition = r' ∨
      ∃ id revision, r'.updateShare id revision { state := some .failed } =
        .ok (recordFailure r operation disposition)) := by
  simp only [recordFailure]
  split
  · exact .inl rfl
  · rename_i r' hupdate
    refine .inr ⟨r', hupdate, ?_⟩
    split
    · exact .inl rfl
    · split
      · exact .inl rfl
      · rename_i share _
        cases hshare : r'.updateShare share.id share.localRevision { state := some .failed } with
        | error _ => exact .inl rfl
        | ok r'' => exact .inr ⟨_, _, hshare⟩

theorem recordFailure_outline (r : Repository) (operation : PublicationOperation)
    (disposition : FailureDisposition) :
    (recordFailure r operation disposition).outline = r.outline := by
  obtain h | ⟨r', hupdate, hshare⟩ := recordFailure_eq r operation disposition
  · rw [h]
  · have hfirst : r'.outline = r.outline := by
      rw [updateOperation_eq_ok hupdate]
      exact setOperation_outline fun _ => rfl
    obtain rfl | ⟨_, _, hshare⟩ := hshare
    · exact hfirst
    · exact (updateShare_outline hshare).trans hfirst

theorem completeLifecycle_sound (h : operation.request ∈ r.outline.requests) (revision : ℕ)
    (state : ShareState) :
    (completeLifecycle r operation revision state).2.outline = r.outline ∧
      (completeLifecycle r operation revision state).1.Sound r.outline := by
  simp only [completeLifecycle]
  split
  · exact ⟨rfl, h⟩
  · rename_i r' hupdate
    have hfirst : r'.outline = r.outline := by
      rw [updateOperation_eq_ok hupdate]
      exact setOperation_outline fun _ => rfl
    split
    · exact ⟨hfirst, h⟩
    · split
      · exact ⟨hfirst, h⟩
      · rename_i r'' hshare
        exact ⟨(updateShare_outline hshare).trans hfirst, trivial⟩

/-! ## Runs -/

/-- **What holds of the system in every run.** -/
structure System.Coherent (s : System) : Prop where
  rows : s.repository.outline.Coherent
  tasks : ∀ task ∈ s.tasks, task.Sound s.repository.outline
  worker : s.worker.Sound s.repository.outline

/-- What an event does to the system, as far as the outline goes. -/
structure System.Follows (s s' : System) : Prop where
  rows : s.repository.outline.Advances s'.repository.outline
  tasks : ∀ task ∈ s'.tasks, task ∈ s.tasks ∨ task.Sound s'.repository.outline
  worker : s'.worker = s.worker ∨ s'.worker.Sound s'.repository.outline

variable {s s' : System}

theorem System.Coherent.follows (h : s.Coherent) (hfollows : s.Follows s') : s'.Coherent where
  rows := hfollows.rows.coherent h.rows
  tasks task hmem := by
    obtain hold | hnew := hfollows.tasks task hmem
    · exact (h.tasks task hold).mono hfollows.rows
    · exact hnew
  worker := by
    obtain hsame | hnew := hfollows.worker
    · exact hsame ▸ h.worker.mono hfollows.rows
    · exact hnew

theorem System.Follows.refl (s : System) : s.Follows s :=
  ⟨.refl _, fun _ h => .inl h, .inl rfl⟩

/-- Only the tables change. -/
theorem System.Follows.of_repository (h : s.repository.outline.Advances r.outline) :
    s.Follows { s with repository := r } :=
  ⟨h, fun _ hmem => .inl hmem, .inl rfl⟩

theorem System.Follows.commit {result : Except Failure Repository}
    (h : ∀ r, result = .ok r → s.repository.outline.Advances r.outline) :
    s.Follows (s.commit result) := by
  cases result with
  | error _ => exact .refl s
  | ok r => exact .of_repository (h r rfl)

theorem System.Follows.enqueue {result : Except Failure (ℕ × Repository)}
    (h : ∀ id r, result = .ok (id, r) → s.repository.outline.Advances r.outline) :
    s.Follows (s.enqueue result) := by
  match result, h with
  | .error _, _ => exact .refl s
  | .ok (id, r), h => exact ⟨h id r rfl, fun _ hmem => .inl hmem, .inl rfl⟩

theorem System.Follows.ask (s : System) (shareId : ℕ) {task : ShareRecord → Task}
    (h : ∀ share, (task share).Sound s.repository.outline) : s.Follows (s.ask shareId task) := by
  simp only [System.ask]
  split
  · exact .refl s
  · rename_i share _
    refine ⟨.refl _, fun task' hmem => ?_, .inl rfl⟩
    obtain hold | hnew := mem_append.mp hmem
    · exact .inl hold
    · exact .inr (mem_singleton.mp hnew ▸ h share)

/-- The tables change, and the current state is scheduled. -/
theorem System.Follows.schedule (h : r.outline = s.repository.outline) (shareId : ℕ)
    (availableAtMs : ℤ) :
    s.Follows ({ s with repository := r }.schedule shareId availableAtMs) := by
  simp only [System.schedule]
  split
  · exact .of_repository (.of_eq h)
  · rename_i share hstart
    refine ⟨.of_eq h, fun task hmem => ?_, .inl rfl⟩
    obtain hold | hnew := mem_append.mp hmem
    · exact .inl hold
    · obtain rfl := mem_singleton.mp hnew
      obtain ⟨hshare, -⟩ := Option.filter_eq_some_iff.mp hstart
      exact .inr (mem_map_of_mem (mem_of_find?_eq_some hshare))

/-- The coordinator goes on with tables of the same outline. -/
theorem System.Follows.work {result : Worker × Repository}
    (h : result.2.outline = s.repository.outline ∧ result.1.Sound s.repository.outline) :
    s.Follows (s.work result) :=
  ⟨.of_eq h.1, fun _ hmem => .inl hmem, .inr (h.1.symm ▸ h.2)⟩

theorem System.Follows.proceed (hc : s.Coherent) (htask : s.tasks[index]? = some task) (now : ℤ) :
    s.Follows ({ s with tasks := s.tasks.eraseIdx index }.proceed now task) := by
  have hsound := hc.tasks task (mem_of_getElem? htask)
  have herase : ∀ other ∈ s.tasks.eraseIdx index, other ∈ s.tasks :=
    fun _ hmem => mem_of_mem_eraseIdx hmem
  cases task with
  | publishPreviewed shareId localRevisionId manifestHash =>
    simp only [System.proceed]
    cases henqueue : enqueuePreviewed s.repository shareId localRevisionId manifestHash now with
    | error _ => exact ⟨.refl _, fun other hmem => .inl (herase other hmem), .inl rfl⟩
    | ok result =>
      exact ⟨enqueuePreviewed_advances hsound henqueue,
        fun other hmem => .inl (herase other hmem), .inl rfl⟩
  | schedulePreviewed share localRevisionId manifestHash availableAtMs =>
    have hadvances : s.repository.outline.Advances
        (Sharing.schedulePreviewed s.repository share localRevisionId manifestHash
          availableAtMs).2.outline := schedulePreviewed_advances hsound.2
    simp only [System.proceed]
    split
    · rename_i hresult
      rw [hresult] at hadvances
      exact ⟨hadvances, fun other hmem => .inl (herase other hmem), .inl rfl⟩
    · rename_i hresult
      rw [hresult] at hadvances
      exact ⟨hadvances, fun other hmem => .inl (herase other hmem), .inl rfl⟩
  | _ => exact ⟨.refl _, fun other hmem => .inl (herase other hmem), .inl rfl⟩

theorem System.Follows.projected (hc : s.Coherent) {projection : Option Projection}
    (hstep : s.step (.projected index projection) = some s') : s.Follows s' := by
  have herase : ∀ other ∈ s.tasks.eraseIdx index, other ∈ s.tasks :=
    fun _ hmem => mem_of_mem_eraseIdx hmem
  simp only [System.step] at hstep
  split at hstep
  · cases hstep
  · cases hstep
    exact ⟨.refl _, fun other hmem => .inl (herase other hmem), .inl rfl⟩
  · rename_i task projection htask
    split at hstep
    · cases hstep
      exact ⟨.refl _, fun other hmem => .inl (herase other hmem), .inl rfl⟩
    · rename_i left r hprojected
      cases hstep
      have hsound := hc.tasks task (mem_of_getElem? htask)
      obtain ⟨hadvances, hleft⟩ := projected_advances hsound hprojected
      refine ⟨hadvances, fun other hmem => ?_, .inl rfl⟩
      obtain hold | hnew := mem_append.mp hmem
      · exact .inl (herase other hold)
      · exact .inr (hleft other (by simpa using hnew))

/-- The operation that is taken is a row of the table. -/
theorem nextOperation_mem (h : r.nextOperation now = some operation) :
    operation ∈ r.operations ∧ operation.isRunnable now = true := by
  have hall : ∀ (l : List PublicationOperation) (best : Option PublicationOperation),
      l.foldl earlier best = some operation → best = some operation ∨ operation ∈ l := by
    intro l
    induction l with
    | nil => exact fun best h => .inl h
    | cons first rest ih =>
      intro best h
      obtain hbest | hrest := ih (earlier best first) h
      · cases best with
        | none => exact .inr (mem_cons.mpr (.inl (Option.some.inj hbest).symm))
        | some before =>
          simp only [earlier] at hbest
          split at hbest
          · exact .inr (mem_cons.mpr (.inl (Option.some.inj hbest).symm))
          · exact .inl hbest
      · exact .inr (mem_cons_of_mem first hrest)
  obtain hnone | hmem := hall _ _ h
  · cases hnone
  · exact mem_filter.mp hmem

/-- The coordinator goes on, or takes up an operation. -/
def Event.ofCoordinator : Event → Bool
  | .take _ | .staged .. | .uploaded _ | .activated .. | .activationRefused | .restaged ..
  | .lifecycleDone _ | .failureRecorded _ => true
  | _ => false

variable {event : Event}

/-- The remote turned down or lost what was sent to it. -/
def Event.isFailure : Event → Bool
  | .staged _ none | .uploaded false | .activated _ none | .restaged _ none | .lifecycleDone none => true
  | _ => false

/-- How the coordinator goes on. -/
inductive System.Works (s : System) : Event → Worker × Repository → Prop
  | take {now : ℤ} {operation : PublicationOperation}
    (hnext : s.repository.nextOperation now = some operation) :
    s.Works (.take now) (begin s.repository operation, s.repository)
  | staged {publication : Publication} (hworker : s.worker = .staging publication)
    (remotePublicId : String) (stage : RemoteStage) :
    s.Works (.staged remotePublicId (some stage))
      (staged s.repository publication remotePublicId stage)
  | uploaded {publication : Publication} {stage : RemoteStage} {missing : List String}
    (hworker : s.worker = .uploading publication stage missing) :
    s.Works (.uploaded true) (uploads publication stage missing.tail, s.repository)
  | activated {publication : Publication} {stage : RemoteStage}
    (hworker : s.worker = .activating publication stage) (remotePublicId : String)
    (activation : ActivationResult) :
    s.Works (.activated remotePublicId (some activation))
      (completeStaged s.repository publication remotePublicId
        { stage with activationResult := some activation })
  | activationRefused {publication : Publication} {stage : RemoteStage}
    (hworker : s.worker = .activating publication stage) :
    s.Works .activationRefused (.restaging publication, s.repository)
  | restaged {publication : Publication} (hworker : s.worker = .restaging publication)
    (remotePublicId : String) (stage : RemoteStage) :
    s.Works (.restaged remotePublicId (some stage))
      (restaged s.repository publication remotePublicId stage)
  | lifecycleDone {operation : PublicationOperation} (hworker : s.worker = .lifecycle operation)
    (revision : ℕ) (state : ShareState) :
    s.Works (.lifecycleDone (some (revision, state)))
      (completeLifecycle s.repository operation revision state)
  | failureRecorded {operation : PublicationOperation} (hworker : s.worker = .failing operation)
    (disposition : FailureDisposition) :
    s.Works (.failureRecorded disposition)
      (.idle, recordFailure s.repository operation disposition)
  | failure {event : Event} {operation : PublicationOperation} (hevent : event.isFailure = true)
    (hheld : s.worker.held = some operation) : s.Works event (.failing operation, s.repository)

/-- The coordinator goes on in one of these ways, and the rest of the system stays. -/
theorem System.works_of_step (hstep : s.step event = some s') (hevent : event.ofCoordinator = true) :
    ∃ result, s.Works event result ∧ s' = s.work result := by
  have hfailure : ∀ {publication : Publication}, s.worker.held = some publication.operation →
      event.isFailure = true → s' = { s with worker := .failing publication.operation } →
      ∃ result, s.Works event result ∧ s' = s.work result :=
    fun hheld hfails hs' => ⟨_, .failure hfails hheld, hs'⟩
  cases event with
  | take now =>
    simp only [System.step] at hstep
    split at hstep
    · cases hstep
      exact ⟨_, .take ‹_›, rfl⟩
    · cases hstep
  | staged remotePublicId stage =>
    simp only [System.step] at hstep
    split at hstep <;> cases hstep
    · exact ⟨_, .staged ‹_› _ _, rfl⟩
    · exact hfailure (congrArg Worker.held ‹_›) rfl rfl
  | uploaded done =>
    simp only [System.step] at hstep
    split at hstep <;> cases hstep
    cases done
    · exact hfailure (congrArg Worker.held ‹_›) rfl rfl
    · exact ⟨_, .uploaded ‹_›, rfl⟩
  | activated remotePublicId activation =>
    simp only [System.step] at hstep
    split at hstep <;> cases hstep
    · exact ⟨_, .activated ‹_› _ _, rfl⟩
    · exact hfailure (congrArg Worker.held ‹_›) rfl rfl
  | activationRefused =>
    simp only [System.step] at hstep
    split at hstep <;> cases hstep
    exact ⟨_, .activationRefused ‹_›, rfl⟩
  | restaged remotePublicId stage =>
    simp only [System.step] at hstep
    split at hstep <;> cases hstep
    · exact ⟨_, .restaged ‹_› _ _, rfl⟩
    · exact hfailure (congrArg Worker.held ‹_›) rfl rfl
  | lifecycleDone result =>
    simp only [System.step] at hstep
    split at hstep <;> cases hstep
    · exact ⟨_, .lifecycleDone ‹_› _ _, rfl⟩
    · exact ⟨_, .failure rfl (congrArg Worker.held ‹_›), rfl⟩
  | failureRecorded disposition =>
    simp only [System.step] at hstep
    split at hstep <;> cases hstep
    exact ⟨_, .failureRecorded ‹_› _, rfl⟩
  | _ => cases hevent

theorem System.Follows.coordinator (hc : s.Coherent) (hstep : s.step event = some s')
    (hevent : event.ofCoordinator = true) : s.Follows s' := by
  have hworker := hc.worker
  obtain ⟨result, hworks, rfl⟩ := System.works_of_step hstep hevent
  cases hworks with
  | take hnext => exact .work ⟨rfl, begin_sound (nextOperation_mem hnext).1⟩
  | staged hstaging =>
    rw [hstaging] at hworker
    exact .work (recorded_sound (.inl rfl) hworker)
  | uploaded huploading =>
    rw [huploading] at hworker
    exact .work ⟨rfl, uploads_sound hworker _ _⟩
  | activated hactivating remotePublicId =>
    rw [hactivating] at hworker
    exact .work (completeStaged_sound hworker remotePublicId _)
  | activationRefused hactivating =>
    rw [hactivating] at hworker
    exact .work ⟨rfl, hworker⟩
  | restaged hrestaging =>
    rw [hrestaging] at hworker
    exact .work (recorded_sound (.inr rfl) hworker)
  | lifecycleDone hlifecycle revision state =>
    rw [hlifecycle] at hworker
    exact .work (completeLifecycle_sound hworker.1 revision state)
  | failureRecorded hfailing disposition =>
    exact .work ⟨recordFailure_outline s.repository _ disposition, trivial⟩
  | failure _ hheld => exact .work ⟨rfl, hworker.held hheld⟩

/-- **Every event keeps the outline.** -/
theorem System.Coherent.follows_step (hc : s.Coherent) (hstep : s.step event = some s') :
    s.Follows s' := by
  cases event with
  | createShare mutability syncMode =>
    cases hstep
    exact .commit fun _ h => createShare_advances h
  | configure shareId expectedRevision mutability syncMode remote availableAtMs =>
    simp only [System.step] at hstep
    split at hstep
    · cases hstep
      exact .refl s
    · rename_i r hconfigured
      cases hstep
      exact .schedule (configured_outline hconfigured) shareId availableAtMs
  | resourceSnapshot shareId =>
    cases hstep
    exact .commit fun _ h => .of_eq (resourceSnapshotSaved_outline h)
  | remoteEvent publicId revision state =>
    cases hstep
    refine .of_repository ?_
    obtain h | ⟨id, h⟩ := applyRemoteEvent_eq s.repository publicId revision state
    · exact .of_eq (congrArg Repository.outline h)
    · rw [h]
      exact .of_eq (setShare_outline fun _ => rfl)
  | remoteAnswer shareId revision state =>
    cases hstep
    exact .commit fun _ h => .of_eq (remoteAnswered_outline h)
  | preview shareId =>
    cases hstep
    exact .ask s shareId fun _ => trivial
  | approvePreview shareId manifestHash =>
    cases hstep
    exact .ask s shareId fun _ => trivial
  | enqueuePublish shareId =>
    cases hstep
    exact .ask s shareId fun _ => trivial
  | markRelevantChange shareId availableAtMs =>
    simp only [System.step] at hstep
    split at hstep
    · cases hstep
      exact .refl s
    · rename_i r hmarked
      cases hstep
      exact .schedule (markRelevantChange_outline hmarked) shareId availableAtMs
  | enqueueLifecycle shareId kind now =>
    simp only [System.step] at hstep
    split at hstep
    · rename_i hkind
      cases hstep
      have hne : kind ≠ .publish := by
        rintro rfl
        simp at hkind
      exact .enqueue fun _ _ h => enqueueLifecycle_advances hne h
    · cases hstep
  | projected index projection => exact .projected hc hstep
  | proceed index now =>
    simp only [System.step] at hstep
    split at hstep
    · cases hstep
    · rename_i task htask
      cases hstep
      exact .proceed hc htask now
  | take | staged | uploaded | activated | activationRefused | restaged | lifecycleDone
  | failureRecorded => exact .coordinator hc hstep rfl

/-- **No event makes the system incoherent.** -/
theorem System.Coherent.step (hc : s.Coherent) (hstep : s.step event = some s') : s'.Coherent :=
  hc.follows (hc.follows_step hstep)

theorem System.coherent_start : ({} : System).Coherent where
  rows := ⟨.nil, .nil, nodup_nil, .nil, fun _ h => absurd h not_mem_nil⟩
  tasks _ h := absurd h not_mem_nil
  worker := trivial

/-- **Every run keeps the system coherent**, whatever it leaves out. -/
theorem Reachable.coherent {condition : System → Event → Prop} (h : Reachable condition s) :
    s.Coherent :=
  RunsTo.invariant h (fun _ hs => hs ▸ System.coherent_start) fun _ _ _ hs _ hstep => hs.step hstep

/-! ## Histories -/

/-- Every run keeps the outline of where it starts. -/
theorem System.Coherent.follows_run {events : List Event} (hc : s.Coherent)
    (hrun : s.run events = some s') : s.repository.outline.Advances s'.repository.outline := by
  induction events generalizing s with
  | nil =>
    obtain rfl := Option.some.inj hrun
    exact .refl _
  | cons event events ih =>
    obtain ⟨mid, hstep, hrest⟩ := Option.bind_eq_some_iff.mp hrun
    exact (hc.follows_step hstep).rows.trans (ih (hc.step hstep) hrest)

/-- **The sharing history is only added to.** Whatever happens after a run, its local
revisions and the requests of its operations stay what they are and in their order,
and no share gets two revisions of one manifest. -/
theorem System.run_history (events later : List Event)
    (hrun : ({} : System).run events = some s) (hlater : s.run later = some s') :
    s.repository.revisions <+: s'.repository.revisions ∧
      s.repository.operations.map (·.request) <+: s'.repository.operations.map (·.request) ∧
      (s'.repository.revisions.map fun revision =>
        (revision.shareId, revision.manifestHash)).Nodup := by
  have hc : s.Coherent := (reachable_run hrun).coherent
  have hadvances := hc.follows_run hlater
  exact ⟨hadvances.revisions, hadvances.requests, (hadvances.coherent hc.rows).manifests⟩

/-- A share is published again with another manifest. -/
theorem System.run_history_published : ∃ s s' : System,
    s.repository.revisions.map (·.manifestHash) = ["A"] ∧
      s'.repository.revisions.map (·.manifestHash) = ["A", "B"] ∧
      s.repository.revisions <+: s'.repository.revisions := by
  let publish (manifestHash : String) : List Event :=
    [.approvePreview 1 manifestHash, .projected 0 (some ⟨manifestHash, "{}"⟩), .enqueuePublish 1,
      .projected 0 (some ⟨manifestHash, "{}"⟩), .proceed 0 0]
  exact ⟨_, _, rfl, rfl,
    (System.run_history (.createShare .replaceable .manual :: publish "A") (publish "B") rfl rfl).1⟩

end HomelabInventory.Sharing
