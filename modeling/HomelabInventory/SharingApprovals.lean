import HomelabInventory.SharingInvariants

/-!
# Approvals

What is still to be published may be shown: its content was approved, or the
share follows the project by itself. A statement on the tables keeps this, and
keeps the operations that were cancelled as they are, unless it withdraws an
approval or enqueues an operation; for those the conditions are stated.
-/

namespace HomelabInventory.Sharing

open Repository List

/-! ## Approvals -/

/-- The share may show this content: it was approved, or the share follows the project. -/
def ShareRecord.Allows (share : ShareRecord) (manifestHash : String) : Prop :=
  share.approvedPreviewHash = some manifestHash ∨ share.isSynchronized = true

instance (share : ShareRecord) (manifestHash : String) : Decidable (share.Allows manifestHash) :=
  inferInstanceAs (Decidable (_ ∨ _))

/-- The content that a publication shows: its key was formed after it. -/
def PublicationOperation.manifestHash (operation : PublicationOperation) : String :=
  operation.idempotencyKey.subject

/-- The operation is still to be worked on. -/
def PublicationOperation.isLive (operation : PublicationOperation) : Bool :=
  operation.state = .queued ∨ operation.state = .running ∨ operation.state = .retrying

/-- The operation is still to be published. -/
def PublicationOperation.isLivePublish (operation : PublicationOperation) : Bool :=
  operation.kind = .publish ∧ operation.isLive

/-- The share of this id may show this content. -/
def Repository.Allows (r : Repository) (shareId : ℕ) (manifestHash : String) : Prop :=
  ∃ share ∈ r.shares, share.id = shareId ∧ share.Allows manifestHash

/-- Whatever is still to be published may be shown. -/
def Repository.Approved (r : Repository) : Prop :=
  ∀ operation ∈ r.operations, operation.isLivePublish = true →
    r.Allows operation.shareId operation.manifestHash

/-- The operations that are noted as cancelled are so. -/
def Repository.Withdrawn (withdrawn : List ℕ) (r : Repository) : Prop :=
  ∀ row ∈ r.operations, row.id ∈ withdrawn → row.state = .cancelled

/-- The row of an operation that the coordinator holds was not cancelled. -/
def Repository.Holds (r : Repository) (operation : PublicationOperation) : Prop :=
  ∀ row ∈ r.operations, row.id = operation.id →
    row.state ≠ .cancelled ∧ (row.kind = .publish → row.isLive = true)

/-- **What holds as long as nothing is withdrawn from under an operation.** -/
structure System.Sound (s : System) : Prop where
  approved : s.repository.Approved
  withdrawn : s.repository.Withdrawn s.withdrawn
  held : ∀ operation, s.worker.held = some operation → s.repository.Holds operation

/-- Nothing of the share is still to be published. -/
def Repository.NothingLive (r : Repository) (shareId : ℕ) : Prop :=
  ∀ operation ∈ r.operations, operation.isLivePublish = true → operation.shareId ≠ shareId

/-! ## Rows of an id -/

variable {r r' r'' : Repository}
variable {id revision shareId : ℕ}
variable {share : ShareRecord}

theorem getShare_eq_some (h : r.getShare id = some share) : share ∈ r.shares ∧ share.id = id :=
  ⟨mem_of_find?_eq_some h, by simpa using find?_some h⟩

/-- The share of an id is the one that `getShare` finds. -/
theorem getShare_of_mem (hc : r.outline.Coherent) (h : share ∈ r.shares) :
    r.getShare share.id = some share := by
  have hsome : (r.getShare share.id).isSome := by
    rw [getShare, find?_isSome]
    exact ⟨share, h, by simp⟩
  obtain ⟨found, hfound⟩ := Option.isSome_iff_exists.mp hsome
  obtain ⟨hmem, hid⟩ := getShare_eq_some hfound
  rw [hfound, eq_of_key_eq hc.shareIds.nodup hmem h hid]

variable {a b operation : PublicationOperation}

/-- The row of an id is the only one. -/
theorem operation_eq_of_id (hc : r.outline.Coherent) (ha : a ∈ r.operations) (hb : b ∈ r.operations)
    (h : a.id = b.id) : a = b := by
  have hids : (r.operations.map (·.id)).Nodup := by
    have hrequests := hc.operationIds.nodup
    rwa [Repository.outline, map_map] at hrequests
  exact eq_of_key_eq hids ha hb h

theorem manifestHash_of_request (h : a.request = b.request) :
    a.shareId = b.shareId ∧ a.manifestHash = b.manifestHash ∧ a.kind = b.kind ∧ a.id = b.id := by
  simp only [PublicationOperation.request, OperationRequest.mk.injEq] at h
  obtain ⟨hid, hshare, -, hkey, hkind, -⟩ := h
  exact ⟨hshare, congrArg IdempotencyKey.subject hkey, hkind, hid⟩

variable {manifestHash : String}

/-- A change of a share that keeps what it may show. -/
theorem Repository.Allows.setShare
    {f : ShareRecord → ShareRecord} (h : r.Allows shareId manifestHash)
    (hid : ∀ share, (f share).id = share.id)
    (hf : ∀ share ∈ r.shares, share.id = id → id = shareId → share.Allows manifestHash →
      (f share).Allows manifestHash) :
    (r.setShare id f).Allows shareId manifestHash := by
  obtain ⟨share, hmem, hshare, hallows⟩ := h
  refine ⟨if share.id = id then f share else share, ?_, ?_, ?_⟩
  · exact mem_updateWhere.mpr ⟨share, hmem, by simp⟩
  · split <;> simp [hid, hshare]
  · split
    · rename_i hthis
      exact hf share hmem hthis (hthis.symm.trans hshare) hallows
    · exact hallows

variable {f : PublicationOperation → PublicationOperation}

theorem mem_setOperation {row : PublicationOperation} :
    row ∈ (r.setOperation id f).operations ↔
      ∃ before ∈ r.operations, (if before.id = id then f before else before) = row := by
  simp [setOperation, mem_updateWhere]

/-! ## What a statement keeps -/

/-- A statement that leaves approvals, and the rows that were cancelled, as they are. -/
structure Repository.Keeps (r r' : Repository) : Prop where
  approved : r.Approved → r'.Approved
  withdrawn : ∀ withdrawn, r.Withdrawn withdrawn → r'.Withdrawn withdrawn
  cancelled : ∀ operation ∈ r.operations, operation.state = .cancelled →
    operation ∈ r'.operations

theorem Repository.Keeps.refl (r : Repository) : r.Keeps r :=
  ⟨fun h => h, fun _ h => h, fun _ h _ => h⟩

theorem Repository.Keeps.trans (h : r.Keeps r') (h' : r'.Keeps r'') : r.Keeps r'' where
  approved happroved := h'.approved (h.approved happroved)
  withdrawn w hw := h'.withdrawn w (h.withdrawn w hw)
  cancelled operation hmem hstate := h'.cancelled operation (h.cancelled operation hmem hstate) hstate

/-- A change of shares alone. -/
theorem Repository.Keeps.of_shares (hoperations : r'.operations = r.operations)
    (h : ∀ operation ∈ r.operations, operation.isLivePublish = true →
      r.Allows operation.shareId operation.manifestHash →
      r'.Allows operation.shareId operation.manifestHash) : r.Keeps r' where
  approved happroved operation hmem hlive := by
    rw [hoperations] at hmem
    exact h operation hmem hlive (happroved operation hmem hlive)
  withdrawn w hw := by
    intro row hrow
    rw [hoperations] at hrow
    exact hw row hrow
  cancelled operation hmem _ := hoperations ▸ hmem

/-- A change of a share that keeps its approval. -/
theorem Repository.Keeps.setShare {f : ShareRecord → ShareRecord}
    (hid : ∀ share, (f share).id = share.id)
    (hf : ∀ share manifestHash, share.Allows manifestHash → (f share).Allows manifestHash) :
    r.Keeps (r.setShare id f) :=
  .of_shares rfl fun _ _ _ h => h.setShare hid fun share _ _ _ => hf share _

variable {patch : SharePatch}

/-- A patch that says nothing of the approval keeps it. -/
theorem ShareRecord.Allows.patched (h : share.Allows manifestHash)
    (hpatch : patch.approvedPreviewHash = none) : (share.patched patch).Allows manifestHash := by
  simpa [ShareRecord.Allows, ShareRecord.patched, ShareRecord.isSynchronized, hpatch] using h

theorem Repository.Keeps.updateShare (h : r.updateShare id revision patch = .ok r')
    (hpatch : patch.approvedPreviewHash = none) : r.Keeps r' := by
  obtain ⟨_, -, -, rfl⟩ := updateShare_eq_ok h
  exact .setShare (fun _ => rfl) fun _ _ hallows => hallows.patched hpatch

theorem ShareRecord.Allows.advance (h : share.Allows manifestHash) (input : CompletionInput) :
    (share.advance input).Allows manifestHash := by
  simp only [ShareRecord.advance]
  split
  · exact h
  · split <;> exact h

/-- A change of the row that the coordinator holds. -/
theorem Repository.Keeps.setOperation (hholds : r.Holds operation)
    (hf : ∀ row, (f row).request = row.request) : r.Keeps (r.setOperation operation.id f) where
  approved happroved row hrow hlive := by
    obtain ⟨before, hbefore, rfl⟩ := mem_setOperation.mp hrow
    split at hlive
    · -- the row was still to be published, so it may be shown
      rename_i hid
      obtain ⟨hshare, hmanifest, hkind, -⟩ := manifestHash_of_request (hf before)
      rw [if_pos hid, hshare, hmanifest]
      simp only [PublicationOperation.isLivePublish, decide_eq_true_eq] at hlive
      have hpublish := hkind.symm.trans hlive.1
      refine happroved before hbefore ?_
      simpa [PublicationOperation.isLivePublish, hpublish] using
        (hholds before hbefore hid).2 hpublish
    · rename_i hid
      rw [if_neg hid]
      exact happroved before hbefore hlive
  withdrawn w hw row hrow hmem := by
    obtain ⟨before, hbefore, rfl⟩ := mem_setOperation.mp hrow
    split at hmem
    · -- the row is not among those that were cancelled
      rename_i hid
      rw [(manifestHash_of_request (hf before)).2.2.2] at hmem
      exact absurd (hw before hbefore hmem) (hholds before hbefore hid).1
    · rename_i hid
      rw [if_neg hid]
      exact hw before hbefore hmem
  cancelled row hrow hstate := by
    refine mem_setOperation.mpr ⟨row, hrow, if_neg fun hid => ?_⟩
    exact (hholds row hrow hid).1 hstate

/-- What the coordinator holds after a change of its row. -/
theorem Repository.Holds.of_setOperation
    (hstate : ∀ row ∈ r.operations, row.id = operation.id →
      (f row).state ≠ .cancelled ∧ ((f row).kind = .publish → (f row).isLive = true)) :
    (r.setOperation operation.id f).Holds operation := by
  intro row hrow hid
  obtain ⟨before, hbefore, rfl⟩ := mem_setOperation.mp hrow
  split at hid
  · rename_i hthis
    rw [if_pos hthis]
    exact hstate before hbefore hthis
  · rename_i hother
    exact absurd hid hother

/-- A change of shares alone keeps what the coordinator holds. -/
theorem Repository.Holds.of_operations (h : r.Holds operation)
    (hoperations : r'.operations = r.operations) : r'.Holds operation := by
  intro row hrow
  rw [hoperations] at hrow
  exact h row hrow

/-! ## The coordinator -/

/-- What the coordinator does keeps the approvals, and it goes on with a row that was not
cancelled. -/
structure Continues (r : Repository) (result : Worker × Repository) : Prop where
  keeps : r.Keeps result.2
  held : ∀ operation, result.1.held = some operation → result.2.Holds operation

theorem Continues.failing (h : r.Holds operation) : Continues r (.failing operation, r) where
  keeps := .refl r
  held _ hheld := Option.some.inj hheld ▸ h

theorem Continues.trans {result : Worker × Repository} (h : r.Keeps r') (h' : Continues r' result) :
    Continues r result :=
  ⟨h.trans h'.keeps, h'.held⟩

theorem completePublication_keeps (h : r.Holds operation) {input : CompletionInput}
    (hid : input.operationId = operation.id) (hcompleted : r.completePublication input = .ok r') :
    r.Keeps r' := by
  obtain rfl | rfl := completePublication_eq_ok hcompleted
  · exact .refl r'
  · -- first the share advances, then the operation has succeeded
    have hshare : r.Keeps (r.setShare input.shareId fun share => share.advance input) :=
      .setShare (fun share => share.advance_id input) fun _ _ hallows => hallows.advance input
    have hholds : (r.setShare input.shareId fun share => share.advance input).Holds operation :=
      h.of_operations rfl
    rw [hid]
    exact hshare.trans (.setOperation hholds fun _ => rfl)

variable {publication : Publication}

theorem completeStaged_continues (h : r.Holds publication.operation) (remotePublicId : String)
    (stage : RemoteStage) : Continues r (completeStaged r publication remotePublicId stage) := by
  simp only [completeStaged]
  split
  · split
    · exact .failing h
    · split
      · rename_i r' hcompleted
        exact ⟨completePublication_keeps h rfl hcompleted, fun _ hheld => by cases hheld⟩
      · exact .failing h
  · exact .failing h

/-- The stage that the remote reports makes the operation run, unless it has succeeded. -/
theorem recordRemoteStage_keeps (h : r.Holds operation) {stage : RemoteStage}
    (hrecorded : r.recordRemoteStage operation.id stage = .ok r') :
    r.Keeps r' ∧ r'.Holds operation := by
  obtain ⟨_, -, ⟨-, -, rfl⟩ | ⟨-, rfl⟩⟩ := recordRemoteStage_eq_ok hrecorded
  · exact ⟨.refl r', h⟩
  · refine ⟨.setOperation h fun _ => rfl, .of_setOperation fun row _ _ => ?_⟩
    simp [PublicationOperation.staged, PublicationOperation.isLive]

theorem uploads_held (publication : Publication) (stage : RemoteStage) (missing : List String) :
    (uploads publication stage missing).held = some publication.operation := by
  rw [uploads]
  split <;> rfl

theorem recorded_continues {remotePublicId : String} {stage : RemoteStage}
    {next : Worker × Repository}
    (hnext : next = staged r publication remotePublicId stage ∨
      next = restaged r publication remotePublicId stage)
    (h : r.Holds publication.operation) : Continues r next := by
  obtain rfl | ⟨r', hrecorded, hnext⟩ := recorded_cases hnext
  · exact .failing h
  · obtain ⟨hkeeps, hholds⟩ := recordRemoteStage_keeps h hrecorded
    refine .trans hkeeps ?_
    obtain ⟨-, rfl⟩ | ⟨-, rfl | rfl⟩ := hnext
    · exact completeStaged_continues hholds remotePublicId stage
    · exact .failing hholds
    · refine ⟨.refl r', fun operation hheld => ?_⟩
      rw [uploads_held] at hheld
      exact Option.some.inj hheld ▸ hholds

theorem recordFailure_keeps (h : r.Holds operation) (disposition : FailureDisposition) :
    r.Keeps (recordFailure r operation disposition) := by
  obtain hsame | ⟨r', hupdate, hshare⟩ := recordFailure_eq r operation disposition
  · rw [hsame]
    exact .refl r
  · have hfirst : r.Keeps r' := by
      rw [updateOperation_eq_ok hupdate]
      exact .setOperation h fun _ => rfl
    obtain hsame | ⟨_, _, hshare⟩ := hshare
    · exact hsame ▸ hfirst
    · exact hfirst.trans (.updateShare hshare rfl)

/-- A lifecycle operation, which is no publication. -/
theorem completeLifecycle_continues (hc : r.outline.Coherent)
    (hrequest : operation.request ∈ r.outline.requests) (hkind : operation.kind ≠ .publish)
    (h : r.Holds operation) (revision : ℕ) (state : ShareState) :
    Continues r (completeLifecycle r operation revision state) := by
  simp only [completeLifecycle]
  split
  · exact .failing h
  · rename_i r' hupdate
    have hrow : ∀ row ∈ r.operations, row.id = operation.id → row.kind ≠ .publish := by
      intro row hrow hid
      obtain ⟨stored, hstored, hsame⟩ := mem_map.mp hrequest
      obtain ⟨-, -, hkind', hid'⟩ := manifestHash_of_request hsame
      rw [operation_eq_of_id hc hrow hstored (hid.trans hid'.symm), hkind']
      exact hkind
    obtain rfl := updateOperation_eq_ok hupdate
    have hkeeps : r.Keeps _ := .setOperation h (f := fun row =>
      row.patched { state := .succeeded, lastErrorCode := some none }) fun _ => rfl
    refine .trans hkeeps ?_
    have hholds : (r.setOperation operation.id fun row =>
        row.patched { state := .succeeded, lastErrorCode := some none }).Holds operation := by
      refine .of_setOperation fun row hmem hid => ?_
      exact ⟨by simp [PublicationOperation.patched], fun h => absurd h (hrow row hmem hid)⟩
    split
    · exact .failing hholds
    · split
      · exact .failing hholds
      · rename_i r'' hshare
        exact ⟨.updateShare hshare rfl, fun _ hheld => by cases hheld⟩

/-! ## Enqueueing and cancelling -/

/-- What an operation that is enqueued changes: of the rows that were cancelled, its own at
most. -/
structure Enqueues (r r' : Repository) (id : ℕ) : Prop where
  approved : r.Approved → r'.Approved
  withdrawn : ∀ withdrawn, r.Withdrawn withdrawn →
    r'.Withdrawn (withdrawn.filter fun other => other ≠ id)
  held : ∀ operation, operation.request ∈ r.outline.requests → r.Holds operation →
    r'.Holds operation
  cancelled : ∀ operation ∈ r.operations, operation.state = .cancelled →
    operation ∈ r'.operations ∨ ∃ availableAtMs, operation.requeued availableAtMs ∈ r'.operations

/-- The stored operation is made live again. -/
theorem Enqueues.of_setOperation (hc : r.outline.Coherent)
    {existing : PublicationOperation} (hexisting : existing ∈ r.operations)
    (hf : ∀ row, (f row).request = row.request)
    (hallows : existing.kind = .publish → r.Allows existing.shareId existing.manifestHash)
    (hlive : ∀ row, (f row).isLive = true)
    (hcancelled : existing.state = .cancelled → ∃ availableAtMs,
      f existing = existing.requeued availableAtMs) :
    Enqueues r (r.setOperation existing.id f) existing.id where
  approved happroved row hrow hpublish := by
    obtain ⟨before, hbefore, rfl⟩ := mem_setOperation.mp hrow
    split at hpublish
    · rename_i hid
      obtain rfl := operation_eq_of_id hc hbefore hexisting hid
      obtain ⟨hshare, hmanifest, hkind, -⟩ := manifestHash_of_request (hf before)
      simp only [PublicationOperation.isLivePublish, decide_eq_true_eq] at hpublish
      rw [if_pos hid, hshare, hmanifest]
      exact hallows (hkind.symm.trans hpublish.1)
    · rename_i hid
      rw [if_neg hid]
      exact happroved before hbefore hpublish
  withdrawn w hw row hrow hmem := by
    obtain ⟨before, hbefore, rfl⟩ := mem_setOperation.mp hrow
    obtain ⟨hmem, hne⟩ := mem_filter.mp hmem
    split at hmem
    · -- the id is no longer among those that were cancelled
      rename_i hid
      rw [if_pos hid, (manifestHash_of_request (hf before)).2.2.2] at hne
      simp [hid] at hne
    · rename_i hid
      rw [if_neg hid]
      exact hw before hbefore hmem
  held operation _ hholds row hrow hid := by
    obtain ⟨before, hbefore, rfl⟩ := mem_setOperation.mp hrow
    split at hid
    · rename_i hthis
      rw [if_pos hthis]
      refine ⟨fun hstate => ?_, fun _ => hlive before⟩
      have := hlive before
      simp [PublicationOperation.isLive, hstate] at this
    · rename_i hthis
      rw [if_neg hthis]
      exact hholds before hbefore hid
  cancelled operation hmem hstate := by
    by_cases hid : operation.id = existing.id
    · obtain rfl := operation_eq_of_id hc hmem hexisting hid
      obtain ⟨availableAtMs, hrequeued⟩ := hcancelled hstate
      refine .inr ⟨availableAtMs, mem_setOperation.mpr ⟨operation, hmem, ?_⟩⟩
      rw [if_pos rfl, hrequeued]
    · exact .inl (mem_setOperation.mpr ⟨operation, hmem, if_neg hid⟩)

theorem enqueueOperation_enqueues (hc : r.outline.Coherent) {input : EnqueueInput}
    (h : r.enqueueOperation input = .ok (id, r'))
    (hallows : input.kind = .publish → r.Allows input.shareId input.idempotencyKey.subject) :
    Enqueues r r' id := by
  obtain ⟨existing, hkeyed, rfl, hmatches, hcases⟩ | ⟨-, rfl, -, rfl⟩ := enqueueOperation_eq_ok h
  · have hmem := mem_of_find?_eq_some hkeyed
    have hkey : existing.idempotencyKey = input.idempotencyKey := by
      simpa using find?_some hkeyed
    have hallows' : existing.kind = .publish →
        r.Allows existing.shareId existing.manifestHash := by
      intro hkind
      rw [PublicationOperation.manifestHash, hkey, hmatches.1]
      exact hallows (hmatches.2.2.1.symm.trans hkind)
    obtain ⟨-, rfl⟩ | ⟨hfailed, -, rfl⟩ | ⟨-, rfl⟩ := hcases
    · exact .of_setOperation hc hmem (fun _ => rfl) hallows' (fun _ => rfl) fun _ => ⟨_, rfl⟩
    · refine .of_setOperation hc hmem (fun _ => rfl) hallows' (fun _ => rfl) fun hcancelled => ?_
      rw [hfailed] at hcancelled
      cases hcancelled
    · refine ⟨fun h => h, fun w hw row hrow hid => ?_, fun _ _ h => h, fun _ h _ => .inl h⟩
      exact hw row hrow (mem_of_mem_filter hid)
  · -- the new operation has an id of its own
    have hfresh : ∀ operation ∈ r.operations, operation.id ≠ r.nextOperationId := by
      intro operation hmem hid
      have hlt := hc.operationIds.lt operation.id (mem_map.mpr ⟨_, mem_requests hmem, rfl⟩)
      exact Nat.lt_irrefl _ (hid ▸ hlt)
    refine ⟨?_, ?_, ?_, fun _ hmem _ => .inl (mem_append_left _ hmem)⟩
    · intro happroved row hrow hpublish
      obtain hold | hnew := mem_append.mp hrow
      · exact happroved row hold hpublish
      · obtain rfl := mem_singleton.mp hnew
        simp only [PublicationOperation.isLivePublish, decide_eq_true_eq] at hpublish
        exact hallows hpublish.1
    · intro w hw row hrow hid
      obtain hold | hnew := mem_append.mp hrow
      · exact hw row hold (mem_of_mem_filter hid)
      · obtain rfl := mem_singleton.mp hnew
        simp [EnqueueInput.operation] at hid
    · intro operation hrequest hholds row hrow hid
      obtain hold | hnew := mem_append.mp hrow
      · exact hholds row hold hid
      · obtain rfl := mem_singleton.mp hnew
        obtain ⟨stored, hstored, hsame⟩ := mem_map.mp hrequest
        exact absurd ((manifestHash_of_request hsame).2.2.2.trans hid.symm) (hfresh stored hstored)

/-- What cancelling the publications of a share that wait changes. -/
theorem cancelPendingOperations_sound (hc : r.outline.Coherent) (shareId : ℕ) :
    (r.Approved → (r.cancelPendingOperations shareId .publish).Approved) ∧
    (∀ withdrawn, r.Withdrawn withdrawn → (r.cancelPendingOperations shareId .publish).Withdrawn
      (withdrawn ++ System.pendingIds r shareId)) ∧
    (∀ operation, r.Holds operation →
      (∀ row ∈ r.operations, row.id = operation.id → row.isPending shareId .publish = false) →
      (r.cancelPendingOperations shareId .publish).Holds operation) ∧
    ∀ operation ∈ r.operations, operation.state = .cancelled →
      operation ∈ (r.cancelPendingOperations shareId .publish).operations := by
  have hmem : ∀ {row : PublicationOperation},
      row ∈ (r.cancelPendingOperations shareId .publish).operations ↔ ∃ before ∈ r.operations,
        (if before.isPending shareId .publish then before.cancelled else before) = row := by
    intro row
    simp [cancelPendingOperations, mem_updateWhere]
  refine ⟨?_, ?_, ?_, ?_⟩
  · intro happroved row hrow hpublish
    obtain ⟨before, hbefore, rfl⟩ := hmem.mp hrow
    split at hpublish
    · simp [PublicationOperation.isLivePublish, PublicationOperation.isLive,
        PublicationOperation.cancelled] at hpublish
    · rename_i hpending
      rw [if_neg hpending]
      exact happroved before hbefore hpublish
  · intro w hw row hrow hid
    obtain ⟨before, hbefore, rfl⟩ := hmem.mp hrow
    split at hid
    · rename_i hpending
      rw [if_pos hpending]
      rfl
    · rename_i hpending
      rw [if_neg hpending]
      obtain hold | hnew := mem_append.mp hid
      · exact hw before hbefore hold
      · -- an id that waits is that of a row that waits
        obtain ⟨other, hother, hsame⟩ := mem_map.mp hnew
        obtain ⟨hother, hwaits⟩ := mem_filter.mp hother
        rw [operation_eq_of_id hc hother hbefore hsame] at hwaits
        exact absurd hwaits hpending
  · intro operation hholds hnot row hrow hid
    obtain ⟨before, hbefore, rfl⟩ := hmem.mp hrow
    split at hid
    · rename_i hpending
      have := hnot before hbefore hid
      rw [hpending] at this
      cases this
    · rename_i hpending
      rw [if_neg hpending]
      exact hholds before hbefore hid
  · intro operation hoperation hstate
    refine hmem.mpr ⟨operation, hoperation, if_neg ?_⟩
    simp [PublicationOperation.isPending, hstate]

/-- The enqueueing is followed by a change of the share. -/
theorem Enqueues.trans (h : Enqueues r r' id) (hkeeps : r'.Keeps r'')
    (hoperations : r''.operations = r'.operations) :
    Enqueues r r'' id where
  approved happroved := hkeeps.approved (h.approved happroved)
  withdrawn w hw := hkeeps.withdrawn _ (h.withdrawn w hw)
  held operation hrequest hholds := (h.held operation hrequest hholds).of_operations hoperations
  cancelled operation hmem hstate := by
    rw [hoperations]
    exact h.cancelled operation hmem hstate

theorem updateShare_operations (h : r.updateShare id revision patch = .ok r') :
    r'.operations = r.operations := by
  obtain ⟨_, -, -, rfl⟩ := updateShare_eq_ok h
  rfl

theorem enqueuePreviewed_enqueues (hc : r.outline.Coherent) {shareId localRevisionId id : ℕ}
    {now : ℤ} (h : enqueuePreviewed r shareId localRevisionId manifestHash now = .ok (id, r')) :
    Enqueues r r' id := by
  obtain ⟨current, r₁, hcurrent, happroved, henqueue, hupdate⟩ := enqueuePreviewed_eq_ok h
  obtain ⟨hmem, hid⟩ := getShare_eq_some hcurrent
  refine (enqueueOperation_enqueues hc henqueue fun _ => ?_).trans (.updateShare hupdate rfl)
    (updateShare_operations hupdate)
  exact ⟨current, hmem, hid, .inl happroved⟩

/-! ## Withdrawing an approval -/

/-- A change of a share is sound when what is still to be published of it may still be shown. -/
theorem Repository.Approved.setShare (h : r.Approved)
    {f : ShareRecord → ShareRecord} (hid : ∀ share, (f share).id = share.id)
    (hf : ∀ share ∈ r.shares, share.id = id → ∀ operation ∈ r.operations,
      operation.isLivePublish = true → operation.shareId = id →
      share.Allows operation.manifestHash → (f share).Allows operation.manifestHash) :
    (r.setShare id f).Approved := by
  intro operation hmem hlive
  refine (h operation hmem hlive).setShare hid fun share hshare hthis hof hallows => ?_
  exact hf share hshare hthis operation hmem hlive hof.symm hallows

theorem configured_approved (happroved : r.Approved)
    {shareId expectedRevision : ℕ} {mutability : Mutability} {syncMode : SyncMode}
    {remote : Option (ℕ × ShareState)}
    (hcond : ∀ share, r.getShare shareId = some share → share.localRevision = expectedRevision →
      mutability = .replaceable ∧ syncMode = .synchronized ∨ r.NothingLive shareId)
    (h : System.configured r shareId expectedRevision mutability syncMode remote = .ok r') :
    r'.Approved ∧ r'.operations = r.operations := by
  obtain ⟨r₁, hconfigure, h⟩ := bind_eq_ok.mp h
  obtain ⟨current, nextState, hcurrent, hrevision, rfl⟩ := updateShareConfiguration_eq_ok hconfigure
  have hfirst : (r.setShare shareId fun share =>
      share.configured mutability syncMode nextState).Approved := by
    refine happroved.setShare (fun _ => rfl) fun share _ _ operation hmem hlive hof _ => ?_
    obtain ⟨rfl, rfl⟩ | hnothing := hcond current hcurrent hrevision
    · exact .inr rfl
    · exact absurd hof (hnothing operation hmem hlive)
  split at h
  · exact ⟨(Repository.Keeps.updateShare h rfl).approved hfirst,
      (updateShare_operations h).trans rfl⟩
  · obtain rfl := pure_eq_ok.mp h
    exact ⟨hfirst, rfl⟩

theorem resourceSnapshotSaved_approved (hc : r.outline.Coherent) (happroved : r.Approved)
    (hcond : ∀ share, r.getShare shareId = some share →
      share.isSynchronized = true ∨ r.NothingLive shareId)
    (h : resourceSnapshotSaved r shareId = .ok r') :
    r'.Approved ∧ r'.operations = r.operations := by
  simp only [resourceSnapshotSaved] at h
  split at h
  · cases h
  · obtain ⟨_, -, -, rfl⟩ := updateShare_eq_ok h
    refine ⟨?_, rfl⟩
    refine happroved.setShare (fun _ => rfl) fun share hshare hid operation hmem hlive hof _ => ?_
    have hfound := getShare_of_mem hc hshare
    rw [hid] at hfound
    obtain hsync | hnothing := hcond share hfound
    · exact .inr hsync
    · exact absurd hof (hnothing operation hmem hlive)

theorem approved_approved (hc : r.outline.Coherent) (happroved : r.Approved)
    {shareId localRevision : ℕ}
    (hcond : ∀ share, r.getShare shareId = some share → share.localRevision = localRevision →
      share.isSynchronized = true ∨ ∀ operation ∈ r.operations, operation.isLivePublish = true →
        operation.shareId = shareId → operation.manifestHash = manifestHash)
    (h : r.updateShare shareId localRevision
      { state := some .previewReady, approvedPreviewHash := some (some manifestHash) } = .ok r') :
    r'.Approved ∧ r'.operations = r.operations := by
  obtain ⟨current, hcurrent, hrevision, rfl⟩ := updateShare_eq_ok h
  refine ⟨?_, rfl⟩
  refine happroved.setShare (fun _ => rfl) fun share hshare hid operation hmem hlive hof _ => ?_
  have hfound := getShare_of_mem hc hshare
  rw [hid, hcurrent] at hfound
  obtain rfl := Option.some.inj hfound
  obtain hsync | hsame := hcond current hcurrent hrevision
  · exact .inr hsync
  · rw [hsame operation hmem hlive hof]
    exact .inl rfl

end HomelabInventory.Sharing
