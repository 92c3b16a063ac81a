import HomelabInventory.ApprovedPublication

/-!
# Publishing again

The content of a share is published under a key that is formed after the share
and the content alone, so the operations of all its publications meet in one
row. What becomes of a request for the current content is decided by that row.
-/

namespace HomelabInventory.Sharing

open Repository

/-! ## The requests as a whole -/

/-- `enqueuePublish`, with no other request in between. -/
def enqueuePublish (r : Repository) (shareId : ℕ) (projection : Projection) (now : ℤ) :
    Except Failure (ℕ × Repository) :=
  match r.getShare shareId with
  | none => .error .shareMissing
  | some share => do
    let (revisionId, r) ← r.persistRevision share.id share.localRevision projection
    enqueuePreviewed r share.id revisionId projection.manifestHash now

/-- `scheduleCurrentState`, with no other request in between. -/
def scheduleCurrentState (r : Repository) (shareId : ℕ) (projection : Projection)
    (availableAtMs : ℤ) : Except Failure (Option ℕ) × Repository :=
  match startSchedule r shareId with
  | none => (.ok none, r)
  | some share =>
    match r.persistRevision share.id share.localRevision projection with
    | .error failure => (.error failure, r)
    | .ok (revisionId, r) =>
      schedulePreviewed r share revisionId projection.manifestHash availableAtMs

/-! ## What a request may be refused for -/

/-- The failures that come from an earlier publication. -/
def Failure.ofEarlierPublication : Failure → Bool
  | .immutableRequestMismatch | .failureNotEligible | .reconciliationRequired => true
  | _ => false

/-- A publication of the content for this remote revision is still to be worked on. -/
def Repository.Publishes (r : Repository) (shareId : ℕ) (manifestHash : String)
    (remoteRevision : Option ℕ) : Prop :=
  ∃ operation ∈ r.operations, operation.kind = .publish ∧ operation.shareId = shareId ∧
    (∃ id, operation.localRevisionId = some id ∧ Stored r.revisions id shareId manifestHash) ∧
    operation.expectedRemoteRevision = remoteRevision ∧ operation.isLive = true

/-- **Current content can be published.** No earlier publication keeps approved content from
being enqueued, or the current state of a share that follows the project from being scheduled;
and what is scheduled is active, or still to be published. -/
structure CanPublish (r : Repository) (share : ShareRecord) (projection : Projection)
    (now availableAtMs : ℤ) : Prop where
  publish : share.approvedPreviewHash = some projection.manifestHash →
    ∀ failure, enqueuePublish r share.id projection now = .error failure →
      failure.ofEarlierPublication = false
  schedule : startSchedule r share.id = some share →
    (∀ failure, (scheduleCurrentState r share.id projection availableAtMs).1 = .error failure →
      failure.ofEarlierPublication = false) ∧
    ∀ result r', scheduleCurrentState r share.id projection availableAtMs = (.ok result, r') →
      (r'.getShare share.id).bind (·.activeManifestHash) = some projection.manifestHash ∨
      r'.Publishes share.id projection.manifestHash share.remoteRevision

/-! ## The row that decides -/

variable {r : Repository}
variable {id revision revisionId shareId : ℕ}
variable {share : ShareRecord}

theorem startSchedule_eq_some (h : startSchedule r shareId = some share) :
    r.getShare shareId = some share ∧ share.remoteRevision ≠ none := by
  obtain ⟨hshare, hcond⟩ := Option.filter_eq_some_iff.mp h
  exact ⟨hshare, (of_decide_eq_true hcond).2.1⟩

variable {failure : Failure}
variable {projection : Projection}

/-- A projection that cannot be stored was not refused for an earlier publication. -/
theorem persistRevision_eq_error
    (h : r.persistRevision shareId revision projection = .error failure) :
    failure.ofEarlierPublication = false := by
  simp only [persistRevision] at h
  split at h
  · obtain h | ⟨_, -, h⟩ := bind_eq_error.mp h
    · obtain ⟨-, rfl⟩ := failIf_eq_error.mp h
      rfl
    · cases h
  · obtain h | ⟨_, -, h⟩ := bind_eq_error.mp h
    · obtain ⟨-, rfl⟩ := failIf_eq_error.mp h
      rfl
    · cases h

theorem updateShare_eq_error {patch : SharePatch}
    (h : r.updateShare id revision patch = .error failure) :
    failure.ofEarlierPublication = false := by
  simp only [updateShare] at h
  split at h
  · obtain rfl := Except.error.inj h
    rfl
  · obtain h | ⟨_, -, h⟩ := bind_eq_error.mp h
    · obtain ⟨-, rfl⟩ := failIf_eq_error.mp h
      rfl
    · cases h

/-- An operation is refused for an earlier publication when the one that is stored under its key
waits for a reconciliation, asks for something else, or has failed for good. -/
theorem enqueueOperation_eq_error {input : EnqueueInput}
    (h : r.enqueueOperation input = .error failure) (hof : failure.ofEarlierPublication = true) :
    ∃ existing, r.keyed input.idempotencyKey = some existing ∧
      (existing.revisionIntentProvenance = .reconciliationRequired ∨
        ¬immutableMatches existing input ∨
        input.retryIdenticalFailed = true ∧ existing.state = .failed ∧
          failedOperationCanBeRetried existing.failureCode = false) := by
  obtain h | ⟨_, -, h⟩ := bind_eq_error.mp h
  · -- what is asked for lacks a revision, or an expectation
    rw [EnqueueInput.assertExpectation] at h
    split at h
    · obtain h | ⟨_, -, h⟩ := bind_eq_error.mp h
      · obtain ⟨-, rfl⟩ := failIf_eq_error.mp h
        cases hof
      · obtain ⟨-, rfl⟩ := failIf_eq_error.mp h
        cases hof
    · obtain ⟨-, rfl⟩ := failIf_eq_error.mp h
      cases hof
  · split at h
    · rename_i existing hkeyed
      refine ⟨existing, hkeyed, ?_⟩
      obtain h | ⟨_, -, h⟩ := bind_eq_error.mp h
      · exact .inl (failIf_eq_error.mp h).1
      · obtain h | ⟨_, -, h⟩ := bind_eq_error.mp h
        · exact .inr (.inl (failIf_eq_error.mp h).1)
        · split at h
          · cases h
          · split at h
            · rename_i hfailed
              obtain h | ⟨_, -, h⟩ := bind_eq_error.mp h
              · have hcode := (failIf_eq_error.mp h).1
                exact .inr (.inr ⟨hfailed.2, hfailed.1, by simpa using hcode⟩)
              · cases h
            · cases h
    · cases h

variable {manifestHash : String}

/-- The operation that is stored under the key of a content is a publication of it, which waits
for no reconciliation. -/
theorem keyed_publication (hc : r.outline.Coherent) {existing : PublicationOperation}
    (hkeyed : r.keyed (idempotencyKey shareId manifestHash) = some existing)
    (hstored : Stored r.revisions revisionId shareId manifestHash) :
    existing ∈ r.operations ∧ existing.shareId = shareId ∧
      existing.localRevisionId = some revisionId ∧ existing.kind = .publish ∧
      existing.revisionIntentProvenance = .exact := by
  have hmem := List.mem_of_find?_eq_some hkeyed
  have hkey : existing.idempotencyKey = idempotencyKey shareId manifestHash := by
    simpa using List.find?_some hkeyed
  have hsound := hc.requests existing.request (mem_requests hmem)
  have hkind : existing.kind = .publish := by
    have hkind := hsound.kind
    simp only [PublicationOperation.request, hkey] at hkind
    exact hkind.symm
  obtain ⟨-, id, hid, ⟨revision, hrevision, hrevisionId, hof, hhash⟩, hshare⟩ :=
    hsound.publication hkind
  simp only [PublicationOperation.request, hkey] at hid hof hhash hshare
  obtain ⟨stored, hmemStored, hstoredId, hstoredOf, hstoredHash⟩ := hstored
  -- a share has one revision of a content
  have hsame : revision = stored :=
    eq_of_key_eq hc.manifests hrevision hmemStored (by
      rw [hof, hhash, hstoredOf, hstoredHash, ← hshare]
      rfl)
  refine ⟨hmem, hshare.symm, ?_, hkind, hsound.exact⟩
  rw [hid, ← hrevisionId, hsame, hstoredId]

/-- Cancelling what waits does to the row of a key what it does to every row. -/
theorem keyed_cancelPendingOperations (r : Repository) (shareId : ℕ) (kind : OperationKind)
    (key : IdempotencyKey) :
    (r.cancelPendingOperations shareId kind).keyed key = (r.keyed key).map fun operation =>
      if operation.isPending shareId kind then operation.cancelled else operation :=
  find?_updateWhere (f := PublicationOperation.cancelled) (fun _ _ => rfl) r.operations key

/-! ## Content that was not published before -/

/-- No publication of the content was carried out, or is for another revision of the remote. -/
def Repository.NotPublished (r : Repository) (share : ShareRecord) (manifestHash : String) : Prop :=
  ∀ row, r.keyed (idempotencyKey share.id manifestHash) = some row →
    row.state ≠ .succeeded ∧ row.expectedRemoteRevision = some (share.remoteRevision.getD 0)

/-- The publication of the content has failed. -/
def Repository.Failed (r : Repository) (shareId : ℕ) (manifestHash : String)
    (row : PublicationOperation) : Prop :=
  r.keyed (idempotencyKey shareId manifestHash) = some row ∧ row.state = .failed

/-- What scheduling content comes to: no objection from an earlier publication, and content that is
active or still to be published, unless its publication has failed. -/
structure Scheduled (r : Repository) (share : ShareRecord) (manifestHash : String)
    (outcome : Except Failure (Option ℕ) × Repository) : Prop where
  unopposed : ∀ failure, outcome.1 = .error failure → failure.ofEarlierPublication = false
  current : ∀ result r', outcome = (.ok result, r') →
    (r'.getShare share.id).bind (·.activeManifestHash) = some manifestHash ∨
    r'.Publishes share.id manifestHash share.remoteRevision ∨
    ∃ row, r.Failed share.id manifestHash row

/-- **What becomes of current content.** Approved content that was not published before is enqueued,
unless its publication failed in a way that may not be tried again. The current state of a share
that follows the project is scheduled, when it is active or was not published before. -/
structure CanPublishUnlessFailed (r : Repository) (share : ShareRecord) (projection : Projection)
    (now availableAtMs : ℤ) : Prop where
  publish : r.NotPublished share projection.manifestHash →
    share.approvedPreviewHash = some projection.manifestHash →
    ∀ failure, enqueuePublish r share.id projection now = .error failure →
      failure.ofEarlierPublication = true →
      ∃ row, r.Failed share.id projection.manifestHash row ∧
        failedOperationCanBeRetried row.failureCode = false
  schedule : startSchedule r share.id = some share →
    (share.activeManifestHash ≠ some projection.manifestHash →
      r.NotPublished share projection.manifestHash) →
    Scheduled r share projection.manifestHash
      (scheduleCurrentState r share.id projection availableAtMs)

theorem enqueuePublish_refused (hc : r.outline.Coherent) (hshare : r.getShare share.id = some share)
    (hnew : r.NotPublished share projection.manifestHash) {now : ℤ}
    (h : enqueuePublish r share.id projection now = .error failure)
    (hof : failure.ofEarlierPublication = true) :
    ∃ row, r.Failed share.id projection.manifestHash row ∧
      failedOperationCanBeRetried row.failureCode = false := by
  rw [enqueuePublish, hshare] at h
  obtain h | ⟨⟨revisionId, r₁⟩, hpersist, h⟩ := bind_eq_error.mp h
  · rw [persistRevision_eq_error h] at hof
    cases hof
  · obtain ⟨hadvances, hstored, hshares, hoperations⟩ := persistRevision_advances hpersist
    have hc₁ := hadvances.coherent hc
    have hshare₁ : r₁.getShare share.id = some share := by rwa [getShare, hshares]
    have hkeyed₁ : ∀ key, r₁.keyed key = r.keyed key := fun key => by rw [keyed, hoperations, keyed]
    simp only [enqueuePreviewed, hshare₁] at h
    obtain h | ⟨_, -, h⟩ := bind_eq_error.mp h
    · obtain ⟨-, rfl⟩ := failIf_eq_error.mp h
      cases hof
    · obtain h | ⟨⟨id, r₂⟩, henqueue, h⟩ := bind_eq_error.mp h
      · obtain ⟨existing, hkeyed, hwhy⟩ := enqueueOperation_eq_error h hof
        obtain ⟨-, hof', hlocal, hkind, hexact⟩ := keyed_publication hc₁ hkeyed hstored
        rw [hkeyed₁] at hkeyed
        obtain hreconcile | hmismatch | ⟨-, hfailed, hcode⟩ := hwhy
        · rw [hexact] at hreconcile
          cases hreconcile
        · exact absurd ⟨hof', hlocal, hkind, (hnew existing hkeyed).2⟩ hmismatch
        · exact ⟨existing, ⟨hkeyed, hfailed⟩, hcode⟩
      · obtain h | ⟨_, -, h⟩ := bind_eq_error.mp h
        · rw [updateShare_eq_error h] at hof
          cases hof
        · cases h

/-- What is enqueued is still to be published, when the row of its key was neither carried out
nor has failed. -/
theorem enqueueOperation_publishes {r r' : Repository} (availableAtMs : ℤ)
    (hstored : Stored r.revisions revisionId share.id manifestHash)
    (hrow : ∀ row, r.keyed (idempotencyKey share.id manifestHash) = some row →
      row.isLive = true ∨ row.state = .cancelled)
    (h : r.enqueueOperation (scheduleInput share revisionId manifestHash availableAtMs) =
      .ok (id, r')) : r'.Publishes share.id manifestHash share.remoteRevision := by
  obtain ⟨existing, hkeyed, rfl, hmatches, hcases⟩ | ⟨-, rfl, -, rfl⟩ := enqueueOperation_eq_ok h
  · have hmem := List.mem_of_find?_eq_some hkeyed
    obtain ⟨hshare, hlocal, hkind, hexpected⟩ := hmatches
    obtain ⟨-, rfl⟩ | ⟨hfailed, -, -⟩ | ⟨hcancelled, rfl⟩ := hcases
    · -- the row that was cancelled waits again
      refine ⟨existing.requeued availableAtMs, ?_, hkind, hshare, ⟨revisionId, hlocal, hstored⟩,
        hexpected, rfl⟩
      exact mem_setOperation.mpr ⟨existing, hmem, if_pos rfl⟩
    · obtain hlive | hcancelled := hrow existing hkeyed
      · simp [PublicationOperation.isLive, hfailed] at hlive
      · rw [hfailed] at hcancelled
        cases hcancelled
    · have hlive := (hrow existing hkeyed).resolve_right hcancelled
      exact ⟨existing, hmem, hkind, hshare, ⟨revisionId, hlocal, hstored⟩, hexpected, hlive⟩
  · exact ⟨_, List.mem_append_right _ (List.mem_singleton_self _), rfl, rfl,
      ⟨revisionId, rfl, hstored⟩, rfl, rfl⟩

/-- The row of a key after what waits was cancelled: it runs or was cancelled, when it was
neither carried out nor has failed. -/
theorem keyed_after_cancel {key : IdempotencyKey}
    (hrow : ∀ row, r.keyed key = some row → row.state ≠ .succeeded ∧ row.state ≠ .failed)
    {row : PublicationOperation}
    (hkeyed : (r.cancelPendingOperations shareId .publish).keyed key = some row) :
    row.isLive = true ∨ row.state = .cancelled := by
  rw [keyed_cancelPendingOperations] at hkeyed
  obtain ⟨before, hbefore, rfl⟩ := Option.map_eq_some_iff.mp hkeyed
  split
  · exact .inr rfl
  · obtain ⟨hsucceeded, hfailed⟩ := hrow before hbefore
    cases hstate : before.state with
    | cancelled => exact .inr rfl
    | succeeded => exact absurd hstate hsucceeded
    | failed => exact absurd hstate hfailed
    | queued | running | retrying => simp [PublicationOperation.isLive, hstate]

theorem getShare_setShare {f : ShareRecord → ShareRecord} (hf : ∀ share, (f share).id = share.id)
    (h : r.getShare id = some share) : (r.setShare id f).getShare id = some (f share) := by
  have hfind := find?_updateWhere (p := fun share : ShareRecord => share.id = id) (f := f)
    (fun share _ => hf share) r.shares id
  have hid : share.id = id := by simpa using List.find?_some h
  rw [getShare, setShare, hfind]
  rw [getShare] at h
  simp [h, hid]

/-- Marking the share as synced leaves its content, and is refused for no publication. -/
theorem markSynced_activeManifestHash (hshare : r.getShare share.id = some share) :
    match markSynced r share.id with
    | .error failure => failure.ofEarlierPublication = false
    | .ok r' => (r'.getShare share.id).bind (·.activeManifestHash) = share.activeManifestHash := by
  simp only [markSynced, hshare]
  by_cases hsynced : share.state = .synced
  · simp [hsynced, hshare]
  · rw [if_pos hsynced]
    cases hupdate : r.updateShare share.id share.localRevision { state := some .synced } with
    | error failure => exact updateShare_eq_error hupdate
    | ok r' =>
      obtain ⟨_, -, -, rfl⟩ := updateShare_eq_ok hupdate
      have hfound := getShare_setShare (f := fun share => share.patched { state := some .synced })
        (fun _ => rfl) hshare
      exact congrArg (·.bind (·.activeManifestHash)) hfound

/-- The key of the current content after what waits was cancelled: its row asks for the same
publication. -/
theorem immutableMatches_after_cancel (hc : r.outline.Coherent) (availableAtMs : ℤ)
    (hstored : Stored r.revisions revisionId share.id manifestHash)
    (hexpected : ∀ row, r.keyed (idempotencyKey share.id manifestHash) = some row →
      row.expectedRemoteRevision = share.remoteRevision) (row : PublicationOperation)
    (hkeyed : (r.cancelPendingOperations share.id .publish).keyed
      (idempotencyKey share.id manifestHash) = some row) :
    immutableMatches row (scheduleInput share revisionId manifestHash availableAtMs) ∧
      row.revisionIntentProvenance = .exact := by
  rw [keyed_cancelPendingOperations] at hkeyed
  obtain ⟨before, hbefore, rfl⟩ := Option.map_eq_some_iff.mp hkeyed
  obtain ⟨-, hshare, hlocal, hkind, hexact⟩ := keyed_publication hc hbefore hstored
  have hmatches : immutableMatches before
      (scheduleInput share revisionId manifestHash availableAtMs) :=
    ⟨hshare, hlocal, hkind, hexpected before hbefore⟩
  split
  · exact ⟨hmatches, hexact⟩
  · exact ⟨hmatches, hexact⟩

theorem schedulePreviewed_publishes (hc : r.outline.Coherent)
    (hshare : r.getShare share.id = some share)
    (availableAtMs : ℤ)
    (hstored : Stored r.revisions revisionId share.id manifestHash)
    (hrow : share.activeManifestHash ≠ some manifestHash →
      ∀ row, r.keyed (idempotencyKey share.id manifestHash) = some row →
        row.state ≠ .succeeded ∧ row.expectedRemoteRevision = share.remoteRevision) :
    Scheduled r share manifestHash
      (schedulePreviewed r share revisionId manifestHash availableAtMs) := by
  have hshare' : (r.cancelPendingOperations share.id .publish).getShare share.id = some share :=
    hshare
  simp only [schedulePreviewed]
  split
  · -- the content is active already
    rename_i hactive
    have hmarked := markSynced_activeManifestHash hshare'
    split
    · rename_i failure hfailure
      rw [hfailure] at hmarked
      refine ⟨fun failure' h => ?_, fun _ _ h => by cases (Prod.mk.inj h).1⟩
      exact Except.error.inj h ▸ hmarked
    · rename_i r₁ hok
      rw [hok] at hmarked
      refine ⟨fun _ h => (by cases h), fun result r' h => .inl ?_⟩
      obtain ⟨-, rfl⟩ := Prod.mk.inj h
      exact hmarked.trans hactive
  · rename_i hinactive
    have hrow := hrow hinactive
    have hmatches := immutableMatches_after_cancel hc availableAtMs hstored
      fun row hkeyed => (hrow row hkeyed).2
    split
    · -- the row of the content asks for this publication, so it is not refused
      rename_i failure hfailure
      refine ⟨fun failure' h => ?_, fun _ _ h => by cases (Prod.mk.inj h).1⟩
      obtain rfl := Except.error.inj h
      by_contra hof
      obtain ⟨existing, hkeyed, hwhy⟩ :=
        enqueueOperation_eq_error hfailure ((Bool.not_eq_false _).mp hof)
      obtain ⟨hmatch, hexact⟩ := hmatches existing hkeyed
      obtain hreconcile | hmismatch | ⟨hretry, -⟩ := hwhy
      · rw [hexact] at hreconcile
        cases hreconcile
      · exact hmismatch hmatch
      · cases hretry
    · rename_i id r₁ henqueue
      refine ⟨fun _ h => (by cases h), fun result r' h => .inr ?_⟩
      obtain ⟨-, rfl⟩ := Prod.mk.inj h
      by_cases hfailed : ∃ row, r.Failed share.id manifestHash row
      · exact .inr hfailed
      · refine .inl (enqueueOperation_publishes (r := r.cancelPendingOperations share.id .publish)
          availableAtMs hstored ?_ henqueue)
        refine fun row => keyed_after_cancel fun before hbefore => ?_
        exact ⟨(hrow before hbefore).1, fun hstate => hfailed ⟨before, hbefore, hstate⟩⟩

theorem scheduleCurrentState_publishes (hc : r.outline.Coherent)
    (hstart : startSchedule r share.id = some share)
    (hnew : share.activeManifestHash ≠ some projection.manifestHash →
      r.NotPublished share projection.manifestHash) (availableAtMs : ℤ) :
    Scheduled r share projection.manifestHash
      (scheduleCurrentState r share.id projection availableAtMs) := by
  obtain ⟨hshare, hremote⟩ := startSchedule_eq_some hstart
  obtain ⟨remoteRevision, hremote⟩ := Option.ne_none_iff_exists'.mp hremote
  simp only [scheduleCurrentState, hstart]
  split
  · rename_i failure hpersist
    refine ⟨fun failure' h => ?_, fun _ _ h => by cases (Prod.mk.inj h).1⟩
    obtain rfl := Except.error.inj h
    exact persistRevision_eq_error hpersist
  · rename_i revisionId r₁ hpersist
    obtain ⟨hadvances, hstored, hshares, hoperations⟩ := persistRevision_advances hpersist
    have hshare₁ : r₁.getShare share.id = some share := by rwa [getShare, hshares]
    have hkeyed₁ : ∀ key, r₁.keyed key = r.keyed key := fun key => by rw [keyed, hoperations, keyed]
    have hrow : share.activeManifestHash ≠ some projection.manifestHash →
        ∀ row, r₁.keyed (idempotencyKey share.id projection.manifestHash) = some row →
          row.state ≠ .succeeded ∧ row.expectedRemoteRevision = share.remoteRevision := by
      intro hinactive row hkeyed
      obtain ⟨hstate, hexpected⟩ := hnew hinactive row (hkeyed₁ _ ▸ hkeyed)
      exact ⟨hstate, by rw [hexpected, hremote]; rfl⟩
    have hresult := schedulePreviewed_publishes (hadvances.coherent hc) hshare₁ availableAtMs
      hstored hrow
    refine ⟨hresult.unopposed, fun result r' h => ?_⟩
    simpa only [Repository.Failed, hkeyed₁] using hresult.current result r' h

/-- A share that follows the project was published with one content, and another was scheduled. -/
def changedRun : List Event :=
  publishedRun .synchronized ++ [.staged "share" (some (readyStage 9)),
    .activated "share" (some ⟨9, 1⟩), .markRelevantChange 1 0, .projected 0 (some ⟨"B", "{}"⟩),
    .proceed 0 0]

end HomelabInventory.Sharing
