import HomelabInventory.GuardedRuns
import HomelabInventory.SharingRepository

/-!
# The publication of shares

The requests of the publication service and the work of its coordinator, which
all run between each other: a request is a task that waits for the projector or
for its preview, and the coordinator holds the operation that it works on while
it waits for the remote.
-/

namespace HomelabInventory.Sharing

open Repository

/-! ## Requests -/

/-- The key under which a publication, or a lifecycle operation, is stored. -/
def idempotencyKey (shareId : ℕ) (subject : String) (kind : OperationKind := .publish) :
    IdempotencyKey :=
  ⟨kind, shareId, subject⟩

/-- What a request still has to do. It was read from the share that it names. -/
inductive Task where
  | preview (shareId localRevision : ℕ)
  | approve (shareId localRevision : ℕ) (manifestHash : String)
  | publish (shareId localRevision : ℕ)
  | publishPreviewed (shareId localRevisionId : ℕ) (manifestHash : String)
  | schedule (share : ShareRecord) (availableAtMs : ℤ)
  | schedulePreviewed (share : ShareRecord) (localRevisionId : ℕ) (manifestHash : String)
      (availableAtMs : ℤ)

/-- The projector has answered. What is left to do, and the tables. -/
def Task.projected (r : Repository) (projection : Projection) :
    Task → Except Failure (Option Task × Repository)
  | .preview shareId localRevision => do
    let (_, r) ← r.persistRevision shareId localRevision projection
    return (none, r)
  | .approve shareId localRevision manifestHash => do
    failIf (projection.manifestHash ≠ manifestHash) .previewChanged
    let r ← r.updateShare shareId localRevision
      { state := some .previewReady, approvedPreviewHash := some (some manifestHash) }
    return (none, r)
  | .publish shareId localRevision => do
    let (revisionId, r) ← r.persistRevision shareId localRevision projection
    return (some (.publishPreviewed shareId revisionId projection.manifestHash), r)
  | .schedule share availableAtMs => do
    let (revisionId, r) ← r.persistRevision share.id share.localRevision projection
    return (some (.schedulePreviewed share revisionId projection.manifestHash availableAtMs), r)
  | task => .ok (some task, r)

/-- `enqueuePublish`, once it has its preview. -/
def enqueuePreviewed (r : Repository) (shareId localRevisionId : ℕ) (manifestHash : String)
    (now : ℤ) : Except Failure (ℕ × Repository) :=
  match r.getShare shareId with
  | none => .error .shareMissing
  | some current => do
    failIf (current.approvedPreviewHash ≠ some manifestHash) .previewUnapproved
    let (operationId, r) ← r.enqueueOperation
      { shareId := shareId
        localRevisionId := some localRevisionId
        idempotencyKey := idempotencyKey shareId manifestHash
        kind := .publish
        availableAtMs := now
        expectedRemoteRevision := some (current.remoteRevision.getD 0)
        retryIdenticalFailed := true }
    let r ← r.updateShare shareId current.localRevision { state := some .publishing }
    return (operationId, r)

/-- The share is published, and follows the project by itself. -/
def ShareRecord.isSynchronized (share : ShareRecord) : Bool :=
  share.mutability = .replaceable ∧ share.syncMode = .synchronized

/-- `scheduleCurrentState` reads the share; nothing when there is nothing to schedule. -/
def startSchedule (r : Repository) (shareId : ℕ) : Option ShareRecord :=
  (r.getShare shareId).filter fun share =>
    share.state ≠ .deleted ∧ share.remoteRevision ≠ none ∧ share.isSynchronized

/-- The share is synced when nothing is to be published. -/
def markSynced (r : Repository) (shareId : ℕ) : Except Failure Repository :=
  match r.getShare shareId with
  | none => .error .shareMissing
  | some current =>
    if current.state ≠ .synced then
      r.updateShare shareId current.localRevision { state := some .synced }
    else .ok r

/-- `scheduleCurrentState`, once it has its preview. What was cancelled stays so when it
throws. -/
def schedulePreviewed (r : Repository) (share : ShareRecord) (localRevisionId : ℕ)
    (manifestHash : String) (availableAtMs : ℤ) :
    Except Failure (Option ℕ) × Repository :=
  let cancelled := r.cancelPendingOperations share.id .publish
  if share.activeManifestHash = some manifestHash then
    match markSynced cancelled share.id with
    | .error failure => (.error failure, cancelled)
    | .ok r => (.ok none, r)
  else
    match cancelled.enqueueOperation
      { shareId := share.id
        localRevisionId := some localRevisionId
        idempotencyKey := idempotencyKey share.id manifestHash
        kind := .publish
        availableAtMs := availableAtMs
        expectedRemoteRevision := share.remoteRevision } with
    | .error failure => (.error failure, cancelled)
    | .ok (operationId, r) => (.ok (some operationId), r)

/-- `markRelevantChange`, up to `scheduleCurrentState`. -/
def markRelevantChange (r : Repository) (shareId : ℕ) : Except Failure Repository :=
  match r.getShare shareId with
  | none => .ok r
  | some share =>
    if share.state = .deleted ∨ share.remoteRevision = none then .ok r
    else r.updateShare shareId share.localRevision
      { state := some (if share.isSynchronized then .changesPending else .manualUpdateAvailable) }

/-- A snapshot of the resources was saved: the approval of the share is withdrawn. -/
def resourceSnapshotSaved (r : Repository) (shareId : ℕ) : Except Failure Repository :=
  match r.getShare shareId with
  | none => .error .shareMissing
  | some share => r.updateShare shareId share.localRevision
    { state := some
        (if share.remoteRevision = none then .unpublished
        else if share.syncMode = .synchronized then .changesPending
        else .manualUpdateAvailable)
      approvedPreviewHash := some none }

def enqueueLifecycle (r : Repository) (shareId : ℕ) (kind : OperationKind) (now : ℤ) :
    Except Failure (ℕ × Repository) :=
  match r.getShare shareId with
  | none => .error .lifecycleStateMissing
  | some share =>
    match share.remotePublicId, share.remoteRevision with
    | some _, some remoteRevision => r.enqueueOperation
      { shareId := shareId
        idempotencyKey := idempotencyKey shareId (toString remoteRevision) kind
        kind := kind
        availableAtMs := now }
    | _, _ => .error .lifecycleStateMissing

/-! ## The coordinator -/

/-- What a publication goes by: the operation, the share and the revision as they were read. -/
structure Publication where
  operation : PublicationOperation
  share : ShareRecord
  revision : LocalRevision

/-- What the coordinator waits for with the operation that it works on. -/
inductive Worker where
  | idle
  | staging (publication : Publication)
  | uploading (publication : Publication) (stage : RemoteStage) (missing : List String)
  | activating (publication : Publication) (stage : RemoteStage)
  | restaging (publication : Publication)
  | lifecycle (operation : PublicationOperation)
  | failing (operation : PublicationOperation)

/-- The operation that the coordinator holds. -/
def Worker.held : Worker → Option PublicationOperation
  | .idle => none
  | .staging publication | .uploading publication .. | .activating publication _
  | .restaging publication => some publication.operation
  | .lifecycle operation | .failing operation => some operation

/-- Take up an operation: `executePublish` or `executeLifecycle`, up to the first wait. -/
def begin (r : Repository) (operation : PublicationOperation) : Worker :=
  match operation.kind with
  | .publish =>
    match r.getShare operation.shareId, operation.localRevisionId.bind r.getLocalRevision,
      operation.expectedRemoteRevision with
    | some share, some revision, some _ => .staging ⟨operation, share, revision⟩
    | _, _, _ => .failing operation
  | .unpublish | .delete =>
    match (r.getShare operation.shareId).bind (·.remotePublicId),
      (r.getShare operation.shareId).bind (·.remoteRevision) with
    | some _, some _ => .lifecycle operation
    | _, _ => .failing operation
  | .resourceSnapshot => .failing operation

/-- The blobs that are missing were all sent: the remote is asked to activate. -/
def uploads (publication : Publication) (stage : RemoteStage) (missing : List String) : Worker :=
  if missing.isEmpty then .activating publication stage
  else .uploading publication stage missing

/-- `completeStagedPublication` -/
def completeStaged (r : Repository) (publication : Publication) (remotePublicId : String)
    (stage : RemoteStage) : Worker × Repository :=
  match stage.activationResult, publication.operation.expectedRemoteRevision with
  | some activation, some expectedRemoteRevision =>
    if activation.operationId ≠ stage.operationId ∨ activation.revisionId = 0 then
      (.failing publication.operation, r)
    else
      match r.completePublication
        { shareId := publication.share.id
          operationId := publication.operation.id
          remoteOperationId := stage.operationId
          remotePublicId := publication.share.remotePublicId.getD remotePublicId
          resultingRemoteRevision := expectedRemoteRevision + 1
          manifestHash := publication.revision.manifestHash
          activationRevisionId := activation.revisionId } with
      | .ok r => (.idle, r)
      | .error _ => (.failing publication.operation, r)
  | _, _ => (.failing publication.operation, r)

/-- The remote has staged the publication. -/
def staged (r : Repository) (publication : Publication) (remotePublicId : String)
    (stage : RemoteStage) : Worker × Repository :=
  match r.recordRemoteStage publication.operation.id stage with
  | .error _ => (.failing publication.operation, r)
  | .ok r =>
    if stage.state = .active then completeStaged r publication remotePublicId stage
    else if stage.state = .failed ∧ stage.failureCode ≠ some "registry-definition-unavailable" then
      (.failing publication.operation, r)
    else (uploads publication stage stage.missingHashes, r)

/-- The remote has staged the publication again, after it would not activate it. -/
def restaged (r : Repository) (publication : Publication) (remotePublicId : String)
    (stage : RemoteStage) : Worker × Repository :=
  match r.recordRemoteStage publication.operation.id stage with
  | .error _ => (.failing publication.operation, r)
  | .ok r =>
    if stage.state = .active then completeStaged r publication remotePublicId stage
    else (.failing publication.operation, r)

/-- How the work on an operation is to go on after a failure. -/
structure FailureDisposition where
  retryable : Bool
  availableAtMs : ℤ
  errorCode : String

/-- The failure of the operation is recorded. -/
def recordFailure (r : Repository) (operation : PublicationOperation)
    (disposition : FailureDisposition) : Repository :=
  match r.updateOperation operation.id
    { state := if disposition.retryable then .retrying else .failed
      attemptCount := some (operation.attemptCount + 1)
      availableAtMs := some disposition.availableAtMs
      lastErrorCode := some (some disposition.errorCode) } with
  | .error _ => r
  | .ok r =>
    if disposition.retryable then r
    else
      match r.getShare operation.shareId with
      | none => r
      | some share =>
        ((r.updateShare share.id share.localRevision { state := some .failed }).toOption).getD r

/-- The remote has carried out a lifecycle operation. -/
def completeLifecycle (r : Repository) (operation : PublicationOperation) (revision : ℕ)
    (state : ShareState) : Worker × Repository :=
  match r.updateOperation operation.id { state := .succeeded, lastErrorCode := some none } with
  | .error _ => (.failing operation, r)
  | .ok r =>
    match r.getShare operation.shareId with
    | none => (.failing operation, r)
    | some current =>
      match r.updateShare current.id current.localRevision
        { state := some state, remoteRevision := some revision } with
      | .error _ => (.failing operation, r)
      | .ok r => (.idle, r)

/-! ## Steps -/

/-- The tables, the requests that wait, and the coordinator. The operations that were cancelled
since they were last enqueued are noted for the record: nothing reads them. -/
structure System where
  repository : Repository := {}
  tasks : List Task := []
  worker : Worker := .idle
  withdrawn : List ℕ := []

/-- What happens next. The answers of the projector and of the remote are whatever they are. -/
inductive Event where
  | createShare (mutability : Mutability) (syncMode : SyncMode)
  | configure (shareId expectedRevision : ℕ) (mutability : Mutability) (syncMode : SyncMode)
      (remote : Option (ℕ × ShareState)) (availableAtMs : ℤ)
  | resourceSnapshot (shareId : ℕ)
  | remoteEvent (publicId : String) (revision : ℕ) (state : ShareState)
  | remoteAnswer (shareId revision : ℕ) (state : Option ShareState)
  | preview (shareId : ℕ)
  | approvePreview (shareId : ℕ) (manifestHash : String)
  | enqueuePublish (shareId : ℕ)
  | markRelevantChange (shareId : ℕ) (availableAtMs : ℤ)
  | enqueueLifecycle (shareId : ℕ) (kind : OperationKind) (now : ℤ)
  | projected (task : ℕ) (projection : Option Projection)
  | proceed (task : ℕ) (now : ℤ)
  | take (now : ℤ)
  | staged (remotePublicId : String) (stage : Option RemoteStage)
  | uploaded (done : Bool)
  | activated (remotePublicId : String) (activation : Option ActivationResult)
  | activationRefused
  | restaged (remotePublicId : String) (stage : Option RemoteStage)
  | lifecycleDone (result : Option (ℕ × ShareState))
  | failureRecorded (disposition : FailureDisposition)

namespace System

/-- A request changed the tables, or threw. -/
def commit (s : System) (result : Except Failure Repository) : System :=
  match result with
  | .error _ => s
  | .ok r => { s with repository := r }

/-- A request begins that reads the share first. -/
def ask (s : System) (shareId : ℕ) (task : ShareRecord → Task) : System :=
  match s.repository.getShare shareId with
  | none => s
  | some share => { s with tasks := s.tasks ++ [task share] }

/-- `scheduleCurrentState` begins. -/
def schedule (s : System) (shareId : ℕ) (availableAtMs : ℤ) : System :=
  match startSchedule s.repository shareId with
  | none => s
  | some share => { s with tasks := s.tasks ++ [.schedule share availableAtMs] }

/-- An operation was enqueued, or the request threw. -/
def enqueue (s : System) (result : Except Failure (ℕ × Repository)) : System :=
  match result with
  | .error _ => s
  | .ok (operationId, r) =>
    { s with repository := r, withdrawn := s.withdrawn.filter fun id => id ≠ operationId }

/-- The operations of the share that are about to be cancelled. -/
def pendingIds (r : Repository) (shareId : ℕ) : List ℕ :=
  (r.operations.filter (·.isPending shareId .publish)).map (·.id)

/-- A task that has its preview goes on to its end. -/
def proceed (s : System) (now : ℤ) : Task → System
  | .publishPreviewed shareId localRevisionId manifestHash =>
    s.enqueue (enqueuePreviewed s.repository shareId localRevisionId manifestHash now)
  | .schedulePreviewed share localRevisionId manifestHash availableAtMs =>
    let cancelled := { s with withdrawn := s.withdrawn ++ pendingIds s.repository share.id }
    match schedulePreviewed s.repository share localRevisionId manifestHash availableAtMs with
    | (.ok (some operationId), r) =>
      { cancelled with
        repository := r
        withdrawn := cancelled.withdrawn.filter fun id => id ≠ operationId }
    | (_, r) => { cancelled with repository := r }
  | _ => s

/-- The settings of a share were changed. -/
def configured (r : Repository) (shareId expectedRevision : ℕ) (mutability : Mutability)
    (syncMode : SyncMode) (remote : Option (ℕ × ShareState)) : Except Failure Repository := do
  let r ← r.updateShareConfiguration shareId expectedRevision mutability syncMode
  match remote, r.getShare shareId with
  | some (revision, state), some updated =>
    r.updateShare shareId updated.localRevision
      { state := some state, remoteRevision := some revision }
  | _, _ => return r

/-- The answer of the remote goes into the share. -/
def remoteAnswered (r : Repository) (shareId revision : ℕ) (state : Option ShareState) :
    Except Failure Repository :=
  match r.getShare shareId with
  | none => .error .shareMissing
  | some current => r.updateShare shareId current.localRevision
    { state := state, remoteRevision := some revision }

/-- The coordinator goes on. -/
def work (s : System) (result : Worker × Repository) : System :=
  { s with worker := result.1, repository := result.2 }

/-- One event, when it can happen. -/
def step (s : System) : Event → Option System
  | .createShare mutability syncMode => some (s.commit (s.repository.createShare mutability syncMode))
  | .configure shareId expectedRevision mutability syncMode remote availableAtMs =>
    match configured s.repository shareId expectedRevision mutability syncMode remote with
    | .error _ => some s
    | .ok r => some ({ s with repository := r }.schedule shareId availableAtMs)
  | .resourceSnapshot shareId => some (s.commit (resourceSnapshotSaved s.repository shareId))
  | .remoteEvent publicId revision state =>
    some { s with repository := s.repository.applyRemoteEvent publicId revision state }
  | .remoteAnswer shareId revision state =>
    some (s.commit (remoteAnswered s.repository shareId revision state))
  | .preview shareId => some (s.ask shareId fun share => .preview share.id share.localRevision)
  | .approvePreview shareId manifestHash =>
    some (s.ask shareId fun share => .approve share.id share.localRevision manifestHash)
  | .enqueuePublish shareId =>
    some (s.ask shareId fun share => .publish share.id share.localRevision)
  | .markRelevantChange shareId availableAtMs =>
    match Sharing.markRelevantChange s.repository shareId with
    | .error _ => some s
    | .ok r => some ({ s with repository := r }.schedule shareId availableAtMs)
  | .enqueueLifecycle shareId kind now =>
    if kind = .unpublish ∨ kind = .delete then
      some (s.enqueue (Sharing.enqueueLifecycle s.repository shareId kind now))
    else none
  | .projected index projection =>
    match s.tasks[index]?, projection with
    | none, _ => none
    | some _, none => some { s with tasks := s.tasks.eraseIdx index }
    | some task, some projection =>
      match task.projected s.repository projection with
      | .error _ => some { s with tasks := s.tasks.eraseIdx index }
      | .ok (left, r) =>
        some { s with repository := r, tasks := s.tasks.eraseIdx index ++ left.toList }
  | .proceed index now =>
    match s.tasks[index]? with
    | none => none
    | some task => some ({ s with tasks := s.tasks.eraseIdx index }.proceed now task)
  | .take now =>
    match s.worker, s.repository.nextOperation now with
    | .idle, some operation => some { s with worker := begin s.repository operation }
    | _, _ => none
  | .staged remotePublicId stage =>
    match s.worker, stage with
    | .staging publication, some stage =>
      some (s.work (Sharing.staged s.repository publication remotePublicId stage))
    | .staging publication, none => some { s with worker := .failing publication.operation }
    | _, _ => none
  | .uploaded done =>
    match s.worker with
    | .uploading publication stage missing =>
      some { s with worker :=
        if done then uploads publication stage missing.tail else .failing publication.operation }
    | _ => none
  | .activated remotePublicId activation =>
    match s.worker, activation with
    | .activating publication stage, some activation =>
      some (s.work (completeStaged s.repository publication remotePublicId
        { stage with activationResult := some activation }))
    | .activating publication _, none => some { s with worker := .failing publication.operation }
    | _, _ => none
  | .activationRefused =>
    match s.worker with
    | .activating publication _ => some { s with worker := .restaging publication }
    | _ => none
  | .restaged remotePublicId stage =>
    match s.worker, stage with
    | .restaging publication, some stage =>
      some (s.work (Sharing.restaged s.repository publication remotePublicId stage))
    | .restaging publication, none => some { s with worker := .failing publication.operation }
    | _, _ => none
  | .lifecycleDone result =>
    match s.worker, result with
    | .lifecycle operation, some (revision, state) =>
      some (s.work (completeLifecycle s.repository operation revision state))
    | .lifecycle operation, none => some { s with worker := .failing operation }
    | _, _ => none
  | .failureRecorded disposition =>
    match s.worker with
    | .failing operation =>
      some { s with worker := .idle, repository := recordFailure s.repository operation disposition }
    | _ => none

end System

/-- The systems that a run leads to whose steps all meet a condition. -/
abbrev Reachable (condition : System → Event → Prop) : System → Prop :=
  RunsTo System.step condition (· = {})

theorem Reachable.start {condition : System → Event → Prop} : Reachable condition {} :=
  RunsTo.start rfl

/-- A run, when each of its events can happen. -/
def System.run (s : System) (events : List Event) : Option System := events.foldlM System.step s

/-- A run of events without any condition. -/
theorem reachable_run {s : System} {events : List Event} (hrun : System.run {} events = some s) :
    Reachable (fun _ _ => True) s :=
  RunsTo.run (.start rfl) (fun event _ _ _ hstep => ⟨event, trivial, hstep⟩) hrun

end HomelabInventory.Sharing
