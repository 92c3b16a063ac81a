import HomelabInventory.ExceptLoop
import HomelabInventory.RecordTable
import Mathlib.Data.Int.Notation

/-!
# The sharing repository

Shares, the local revisions of what they show, and the operations that publish
them: the tables and the statements on them.
-/

namespace HomelabInventory.Sharing

/-! ## Rows -/

inductive Mutability
  | immutable
  | replaceable
deriving DecidableEq

inductive SyncMode
  | manual
  | synchronized
deriving DecidableEq

inductive ShareState
  | unpublished
  | previewReady
  | publishing
  | synced
  | changesPending
  | manualUpdateAvailable
  | failed
  | expired
  | gracePeriod
  | deleted
deriving DecidableEq

/-- A share, as far as its publication goes. -/
structure ShareRecord where
  id : ℕ
  remotePublicId : Option String
  mutability : Mutability
  syncMode : SyncMode
  state : ShareState
  localRevision : ℕ
  remoteRevision : Option ℕ
  activeManifestHash : Option String
  approvedPreviewHash : Option String
deriving DecidableEq

/-- What a share shows, as the projector puts it. -/
structure Projection where
  manifestHash : String
  manifestJson : String
deriving DecidableEq

/-- A projection that was stored. -/
structure LocalRevision where
  id : ℕ
  shareId : ℕ
  revision : ℕ
  manifestHash : String
  manifestJson : String
deriving DecidableEq

inductive OperationKind
  | publish
  | unpublish
  | delete
  | resourceSnapshot
deriving DecidableEq

inductive OperationState
  | queued
  | running
  | retrying
  | succeeded
  | failed
  | cancelled
deriving DecidableEq

inductive RemoteOperationState
  | staged
  | ready
  | active
  | failed
deriving DecidableEq

inductive RevisionIntentProvenance
  | exact
  | safeBackfill
  | reconciliationRequired
deriving DecidableEq

/-- The parts of an idempotency key; the source hashes them. -/
structure IdempotencyKey where
  kind : OperationKind
  shareId : ℕ
  subject : String
deriving DecidableEq

structure PublicationOperation where
  id : ℕ
  shareId : ℕ
  localRevisionId : Option ℕ
  idempotencyKey : IdempotencyKey
  kind : OperationKind
  state : OperationState
  attemptCount : ℕ
  availableAtMs : ℤ
  remoteOperationId : Option ℕ
  expectedRemoteRevision : Option ℕ
  remoteOperationState : Option RemoteOperationState
  remoteFailureCode : Option String
  activationRevisionId : Option ℕ
  revisionIntentProvenance : RevisionIntentProvenance
  lastErrorCode : Option String
deriving DecidableEq

/-- The tables, with the ids that rows get next. -/
structure Repository where
  shares : List ShareRecord := []
  revisions : List LocalRevision := []
  operations : List PublicationOperation := []
  nextShareId : ℕ := 1
  nextRevisionId : ℕ := 1
  nextOperationId : ℕ := 1

/-! ## Failures -/

/-- What the functions throw. -/
inductive Failure
  | shareMissing
  | shareInvalid
  | revisionConflict
  | manifestCollision
  | revisionNumberTaken
  | previewChanged
  | previewUnapproved
  | publicationRevisionMissing
  | publicationExpectationInvalid
  | lifecycleExpectation
  | reconciliationRequired
  | immutableRequestMismatch
  | failureNotEligible
  | operationMissing
  | remoteFailureStateInvalid
  | remoteActivationStateInvalid
  | remoteActivationInvalid
  | remoteIdentityChanged
  | evidenceChanged
  | completionInvalid
  | completionRevisionInvalid
  | completionRemoteInvalid
  | completionManifestInvalid
  | completionShareMissing
  | completionPublicIdChanged
  | completionActivationChanged
  | completionBehind
  | lifecycleStateMissing
deriving DecidableEq

/-! ## Requests -/

/-- What a share is patched with; what is left out stays. -/
structure SharePatch where
  state : Option ShareState := none
  remoteRevision : Option ℕ := none
  approvedPreviewHash : Option (Option String) := none

structure EnqueueInput where
  shareId : ℕ
  localRevisionId : Option ℕ := none
  idempotencyKey : IdempotencyKey
  kind : OperationKind
  availableAtMs : ℤ
  expectedRemoteRevision : Option ℕ := none
  retryIdenticalFailed : Bool := false

/-- A publication goes from a local revision and an expected remote one; the others do not. -/
def EnqueueInput.assertExpectation (input : EnqueueInput) : Except Failure Unit :=
  if input.kind = .publish then do
    failIf (input.localRevisionId = none) .publicationRevisionMissing
    failIf (input.expectedRemoteRevision = none) .publicationExpectationInvalid
  else failIf (input.expectedRemoteRevision ≠ none) .lifecycleExpectation

/-- The row of an operation that is new. -/
def EnqueueInput.operation (input : EnqueueInput) (id : ℕ) : PublicationOperation where
  id := id
  shareId := input.shareId
  localRevisionId := input.localRevisionId
  idempotencyKey := input.idempotencyKey
  kind := input.kind
  state := .queued
  attemptCount := 0
  availableAtMs := input.availableAtMs
  remoteOperationId := none
  expectedRemoteRevision := input.expectedRemoteRevision
  remoteOperationState := none
  remoteFailureCode := none
  activationRevisionId := none
  revisionIntentProvenance := .exact
  lastErrorCode := none

/-- What an operation is patched with; what is left out stays. -/
structure OperationPatch where
  state : OperationState
  attemptCount : Option ℕ := none
  availableAtMs : Option ℤ := none
  lastErrorCode : Option (Option String) := none

/-- The remote operation that publishes, with the revision it activated. -/
structure ActivationResult where
  operationId : ℕ
  revisionId : ℕ
deriving DecidableEq

/-- What the remote says of a staged publication. -/
structure RemoteStage where
  operationId : ℕ
  state : RemoteOperationState
  failureCode : Option String := none
  missingHashes : List String := []
  activationResult : Option ActivationResult := none
deriving DecidableEq

structure CompletionInput where
  shareId : ℕ
  operationId : ℕ
  remoteOperationId : ℕ
  remotePublicId : String
  resultingRemoteRevision : ℕ
  manifestHash : String
  activationRevisionId : ℕ

/-- The share after a publication: its own news of the remote may be newer. -/
def ShareRecord.advance (share : ShareRecord) (input : CompletionInput) : ShareRecord :=
  if share.remoteRevision.all (· < input.resultingRemoteRevision) then
    { share with
      remotePublicId := some input.remotePublicId
      remoteRevision := some input.resultingRemoteRevision
      activeManifestHash := some input.manifestHash
      state := .synced
      localRevision := share.localRevision + 1 }
  else if share.remoteRevision = some input.resultingRemoteRevision then
    { share with
      remotePublicId := share.remotePublicId <|> some input.remotePublicId
      activeManifestHash := some input.manifestHash
      state := if share.state = .publishing ∨ share.state = .synced ∨ share.state = .failed
        then .synced else share.state
      localRevision := share.localRevision + 1 }
  else share

/-! ## Single rows -/

def assertPublicationIntentReconciled (operation : PublicationOperation) : Except Failure Unit :=
  failIf (operation.revisionIntentProvenance = .reconciliationRequired) .reconciliationRequired

def failedOperationCanBeRetried (code : String) : Bool :=
  ["registry-definition-unavailable", "authentication-failed", "labgd-unavailable",
    "labgd-renewal-failed", "publication-readiness-unavailable", "sharing-network-failed",
    "sharing-request-timeout", "sharing-rate-limited", "sharing-readiness-unavailable",
    "sharing-authentication-failed"].contains code

/-- The stored operation is the one that is asked for. -/
def immutableMatches (existing : PublicationOperation) (input : EnqueueInput) : Prop :=
  existing.shareId = input.shareId ∧ existing.localRevisionId = input.localRevisionId ∧
    existing.kind = input.kind ∧ existing.expectedRemoteRevision = input.expectedRemoteRevision

instance (existing : PublicationOperation) (input : EnqueueInput) :
    Decidable (immutableMatches existing input) := inferInstanceAs (Decidable (_ ∧ _ ∧ _ ∧ _))

/-- A cancelled operation starts anew. -/
def PublicationOperation.requeued (operation : PublicationOperation) (availableAtMs : ℤ) :
    PublicationOperation :=
  { operation with
    state := .queued
    attemptCount := 0
    availableAtMs := availableAtMs
    remoteOperationId := none
    remoteOperationState := none
    remoteFailureCode := none
    activationRevisionId := none
    lastErrorCode := none }

/-- A failed operation is tried again. -/
def PublicationOperation.retried (operation : PublicationOperation) (availableAtMs : ℤ) :
    PublicationOperation :=
  { operation with state := .retrying, availableAtMs := availableAtMs }

def PublicationOperation.cancelled (operation : PublicationOperation) : PublicationOperation :=
  { operation with state := .cancelled }

def PublicationOperation.patched (operation : PublicationOperation) (patch : OperationPatch) :
    PublicationOperation :=
  { operation with
    state := patch.state
    attemptCount := patch.attemptCount.getD operation.attemptCount
    availableAtMs := patch.availableAtMs.getD operation.availableAtMs
    lastErrorCode := patch.lastErrorCode.getD operation.lastErrorCode }

/-- What the remote said of the operation is noted. -/
def PublicationOperation.staged (operation : PublicationOperation) (input : RemoteStage) :
    PublicationOperation :=
  { operation with
    state := .running
    remoteOperationId := some input.operationId
    remoteOperationState := some input.state
    remoteFailureCode := input.failureCode
    activationRevisionId := input.activationResult.map (·.revisionId) }

def PublicationOperation.completed (operation : PublicationOperation)
    (activationRevisionId : ℕ) : PublicationOperation :=
  { operation with
    state := .succeeded
    remoteOperationState := some .active
    activationRevisionId := some activationRevisionId
    remoteFailureCode := none
    lastErrorCode := none }

def ShareRecord.patched (share : ShareRecord) (patch : SharePatch) : ShareRecord :=
  { share with
    state := patch.state.getD share.state
    remoteRevision := patch.remoteRevision <|> share.remoteRevision
    approvedPreviewHash := patch.approvedPreviewHash.getD share.approvedPreviewHash
    localRevision := share.localRevision + 1 }

/-- The configuration of a share that was changed: its approval is withdrawn. -/
def ShareRecord.configured (share : ShareRecord) (mutability : Mutability) (syncMode : SyncMode)
    (state : ShareState) : ShareRecord :=
  { share with
    mutability := mutability
    syncMode := syncMode
    state := state
    approvedPreviewHash := none
    localRevision := share.localRevision + 1 }

/-- The remote told that the share is at a newer revision. -/
def ShareRecord.informed (share : ShareRecord) (revision : ℕ) (state : ShareState) : ShareRecord :=
  { share with
    state := state
    remoteRevision := some revision
    localRevision := share.localRevision + 1 }

/-- The code of the last failure. -/
def PublicationOperation.failureCode (operation : PublicationOperation) : String :=
  (operation.lastErrorCode <|> operation.remoteFailureCode).getD ""

/-- The operation of the share waits, and may be cancelled. -/
def PublicationOperation.isPending (operation : PublicationOperation) (shareId : ℕ)
    (kind : OperationKind) : Bool :=
  operation.shareId = shareId ∧ operation.kind = kind ∧
    (operation.state = .queued ∨ operation.state = .retrying) ∧
    operation.revisionIntentProvenance ≠ .reconciliationRequired

/-- The operation is to be worked on at this time. -/
def PublicationOperation.isRunnable (operation : PublicationOperation) (at' : ℤ) : Bool :=
  (operation.state = .queued ∨ operation.state = .running ∨ operation.state = .retrying) ∧
    operation.revisionIntentProvenance ≠ .reconciliationRequired ∧ operation.availableAtMs ≤ at'

/-- The one that is available first, by id among those of one time. -/
def earlier (best : Option PublicationOperation) (operation : PublicationOperation) :
    Option PublicationOperation :=
  match best with
  | none => some operation
  | some first =>
    if operation.availableAtMs < first.availableAtMs ∨
        operation.availableAtMs = first.availableAtMs ∧ operation.id < first.id then some operation
    else some first

namespace Repository

/-! ## Shares -/

def getShare (r : Repository) (id : ℕ) : Option ShareRecord :=
  r.shares.find? fun share => share.id = id

/-- Update the row of a share. -/
def setShare (r : Repository) (id : ℕ) (f : ShareRecord → ShareRecord) : Repository :=
  { r with shares := updateWhere (fun share => share.id = id) f r.shares }

def createShare (r : Repository) (mutability : Mutability) (syncMode : SyncMode) :
    Except Failure Repository := do
  failIf (syncMode = .synchronized ∧ mutability ≠ .replaceable) .shareInvalid
  return { r with
    shares := r.shares ++ [⟨r.nextShareId, none, mutability, syncMode, .unpublished, 1, none, none,
      none⟩]
    nextShareId := r.nextShareId + 1 }

def updateShareConfiguration (r : Repository) (id expectedRevision : ℕ) (mutability : Mutability)
    (syncMode : SyncMode) : Except Failure Repository :=
  match r.getShare id with
  | none => .error .shareMissing
  | some current => do
    failIf (current.localRevision ≠ expectedRevision) .revisionConflict
    failIf (syncMode = .synchronized ∧ mutability ≠ .replaceable) .shareInvalid
    let nextState :=
      if current.remoteRevision = none then .unpublished
      else if mutability = .replaceable ∧ syncMode = .synchronized then .changesPending
      else .manualUpdateAvailable
    return r.setShare id fun share => share.configured mutability syncMode nextState

def updateShare (r : Repository) (id expectedRevision : ℕ) (patch : SharePatch) :
    Except Failure Repository :=
  match r.getShare id with
  | none => .error .shareMissing
  | some current => do
    failIf (current.localRevision ≠ expectedRevision) .revisionConflict
    return r.setShare id fun share => share.patched patch

/-- The remote has a newer revision of a share. -/
def applyRemoteEvent (r : Repository) (publicId : String) (revision : ℕ) (state : ShareState) :
    Repository :=
  match r.shares.find? fun share => share.remotePublicId = some publicId with
  | none => r
  | some share =>
    if share.remoteRevision.all (· < revision) then
      r.setShare share.id fun share => share.informed revision state
    else r

/-! ## Local revisions -/

def getLocalRevision (r : Repository) (id : ℕ) : Option LocalRevision :=
  r.revisions.find? fun revision => revision.id = id

/-- Store a projection, once for each manifest of a share. -/
def persistRevision (r : Repository) (shareId revision : ℕ) (projection : Projection) :
    Except Failure (ℕ × Repository) :=
  match r.revisions.find? fun stored =>
      stored.shareId = shareId ∧ stored.manifestHash = projection.manifestHash with
  | some existing => do
    failIf (existing.manifestJson ≠ projection.manifestJson) .manifestCollision
    return (existing.id, r)
  | none => do
    failIf (r.revisions.any (fun stored => stored.shareId = shareId ∧ stored.revision = revision)
      = true) .revisionNumberTaken
    return (r.nextRevisionId, { r with
      revisions := r.revisions ++
        [⟨r.nextRevisionId, shareId, revision, projection.manifestHash, projection.manifestJson⟩]
      nextRevisionId := r.nextRevisionId + 1 })

/-! ## Operations -/

/-- Update the row of an operation. -/
def setOperation (r : Repository) (id : ℕ) (f : PublicationOperation → PublicationOperation) :
    Repository :=
  { r with operations := updateWhere (fun operation => operation.id = id) f r.operations }

/-- The operation that is stored under a key. -/
def keyed (r : Repository) (key : IdempotencyKey) : Option PublicationOperation :=
  r.operations.find? fun operation => operation.idempotencyKey = key

/-- Queue an operation, or take up the one that has its key. -/
def enqueueOperation (r : Repository) (input : EnqueueInput) :
    Except Failure (ℕ × Repository) := do
  input.assertExpectation
  match r.keyed input.idempotencyKey with
  | some existing =>
    assertPublicationIntentReconciled existing
    failIf (¬immutableMatches existing input) .immutableRequestMismatch
    if existing.state = .cancelled then
      return (existing.id,
        r.setOperation existing.id fun operation => operation.requeued input.availableAtMs)
    else if existing.state = .failed ∧ input.retryIdenticalFailed then
      failIf (¬failedOperationCanBeRetried existing.failureCode) .failureNotEligible
      return (existing.id,
        r.setOperation existing.id fun operation => operation.retried input.availableAtMs)
    else return (existing.id, r)
  | none =>
    return (r.nextOperationId, { r with
      operations := r.operations ++ [input.operation r.nextOperationId]
      nextOperationId := r.nextOperationId + 1 })

def cancelPendingOperations (r : Repository) (shareId : ℕ) (kind : OperationKind) :
    Repository where
  shares := r.shares
  revisions := r.revisions
  operations := updateWhere (fun operation => operation.isPending shareId kind)
    PublicationOperation.cancelled r.operations
  nextShareId := r.nextShareId
  nextRevisionId := r.nextRevisionId
  nextOperationId := r.nextOperationId

def nextOperation (r : Repository) (at' : ℤ) : Option PublicationOperation :=
  (r.operations.filter (·.isRunnable at')).foldl earlier none

def updateOperation (r : Repository) (id : ℕ) (patch : OperationPatch) :
    Except Failure Repository :=
  match r.operations.find? fun operation => operation.id = id with
  | none => .error .operationMissing
  | some current => do
    assertPublicationIntentReconciled current
    return r.setOperation id fun operation => operation.patched patch

def recordRemoteStage (r : Repository) (id : ℕ) (input : RemoteStage) :
    Except Failure Repository := do
  failIf (¬(input.state = .failed ↔ input.failureCode ≠ none)) .remoteFailureStateInvalid
  failIf (¬(input.state = .active ↔ input.activationResult ≠ none)) .remoteActivationStateInvalid
  failIf (input.activationResult.any (fun result =>
    result.operationId ≠ input.operationId ∨ result.revisionId = 0) = true) .remoteActivationInvalid
  match r.operations.find? fun operation => operation.id = id with
  | none => .error .operationMissing
  | some current =>
    assertPublicationIntentReconciled current
    failIf (current.remoteOperationId.any (· ≠ input.operationId) = true) .remoteIdentityChanged
    if current.state = .succeeded then
      failIf (input.state ≠ .active ∨
        current.activationRevisionId ≠ input.activationResult.map (·.revisionId)) .evidenceChanged
      return r
    else
      return r.setOperation id fun operation => operation.staged input

def completePublication (r : Repository) (input : CompletionInput) : Except Failure Repository :=
  match r.operations.find? fun operation => operation.id = input.operationId with
  | none => .error .completionInvalid
  | some operation => do
    failIf (operation.shareId ≠ input.shareId ∨ operation.kind ≠ .publish) .completionInvalid
    assertPublicationIntentReconciled operation
    failIf (operation.expectedRemoteRevision.map (· + 1) ≠ some input.resultingRemoteRevision)
      .completionRevisionInvalid
    failIf (operation.remoteOperationId ≠ some input.remoteOperationId) .completionRemoteInvalid
    failIf ((r.revisions.find? fun revision =>
        operation.localRevisionId = some revision.id ∧ revision.shareId = input.shareId).map
      (·.manifestHash) ≠ some input.manifestHash) .completionManifestInvalid
    match r.getShare input.shareId with
    | none => .error .completionShareMissing
    | some share =>
      failIf (share.remotePublicId.any (· ≠ input.remotePublicId) = true)
        .completionPublicIdChanged
      if operation.state = .succeeded then
        failIf (operation.activationRevisionId ≠ some input.activationRevisionId)
          .completionActivationChanged
        failIf (share.remoteRevision.all (· < input.resultingRemoteRevision) = true)
          .completionBehind
        return r
      else
        return (r.setShare input.shareId fun share => share.advance input).setOperation
          input.operationId fun operation => operation.completed input.activationRevisionId

end Repository

end HomelabInventory.Sharing
