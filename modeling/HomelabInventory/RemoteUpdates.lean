import HomelabInventory.SharingPublication

/-!
# News from the remote

The events of the installation reach the shares behind a cursor. The answers of
the remote to what the service asks of it reach them as they come, before or
after the events of the same revisions.
-/

namespace HomelabInventory.Sharing

open Repository

/-! ## Remote events -/

inductive RemoteEventKind
  | publication
  | replacement
  | unpublish
  | deletion
  | expiration
  | gracePeriod
  | accountClaim
  | accountUnlink
  | recovery
deriving DecidableEq

/-- What the payload of an event has to say. A revision that is no safe integer counts as 0. -/
structure RemoteEventPayload where
  sharePublicId : String := ""
  revision : ℤ := 0
  state : String
deriving DecidableEq

structure RemoteEvent where
  id : ℕ
  kind : RemoteEventKind
  payload : RemoteEventPayload
deriving DecidableEq

/-- What `applyRemoteEvent` throws. -/
inductive RemoteEventFailure
  | cursorInvalid
  | accountClaim
  | recoveryStateInvalid
  | shareStateInvalid
  | shareRevisionInvalid
  | sharePublicIdInvalid
deriving DecidableEq

/-- The state of the installation after a recovery event. -/
def recoveryState (state : String) : Except RemoteEventFailure String :=
  if state = "active" then .ok "active"
  else if state = "recovery-pending" then .ok "recovery-pending"
  else if state = "revoked" then .ok "disabled"
  else .error .recoveryStateInvalid

def remoteShareState (state : String) : Except RemoteEventFailure ShareState :=
  if state = "staged" then .ok .publishing
  else if state = "active" then .ok .synced
  else if state = "unpublished" then .ok .unpublished
  else if state = "deleted" then .ok .deleted
  else if state = "expired" then .ok .expired
  else .error .shareStateInvalid

/-- `/^[A-Za-z0-9_-]{1,128}$/u` -/
def isPublicId (publicId : String) : Bool :=
  publicId.toList ≠ [] ∧ publicId.toList.length ≤ 128 ∧
    publicId.toList.all fun character =>
      character.isAlphanum || character == '_' || character == '-'

/-! ## The installation -/

/-- The sharing of one installation: its requests and its coordinator, how far it has read the
events of the remote, and the state that the remote has it in. -/
structure Installation where
  system : System := {}
  remoteEventCursor : ℕ := 0
  state : String := "active"

/-- The remote has news of a share. -/
def System.informed (s : System) (payload : RemoteEventPayload) (state : ShareState) : System :=
  { s with
    repository := s.repository.applyRemoteEvent payload.sharePublicId payload.revision.toNat
      state }

namespace Installation

/-- The event is about a share. -/
def applyShareEvent (i : Installation) (payload : RemoteEventPayload) :
    Except RemoteEventFailure Installation := do
  let state ← remoteShareState payload.state
  failIf (payload.revision ≤ 0) .shareRevisionInvalid
  failIf (isPublicId payload.sharePublicId = false) .sharePublicIdInvalid
  return { i with system := i.system.informed payload state }

/-- What an event changes apart from the cursor. -/
def applyEventPayload (i : Installation) (event : RemoteEvent) :
    Except RemoteEventFailure Installation :=
  match event.kind with
  | .accountClaim => .error .accountClaim
  | .recovery => do
    let state ← recoveryState event.payload.state
    return { i with state := state }
  | _ => i.applyShareEvent event.payload

/-- An event of the remote. An event at or before the cursor was read before. -/
def applyRemoteEvent (i : Installation) (event : RemoteEvent) :
    Except RemoteEventFailure Installation := do
  failIf (event.id = 0) .cursorInvalid
  if event.id ≤ i.remoteEventCursor then
    return i
  else
    let changed ← i.applyEventPayload event
    return { changed with remoteEventCursor := event.id }

/-- The account was reconciled for an event of the stream, which is read with it. -/
def reconcileAccountStatus (i : Installation) (eventCursor : Option ℕ) : Installation :=
  { i with remoteEventCursor := max i.remoteEventCursor (eventCursor.getD 0) }

end Installation

/-! ## Steps -/

/-- What happens next: an event of the remote is applied, a publication that was completed is
completed again, or the service goes on. -/
inductive Update where
  | remoteEvent (event : RemoteEvent)
  | accountReconciled (eventCursor : Option ℕ)
  | completionReplayed (input : CompletionInput)
  | service (event : Event)

/-- The service never applies an event past the cursor. -/
def Event.isRemoteEvent : Event → Bool
  | .remoteEvent .. => true
  | _ => false

/-- The publication was completed. -/
def Repository.isCompleted (r : Repository) (operationId : ℕ) : Bool :=
  r.operations.any fun operation =>
    operation.id = operationId ∧ operation.kind = .publish ∧ operation.state = .succeeded

/-- One update, when it can happen. What throws changes nothing. -/
def Installation.step (i : Installation) : Update → Option Installation
  | .remoteEvent event => some ((i.applyRemoteEvent event).toOption.getD i)
  | .accountReconciled eventCursor => some (i.reconcileAccountStatus eventCursor)
  | .completionReplayed input =>
    if i.system.repository.isCompleted input.operationId then
      some { i with system := i.system.commit (i.system.repository.completePublication input) }
    else none
  | .service event =>
    if event.isRemoteEvent then none
    else (i.system.step event).map fun system => { i with system := system }

/-! ## What a step hears from the remote -/

/-- What `completeStagedPublication` completes the publication with. -/
def Publication.completionInput (publication : Publication) (remotePublicId : String)
    (stage : RemoteStage) : Option CompletionInput :=
  match stage.activationResult, publication.operation.expectedRemoteRevision with
  | some activation, some expectedRemoteRevision => some
    { shareId := publication.share.id
      operationId := publication.operation.id
      remoteOperationId := stage.operationId
      remotePublicId := publication.share.remotePublicId.getD remotePublicId
      resultingRemoteRevision := expectedRemoteRevision + 1
      manifestHash := publication.revision.manifestHash
      activationRevisionId := activation.revisionId }
  | _, _ => none

/-- The completion that an event brings. -/
def System.completion (s : System) : Event → Option CompletionInput
  | .staged remotePublicId (some stage) =>
    match s.worker with
    | .staging publication =>
      if stage.state = .active then publication.completionInput remotePublicId stage else none
    | _ => none
  | .restaged remotePublicId (some stage) =>
    match s.worker with
    | .restaging publication =>
      if stage.state = .active then publication.completionInput remotePublicId stage else none
    | _ => none
  | .activated remotePublicId (some activation) =>
    match s.worker with
    | .activating publication stage => publication.completionInput remotePublicId
      { stage with activationResult := some activation }
    | _ => none
  | _ => none

/-- The answer of the remote to a request for a share. That of a new password has no state. -/
structure RemoteAnswer where
  shareId : ℕ
  revision : ℕ
  state : Option ShareState

/-- The answer that an event brings. -/
def System.answer (s : System) : Event → Option RemoteAnswer
  | .remoteAnswer shareId revision state => some ⟨shareId, revision, state⟩
  | .configure shareId _ _ _ (some (revision, state)) _ => some ⟨shareId, revision, some state⟩
  | .lifecycleDone (some (revision, state)) =>
    match s.worker with
    | .lifecycle operation => some ⟨operation.shareId, revision, some state⟩
    | _ => none
  | _ => none

/-- The share that an event finds to be published as it is. -/
def System.found (s : System) : Event → Option ℕ
  | .proceed index _ =>
    match s.tasks[index]? with
    | some (.schedulePreviewed share _ manifestHash _) =>
      if share.activeManifestHash = some manifestHash then some share.id else none
    | _ => none
  | _ => none

/-! ## The record of a run -/

/-- What a run notes for the record: nothing reads it. -/
inductive Notice where
  | applied (event : RemoteEvent)
  | completion (input : CompletionInput)
  | answer (publicId : String) (revision : ℕ)
  | set (shareId : ℕ) (state : ShareState)

/-- The notice is news of a revision of a share. -/
def Notice.sees : Notice → String → ℕ → Prop
  | .applied event, publicId, revision =>
    event.kind ≠ .recovery ∧ event.payload.sharePublicId = publicId ∧
      event.payload.revision = revision
  | .completion input, publicId, revision =>
    input.remotePublicId = publicId ∧ input.resultingRemoteRevision = revision
  | .answer publicId' revision', publicId, revision => publicId' = publicId ∧ revision' = revision
  | .set .., _, _ => False

/-- The shares that a step has set by itself. -/
def System.rewritten (s s' : System) : List Notice :=
  (s'.repository.shares.filter fun share => share ∉ s.repository.shares).map fun share =>
    .set share.id share.state

/-- What a step of the service is noted as. -/
def System.notices (s : System) (event : Event) (s' : System) : List Notice :=
  match s.completion event, s.answer event with
  | some input, _ => if s'.worker.held = none then [.completion input] else []
  | none, some answer =>
    match (s.repository.getShare answer.shareId).bind (·.remotePublicId) with
    | some publicId =>
      if s'.repository.shares = s.repository.shares then []
      else [.answer publicId answer.revision]
    | none => []
  | none, none => s.rewritten s'

/-- What an update is noted as. -/
def Installation.notices (i : Installation) (update : Update) (i' : Installation) : List Notice :=
  match update with
  | .remoteEvent event => if i'.remoteEventCursor = i.remoteEventCursor then [] else [.applied event]
  | .accountReconciled _ | .completionReplayed _ => []
  | .service event => i.system.notices event i'.system

/-- An installation, with the record of the run that led to it. -/
structure Record where
  installation : Installation := {}
  log : List Notice := []

/-- The updates that lead from one record to another, and all meet a condition. -/
inductive Runs (condition : Record → Update → Prop) : Record → Record → Prop where
  | refl (r : Record) : Runs condition r r
  | step {r r' : Record} {i : Installation} (update : Update) :
    Runs condition r r' → condition r' update → r'.installation.step update = some i →
    Runs condition r ⟨i, r'.log ++ r'.installation.notices update i⟩

end HomelabInventory.Sharing
