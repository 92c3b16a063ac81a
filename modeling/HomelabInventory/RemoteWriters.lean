import HomelabInventory.Republication
import HomelabInventory.RemoteUpdates

/-!
# Who writes what

What a step of the service does to the shares and to the publications that are
completed: most steps leave what the row of a share says of the remote, and
bring it to a state of this side. The others complete a publication, or take an
answer.
-/

namespace HomelabInventory.Sharing

open Repository Option

/-! ## Steps of this side -/

/-- What this side sets a share to, that the remote has no part in. -/
def ShareState.isLocal : ShareState → Bool
  | .previewReady | .publishing | .changesPending | .manualUpdateAvailable | .failed => true
  | _ => false

/-- The row says the same of the remote. -/
structure ShareRecord.SameRemote (share share' : ShareRecord) : Prop where
  id : share'.id = share.id
  remotePublicId : share'.remotePublicId = share.remotePublicId
  remoteRevision : share'.remoteRevision = share.remoteRevision
  activeManifestHash : share'.activeManifestHash = share.activeManifestHash

/-- What this side may set the state of a share to: it is synced when it was found to be. -/
def ShareRecord.SetsTo (share : ShareRecord) (found : Option ℕ) (state : ShareState) : Prop :=
  share.remoteRevision = none ∨ state.isLocal = true ∨
    found = some share.id ∧ share.state ≠ .synced ∧ state = .synced

/-- The share is one that was just created. -/
structure ShareRecord.IsNew (share : ShareRecord) (id : ℕ) : Prop where
  id : share.id = id
  remotePublicId : share.remotePublicId = none
  remoteRevision : share.remoteRevision = none
  activeManifestHash : share.activeManifestHash = none

def PublicationOperation.IsCompleted (operation : PublicationOperation) : Prop :=
  operation.kind = .publish ∧ operation.state = .succeeded

/-- A statement that leaves the shares, and the publications that are completed. -/
structure OperationsOnly (r r' : Repository) : Prop where
  shares : r'.shares = r.shares
  nextShareId : r'.nextShareId = r.nextShareId
  completed : ∀ operation : PublicationOperation, operation.IsCompleted →
    (operation ∈ r'.operations ↔ operation ∈ r.operations)

theorem OperationsOnly.refl (r : Repository) : OperationsOnly r r := ⟨rfl, rfl, fun _ _ => Iff.rfl⟩

theorem OperationsOnly.trans {r r' r'' : Repository} (h : OperationsOnly r r')
    (h' : OperationsOnly r' r'') : OperationsOnly r r'' where
  shares := h'.shares.trans h.shares
  nextShareId := h'.nextShareId.trans h.nextShareId
  completed operation hop := (h'.completed operation hop).trans (h.completed operation hop)

/-- **What a step of this side does**: it sets shares to states of its own, and completes no
publication. -/
structure Own (found : Option ℕ) (r r' : Repository) : Prop where
  shares : ∀ share' ∈ r'.shares, share' ∈ r.shares ∨ share'.IsNew r.nextShareId ∨
    ∃ share ∈ r.shares, share.SameRemote share' ∧ share.SetsTo found share'.state
  completed : ∀ operation : PublicationOperation, operation.IsCompleted →
    (operation ∈ r'.operations ↔ operation ∈ r.operations)

variable {r r' r₁ : Repository}
variable {found : Option ℕ}

/-- A step on operations alone comes before. -/
theorem Own.after (h : Own found r₁ r') (hbefore : OperationsOnly r r₁) : Own found r r' where
  shares := hbefore.nextShareId ▸ hbefore.shares ▸ h.shares
  completed operation hop := (h.completed operation hop).trans (hbefore.completed operation hop)

theorem OperationsOnly.own (h : OperationsOnly r r') (found : Option ℕ) : Own found r r' where
  shares _ hmem := .inl (h.shares ▸ hmem)
  completed := h.completed

variable {expectedRevision id revision shareId : ℕ}

theorem Own.setShare {f : ShareRecord → ShareRecord}
    (hf : ∀ share ∈ r.shares, share.id = id →
      share.SameRemote (f share) ∧ share.SetsTo found (f share).state) :
    Own found r (r.setShare id f) where
  shares share' h := by
    obtain ⟨share, hmem, rfl⟩ := mem_updateWhere.mp h
    by_cases hid : share.id = id
    · simp only [hid, decide_true, if_true]
      exact .inr (.inr ⟨share, hmem, hf share hmem hid⟩)
    · simp only [hid, decide_false, Bool.false_eq_true, if_false]
      exact .inl hmem
  completed _ _ := Iff.rfl

theorem Own.updateShare (hc : r.outline.Coherent)
    {patch : SharePatch} (h : r.updateShare id revision patch = .ok r')
    (hrevision : patch.remoteRevision = none)
    (hstate : ∀ share, r.getShare id = some share →
      share.SetsTo found (patch.state.getD share.state)) : Own found r r' := by
  obtain ⟨_, -, -, rfl⟩ := updateShare_eq_ok h
  refine .setShare fun share hmem hid => ⟨⟨rfl, rfl, ?_, rfl⟩, ?_⟩
  · simp [ShareRecord.patched, hrevision]
  · exact hstate share (hid ▸ getShare_of_mem hc hmem)

/-! ## Statements on operations -/

theorem completed_setOperation {f : PublicationOperation → PublicationOperation}
    (hf : ∀ row ∈ r.operations, row.id = id → ¬row.IsCompleted ∧ ¬(f row).IsCompleted)
    (operation : PublicationOperation) (hop : operation.IsCompleted) :
    operation ∈ (r.setOperation id f).operations ↔ operation ∈ r.operations := by
  rw [mem_setOperation]
  constructor
  · rintro ⟨row, hrow, rfl⟩
    split at hop
    · rename_i hid
      exact absurd hop (hf row hrow hid).2
    · rename_i hid
      rwa [if_neg hid]
  · intro hmem
    refine ⟨operation, hmem, if_neg fun hid => ?_⟩
    exact (hf operation hmem hid).1 hop

theorem OperationsOnly.setOperation {f : PublicationOperation → PublicationOperation}
    (hf : ∀ row ∈ r.operations, row.id = id → ¬row.IsCompleted ∧ ¬(f row).IsCompleted) :
    OperationsOnly r (r.setOperation id f) :=
  ⟨rfl, rfl, completed_setOperation hf⟩

theorem enqueueOperation_operationsOnly (hc : r.outline.Coherent) {input : EnqueueInput}
    (h : r.enqueueOperation input = .ok (id, r')) : OperationsOnly r r' := by
  -- the row that is enqueued again was cancelled, or has failed
  have hstored : ∀ {existing : PublicationOperation}, r.keyed input.idempotencyKey = some existing →
      existing.id = id → existing.state ≠ .succeeded → ∀ row ∈ r.operations, row.id = id →
      ¬row.IsCompleted := by
    intro existing hkeyed hid hstate row hrow hrowId hrowCompleted
    obtain rfl : row = existing :=
      operation_eq_of_id hc hrow (List.mem_of_find?_eq_some hkeyed) (hrowId.trans hid.symm)
    exact hstate hrowCompleted.2
  obtain ⟨existing, hkeyed, hid, -, ⟨hstate, rfl⟩ | ⟨hstate, -, rfl⟩ | ⟨-, rfl⟩⟩ | ⟨-, rfl, -, rfl⟩ :=
    enqueueOperation_eq_ok h
  · refine .setOperation fun row hrow hrowId => ⟨?_, fun hdone => ?_⟩
    · exact hstored hkeyed hid (by simp [hstate]) row hrow hrowId
    · simp [PublicationOperation.IsCompleted, PublicationOperation.requeued] at hdone
  · refine .setOperation fun row hrow hrowId => ⟨?_, fun hdone => ?_⟩
    · exact hstored hkeyed hid (by simp [hstate]) row hrow hrowId
    · simp [PublicationOperation.IsCompleted, PublicationOperation.retried] at hdone
  · exact .refl r'
  · refine ⟨rfl, rfl, fun operation hop => ?_⟩
    rw [List.mem_append, List.mem_singleton, or_iff_left]
    rintro rfl
    exact absurd hop.2 (by simp [EnqueueInput.operation])

theorem cancelPendingOperations_operationsOnly (r : Repository) (shareId : ℕ)
    (kind : OperationKind) : OperationsOnly r (r.cancelPendingOperations shareId kind) := by
  refine ⟨rfl, rfl, fun operation hop => ?_⟩
  have hmem : operation ∈ (r.cancelPendingOperations shareId kind).operations ↔
      ∃ row ∈ r.operations,
        (if row.isPending shareId kind then row.cancelled else row) = operation := by
    simp [cancelPendingOperations, mem_updateWhere]
  rw [hmem]
  constructor
  · rintro ⟨row, hrow, rfl⟩
    split at hop
    · exact absurd hop.2 (by simp [PublicationOperation.cancelled])
    · rename_i hpending
      rwa [if_neg hpending]
  · intro hrow
    refine ⟨operation, hrow, if_neg ?_⟩
    simp [PublicationOperation.isPending, hop.2]

/-- The rows of the operation are no completed publication. -/
def Repository.Open (r : Repository) (operation : PublicationOperation) : Prop :=
  ∀ row ∈ r.operations, row.id = operation.id → ¬row.IsCompleted

variable {operation : PublicationOperation}

theorem Repository.Open.own (h : r.Open operation) (hown : Own found r r') : r'.Open operation :=
  fun row hrow hid hcompleted =>
    h row ((hown.completed row hcompleted).mp hrow) hid hcompleted

theorem recordRemoteStage_operationsOnly (hopen : r.Open operation) {stage : RemoteStage}
    (h : r.recordRemoteStage operation.id stage = .ok r') : OperationsOnly r r' := by
  obtain ⟨_, -, ⟨-, -, rfl⟩ | ⟨-, rfl⟩⟩ := recordRemoteStage_eq_ok h
  · exact .refl r'
  · refine .setOperation fun row hrow hid => ⟨hopen row hrow hid, fun hdone => ?_⟩
    simp [PublicationOperation.IsCompleted, PublicationOperation.staged] at hdone

/-- An operation is updated that is no publication, or does not succeed by it. -/
theorem updateOperation_operationsOnly (hopen : r.Open operation) {patch : OperationPatch}
    (hpatch : ∀ row ∈ r.operations, row.id = operation.id → row.kind = .publish →
      patch.state ≠ .succeeded)
    (h : r.updateOperation operation.id patch = .ok r') :
    r'.outline = r.outline ∧ OperationsOnly r r' := by
  obtain rfl := updateOperation_eq_ok h
  refine ⟨setOperation_outline fun _ => rfl,
    .setOperation fun row hrow hid => ⟨hopen row hrow hid, fun hdone => ?_⟩⟩
  exact hpatch row hrow hid hdone.1 hdone.2

/-! ## Requests -/

theorem persistRevision_own {projection : Projection} (found : Option ℕ)
    (h : r.persistRevision shareId revision projection = .ok (id, r')) : Own found r r' := by
  obtain ⟨-, -, hshares, hoperations⟩ := persistRevision_advances h
  exact ⟨fun _ hmem => .inl (hshares ▸ hmem), fun _ _ => by rw [hoperations]⟩

theorem projected_own (hc : r.outline.Coherent) {projection : Projection} {task : Task}
    {left : Option Task} (found : Option ℕ) (h : task.projected r projection = .ok (left, r')) :
    Own found r r' := by
  cases task with
  | preview | publish | schedule =>
    obtain ⟨⟨id, r₁⟩, hpersist, h⟩ := bind_eq_ok.mp h
    obtain ⟨rfl, rfl⟩ := Prod.mk.inj (pure_eq_ok.mp h)
    exact persistRevision_own found hpersist
  | approve =>
    obtain ⟨_, -, h⟩ := bind_eq_ok.mp h
    obtain ⟨r₁, hupdate, h⟩ := bind_eq_ok.mp h
    obtain ⟨rfl, rfl⟩ := Prod.mk.inj (pure_eq_ok.mp h)
    exact .updateShare hc hupdate rfl fun _ _ => .inr (.inl rfl)
  | publishPreviewed | schedulePreviewed =>
    obtain ⟨rfl, rfl⟩ := Prod.mk.inj (Except.ok.inj h)
    exact (OperationsOnly.refl _).own found

theorem enqueuePreviewed_own (hc : r.outline.Coherent) {shareId localRevisionId id : ℕ}
    {manifestHash : String} {now : ℤ} (found : Option ℕ)
    (hstored : Stored r.revisions localRevisionId shareId manifestHash)
    (h : enqueuePreviewed r shareId localRevisionId manifestHash now = .ok (id, r')) :
    Own found r r' := by
  obtain ⟨current, r₁, -, -, henqueue, hupdate⟩ := enqueuePreviewed_eq_ok h
  have hc₁ := (enqueueOperation_advances henqueue rfl fun _ => ⟨_, rfl, hstored, rfl⟩).coherent hc
  exact (Own.updateShare hc₁ hupdate rfl fun _ _ => .inr (.inl rfl)).after
    (enqueueOperation_operationsOnly hc henqueue)

/-- A share that is found to be published as it is becomes synced. -/
theorem schedulePreviewed_own (hc : r.outline.Coherent) (share : ShareRecord) (localRevisionId : ℕ)
    (manifestHash : String) (availableAtMs : ℤ) :
    Own (if share.activeManifestHash = some manifestHash then some share.id else none) r
      (schedulePreviewed r share localRevisionId manifestHash availableAtMs).2 := by
  have hcancelled := cancelPendingOperations_operationsOnly r share.id .publish
  have hc₁ : (r.cancelPendingOperations share.id .publish).outline.Coherent := by
    rwa [cancelPendingOperations_outline]
  rcases schedulePreviewed_cases r share localRevisionId manifestHash availableAtMs with
    ⟨_, h⟩ | ⟨r', h, hactive, hmarked⟩ | ⟨id, r', h, -, henqueue⟩
  · rw [h]
    exact hcancelled.own _
  · rw [h, if_pos hactive]
    simp only [markSynced] at hmarked
    split at hmarked
    · cases hmarked
    · rename_i current hcurrent
      split at hmarked
      · rename_i hstate
        refine Own.after (.updateShare hc₁ hmarked rfl fun other hother => ?_) hcancelled
        obtain rfl := Option.some.inj (hcurrent.symm.trans hother)
        exact .inr (.inr ⟨congrArg some (getShare_eq_some hcurrent).2.symm, hstate, rfl⟩)
      · obtain rfl := Except.ok.inj hmarked
        exact hcancelled.own _
  · rw [h]
    exact (hcancelled.trans (enqueueOperation_operationsOnly hc₁ henqueue)).own _

variable {mutability : Mutability}
variable {syncMode : SyncMode}

theorem createShare_own (found : Option ℕ) (h : r.createShare mutability syncMode = .ok r') :
    Own found r r' := by
  obtain ⟨_, -, h⟩ := bind_eq_ok.mp h
  obtain rfl := pure_eq_ok.mp h
  refine ⟨fun share hmem => ?_, fun _ _ => Iff.rfl⟩
  rcases List.mem_append.mp hmem with hold | hnew
  · exact .inl hold
  · obtain rfl := List.mem_singleton.mp hnew
    exact .inr (.inl ⟨rfl, rfl, rfl, rfl⟩)

theorem resourceSnapshotSaved_own (hc : r.outline.Coherent) (found : Option ℕ)
    (h : resourceSnapshotSaved r shareId = .ok r') : Own found r r' := by
  simp only [resourceSnapshotSaved] at h
  split at h
  · cases h
  · rename_i share hshare
    refine .updateShare hc h rfl fun other hother => ?_
    obtain rfl := Option.some.inj (hshare.symm.trans hother)
    by_cases hrevision : share.remoteRevision = none
    · exact .inl hrevision
    · refine .inr (.inl ?_)
      rw [getD_some, if_neg hrevision]
      split <;> rfl

theorem markRelevantChange_own (hc : r.outline.Coherent) (found : Option ℕ)
    (h : markRelevantChange r shareId = .ok r') : Own found r r' := by
  simp only [markRelevantChange] at h
  split at h
  · obtain rfl := Except.ok.inj h
    exact (OperationsOnly.refl r).own found
  · split at h
    · obtain rfl := Except.ok.inj h
      exact (OperationsOnly.refl r).own found
    · refine .updateShare hc h rfl fun _ _ => .inr (.inl ?_)
      rw [getD_some]
      split <;> rfl

/-- The settings of a share that the remote has no part in. -/
theorem updateShareConfiguration_own (hc : r.outline.Coherent) (found : Option ℕ)
    (h : r.updateShareConfiguration id expectedRevision mutability syncMode = .ok r') :
    Own found r r' := by
  simp only [updateShareConfiguration] at h
  split at h
  · cases h
  · rename_i current hcurrent
    obtain ⟨_, -, h⟩ := bind_eq_ok.mp h
    obtain ⟨_, -, h⟩ := bind_eq_ok.mp h
    obtain rfl := pure_eq_ok.mp h
    refine .setShare fun share hmem hid => ⟨⟨rfl, rfl, rfl, rfl⟩, ?_⟩
    obtain rfl := Option.some.inj (hcurrent.symm.trans (hid ▸ getShare_of_mem hc hmem))
    by_cases hrevision : current.remoteRevision = none
    · exact .inl hrevision
    · refine .inr (.inl ?_)
      simp only [ShareRecord.configured, if_neg hrevision]
      split <;> rfl

theorem enqueueLifecycle_own (hc : r.outline.Coherent) {kind : OperationKind} {now : ℤ}
    (found : Option ℕ) (h : enqueueLifecycle r shareId kind now = .ok (id, r')) :
    Own found r r' := by
  simp only [enqueueLifecycle] at h
  split at h
  · cases h
  · split at h
    · exact (enqueueOperation_operationsOnly hc h).own found
    · cases h

/-! ## The coordinator -/

theorem recordFailure_own (hc : r.outline.Coherent) (hopen : r.Open operation)
    (disposition : FailureDisposition) (found : Option ℕ) :
    Own found r (recordFailure r operation disposition) := by
  rcases recordFailure_eq r operation disposition with hsame | ⟨r', hupdate, hshare⟩
  · rw [hsame]
    exact (OperationsOnly.refl r).own found
  · obtain ⟨houtline, hsame⟩ := updateOperation_operationsOnly hopen
      (fun _ _ _ _ => by dsimp only; split <;> exact OperationState.noConfusion) hupdate
    rcases hshare with hresult | ⟨_, _, hshare⟩
    · rw [hresult]
      exact hsame.own found
    · exact Own.after (.updateShare (houtline ▸ hc) hshare rfl fun _ _ => .inr (.inl rfl)) hsame

/-- The rows after an answer of the remote for a share. -/
structure Answered (answer : RemoteAnswer) (share share' : ShareRecord) : Prop where
  id : share'.id = share.id
  remotePublicId : share'.remotePublicId = share.remotePublicId
  activeManifestHash : share'.activeManifestHash = share.activeManifestHash
  remoteRevision : share'.remoteRevision = some answer.revision
  state : share'.state = answer.state.getD share.state

/-- **What an answer does**: it is written into its share, whatever the share knows. -/
structure Answers (answer : RemoteAnswer) (r r' : Repository) : Prop where
  shares : ∀ share' ∈ r'.shares, (share' ∈ r.shares ∧ share'.id ≠ answer.shareId) ∨
    ∃ share ∈ r.shares, share.id = answer.shareId ∧ Answered answer share share'
  completed : ∀ operation : PublicationOperation, operation.IsCompleted →
    (operation ∈ r'.operations ↔ operation ∈ r.operations)

theorem Answers.setShare {answer : RemoteAnswer} {f : ShareRecord → ShareRecord}
    (hf : ∀ share ∈ r.shares, share.id = answer.shareId → Answered answer share (f share)) :
    Answers answer r (r.setShare answer.shareId f) where
  shares share' h := by
    obtain ⟨share, hmem, rfl⟩ := mem_updateWhere.mp h
    by_cases hid : share.id = answer.shareId
    · simp only [hid, decide_true, if_true]
      exact .inr ⟨share, hmem, hid, hf share hmem hid⟩
    · simp only [hid, decide_false, Bool.false_eq_true, if_false]
      exact .inl ⟨hmem, hid⟩
  completed _ _ := Iff.rfl

theorem remoteAnswered_answers {answer : RemoteAnswer}
    (h : System.remoteAnswered r answer.shareId answer.revision answer.state = .ok r') :
    Answers answer r r' := by
  simp only [System.remoteAnswered] at h
  split at h
  · cases h
  · obtain ⟨_, -, -, rfl⟩ := updateShare_eq_ok h
    exact .setShare fun share _ _ => ⟨rfl, rfl, rfl, rfl, rfl⟩

/-- The settings of a share, which the remote has changed before. -/
theorem configured_answers
    {state : ShareState}
    (h : System.configured r shareId expectedRevision mutability syncMode (some (revision, state)) =
      .ok r') : Answers ⟨shareId, revision, some state⟩ r r' := by
  obtain ⟨r₁, hconfigure, h⟩ := bind_eq_ok.mp h
  obtain ⟨current, nextState, hcurrent, -, rfl⟩ := updateShareConfiguration_eq_ok hconfigure
  have hupdated : (r.setShare shareId fun share => share.configured mutability syncMode
      nextState).getShare shareId = some (current.configured mutability syncMode nextState) :=
    getShare_setShare (f := fun share => share.configured mutability syncMode nextState)
      (fun _ => rfl) hcurrent
  simp only [hupdated] at h
  obtain ⟨_, -, -, rfl⟩ := updateShare_eq_ok h
  refine ⟨fun share' hmem => ?_, fun _ _ => Iff.rfl⟩
  obtain ⟨share, hshare, rfl⟩ := mem_updateWhere.mp hmem
  obtain ⟨before, hbefore, rfl⟩ := mem_updateWhere.mp hshare
  by_cases hid : before.id = shareId
  · refine .inr ⟨before, hbefore, hid, ?_⟩
    simp only [hid, decide_true, if_true, ShareRecord.configured]
    exact ⟨hid.symm ▸ rfl, rfl, rfl, rfl, rfl⟩
  · simp only [hid, decide_false, Bool.false_eq_true, if_false]
    exact .inl ⟨hbefore, hid⟩

theorem completeLifecycle_answers (hc : r.outline.Coherent)
    (hrequest : operation.request ∈ r.outline.requests) (hkind : operation.kind ≠ .publish)
    (hopen : r.Open operation) (revision : ℕ) (state : ShareState) :
    OperationsOnly r (completeLifecycle r operation revision state).2 ∨
      Answers ⟨operation.shareId, revision, some state⟩ r
        (completeLifecycle r operation revision state).2 := by
  -- the rows of the operation are no publications
  have hrow : ∀ row ∈ r.operations, row.id = operation.id → row.kind = .publish →
      OperationState.succeeded ≠ .succeeded := by
    intro row hrow hid hpublish
    obtain ⟨stored, hstored, hsame⟩ := List.mem_map.mp hrequest
    obtain ⟨-, -, hkind', hid'⟩ := manifestHash_of_request hsame
    rw [operation_eq_of_id hc hrow hstored (hid.trans hid'.symm), hkind'] at hpublish
    exact absurd hpublish hkind
  simp only [completeLifecycle]
  split
  · exact .inl (.refl r)
  · rename_i r' hupdate
    obtain ⟨-, hsame⟩ := updateOperation_operationsOnly hopen hrow hupdate
    split
    · exact .inl hsame
    · rename_i current hcurrent
      obtain ⟨-, hid⟩ := getShare_eq_some hcurrent
      split
      · exact .inl hsame
      · rename_i r'' hshare
        obtain ⟨_, -, -, rfl⟩ := updateShare_eq_ok hshare
        rw [hid]
        have hanswers : Answers ⟨operation.shareId, revision, some state⟩ r'
            (r'.setShare operation.shareId fun share => share.patched
              { state := some state, remoteRevision := some revision }) :=
          .setShare fun share _ _ => ⟨rfl, rfl, rfl, rfl, rfl⟩
        exact .inr ⟨hsame.shares ▸ hanswers.shares, fun row hdone =>
          (hanswers.completed row hdone).trans (hsame.completed row hdone)⟩

/-- What the coordinator may come to with a publication: it goes on, or completes it. -/
inductive Worked (r : Repository) (operation : PublicationOperation)
    (completion : Option CompletionInput) : Worker × Repository → Prop where
  | goesOn {worker : Worker} {r' : Repository} : OperationsOnly r r' →
    worker.held = some operation → Worked r operation completion (worker, r')
  | completes {input : CompletionInput} {r₁ r' : Repository} : completion = some input →
    OperationsOnly r r₁ → r₁.outline = r.outline → r₁.completePublication input = .ok r' →
    Worked r operation completion (.idle, r')

theorem completeStaged_worked (h : OperationsOnly r r₁) (houtline : r₁.outline = r.outline)
    (publication : Publication) (remotePublicId : String) (stage : RemoteStage) :
    Worked r publication.operation (publication.completionInput remotePublicId stage)
      (completeStaged r₁ publication remotePublicId stage) := by
  cases hactivation : stage.activationResult with
  | none =>
    simp only [completeStaged, Publication.completionInput, hactivation]
    exact .goesOn h rfl
  | some activation =>
    cases hexpected : publication.operation.expectedRemoteRevision with
    | none =>
      simp only [completeStaged, Publication.completionInput, hactivation, hexpected]
      exact .goesOn h rfl
    | some expectedRemoteRevision =>
      simp only [completeStaged, Publication.completionInput, hactivation, hexpected]
      by_cases hinvalid : activation.operationId ≠ stage.operationId ∨ activation.revisionId = 0
      · rw [if_pos hinvalid]
        exact .goesOn h rfl
      · rw [if_neg hinvalid]
        split
        · rename_i hcompleted
          exact .completes rfl h houtline hcompleted
        · exact .goesOn h rfl

theorem recorded_worked {publication : Publication} {remotePublicId : String}
    {stage : RemoteStage} {next : Worker × Repository}
    (hnext : next = staged r publication remotePublicId stage ∨
      next = restaged r publication remotePublicId stage)
    (hopen : r.Open publication.operation) :
    Worked r publication.operation
      (if stage.state = .active then publication.completionInput remotePublicId stage else none)
      next := by
  obtain rfl | ⟨r₁, hrecorded, hnext⟩ := recorded_cases hnext
  · exact .goesOn (.refl r) rfl
  · have hsame := recordRemoteStage_operationsOnly hopen hrecorded
    obtain ⟨hactive, rfl⟩ | ⟨-, rfl | rfl⟩ := hnext
    · rw [if_pos hactive]
      exact completeStaged_worked hsame (recordRemoteStage_outline hrecorded) publication
        remotePublicId stage
    · exact .goesOn hsame rfl
    · exact .goesOn hsame (uploads_held publication stage stage.missingHashes)

/-! ## Steps -/

/-- The operation that the coordinator holds is no publication that is completed. -/
def System.HoldsOpen (s : System) : Prop :=
  ∀ operation, s.worker.held = some operation → s.repository.Open operation

/-- **What a step of the service does.** -/
inductive Effect (s : System) (event : Event) (s' : System) : Prop where
  | own : s.completion event = none → s.answer event = none →
    Own (s.found event) s.repository s'.repository → Effect s event s'
  | goesOn : s'.worker.held ≠ none → s.answer event = none →
    OperationsOnly s.repository s'.repository → Effect s event s'
  | completes {input : CompletionInput} {r₁ : Repository} : s.completion event = some input →
    s'.worker = .idle → OperationsOnly s.repository r₁ → r₁.outline = s.repository.outline →
    r₁.completePublication input = .ok s'.repository → Effect s event s'
  | answers {answer : RemoteAnswer} : s.completion event = none → s.answer event = some answer →
    (OperationsOnly s.repository s'.repository ∨
      Answers answer s.repository s'.repository) → Effect s event s'

variable {s s' : System}
variable {event : Event}

/-- The coordinator has worked on the publication that it holds. -/
theorem Worked.effect {result : Worker × Repository}
    (h : Worked s.repository operation (s.completion event) result)
    (hanswer : s.answer event = none) : Effect s event (s.work result) := by
  cases h with
  | goesOn hsame hheld =>
    refine .goesOn ?_ hanswer hsame
    exact fun hnone => some_ne_none _ (hheld.symm.trans hnone)
  | completes hcompletion hsame houtline hcompleted =>
    exact .completes hcompletion rfl hsame houtline hcompleted

theorem effect_commit {result : Except Failure Repository} (hcompletion : s.completion event = none)
    (hanswer : s.answer event = none)
    (h : ∀ r, result = .ok r → Own (s.found event) s.repository r) :
    Effect s event (s.commit result) := by
  cases result with
  | error _ => exact .own hcompletion hanswer ((OperationsOnly.refl _).own _)
  | ok r => exact .own hcompletion hanswer (h r rfl)

theorem effect_enqueue {result : Except Failure (ℕ × Repository)}
    (hcompletion : s.completion event = none) (hanswer : s.answer event = none)
    (h : ∀ id r, result = .ok (id, r) → Own (s.found event) s.repository r) :
    Effect s event (s.enqueue result) := by
  match result, h with
  | .error _, _ => exact .own hcompletion hanswer ((OperationsOnly.refl _).own _)
  | .ok (id, r), h => exact .own hcompletion hanswer (h id r rfl)

theorem effect_same (hcompletion : s.completion event = none) (hanswer : s.answer event = none)
    (hsame : s'.repository = s.repository) : Effect s event s' := by
  refine .own hcompletion hanswer ?_
  rw [hsame]
  exact (OperationsOnly.refl s.repository).own _

theorem answer_of_isFailure (h : event.isFailure = true) :
    s.completion event = none ∧ s.answer event = none := by
  unfold Event.isFailure at h
  split at h
  all_goals first | exact ⟨rfl, rfl⟩ | cases h

theorem effect_coordinator (hc : s.Coherent) (hopen : s.HoldsOpen) (hstep : s.step event = some s')
    (hevent : event.ofCoordinator = true) : Effect s event s' := by
  obtain ⟨result, hworks, rfl⟩ := System.works_of_step hstep hevent
  cases hworks with
  | take | uploaded | activationRefused => exact effect_same rfl rfl rfl
  | @staged publication hstaging remotePublicId stage =>
    have hworked : Worked s.repository publication.operation
        (s.completion (.staged remotePublicId (some stage)))
        (staged s.repository publication remotePublicId stage) := by
      simp only [System.completion, hstaging]
      exact recorded_worked (.inl rfl) (hopen _ (by rw [hstaging]; rfl))
    exact hworked.effect rfl
  | @activated publication stage hactivating remotePublicId activation =>
    have hworked : Worked s.repository publication.operation
        (s.completion (.activated remotePublicId (some activation)))
        (completeStaged s.repository publication remotePublicId
          { stage with activationResult := some activation }) := by
      simp only [System.completion, hactivating]
      exact completeStaged_worked (.refl _) rfl publication remotePublicId _
    exact hworked.effect rfl
  | @restaged publication hrestaging remotePublicId stage =>
    have hworked : Worked s.repository publication.operation
        (s.completion (.restaged remotePublicId (some stage)))
        (restaged s.repository publication remotePublicId stage) := by
      simp only [System.completion, hrestaging]
      exact recorded_worked (.inr rfl) (hopen _ (by rw [hrestaging]; rfl))
    exact hworked.effect rfl
  | @lifecycleDone operation hlifecycle revision state =>
    have hworker := hc.worker
    rw [hlifecycle] at hworker
    have hanswer : s.answer (.lifecycleDone (some (revision, state))) =
        some ⟨operation.shareId, revision, some state⟩ := by
      simp only [System.answer, hlifecycle]
    exact .answers rfl hanswer (completeLifecycle_answers hc.rows hworker.1 hworker.2
      (hopen _ (by rw [hlifecycle]; rfl)) revision state)
  | failureRecorded hfailing disposition =>
    exact .own rfl rfl (recordFailure_own hc.rows (hopen _ (by rw [hfailing]; rfl)) disposition _)
  | failure hfailure =>
    exact effect_same (answer_of_isFailure hfailure).1 (answer_of_isFailure hfailure).2 rfl

/-- **Every step of the service has one of the effects.** -/
theorem System.effect (hc : s.Coherent) (hopen : s.HoldsOpen) (hstep : s.step event = some s')
    (hevent : event.isRemoteEvent = false) : Effect s event s' := by
  cases event with
  | createShare mutability syncMode =>
    cases hstep
    exact effect_commit rfl rfl fun _ h => createShare_own _ h
  | configure shareId expectedRevision mutability syncMode remote availableAtMs =>
    simp only [System.step] at hstep
    cases remote with
    | none =>
      split at hstep
      · cases hstep
        exact effect_same rfl rfl rfl
      · rename_i r hconfigured
        cases hstep
        obtain ⟨r₁, hconfigure, hdone⟩ := bind_eq_ok.mp hconfigured
        obtain rfl : r₁ = r := pure_eq_ok.mp hdone
        refine .own rfl rfl ?_
        rw [(System.schedule_repository _ shareId availableAtMs).1]
        exact updateShareConfiguration_own hc.rows _ hconfigure
    | some news =>
      split at hstep
      · cases hstep
        exact .answers rfl rfl (.inl (.refl _))
      · rename_i r hconfigured
        cases hstep
        refine .answers rfl rfl (.inr ?_)
        rw [(System.schedule_repository _ shareId availableAtMs).1]
        exact configured_answers hconfigured
  | resourceSnapshot shareId =>
    cases hstep
    exact effect_commit rfl rfl fun _ h => resourceSnapshotSaved_own hc.rows _ h
  | remoteEvent => cases hevent
  | remoteAnswer shareId revision state =>
    cases hstep
    have hanswer : s.answer (.remoteAnswer shareId revision state) =
        some ⟨shareId, revision, state⟩ := rfl
    refine .answers rfl hanswer ?_
    cases hanswered : System.remoteAnswered s.repository shareId revision state with
    | error _ => exact .inl (.refl _)
    | ok r => exact .inr (remoteAnswered_answers hanswered)
  | preview shareId | approvePreview shareId | enqueuePublish shareId =>
    cases hstep
    exact effect_same rfl rfl (System.ask_repository s shareId _).1
  | markRelevantChange shareId availableAtMs =>
    simp only [System.step] at hstep
    split at hstep
    · cases hstep
      exact effect_same rfl rfl rfl
    · rename_i r hmarked
      cases hstep
      refine .own rfl rfl ?_
      rw [(System.schedule_repository _ shareId availableAtMs).1]
      exact markRelevantChange_own hc.rows _ hmarked
  | enqueueLifecycle shareId kind now =>
    simp only [System.step] at hstep
    split at hstep
    · cases hstep
      exact effect_enqueue rfl rfl fun _ _ h => enqueueLifecycle_own hc.rows _ h
    · cases hstep
  | projected index projection =>
    simp only [System.step] at hstep
    split at hstep
    · cases hstep
    · cases hstep
      exact effect_same rfl rfl rfl
    · split at hstep
      · cases hstep
        exact effect_same rfl rfl rfl
      · rename_i hprojected
        cases hstep
        exact .own rfl rfl (projected_own hc.rows _ hprojected)
  | proceed index now =>
    simp only [System.step] at hstep
    split at hstep
    · cases hstep
    · rename_i task htask
      cases hstep
      have hsound := hc.tasks task (List.mem_of_getElem? htask)
      cases task with
      | publishPreviewed shareId localRevisionId manifestHash =>
        refine .own rfl rfl ?_
        simp only [System.proceed]
        cases henqueue : enqueuePreviewed s.repository shareId localRevisionId manifestHash now with
        | error _ => exact (OperationsOnly.refl _).own _
        | ok result => exact enqueuePreviewed_own hc.rows _ hsound henqueue
      | schedulePreviewed share localRevisionId manifestHash availableAtMs =>
        have hown := schedulePreviewed_own hc.rows share localRevisionId manifestHash availableAtMs
        have hresult : (System.proceed { s with tasks := s.tasks.eraseIdx index } now
            (.schedulePreviewed share localRevisionId manifestHash availableAtMs)).repository =
            (schedulePreviewed s.repository share localRevisionId manifestHash
              availableAtMs).2 := by
          simp only [System.proceed]
          split
          · rename_i hscheduled
            rw [hscheduled]
          · rename_i hscheduled
            rw [hscheduled]
        refine .own rfl rfl ?_
        rw [hresult]
        simpa only [System.found, htask] using hown
      | _ => exact effect_same rfl rfl rfl
  | take | staged | uploaded | activated | activationRefused | restaged | lifecycleDone
  | failureRecorded => exact effect_coordinator hc hopen hstep rfl

/-! ## What the coordinator holds -/

theorem completeLifecycle_held (r : Repository) (operation : PublicationOperation) (revision : ℕ)
    (state : ShareState) :
    (completeLifecycle r operation revision state).1.held = some operation ∨
      (completeLifecycle r operation revision state).1.held = none := by
  simp only [completeLifecycle]
  split
  · exact .inl rfl
  · split
    · exact .inl rfl
    · split
      · exact .inl rfl
      · exact .inr rfl

theorem Worked.held {completion : Option CompletionInput} {result : Worker × Repository}
    (h : Worked r operation completion result) :
    result.1.held = some operation ∨ result.1.held = none := by
  cases h with
  | goesOn _ hheld => exact .inl hheld
  | completes => exact .inr rfl

theorem System.worker_step (hstep : s.step event = some s') (hevent : event.ofCoordinator = false) :
    s'.worker = s.worker := by
  have hcommit : ∀ result, (s.commit result).worker = s.worker := by
    intro result
    cases result <;> rfl
  have henqueue : ∀ (s : System) result, (s.enqueue result).worker = s.worker := by
    intro s result
    rcases result with _ | ⟨_, _⟩ <;> rfl
  cases event with
  | createShare | resourceSnapshot | remoteAnswer =>
    cases hstep
    exact hcommit _
  | remoteEvent =>
    cases hstep
    rfl
  | preview shareId | approvePreview shareId | enqueuePublish shareId =>
    cases hstep
    exact (System.ask_repository s shareId _).2.1
  | configure shareId | markRelevantChange shareId =>
    simp only [System.step] at hstep
    split at hstep
    · cases hstep
      rfl
    · cases hstep
      exact (System.schedule_repository _ shareId _).2.1
  | enqueueLifecycle =>
    simp only [System.step] at hstep
    split at hstep
    · cases hstep
      exact henqueue s _
    · cases hstep
  | projected =>
    simp only [System.step] at hstep
    split at hstep
    · cases hstep
    · cases hstep
      rfl
    · split at hstep
      · cases hstep
        rfl
      · cases hstep
        rfl
  | proceed index now =>
    simp only [System.step] at hstep
    split at hstep
    · cases hstep
    · rename_i task _
      cases hstep
      cases task with
      | publishPreviewed => exact henqueue _ _
      | schedulePreviewed =>
        simp only [System.proceed]
        split <;> rfl
      | _ => rfl
  | _ => cases hevent

/-- The coordinator goes on with what it holds, or takes up an operation that waits. -/
theorem System.held_step (hopen : s.HoldsOpen) (hstep : s.step event = some s')
    (hheld : s'.worker.held = some operation) :
    s.worker.held = some operation ∨ ∃ now, s.repository.nextOperation now = some operation := by
  cases hevent : event.ofCoordinator with
  | false => exact .inl (System.worker_step hstep hevent ▸ hheld)
  | true =>
    obtain ⟨result, hworks, rfl⟩ := System.works_of_step hstep hevent
    -- it holds what it held, or nothing
    have hkept : ∀ {held}, (result.1.held = held ∨ result.1.held = none) →
        s.worker.held = held → s.worker.held = some operation := by
      rintro held (hsame | hnone) hworker
      · exact hworker.trans (hsame.symm.trans hheld)
      · exact absurd (hnone.symm.trans hheld) (some_ne_none _).symm
    cases hworks with
    | @take now _ hnext =>
      refine .inr ⟨now, ?_⟩
      rw [hnext, ← hheld]
      exact (begin_held _ _).symm
    | staged hstaging =>
      have hheld := congrArg Worker.held hstaging
      exact .inl (hkept (recorded_worked (.inl rfl) (hopen _ hheld)).held hheld)
    | uploaded huploading =>
      exact .inl (hkept (.inl (uploads_held _ _ _)) (congrArg Worker.held huploading))
    | activated hactivating remotePublicId activation =>
      exact .inl (hkept (completeStaged_worked (.refl s.repository) rfl _ remotePublicId _).held
        (congrArg Worker.held hactivating))
    | activationRefused hactivating =>
      exact .inl ((congrArg Worker.held hactivating).trans hheld)
    | restaged hrestaging =>
      have hheld := congrArg Worker.held hrestaging
      exact .inl (hkept (recorded_worked (.inr rfl) (hopen _ hheld)).held hheld)
    | lifecycleDone hlifecycle revision state =>
      exact .inl (hkept (completeLifecycle_held s.repository _ revision state)
        (congrArg Worker.held hlifecycle))
    | failureRecorded => cases hheld
    | failure _ hfailing => exact .inl (hkept (.inl rfl) hfailing)

/-- **The coordinator never holds a publication that is completed.** -/
theorem System.HoldsOpen.step (hc : s.Coherent) (hopen : s.HoldsOpen)
    (hstep : s.step event = some s') (hevent : event.isRemoteEvent = false) : s'.HoldsOpen := by
  intro operation hheld
  -- what it holds was not completed before
  have hbefore : s.repository.Open operation := by
    rcases System.held_step hopen hstep hheld with hsame | ⟨now, hnext⟩
    · exact hopen operation hsame
    · obtain ⟨hmem, hrunnable⟩ := nextOperation_mem hnext
      intro row hrow hid hdone
      obtain rfl := operation_eq_of_id hc.rows hrow hmem hid
      simp [PublicationOperation.isRunnable, hdone.2] at hrunnable
  cases System.effect hc hopen hstep hevent with
  | own _ _ hown => exact hbefore.own hown
  | goesOn _ _ hsame => exact hbefore.own (hsame.own none)
  | completes _ hidle =>
    rw [hidle] at hheld
    cases hheld
  | answers _ _ h =>
    rcases h with hsame | hanswers
    · exact hbefore.own (hsame.own none)
    · exact fun row hrow hid hdone => hbefore row ((hanswers.completed row hdone).mp hrow) hid hdone

end HomelabInventory.Sharing
