import HomelabInventory.SharingApprovals

/-!
# Only approved content is published

What is activated is a publication that was not cancelled, of content that was
approved or that the share follows by itself. The coordinator does not look at
either again while it waits, so this holds of the runs that do not withdraw an
approval, or cancel a publication, under an operation that is still to be
published.
-/

namespace HomelabInventory.Sharing

open Repository

/-! ## The steps that withdraw nothing -/

/-- **When an event withdraws nothing from under an operation.** The settings of a share change
to follow the project or while nothing of it is to be published; a snapshot of its resources or
another approval comes while the share follows the project, or nothing else is to be published;
and what is scheduled may still be shown, and replaces no operation that the coordinator works
on. -/
def System.KeepsApproval (s : System) : Event → Prop
  | .configure shareId expectedRevision mutability syncMode _ _ =>
    ∀ share, s.repository.getShare shareId = some share → share.localRevision = expectedRevision →
      mutability = .replaceable ∧ syncMode = .synchronized ∨ s.repository.NothingLive shareId
  | .resourceSnapshot shareId =>
    ∀ share, s.repository.getShare shareId = some share →
      share.isSynchronized = true ∨ s.repository.NothingLive shareId
  | .projected index (some projection) =>
    match s.tasks[index]? with
    | some (.approve shareId localRevision manifestHash) =>
      projection.manifestHash = manifestHash →
      ∀ share, s.repository.getShare shareId = some share → share.localRevision = localRevision →
        share.isSynchronized = true ∨
        ∀ operation ∈ s.repository.operations, operation.isLivePublish = true →
          operation.shareId = shareId → operation.manifestHash = manifestHash
    | _ => True
  | .proceed index _ =>
    match s.tasks[index]? with
    | some (.schedulePreviewed share _ manifestHash _) =>
      (share.activeManifestHash = some manifestHash ∨
        ∀ current, s.repository.getShare share.id = some current → current.Allows manifestHash) ∧
      ∀ operation, s.worker.held = some operation → ∀ row ∈ s.repository.operations,
        row.id = operation.id → row.isPending share.id .publish = false
    | _ => True
  | _ => True

/-! ## One event -/

/-- The requests that enqueue operations. -/
def Event.enqueues : Event → Bool
  | .proceed .. | .enqueueLifecycle .. => true
  | _ => false

/-- An event keeps the system sound, and the rows that were cancelled, unless it enqueues them. -/
structure System.StaysSound (s : System) (event : Event) (s' : System) : Prop where
  sound : s'.Sound
  cancelled : ∀ operation ∈ s.repository.operations, operation.state = .cancelled →
    operation ∈ s'.repository.operations ∨
    event.enqueues = true ∧ ∃ availableAtMs,
      operation.requeued availableAtMs ∈ s'.repository.operations

variable {s s' : System}

/-- A request that touches no operation. -/
theorem System.StaysSound.of_operations (h : s.Sound) (event : Event)
    (hoperations : s'.repository.operations = s.repository.operations)
    (hworker : s'.worker = s.worker) (hwithdrawn : s'.withdrawn = s.withdrawn)
    (happroved : s'.repository.Approved) : s.StaysSound event s' where
  sound := by
    refine ⟨happroved, ?_, ?_⟩
    · rw [hwithdrawn]
      intro row hrow
      rw [hoperations] at hrow
      exact h.withdrawn row hrow
    · rw [hworker]
      exact fun operation hheld => (h.held operation hheld).of_operations hoperations
  cancelled operation hmem _ := .inl (hoperations ▸ hmem)

theorem System.StaysSound.work (h : s.Sound) (event : Event) {result : Worker × Repository}
    (hresult : Continues s.repository result) :
    s.StaysSound event (s.work result) where
  sound := ⟨hresult.keeps.approved h.approved, hresult.keeps.withdrawn _ h.withdrawn, hresult.held⟩
  cancelled operation hmem hstate := .inl (hresult.keeps.cancelled operation hmem hstate)

theorem System.StaysSound.of_worker (h : s.Sound) (event : Event) {worker : Worker}
    (hheld : ∀ operation, worker.held = some operation → s.repository.Holds operation) :
    s.StaysSound event { s with worker := worker } where
  sound := ⟨h.approved, h.withdrawn, hheld⟩
  cancelled _ hmem _ := .inl hmem

variable {event : Event}

theorem System.StaysSound.enqueue (hc : s.Coherent) (h : s.Sound) (hevent : event.enqueues = true)
    {result : Except Failure (ℕ × Repository)}
    (hresult : ∀ id r, result = .ok (id, r) → Enqueues s.repository r id) :
    s.StaysSound event (s.enqueue result) := by
  match result, hresult with
  | .error _, _ => exact .of_operations h event rfl rfl rfl h.approved
  | .ok (id, r), hresult =>
    have henqueues := hresult id r rfl
    refine ⟨⟨henqueues.approved h.approved, henqueues.withdrawn _ h.withdrawn, ?_⟩, ?_⟩
    · exact fun operation hheld =>
        henqueues.held operation (hc.worker.held hheld) (h.held operation hheld)
    · exact fun operation hmem hstate =>
        (henqueues.cancelled operation hmem hstate).imp_right fun h => ⟨hevent, h⟩

/-- The current state is scheduled: what waits is cancelled, and an operation may be enqueued. -/
theorem System.StaysSound.scheduled (hc : s.Coherent) (h : s.Sound)
    (hevent : event.enqueues = true) {share : ShareRecord} (localRevisionId : ℕ)
    {manifestHash : String} (availableAtMs now : ℤ)
    (hexists : share.id ∈ s.repository.outline.shareIds)
    (hallows : share.activeManifestHash = some manifestHash ∨
      ∀ current, s.repository.getShare share.id = some current → current.Allows manifestHash)
    (hheld : ∀ operation, s.worker.held = some operation → ∀ row ∈ s.repository.operations,
      row.id = operation.id → row.isPending share.id .publish = false) :
    s.StaysSound event
      (s.proceed now (.schedulePreviewed share localRevisionId manifestHash availableAtMs)) := by
  obtain ⟨happroved, hwithdrawn, hholds, hcancelled⟩ :=
    cancelPendingOperations_sound hc.rows share.id
  have hcancel := cancelPendingOperations_outline s.repository share.id .publish
  have hrows : (s.repository.cancelPendingOperations share.id .publish).outline.Coherent :=
    hcancel.symm ▸ hc.rows
  simp only [System.proceed]
  obtain ⟨_, hresult⟩ | ⟨r', hresult, -, hmarked⟩ |
    ⟨id, r', hresult, hactive, henqueue⟩ :=
    schedulePreviewed_cases s.repository share localRevisionId manifestHash availableAtMs
  · -- it threw, after it had cancelled
    simp only [hresult]
    refine ⟨⟨happroved h.approved, hwithdrawn _ h.withdrawn, ?_⟩, ?_⟩
    · exact fun operation hop => hholds operation (h.held operation hop) (hheld operation hop)
    · exact fun operation hmem hstate => .inl (hcancelled operation hmem hstate)
  · -- the active content is the current one
    simp only [hresult]
    have hkeeps : (s.repository.cancelPendingOperations share.id .publish).Keeps r' ∧
        r'.operations = (s.repository.cancelPendingOperations share.id .publish).operations := by
      obtain rfl | ⟨_, hupdate⟩ := markSynced_eq_ok hmarked
      · exact ⟨.refl _, rfl⟩
      · exact ⟨.updateShare hupdate rfl, updateShare_operations hupdate⟩
    refine ⟨⟨hkeeps.1.approved (happroved h.approved),
      hkeeps.1.withdrawn _ (hwithdrawn _ h.withdrawn), ?_⟩, ?_⟩
    · exact fun operation hop => (hholds operation (h.held operation hop)
        (hheld operation hop)).of_operations hkeeps.2
    · intro operation hmem hstate
      rw [hkeeps.2]
      exact .inl (hcancelled operation hmem hstate)
  · -- an operation for content that the share may show was enqueued
    simp only [hresult]
    obtain ⟨current, hcurrent, hid⟩ := List.mem_map.mp hexists
    have hmay : current.Allows manifestHash := by
      obtain hsame | hmay := hallows
      · exact absurd hsame hactive
      · exact hmay current (hid ▸ getShare_of_mem hc.rows hcurrent)
    have henqueues := enqueueOperation_enqueues hrows henqueue fun _ =>
      ⟨current, hcurrent, hid, hmay⟩
    refine ⟨⟨henqueues.approved (happroved h.approved),
      henqueues.withdrawn _ (hwithdrawn _ h.withdrawn), ?_⟩, ?_⟩
    · intro operation hop
      refine henqueues.held operation ?_
        (hholds operation (h.held operation hop) (hheld operation hop))
      rw [hcancel]
      exact hc.worker.held hop
    · intro operation hmem hstate
      exact (henqueues.cancelled operation (hcancelled operation hmem hstate) hstate).imp_right
        fun h => ⟨hevent, h⟩

theorem System.schedule_repository (s : System) (shareId : ℕ) (availableAtMs : ℤ) :
    (s.schedule shareId availableAtMs).repository = s.repository ∧
      (s.schedule shareId availableAtMs).worker = s.worker ∧
      (s.schedule shareId availableAtMs).withdrawn = s.withdrawn := by
  rw [System.schedule]
  split <;> exact ⟨rfl, rfl, rfl⟩

theorem System.ask_repository (s : System) (shareId : ℕ) (task : ShareRecord → Task) :
    (s.ask shareId task).repository = s.repository ∧ (s.ask shareId task).worker = s.worker ∧
      (s.ask shareId task).withdrawn = s.withdrawn := by
  rw [System.ask]
  split <;> exact ⟨rfl, rfl, rfl⟩

/-- A request changed the tables, and not the operations. -/
theorem System.StaysSound.commit (h : s.Sound) (event : Event) {result : Except Failure Repository}
    (hresult : ∀ r, result = .ok r → r.Approved ∧ r.operations = s.repository.operations) :
    s.StaysSound event (s.commit result) := by
  cases result with
  | error _ => exact .of_operations h event rfl rfl rfl h.approved
  | ok r => exact .of_operations h event (hresult r rfl).2 rfl rfl (hresult r rfl).1

variable {r r' : Repository}

/-- The tables change, and not the operations, and the current state is scheduled. -/
theorem System.StaysSound.schedule (h : s.Sound) (event : Event)
    (hr : r.Approved ∧ r.operations = s.repository.operations) (shareId : ℕ) (availableAtMs : ℤ) :
    s.StaysSound event ({ s with repository := r }.schedule shareId availableAtMs) := by
  obtain ⟨hrepository, hworker, hwithdrawn⟩ :=
    System.schedule_repository { s with repository := r } shareId availableAtMs
  refine .of_operations h event ?_ hworker hwithdrawn ?_
  · rw [hrepository]
    exact hr.2
  · rw [hrepository]
    exact hr.1

theorem persistRevision_approved {shareId revision id : ℕ} {projection : Projection}
    (happroved : r.Approved) (h : r.persistRevision shareId revision projection = .ok (id, r')) :
    r'.Approved ∧ r'.operations = r.operations := by
  obtain ⟨-, -, hshares, hoperations⟩ := persistRevision_advances h
  refine ⟨fun operation hmem hlive => ?_, hoperations⟩
  rw [hoperations] at hmem
  obtain ⟨share, hshare, hallows⟩ := happroved operation hmem hlive
  exact ⟨share, hshares ▸ hshare, hallows⟩

theorem projected_approved (hc : r.outline.Coherent) (happroved : r.Approved)
    {projection : Projection} {task : Task} {left : Option Task}
    (hcond : ∀ shareId localRevision manifestHash,
      task = .approve shareId localRevision manifestHash →
      projection.manifestHash = manifestHash →
      ∀ share, r.getShare shareId = some share → share.localRevision = localRevision →
        share.isSynchronized = true ∨ ∀ operation ∈ r.operations,
          operation.isLivePublish = true → operation.shareId = shareId →
            operation.manifestHash = manifestHash)
    (h : task.projected r projection = .ok (left, r')) :
    r'.Approved ∧ r'.operations = r.operations := by
  cases task with
  | preview | publish | schedule =>
    obtain ⟨⟨id, r₁⟩, hpersist, h⟩ := bind_eq_ok.mp h
    obtain ⟨-, rfl⟩ := Prod.mk.inj (pure_eq_ok.mp h)
    exact persistRevision_approved happroved hpersist
  | approve shareId localRevision manifestHash =>
    obtain ⟨_, hsame, h⟩ := bind_eq_ok.mp h
    rw [failIf_eq_ok, not_not] at hsame
    obtain ⟨r₁, hupdate, h⟩ := bind_eq_ok.mp h
    obtain ⟨-, rfl⟩ := Prod.mk.inj (pure_eq_ok.mp h)
    exact approved_approved hc happroved (hcond _ _ _ rfl hsame) hupdate
  | publishPreviewed | schedulePreviewed =>
    obtain ⟨-, rfl⟩ := Prod.mk.inj (Except.ok.inj h)
    exact ⟨happroved, rfl⟩

/-- The coordinator keeps the approvals, whatever the remote answers. -/
theorem System.StaysSound.coordinator (hc : s.Coherent) (h : s.Sound)
    (hstep : s.step event = some s') (hevent : event.ofCoordinator = true) :
    s.StaysSound event s' := by
  have hheld := h.held
  obtain ⟨result, hworks, rfl⟩ := System.works_of_step hstep hevent
  cases hworks with
  | take hnext =>
    obtain ⟨hmem, hrunnable⟩ := nextOperation_mem hnext
    refine .of_worker h _ fun other hother => ?_
    -- what it holds is the row that it took
    rw [begin_held, Option.some.injEq] at hother
    subst hother
    intro row hrow hid
    obtain rfl := operation_eq_of_id hc.rows hrow hmem hid
    simp only [PublicationOperation.isRunnable, decide_eq_true_eq] at hrunnable
    refine ⟨?_, fun _ => by simpa [PublicationOperation.isLive] using hrunnable.1⟩
    rintro hstate
    simp [hstate] at hrunnable
  | staged hstaging =>
    rw [hstaging] at hheld
    exact .work h _ (recorded_continues (.inl rfl) (hheld _ rfl))
  | uploaded huploading =>
    rw [huploading] at hheld
    exact .of_worker h _ fun operation hop => hheld operation ((uploads_held _ _ _).symm.trans hop)
  | activated hactivating remotePublicId =>
    rw [hactivating] at hheld
    exact .work h _ (completeStaged_continues (hheld _ rfl) remotePublicId _)
  | activationRefused hactivating =>
    rw [hactivating] at hheld
    exact .of_worker h _ hheld
  | restaged hrestaging =>
    rw [hrestaging] at hheld
    exact .work h _ (recorded_continues (.inr rfl) (hheld _ rfl))
  | lifecycleDone hlifecycle revision state =>
    have hworker := hc.worker
    rw [hlifecycle] at hheld hworker
    exact .work h _ (completeLifecycle_continues hc.rows hworker.1 hworker.2 (hheld _ rfl)
      revision state)
  | failureRecorded hfailing disposition =>
    rw [hfailing] at hheld
    have hcontinues : Continues s.repository
        (.idle, recordFailure s.repository _ disposition) :=
      ⟨recordFailure_keeps (hheld _ rfl) disposition, fun _ hidle => by cases hidle⟩
    exact .work h _ hcontinues
  | failure _ hfailing => exact .work h _ (.failing (hheld _ hfailing))

/-- **An event that withdraws nothing from under an operation keeps the system sound.** -/
theorem System.Sound.step (hc : s.Coherent) (h : s.Sound) (hcond : s.KeepsApproval event)
    (hstep : s.step event = some s') : s.StaysSound event s' := by
  cases event with
  | createShare mutability syncMode =>
    cases hstep
    refine .commit h _ fun r hcreate => ?_
    obtain ⟨_, -, hcreate⟩ := bind_eq_ok.mp hcreate
    obtain rfl := pure_eq_ok.mp hcreate
    refine ⟨fun operation hmem hlive => ?_, rfl⟩
    obtain ⟨share, hshare, hallows⟩ := h.approved operation hmem hlive
    exact ⟨share, List.mem_append_left _ hshare, hallows⟩
  | configure shareId expectedRevision mutability syncMode remote availableAtMs =>
    simp only [System.step] at hstep
    split at hstep
    · cases hstep
      exact .of_operations h _ rfl rfl rfl h.approved
    · rename_i r hconfigured
      cases hstep
      exact .schedule h _ (configured_approved h.approved hcond hconfigured) shareId availableAtMs
  | resourceSnapshot shareId =>
    cases hstep
    exact .commit h _ fun r => resourceSnapshotSaved_approved hc.rows h.approved hcond
  | remoteEvent publicId revision state =>
    cases hstep
    have hresult : (s.repository.applyRemoteEvent publicId revision state).Approved ∧
        (s.repository.applyRemoteEvent publicId revision state).operations =
          s.repository.operations := by
      obtain hsame | ⟨id, hsame⟩ := applyRemoteEvent_eq s.repository publicId revision state
      · rw [hsame]
        exact ⟨h.approved, rfl⟩
      · rw [hsame]
        have hkeeps : s.repository.Keeps (s.repository.setShare id fun share =>
            share.informed revision state) := .setShare (fun _ => rfl) fun _ _ hallows => hallows
        exact ⟨hkeeps.approved h.approved, rfl⟩
    exact .of_operations h _ hresult.2 rfl rfl hresult.1
  | remoteAnswer shareId revision state =>
    cases hstep
    refine .commit h _ fun r hanswered => ?_
    simp only [System.remoteAnswered] at hanswered
    split at hanswered
    · cases hanswered
    · exact ⟨(Repository.Keeps.updateShare hanswered rfl).approved h.approved,
        updateShare_operations hanswered⟩
  | preview shareId | approvePreview shareId | enqueuePublish shareId =>
    cases hstep
    obtain ⟨hrepository, hworker, hwithdrawn⟩ := System.ask_repository s shareId _
    exact .of_operations h _ (congrArg _ hrepository) hworker hwithdrawn
      (hrepository.symm ▸ h.approved)
  | markRelevantChange shareId availableAtMs =>
    simp only [System.step] at hstep
    split at hstep
    · cases hstep
      exact .of_operations h _ rfl rfl rfl h.approved
    · rename_i r hmarked
      cases hstep
      refine .schedule h _ ?_ shareId availableAtMs
      simp only [markRelevantChange] at hmarked
      split at hmarked
      · obtain rfl := Except.ok.inj hmarked
        exact ⟨h.approved, rfl⟩
      · split at hmarked
        · obtain rfl := Except.ok.inj hmarked
          exact ⟨h.approved, rfl⟩
        · exact ⟨(Repository.Keeps.updateShare hmarked rfl).approved h.approved,
            updateShare_operations hmarked⟩
  | enqueueLifecycle shareId kind now =>
    simp only [System.step] at hstep
    split at hstep
    · rename_i hkind
      cases hstep
      refine .enqueue hc h rfl fun id r henqueue => ?_
      simp only [enqueueLifecycle] at henqueue
      split at henqueue
      · cases henqueue
      · split at henqueue
        · refine enqueueOperation_enqueues hc.rows henqueue ?_
          rintro rfl
          simp at hkind
        · cases henqueue
    · cases hstep
  | projected index projection =>
    simp only [System.step] at hstep
    split at hstep
    · cases hstep
    · cases hstep
      exact .of_operations h _ rfl rfl rfl h.approved
    · rename_i task projection htask
      split at hstep
      · cases hstep
        exact .of_operations h _ rfl rfl rfl h.approved
      · rename_i left r hprojected
        cases hstep
        have hresult := projected_approved hc.rows h.approved ?_ hprojected
        · exact .of_operations h _ hresult.2 rfl rfl hresult.1
        · rintro shareId localRevision manifestHash rfl
          simpa only [System.KeepsApproval, htask] using hcond
  | proceed index now =>
    simp only [System.step] at hstep
    split at hstep
    · cases hstep
    · rename_i task htask
      cases hstep
      simp only [System.KeepsApproval, htask] at hcond
      -- the task is taken out of the list, which says nothing of the operations
      have hc' : System.Coherent { s with tasks := s.tasks.eraseIdx index } :=
        ⟨hc.rows, fun _ hmem => hc.tasks _ (List.mem_of_mem_eraseIdx hmem), hc.worker⟩
      have h' : System.Sound { s with tasks := s.tasks.eraseIdx index } :=
        ⟨h.approved, h.withdrawn, h.held⟩
      have hevent : (Event.proceed index now).enqueues = true := rfl
      cases task with
      | publishPreviewed shareId localRevisionId manifestHash =>
        have hresult : System.StaysSound { s with tasks := s.tasks.eraseIdx index }
            (.proceed index now) (System.enqueue { s with tasks := s.tasks.eraseIdx index }
              (enqueuePreviewed s.repository shareId localRevisionId manifestHash now)) :=
          .enqueue hc' h' hevent fun _ _ => enqueuePreviewed_enqueues hc.rows
        exact ⟨hresult.sound, hresult.cancelled⟩
      | schedulePreviewed share localRevisionId manifestHash availableAtMs =>
        have hsound := hc.tasks _ (List.mem_of_getElem? htask)
        have hresult := System.StaysSound.scheduled hc' h' hevent localRevisionId availableAtMs now
          hsound.1 hcond.1 hcond.2
        exact ⟨hresult.sound, hresult.cancelled⟩
      | _ => exact .of_operations h _ rfl rfl rfl h.approved
  | take | staged | uploaded | activated | activationRefused | restaged | lifecycleDone
  | failureRecorded => exact .coordinator hc h hstep rfl

/-! ## Runs -/

theorem System.sound_start : ({} : System).Sound where
  approved _ h := absurd h List.not_mem_nil
  withdrawn _ h := absurd h List.not_mem_nil
  held _ h := nomatch h

/-- **A run that withdraws nothing from under an operation is sound.** -/
theorem Reachable.sound (h : Reachable System.KeepsApproval s) : s.Sound := by
  induction h with
  | start h => exact h ▸ System.sound_start
  | step hreachable event hcond hstep ih =>
    exact (ih.step (Reachable.coherent hreachable) hcond hstep).sound

/-! ## Publication -/

/-- **Only current, approved content is published.** A publication is activated only when it was
not cancelled since it was last enqueued and its content is approved, or followed by its share;
and only enqueueing brings an operation back that was cancelled. -/
structure PublishesApproved (s : System) (event : Event) (s' : System) : Prop where
  activation : ∀ publication stage, s'.worker = .activating publication stage →
    (∀ publication stage, s.worker ≠ .activating publication stage) →
    publication.operation.id ∉ s'.withdrawn ∧
    ∃ share, s'.repository.getShare publication.operation.shareId = some share ∧
      share.Allows publication.revision.manifestHash
  cancelled : ∀ operation ∈ s.repository.operations, operation.state = .cancelled →
    (∃ after ∈ s'.repository.operations, after.id = operation.id ∧ after.state = .cancelled) ∨
    event.enqueues = true ∧ ∃ availableAtMs,
      operation.requeued availableAtMs ∈ s'.repository.operations

/-- In a sound system, what is activated was not cancelled and may be shown. -/
theorem System.Sound.activation (hc : s.Coherent) (h : s.Sound) {publication : Publication}
    {stage : RemoteStage} (hworker : s.worker = .activating publication stage) :
    publication.operation.id ∉ s.withdrawn ∧
    ∃ share, s.repository.getShare publication.operation.shareId = some share ∧
      share.Allows publication.revision.manifestHash := by
  have hpublication := hc.worker
  rw [hworker] at hpublication
  obtain ⟨row, hrow, hrequest⟩ := List.mem_map.mp hpublication.request
  obtain ⟨hshare, hmanifest, hkind, hid⟩ := manifestHash_of_request hrequest
  have hheld := h.held publication.operation (by rw [hworker]; rfl) row hrow hid
  have hpublish := hkind.trans hpublication.kind
  refine ⟨fun hwithdrawn => hheld.1 (h.withdrawn row hrow (hid ▸ hwithdrawn)), ?_⟩
  have hlive : row.isLivePublish = true := by
    simpa [PublicationOperation.isLivePublish, hpublish] using hheld.2 hpublish
  obtain ⟨share, hmem, hof, hallows⟩ := h.approved row hrow hlive
  refine ⟨share, ?_, ?_⟩
  · rw [← hshare, ← hof]
    exact getShare_of_mem hc.rows hmem
  · -- the revision that is sent is the one that the key was formed after
    obtain ⟨-, id, hlocal, ⟨stored, hstored, hstoredId, -, hhash⟩, -⟩ :=
      (hc.rows.requests _ hpublication.request).publication hpublication.kind
    have hsame : publication.revision.id = id :=
      Option.some.inj (hpublication.revisionId.symm.trans hlocal)
    have hrevision := eq_of_key_eq hc.rows.revisionIds.nodup hpublication.revision hstored
      (hsame.trans hstoredId.symm)
    rw [hrevision, hhash]
    rw [hmanifest] at hallows
    exact hallows

/-- **Runs that withdraw nothing from under an operation publish only what is approved**: every
event of such a run does. -/
theorem publishes_approved {s s' : System} (h : Reachable System.KeepsApproval s) {event : Event}
    (hcond : s.KeepsApproval event) (hstep : s.step event = some s') :
    PublishesApproved s event s' := by
  have hsound := h.sound.step h.coherent hcond hstep
  refine ⟨fun publication stage hworker _ => ?_, fun operation hmem hstate => ?_⟩
  · exact hsound.sound.activation (h.coherent.step hstep) hworker
  · exact (hsound.cancelled operation hmem hstate).imp_left fun hkept =>
      ⟨operation, hkept, rfl, hstate⟩

/-- What the remote says of a publication of which it misses nothing. -/
def readyStage (operationId : ℕ) : RemoteStage := { operationId := operationId, state := .ready }

/-- A share that is approved, published and staged. -/
theorem publishes_approved_staged : ∃ s s' : System,
    (∃ publication stage, s'.worker = .activating publication stage) ∧
      PublishesApproved s (.staged "share" (some (readyStage 9))) s' := by
  have hasked : Reachable System.KeepsApproval _ :=
    (Reachable.start.step (.createShare .replaceable .manual) trivial rfl).step
      (.approvePreview 1 "A") trivial rfl
  have happroved : Reachable System.KeepsApproval _ :=
    hasked.step (.projected 0 (some ⟨"A", "{}"⟩))
      (fun _ _ _ _ => .inr fun _ hmem => absurd hmem List.not_mem_nil) rfl
  have hpreviewed : Reachable System.KeepsApproval _ :=
    (happroved.step (.enqueuePublish 1) trivial rfl).step
      (.projected 0 (some ⟨"A", "{}"⟩)) trivial rfl
  have htaken : Reachable System.KeepsApproval _ :=
    (hpreviewed.step (.proceed 0 0) trivial rfl).step (.take 0) trivial rfl
  exact ⟨_, _, ⟨_, _, rfl⟩, publishes_approved htaken trivial rfl⟩

/-- A share is approved and published, up to the answer of the remote to its staging. -/
def publishedRun (syncMode : SyncMode) : List Event :=
  [.createShare .replaceable syncMode, .approvePreview 1 "A", .projected 0 (some ⟨"A", "{}"⟩),
    .enqueuePublish 1, .projected 0 (some ⟨"A", "{}"⟩), .proceed 0 0, .take 0]

/-- **What is published need not be approved, and what was cancelled may be published.** The
settings of the share change while its publication is being staged, and it is activated all the
same; and a publication that is cancelled while it is being staged is running afterwards. -/
theorem publishes_unapproved :
    (∃ s s' : System, Reachable (fun _ _ => True) s ∧
      s.step (.staged "share" (some (readyStage 9))) = some s' ∧
      ¬PublishesApproved s (.staged "share" (some (readyStage 9))) s') ∧
    ∃ s s' : System, Reachable (fun _ _ => True) s ∧
      s.step (.staged "share" (some (readyStage 10))) = some s' ∧
      (s.repository.operations.map (·.state))[1]? = some .cancelled ∧
      (s'.repository.operations.map (·.state))[1]? = some .running ∧
      ¬PublishesApproved s (.staged "share" (some (readyStage 10))) s' := by
  constructor
  · refine ⟨_, _, reachable_run (show System.run {} (publishedRun .manual ++
      [.configure 1 3 .replaceable .manual none 0]) = some _ from rfl), rfl, fun h => ?_⟩
    -- the approval is gone, and the share does not follow the project
    obtain ⟨-, share, hshare, hallows⟩ := h.activation _ _ rfl fun _ _ h => nomatch h
    obtain rfl := Option.some.inj hshare
    revert hallows
    decide
  · refine ⟨_, _, reachable_run (show System.run {} (publishedRun .synchronized ++
      [.staged "share" (some (readyStage 9)), .activated "share" (some ⟨9, 1⟩),
        .markRelevantChange 1 0, .projected 0 (some ⟨"B", "{}"⟩), .proceed 0 0, .take 0,
        .markRelevantChange 1 0, .projected 0 (some ⟨"C", "{}"⟩), .proceed 0 0]) = some _ from rfl),
      rfl, rfl, rfl, fun h => ?_⟩
    -- the second publication was cancelled for the third
    obtain ⟨hnot, -⟩ := h.activation _ _ rfl fun _ _ h => nomatch h
    exact hnot (by decide)

end HomelabInventory.Sharing
