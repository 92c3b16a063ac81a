import HomelabInventory.DeliveryRuns

/-!
# Recovery notices

A contact point that was told of an incident gets a recovery job once the
incident is resolved, and the job goes on until it is delivered or exhausted.
One thing breaks this: an outage of the host that becomes pending cancels the
recovery jobs that wait, like the other deliveries of the host's children, and
nothing queues them again.
-/

namespace HomelabInventory.Notifications

open List Option

/-! ## What is watched -/

/-- A host, an event and a contact point. -/
structure Watch where
  hostType : HostType
  hostId : PositiveId
  eventType : EventType
  contactPointId : PositiveId

/-- The incident is of the watched host and event. -/
def Watch.IsIncident (watch : Watch) (incident : Incident) : Prop :=
  incident.subject = (watch.hostType, watch.hostId, watch.eventType)

/-- The policy of the host, the rule and the contact point are enabled. None of this depends on
the time. -/
structure Watch.Enabled (watch : Watch) (config : NotificationConfig) : Prop where
  rule : ∃ rule, enabledRule (resolveHostNotificationPolicy config watch.hostType watch.hostId 0)
    watch.eventType = some rule ∧ watch.contactPointId ∈ rule.contactPointIds
  contactPoint : ∃ point, config.contactPoints.find?
    (fun candidate => candidate.id = watch.contactPointId) = some point ∧ point.enabled = true

/-- The job is a recovery of a watched incident for the watched contact point. -/
def Watch.IsRecovery (watch : Watch) (state : NotificationState) (job : DeliveryJob) : Prop :=
  job.kind = .recovery ∧ job.contactPointId = watch.contactPointId ∧
    ∃ incident ∈ state.incidents, incident.id = job.incidentId ∧ watch.IsIncident incident

/-- The configuration that a change reads. -/
def Mutation.config? : Mutation → Option NotificationConfig
  | .observe config .. | .evaluatePending config .. | .evaluateReminders config ..
  | .evaluateSuppressedOpenings config .. | .evaluateRecoveries config ..
  | .reconcilePolicies config .. | .succeed _ config .. | .prune config .. => some config
  | .cancelHost .. | .acknowledge .. | .lease .. | .fail .. | .cancel .. | .defer ..
  | .retry .. => none

/-- The configuration that a step reads. -/
def Action.config? : Action → Option NotificationConfig
  | .change mutation _ => mutation.config?
  | .lease .. => none
  | .decide config _ | .settle config .. => some config

/-- The change makes an outage of the watched host pending, or keeps it pending, or disconnects
the host. -/
def Mutation.Interrupts (watch : Watch) (state : NotificationState) : Mutation → Prop
  | .observe config clock snapshot observation =>
    (observation.hostType = watch.hostType ∧ observation.hostId = watch.hostId) ∧
      watch.eventType ≠ .hostOffline ∧
      observation.eventType = .hostOffline ∧ observation.state = .problem ∧
      eventKeyFor observation ∉ openKeys state.incidents ∧
      Heard config clock snapshot observation state
  | .cancelHost hostType hostId .. => hostType = watch.hostType ∧ hostId = watch.hostId
  | _ => False

/-- **A step spares the watched recoveries**: it leaves the policy, the rule and the contact point
enabled, and while a recovery of the watched event waits to be sent, it makes no outage of the
host pending and does not disconnect it. -/
structure Watch.Spares (watch : Watch) (system : System) (action : Action) : Prop where
  enabled : ∀ config, action.config? = some config → watch.Enabled config
  uninterrupted : ∀ mutation clock, action = .change mutation clock →
    mutation.Interrupts watch system.state →
      ∀ job ∈ system.state.deliveryJobs, watch.IsRecovery system.state job → ¬job.Waits

/-! ## The watched recoveries go on -/

/-- No watched recovery was cancelled, and none is about to be. -/
structure RecoveriesAlive (watch : Watch) (system : System) : Prop where
  exhausted : ∀ job ∈ system.state.deliveryJobs, job.state = .exhausted →
    retryDelaysMs.length ≤ job.attempts
  alive : ∀ job ∈ system.state.deliveryJobs, watch.IsRecovery system.state job →
    job.state ≠ .cancelled
  processed_known : ∀ jobId, system.worker.jobId = some jobId →
    jobId < system.state.counters.deliveryJob
  leased_face : ∀ leased, system.worker = .leased leased →
    ∀ job ∈ system.state.deliveryJobs, job.id = leased.id → job.face = leased.face
  spared : ∀ jobId reason, system.worker = .cancelling jobId reason →
    ∀ job ∈ system.state.deliveryJobs, job.id = jobId → ¬watch.IsRecovery system.state job

theorem recoveriesAlive_start (watch : Watch) (now : ℤ) :
    RecoveriesAlive watch ⟨createNotificationState now, .idle⟩ where
  exhausted := by simp [createNotificationState]
  alive := by simp [createNotificationState]
  processed_known _ hprocessed := absurd hprocessed (some_ne_none _).symm
  leased_face _ hleased := WorkerPhase.noConfusion hleased
  spared _ _ hcancelling := WorkerPhase.noConfusion hcancelling

variable {watch : Watch}
variable {new old state : NotificationState}

/-- A job that is a watched recovery now was one before. -/
theorem Evolves.isRecovery {cancels : DeliveryJob → Prop} (h : Evolves cancels old new)
    (hold : Coherent old) {before job : DeliveryJob} (hbefore : before ∈ old.deliveryJobs)
    (hface : job.face = before.face) (hrecovery : watch.IsRecovery new job) :
    watch.IsRecovery old before := by
  obtain ⟨-, hincident, hcontact, hkind⟩ := DeliveryJob.ids_of_face hface
  obtain ⟨hof, hto, incident, hmem, hid, hwatched⟩ := hrecovery
  obtain ⟨earlier, hearlier, hsame, hsubject, -⟩ | hnew := h.incidents incident hmem
  · exact ⟨hkind.symm.trans hof, hcontact.symm.trans hto, earlier, hearlier,
      hsame.trans (hid.trans hincident), hsubject.trans hwatched⟩
  · have hknown := hold.incidents.lt _ (hold.job_known before hbefore)
    rw [hid, hincident] at hnew
    exact absurd hknown (Nat.not_lt.mpr hnew)

variable {system : System}

/-- A change around the job that is processed keeps the watched recoveries going, when it cancels
none of them. -/
theorem RecoveriesAlive.evolve (h : RecoveriesAlive watch system) (hsystem : Coherent system.state)
    {cancels : DeliveryJob → Prop} (hevolved : Evolves cancels system.state state)
    (hspares : ∀ job ∈ system.state.deliveryJobs, watch.IsRecovery system.state job →
      ¬cancels job) :
    RecoveriesAlive watch { system with state := state } where
  exhausted job hjob hstate := by
    obtain ⟨before, hbefore, hstep⟩ | ⟨-, hnew⟩ := hevolved.jobs job hjob
    · obtain ⟨hold, hsame⟩ | hreal := hstep.exhausted hstate
      · exact hsame ▸ h.exhausted before hbefore hold
      · exact hreal
    · exact hnew.exhausted hstate
  alive job hjob hrecovery hcancelled := by
    obtain ⟨before, hbefore, hstep⟩ | ⟨-, hnew⟩ := hevolved.jobs job hjob
    · have hwas := hevolved.isRecovery hsystem hbefore hstep.face_eq hrecovery
      obtain hold | hcancels := hstep.cancelled hcancelled
      · exact h.alive before hbefore hwas hold
      · exact hspares before hbefore hwas hcancels
    · exact hnew.not_cancelled hcancelled
  processed_known jobId hprocessed :=
    Nat.lt_of_lt_of_le (h.processed_known jobId hprocessed) hevolved.jobCounter
  leased_face leased hleased job hjob hid := by
    obtain ⟨before, hbefore, hstep⟩ | ⟨hfresh, -⟩ := hevolved.jobs job hjob
    · have hsame := (DeliveryJob.ids_of_face hstep.face_eq).1
      exact hstep.face_eq.trans (h.leased_face leased hleased before hbefore (hsame.symm.trans hid))
    · have hknown := h.processed_known leased.id (by rw [hleased]; rfl)
      rw [hid] at hfresh
      exact absurd hknown (Nat.not_lt.mpr hfresh)
  spared jobId reason hcancelling job hjob hid hrecovery := by
    obtain ⟨before, hbefore, hstep⟩ | ⟨hfresh, -⟩ := hevolved.jobs job hjob
    · have hsame := (DeliveryJob.ids_of_face hstep.face_eq).1
      exact h.spared jobId reason hcancelling before hbefore (hsame.symm.trans hid)
        (hevolved.isRecovery hsystem hbefore hstep.face_eq hrecovery)
    · have hknown := h.processed_known jobId (by rw [hcancelling]; rfl)
      rw [hid] at hfresh
      exact absurd hknown (Nat.not_lt.mpr hfresh)

theorem RecoveriesAlive.finish (h : RecoveriesAlive watch system) :
    RecoveriesAlive watch { system with worker := .idle } where
  exhausted := h.exhausted
  alive := h.alive
  processed_known _ hprocessed := absurd hprocessed (some_ne_none _).symm
  leased_face _ hleased := WorkerPhase.noConfusion hleased
  spared _ _ hcancelling := WorkerPhase.noConfusion hcancelling

/-- A delivery keeps the watched recoveries going. -/
theorem RecoveriesAlive.deliver (h : RecoveriesAlive watch system) {jobId : ℕ}
    (hdelivers : Delivers jobId system.state state) :
    RecoveriesAlive watch ⟨state, .idle⟩ where
  exhausted job hjob hstate := by
    obtain hold | ⟨-, -, -, -, hdelivered⟩ := hdelivers.jobs job hjob
    · exact h.exhausted job hold hstate
    · exact DeliveryState.noConfusion (hdelivered.symm.trans hstate)
  alive job hjob hrecovery hcancelled := by
    obtain hold | ⟨-, -, -, -, hdelivered⟩ := hdelivers.jobs job hjob
    · obtain ⟨hkind, hto, incident, hmem, hid, hwatched⟩ := hrecovery
      obtain ⟨before, hbefore, hface⟩ := hdelivers.incidents incident hmem
      simp only [Incident.face, Prod.mk.injEq] at hface
      obtain ⟨hsame, -, htype, hhost, hevent, -⟩ := hface
      refine h.alive job hold ⟨hkind, hto, before, hbefore, hsame.trans hid, ?_⟩ hcancelled
      rw [Watch.IsIncident, Incident.subject, htype, hhost, hevent]
      exact hwatched
    · exact DeliveryState.noConfusion (hdelivered.symm.trans hcancelled)
  processed_known _ hprocessed := absurd hprocessed (some_ne_none _).symm
  leased_face _ hleased := WorkerPhase.noConfusion hleased
  spared _ _ hcancelling := WorkerPhase.noConfusion hcancelling

variable {config : NotificationConfig}

/-- The coordinator never gives up on a watched recovery while all is enabled. -/
theorem decideDelivery_ne_cancel (henabled : watch.Enabled config) (h : Coherent state)
    {job : DeliveryJob} (hrecovery : watch.IsRecovery state job) (now : ℤ) (reason : String) :
    decideDelivery config state job now ≠ .cancel reason := by
  obtain ⟨hkind, hto, incident, hmem, hid, hwatched⟩ := hrecovery
  obtain ⟨point, hpoint, hpointEnabled⟩ := henabled.contactPoint
  obtain ⟨rule, hrule, hcontact⟩ := henabled.rule
  have hpointId : point.id = watch.contactPointId := by simpa using find?_some hpoint
  obtain ⟨found, hfound⟩ : ∃ found, state.incidents.find?
      (fun candidate => candidate.id = job.incidentId) = some found := by
    rw [← isSome_iff_exists, find?_isSome]
    exact ⟨incident, hmem, decide_eq_true hid⟩
  have hfoundId : found.id = job.incidentId := by simpa using find?_some hfound
  obtain rfl := h.eq_of_id (mem_of_find?_eq_some hfound) hmem (hfoundId.trans hid.symm)
  simp only [Watch.IsIncident, Incident.subject, Prod.mk.injEq] at hwatched
  obtain ⟨htype, hhost, hevent⟩ := hwatched
  have hruled : enabledRule (resolveHostNotificationPolicy config found.hostType found.hostId now)
      found.eventType = some rule := by
    rw [htype, hhost, hevent]
    exact hrule
  have hincluded : rule.contactPointIds.contains point.id = true := by
    rw [hpointId]
    exact contains_iff_mem.mpr hcontact
  simp only [decideDelivery, hto, hpoint, hfound, hpointEnabled, hkind, hruled, hincluded]
  intro hcancel
  split at hcancel
  · rename_i hfalse
    exact nomatch hfalse
  split at hcancel
  · rename_i hopening
    exact nomatch hopening.1
  split at hcancel
  · rename_i hmissing
    exact nomatch hmissing
  split at hcancel
  · exact nomatch hcancel
  · exact nomatch hcancel

/-- A change that a step spares cancels no watched recovery. -/
theorem Watch.Spares.not_cancels (h : SystemCoherent system) {mutation : Mutation} {clock : ℤ}
    (hspares : watch.Spares system (.change mutation clock)) {job : DeliveryJob}
    (hjob : job ∈ system.state.deliveryJobs) (hrecovery : watch.IsRecovery system.state job) :
    ¬mutation.Cancels system.state job := by
  intro hcancels
  have hnot : mutation.Interrupts watch system.state → ¬job.Waits := fun hinterrupts =>
    hspares.uninterrupted mutation clock rfl hinterrupts job hjob hrecovery
  obtain ⟨hkind, -, incident, hmem, hid, hwatched⟩ := hrecovery
  simp only [Watch.IsIncident, Incident.subject, Prod.mk.injEq] at hwatched
  obtain ⟨htype, hhost, hevent⟩ := hwatched
  cases mutation with
  | observe config clock snapshot observation =>
    obtain ⟨hheard, hout, hproblem, hopen, hwaits, child, hchild, hof, hsameType, hsameHost,
      hsub⟩ := hcancels
    obtain rfl := h.coherent.eq_of_id hchild hmem (hof.trans hid.symm)
    exact hnot ⟨⟨hsameType.symm.trans htype, hsameHost.symm.trans hhost⟩, hevent ▸ hsub, hout,
      hproblem, hopen, hheard⟩ hwaits
  | cancelHost hostType hostId reason now =>
    obtain ⟨hwaits, other, hother, hof, hsameType, hsameHost⟩ := hcancels
    obtain rfl := h.coherent.eq_of_id hother hmem (hof.trans hid.symm)
    exact hnot ⟨hsameType.symm.trans htype, hsameHost.symm.trans hhost⟩ hwaits
  | reconcilePolicies config scope reason now snapshot =>
    obtain ⟨-, other, hother, hof, hopened⟩ := hcancels
    have hresolved := (h.recoveries job hjob hkind other hother hof).1
    exact IncidentState.noConfusion (hopened.symm.trans hresolved)
  | _ => exact hcancels

theorem RecoveriesAlive.setUpdatedAt {worker : WorkerPhase}
    (h : RecoveriesAlive watch ⟨state, worker⟩) (hstate : Coherent state) (now : ℤ) :
    RecoveriesAlive watch ⟨{ state with updatedAt := now }, worker⟩ :=
  h.evolve hstate (Evolves.of_same rfl rfl rfl rfl) fun _ _ _ hfalse => hfalse

variable {workerId : String}

/-- A step that spares the watched recoveries keeps them going. -/
theorem RecoveriesAlive.step {system system' : System} (h : RecoveriesAlive watch system)
    (hsystem : SystemCoherent system) {action : Action} (hspares : watch.Spares system action)
    (hstep : system.step workerId action = some system') : RecoveriesAlive watch system' := by
  have hcoherent := hsystem.coherent
  have hopen : ∀ {jobId}, system.worker.jobId = some jobId →
      ∀ job ∈ system.state.deliveryJobs, job.id = jobId → job.state ≠ .delivered := fun {jobId} =>
    hsystem.open_job jobId
  cases System.stepsTo hcoherent hstep with
  | change noted hexternal happly =>
    exact (h.evolve hcoherent (.apply hcoherent hexternal happly)
      fun job hjob hrecovery => hspares.not_cancels hsystem hjob hrecovery).setUpdatedAt
        (hcoherent.apply happly) noted
  | @idle now snapshot _ noted =>
    exact (h.evolve hcoherent (.leaseNext hcoherent workerId now snapshot)
      fun _ _ _ hfalse => hfalse).finish.setUpdatedAt
        (hcoherent.apply (rfl : (Mutation.lease workerId now snapshot).apply _ = .ok _)) noted
  | @lease now snapshot _ job noted hjob =>
    have hleased := hcoherent.apply (rfl : (Mutation.lease workerId now snapshot).apply _ = .ok _)
    have hkept := (h.evolve hcoherent (.leaseNext hcoherent workerId now snapshot)
      fun _ _ _ hfalse => hfalse).finish
    obtain ⟨hmem, -⟩ := mem_of_leaseNext hjob
    have hholds : RecoveriesAlive watch
        ⟨(leaseNext workerId now snapshot system.state).2, .leased job⟩ := by
      refine ⟨hkept.exhausted, hkept.alive, ?_, ?_, ?_⟩
      · intro jobId hprocessed
        obtain rfl := Option.some.inj hprocessed
        exact hleased.deliveryJobs.lt _ (mem_map_of_mem hmem)
      · intro leased hsame other hother hid
        obtain rfl := WorkerPhase.leased.inj hsame
        exact congrArg _ (eq_of_key_eq hleased.deliveryJobs.nodup hother hmem hid)
      · exact fun _ _ hcancelling => WorkerPhase.noConfusion hcancelling
    exact hholds.setUpdatedAt hleased noted
  | @decide config now leased hworker =>
    have hknown := h.processed_known leased.id (by rw [hworker]; rfl)
    have hface := h.leased_face leased hworker
    have henabled := hspares.enabled config rfl
    cases hdecision : decideDelivery config system.state leased now with
    | cancel reason =>
      refine ⟨h.exhausted, h.alive, fun jobId hprocessed => Option.some.inj hprocessed ▸ hknown,
        fun _ hleased => WorkerPhase.noConfusion hleased, ?_⟩
      intro jobId why hcancelling job hjob hid hrecovery
      obtain ⟨rfl, -⟩ := WorkerPhase.cancelling.inj hcancelling
      -- the leased copy is as much a watched recovery as the job itself
      obtain ⟨-, hincident, hcontact, hkind⟩ := DeliveryJob.ids_of_face (hface job hjob hid)
      obtain ⟨hof, hto, incident, hmem, hsame, hwatched⟩ := hrecovery
      exact decideDelivery_ne_cancel henabled hcoherent
        ⟨hkind.symm.trans hof, hcontact.symm.trans hto, incident, hmem, hsame.trans hincident,
          hwatched⟩ now reason hdecision
    | defer mutedUntil =>
      exact ⟨h.exhausted, h.alive, fun jobId hprocessed => Option.some.inj hprocessed ▸ hknown,
        fun _ hleased => WorkerPhase.noConfusion hleased,
        fun _ _ hcancelling => WorkerPhase.noConfusion hcancelling⟩
    | send contactPoint incident =>
      exact ⟨h.exhausted, h.alive, fun jobId hprocessed => Option.some.inj hprocessed ▸ hknown,
        fun _ hleased => WorkerPhase.noConfusion hleased,
        fun _ _ hcancelling => WorkerPhase.noConfusion hcancelling⟩
  | @cancel _ _ now _ jobId reason noted hworker =>
    have hspared := h.spared jobId reason hworker
    exact (h.evolve hcoherent (.cancel (hopen (by rw [hworker]; rfl)) reason now)
      fun job hjob hrecovery hid => hspared job hjob hid hrecovery).finish.setUpdatedAt
        (hcoherent.apply (rfl : (Mutation.cancel jobId reason now).apply _ = .ok _)) noted
  | @defer _ _ now _ jobId mutedUntil noted hworker =>
    exact (h.evolve hcoherent (.defer (hopen (by rw [hworker]; rfl)) workerId mutedUntil now)
      fun _ _ _ hfalse => hfalse).finish.setUpdatedAt
        (hcoherent.apply (rfl : (Mutation.defer workerId jobId mutedUntil now).apply _ = .ok _)) noted
  | @succeed config result now _ jobId noted hworker =>
    exact (h.deliver (succeed_delivers workerId config jobId result now system.state)).setUpdatedAt
      (hcoherent.apply (rfl : (Mutation.succeed workerId config jobId result now).apply _ = .ok _))
      noted
  | @fail _ message now _ jobId noted hworker =>
    exact (h.evolve hcoherent (.fail hcoherent (hopen (by rw [hworker]; rfl)) workerId message now)
      fun _ _ _ hfalse => hfalse).finish.setUpdatedAt
        (hcoherent.apply (rfl : (Mutation.fail workerId jobId message now).apply _ = .ok _)) noted

/-- In a run whose steps spare the watched recoveries, they go on. -/
theorem SystemReachable.recoveriesAlive (h : SystemReachable workerId watch.Spares system) :
    RecoveriesAlive watch system := by
  induction h with
  | start hstart =>
    obtain ⟨now, rfl⟩ := hstart
    exact recoveriesAlive_start watch now
  | step hreached action hspares hstep ih =>
    exact ih.step (SystemReachable.coherent hreached) hspares hstep

/-! ## Recoveries are evaluated -/

variable {contactPointId : PositiveId}
variable {kind : DeliveryKind}

/-- Queueing leaves a job for each recipient, unless openings cool down. -/
theorem exists_mem_queueJobs (state : NotificationState) (config : NotificationConfig)
    (incident : Incident) (rule : NotificationRule) (hkind : kind ≠ .opening) (now : ℤ)
    (occurrence : Option ℤ) {recipientIds : List PositiveId}
    (hcontact : contactPointId ∈ contactPointsFor config rule)
    (hrecipient : contactPointId ∈ recipientIds) :
    ∃ job ∈ (queueJobs state config incident rule kind now occurrence
        (some recipientIds)).deliveryJobs,
      job.idempotencyKey = jobKey incident.id contactPointId kind occurrence := by
  have hone : ∀ (draft : NotificationState), ∃ job ∈
      (queueJob draft incident kind now occurrence contactPointId).deliveryJobs,
      job.idempotencyKey = jobKey incident.id contactPointId kind occurrence := by
    intro draft
    unfold queueJob
    split
    · rename_i hcooling
      exact absurd hcooling.1 hkind
    · split
      · rename_i hknown
        obtain ⟨job, hjob, hkey⟩ := any_eq_true.mp hknown
        exact ⟨job, hjob, of_decide_eq_true hkey⟩
      · exact ⟨_, mem_append_right _ (mem_singleton_self _), rfl⟩
  have hloop : ∀ (ids : List PositiveId) (draft : NotificationState),
      (contactPointId ∈ ids ∨ ∃ job ∈ draft.deliveryJobs,
        job.idempotencyKey = jobKey incident.id contactPointId kind occurrence) →
      ∃ job ∈ (ids.foldl (fun draft id => queueJob draft incident kind now occurrence id)
        draft).deliveryJobs,
        job.idempotencyKey = jobKey incident.id contactPointId kind occurrence := by
    intro ids
    induction ids with
    | nil => exact fun draft h => h.resolve_left not_mem_nil
    | cons id ids ih =>
      intro draft h
      refine ih _ ?_
      obtain h | ⟨job, hjob, hkey⟩ := h
      · obtain rfl | h := mem_cons.mp h
        · exact .inr (hone draft)
        · exact .inl h
      · obtain ⟨added, next, heq, -⟩ := queueJob_pushes draft incident kind now occurrence id
        refine .inr ⟨job, ?_, hkey⟩
        simp only [heq]
        exact mem_append_left _ hjob
  refine hloop _ state (.inl ?_)
  exact mem_filter.mpr ⟨hcontact, contains_iff_mem.mpr hrecipient⟩

/-- The state after a change that only pushed jobs. -/
structure Pushes (kind : DeliveryKind) (old new : NotificationState) : Prop where
  incidents : new.incidents = old.incidents
  jobs : ∃ added, new.deliveryJobs = old.deliveryJobs ++ added ∧
    ∀ job ∈ added, job.kind = kind

theorem Pushes.refl (kind : DeliveryKind) (state : NotificationState) : Pushes kind state state :=
  ⟨rfl, [], (append_nil _).symm, fun _ h => absurd h not_mem_nil⟩

theorem Pushes.trans {old mid new : NotificationState} (h : Pushes kind old mid)
    (h' : Pushes kind mid new) : Pushes kind old new := by
  obtain ⟨added, heq, hadded⟩ := h.jobs
  obtain ⟨added', heq', hadded'⟩ := h'.jobs
  refine ⟨h'.incidents.trans h.incidents, added ++ added', ?_, fun job hjob => ?_⟩
  · rw [heq', heq, append_assoc]
  · exact (mem_append.mp hjob).elim (hadded job) (hadded' job)

theorem pushes_queueJobs (state : NotificationState) (config : NotificationConfig)
    (incident : Incident) (rule : NotificationRule) (kind : DeliveryKind) (now : ℤ)
    (occurrence : Option ℤ) (recipientIds : Option (List PositiveId)) :
    Pushes kind state (queueJobs state config incident rule kind now occurrence recipientIds) := by
  obtain ⟨added, next, heq, -, hadded⟩ :=
    queueJobs_pushes state config incident rule kind now occurrence recipientIds
  rw [heq]
  exact ⟨rfl, added, rfl, fun job hjob => (hadded job hjob).1.kind_eq⟩

theorem pushes_evaluateRecovery (config : NotificationConfig) (now : ℤ)
    (queued : List ℕ × NotificationState) (incident : Incident) :
    Pushes .recovery queued.2 (evaluateRecovery config now queued incident).2 := by
  simp only [evaluateRecovery]
  split
  · exact .refl _ _
  · split
    · exact .refl _ _
    · rename_i rule _ _
      have hpushes := pushes_queueJobs queued.2 config incident rule .recovery now none
        (some ((deliveredOpenings queued.2 incident.id).filter fun id =>
          !((recoveredRecipients queued.2 incident.id).contains id)))
      split <;> exact hpushes

/-- Recoveries change nothing about the openings. -/
theorem Pushes.deliveredOpenings (h : Pushes .recovery old new) (incidentId : ℕ) :
    Notifications.deliveredOpenings new incidentId
      = Notifications.deliveredOpenings old incidentId := by
  obtain ⟨added, heq, hadded⟩ := h.jobs
  have hnone : added.filter (fun job => job.incidentId = incidentId ∧ job.kind = .opening ∧
      job.state = .delivered) = [] := by
    refine filter_eq_nil_iff.mpr fun job hjob hopening => ?_
    have hkind := (of_decide_eq_true hopening).2.1
    exact DeliveryKind.noConfusion ((hadded job hjob).symm.trans hkind)
  rw [Notifications.deliveredOpenings, Notifications.deliveredOpenings, heq, filter_append,
    hnone, append_nil]

theorem mem_recoveredRecipients {incidentId : ℕ} :
    contactPointId ∈ recoveredRecipients state incidentId ↔
      ∃ job ∈ state.deliveryJobs, job.incidentId = incidentId ∧ job.kind = .recovery ∧
        job.contactPointId = contactPointId := by
  simp [recoveredRecipients, and_assoc]

theorem Pushes.recoveredRecipients (h : Pushes kind old new) {incidentId : ℕ}
    (hmem : contactPointId ∈ recoveredRecipients old incidentId) :
    contactPointId ∈ Notifications.recoveredRecipients new incidentId := by
  obtain ⟨added, heq, -⟩ := h.jobs
  obtain ⟨job, hjob, hof⟩ := mem_recoveredRecipients.mp hmem
  exact mem_recoveredRecipients.mpr ⟨job, heq ▸ mem_append_left _ hjob, hof⟩

variable {incident : Incident}

/-- A contact point that was told of a resolved incident has a recovery job after its turn. -/
theorem recovered_of_evaluateRecovery {now : ℤ} {queued : List ℕ × NotificationState}
    {rule : NotificationRule} (h : Coherent queued.2)
    (hmem : incident ∈ queued.2.incidents)
    (hrule : recoveryRule config now incident = some rule)
    (hcontact : contactPointId ∈ contactPointsFor config rule)
    (htold : contactPointId ∈ deliveredOpenings queued.2 incident.id) :
    contactPointId ∈
      recoveredRecipients (evaluateRecovery config now queued incident).2 incident.id := by
  have hpushes := pushes_evaluateRecovery config now queued incident
  by_cases hrecovered : contactPointId ∈ recoveredRecipients queued.2 incident.id
  · exact hpushes.recoveredRecipients hrecovered
  · have hrecipient : contactPointId ∈ (deliveredOpenings queued.2 incident.id).filter fun id =>
        !((recoveredRecipients queued.2 incident.id).contains id) := by
      refine mem_filter.mpr ⟨htold, ?_⟩
      rw [Bool.not_eq_true', contains_eq_mem, decide_eq_false_iff_not]
      exact hrecovered
    obtain ⟨hkept, -⟩ := (keeps_coherent now).evaluateRecovery h hmem config
    obtain ⟨job, hjob, hkey⟩ : ∃ job ∈ (evaluateRecovery config now queued incident).2.deliveryJobs,
        job.idempotencyKey = jobKey incident.id contactPointId .recovery none := by
      simp only [evaluateRecovery, hrule]
      split
      · rename_i hnone
        rw [List.isEmpty_iff.mp hnone] at hrecipient
        exact absurd hrecipient not_mem_nil
      · have hkind : DeliveryKind.recovery ≠ .opening := (by rintro ⟨⟩)
        have hqueued := exists_mem_queueJobs queued.2 config incident rule hkind now none hcontact
          hrecipient
        split <;> exact hqueued
    obtain ⟨hof, hto, hkind⟩ := hkept.job_keyed job hjob
    rw [hkey] at hof hto hkind
    exact mem_recoveredRecipients.mpr ⟨job, hjob, hof.symm, hkind.symm, hto.symm⟩

theorem Watch.Enabled.recoveryRule (h : watch.Enabled config) (hwatched : watch.IsIncident incident)
    (hresolved : incident.state = .resolved) (now : ℤ) :
    ∃ rule, recoveryRule config now incident = some rule ∧
      watch.contactPointId ∈ contactPointsFor config rule := by
  obtain ⟨rule, hrule, hcontact⟩ := h.rule
  obtain ⟨point, hpoint, henabled⟩ := h.contactPoint
  simp only [Watch.IsIncident, Incident.subject, Prod.mk.injEq] at hwatched
  obtain ⟨htype, hhost, hevent⟩ := hwatched
  refine ⟨rule, ?_, mem_filter.mpr ⟨mem_eraseDups.mpr hcontact, ?_⟩⟩
  · rw [Notifications.recoveryRule, if_neg (not_not.mpr hresolved), htype, hhost, hevent]
    exact hrule
  · have hid : point.id = watch.contactPointId := by simpa using find?_some hpoint
    rw [contains_iff_mem, ← hid]
    exact mem_map_of_mem (mem_filter.mpr ⟨mem_of_find?_eq_some hpoint, henabled⟩)

/-- **Evaluating the recoveries leaves none out.** Every contact point that was told of a resolved
incident has a recovery job. -/
theorem recovered_of_evaluateRecoveries (henabled : watch.Enabled config) (h : Coherent state)
    (now : ℤ) (hmem : incident ∈ state.incidents) (hwatched : watch.IsIncident incident)
    (hresolved : incident.state = .resolved)
    (htold : watch.contactPointId ∈ deliveredOpenings state incident.id) :
    watch.contactPointId ∈
      recoveredRecipients (evaluateRecoveries config now state state).2 incident.id := by
  obtain ⟨rule, hrule, hcontact⟩ := henabled.recoveryRule hwatched hresolved now
  simp only [evaluateRecoveries]
  split
  · -- after the turn of the incident the job is there, and later turns only push jobs
    have hloop : ∀ (incidents : List Incident) (queued : List ℕ × NotificationState),
        Coherent queued.2 → Pushes .recovery state queued.2 →
        (∀ other ∈ incidents, other ∈ state.incidents) →
        (incident ∈ incidents ∨
          watch.contactPointId ∈ recoveredRecipients queued.2 incident.id) →
        watch.contactPointId ∈ recoveredRecipients
          (incidents.foldl (evaluateRecovery config now) queued).2 incident.id := by
      intro incidents
      induction incidents with
      | nil => exact fun queued _ _ _ hdone => hdone.resolve_left not_mem_nil
      | cons other rest ih =>
        intro queued hqueued hpushed hsub hdone
        have hpushes := pushes_evaluateRecovery config now queued other
        have hknown : other ∈ queued.2.incidents :=
          hpushed.incidents ▸ hsub other mem_cons_self
        refine ih _ ((keeps_coherent now).evaluateRecovery hqueued hknown config).1
          (hpushed.trans hpushes)
          (fun another hanother => hsub another (mem_cons_of_mem other hanother)) ?_
        obtain hnow | hrecovered := hdone
        · obtain rfl | hlater := mem_cons.mp hnow
          · refine .inr (recovered_of_evaluateRecovery hqueued hknown hrule hcontact ?_)
            rw [hpushed.deliveredOpenings]
            exact htold
          · exact .inl hlater
        · exact .inr (hpushes.recoveredRecipients hrecovered)
    exact hloop state.incidents ([], state) h (.refl _ _) (fun _ hother => hother) (.inl hmem)
  · rename_i hnone
    by_contra hmissing
    refine hnone (any_eq_true.mpr ⟨incident, hmem, ?_⟩)
    rw [hasRecoveryOpportunity, hrule]
    refine any_eq_true.mpr ⟨watch.contactPointId, hcontact, ?_⟩
    rw [Bool.and_eq_true_iff, Bool.not_eq_true']
    exact ⟨contains_iff_mem.mpr htold, by
      rw [contains_eq_mem, decide_eq_false_iff_not]; exact hmissing⟩

/-! ## No recovery notice is lost -/

/-- The contact point has a recovery job of the incident that goes on, or was delivered, or was
tried as often as the delays allow. -/
def RecoveryKept (state : NotificationState) (incidentId : ℕ) (contactPointId : PositiveId) :
    Prop :=
  ∃ job ∈ state.deliveryJobs, job.kind = .recovery ∧ job.incidentId = incidentId ∧
    job.contactPointId = contactPointId ∧
    (job.state = .queued ∨ job.state = .leased ∨ job.state = .retrying ∨ job.state = .delivered ∨
      (job.state = .exhausted ∧ retryDelaysMs.length ≤ job.attempts))

/-- The contact points that were told of the resolved incidents of an available host are told, or
were or will be tried to be told, that they are over. -/
def NoRecoveryLost (watch : Watch) (state : NotificationState) : Prop :=
  ∀ incident ∈ state.incidents, watch.IsIncident incident → incident.state = .resolved →
    watch.contactPointId ∈ deliveredOpenings state incident.id →
    hostIncidentUnavailable state watch.hostType watch.hostId = false →
      RecoveryKept state incident.id watch.contactPointId

theorem pushes_evaluateRecoveries (config : NotificationConfig) (now : ℤ)
    (state : NotificationState) :
    Pushes .recovery state (evaluateRecoveries config now state state).2 := by
  simp only [evaluateRecoveries]
  split
  · refine List.foldlRecOn
      (motive := fun queued : List ℕ × NotificationState => Pushes .recovery state queued.2)
      _ _ (.refl _ _) ?_
    exact fun queued hpushed incident _ => hpushed.trans (pushes_evaluateRecovery config now _ _)
  · exact .refl _ _

/-- **No recovery notice is lost in an uninterrupted run.** In any run whose steps leave the policy
of the host, the rule and the contact point enabled, and make no outage of the host pending and do
not disconnect it while a recovery waits, every evaluation of the recoveries leaves the contact
point a recovery job for each resolved incident whose opening it got. -/
theorem noRecoveryLost_of_spared {watch : Watch} {workerId : String} {system system' : System}
    (h : SystemReachable workerId watch.Spares system) {config : NotificationConfig}
    (henabled : watch.Enabled config) {now clock : ℤ}
    (hstep : system.step workerId (.change (.evaluateRecoveries config now system.state) clock)
      = some system') :
    NoRecoveryLost watch system'.state := by
  have hsystem := h.coherent
  have hspares : watch.Spares system
      (.change (.evaluateRecoveries config now system.state) clock) := by
    refine ⟨fun config' hreads => Option.some.inj hreads ▸ henabled, ?_⟩
    rintro mutation clock' hsame hinterrupts
    obtain ⟨rfl, -⟩ := Action.change.inj hsame
    exact hinterrupts.elim
  have halive := h.recoveriesAlive.step hsystem hspares hstep
  have hcoherent' := hsystem.step hstep
  intro incident hmem hwatched hresolved htold _
  have hstep := hstep
  simp only [System.step] at hstep
  rw [if_pos (by rfl)] at hstep
  obtain ⟨state, hcommit, rfl⟩ := map_eq_some_iff.mp hstep
  obtain ⟨draft, happly, heq⟩ := hsystem.coherent.commit_eq (eq_ok_of_toOption hcommit)
  obtain rfl := Except.ok.inj happly
  have hpushes := pushes_evaluateRecoveries config now system.state
  have hincidents : state.incidents = system.state.incidents := by
    rw [heq]
    exact hpushes.incidents
  have htoldBefore : watch.contactPointId ∈ deliveredOpenings system.state incident.id := by
    rw [← hpushes.deliveredOpenings incident.id]
    rw [heq] at htold
    exact htold
  have hrecovered := recovered_of_evaluateRecoveries henabled hsystem.coherent now
    (hincidents ▸ hmem) hwatched hresolved htoldBefore
  obtain ⟨job, hjob, hof, hkind, hto⟩ := mem_recoveredRecipients.mp hrecovered
  have hjob : job ∈ state.deliveryJobs := by
    rw [heq]
    exact hjob
  have hwatch : watch.IsRecovery state job := ⟨hkind, hto, incident, hmem, hof.symm, hwatched⟩
  have hexhausted := halive.exhausted job hjob
  have hkept := halive.alive job hjob hwatch
  refine ⟨job, hjob, hkind, hof, hto, ?_⟩
  cases hstate : job.state with
  | queued => exact .inl rfl
  | leased => exact .inr (.inl rfl)
  | retrying => exact .inr (.inr (.inl rfl))
  | delivered => exact .inr (.inr (.inr (.inl rfl)))
  | exhausted => exact .inr (.inr (.inr (.inr ⟨rfl, hexhausted hstate⟩)))
  | cancelled => exact absurd hstate hkept

/-- The service of `serverConfig` is watched. -/
def watchService : Watch := ⟨.server, ⟨1, Nat.one_pos⟩, .serviceUnhealthy, ⟨1, Nat.one_pos⟩⟩

theorem watchService_enabled : watchService.Enabled serverConfig :=
  ⟨⟨_, rfl, mem_singleton_self _⟩, ⟨_, rfl, rfl⟩⟩

/-- The opening of the service is delivered, and the service recovers. -/
def serviceRecovers : List (System → Action) := openingDelivered ++ [askService .healthy 60001]

/-- An outage of the server is pending before the service recovers, and not while its recovery
waits: the recovery is kept. -/
theorem noRecoveryLost_of_spared_service : ∃ system system',
    SystemReachable "worker" watchService.Spares system ∧
      system.step "worker" (.change (.evaluateRecoveries serverConfig 60003 system.state) 60003)
        = some system' ∧
      system'.state.deliveryJobs.any (·.kind = .recovery) = true ∧
      NoRecoveryLost watchService system'.state := by
  obtain ⟨told, htold, system, hrun, system', hstep, hqueued⟩ : ∃ told,
      System.run "worker" ⟨createNotificationState 0, .idle⟩ openingDelivered = some told ∧
      ∃ system, told.run "worker" [askServer .problem 60001, askServer .healthy 60002,
        askService .healthy 60002] = some system ∧
      ∃ system', system.step "worker"
          (.change (.evaluateRecoveries serverConfig 60003 system.state) 60003) = some system' ∧
        system'.state.deliveryJobs.any (·.kind = .recovery) = true :=
    ⟨_, rfl, _, rfl, _, rfl, rfl⟩
  have hspares : ∀ ask ∈ openingDelivered ++ [askServer .healthy 60002, askService .healthy 60002],
      ∀ system, watchService.Spares system (ask system) := by
    intro ask hask system
    simp only [openingDelivered, cons_append, nil_append, mem_cons, not_mem_nil, or_false] at hask
    refine ⟨fun config hreads => ?_, fun mutation clock hchange hinterrupts => ?_⟩
    · obtain rfl | rfl | rfl | rfl | rfl | rfl | rfl := hask
      all_goals first
        | exact Option.some.inj hreads ▸ watchService_enabled
        | exact absurd hreads (some_ne_none _).symm
    · obtain rfl | rfl | rfl | rfl | rfl | rfl | rfl := hask
      all_goals first
        | exact Action.noConfusion hchange
        | obtain ⟨rfl, -⟩ := Action.change.inj hchange
          exact EventType.noConfusion hinterrupts.2.2.1
        | obtain ⟨rfl, -⟩ := Action.change.inj hchange
          exact Health.noConfusion hinterrupts.2.2.2.1
  have hserver : watchService.Spares told (askServer .problem 60001 told) := by
    obtain rfl := Option.some.inj htold
    refine ⟨fun config hreads => Option.some.inj hreads ▸ watchService_enabled,
      fun mutation clock _ _ job hjob hrecovery => ?_⟩
    -- the only job is the opening
    rw [mem_singleton.mp hjob] at hrecovery
    exact DeliveryKind.noConfusion hrecovery.1
  have hreachedTold := (SystemReachable.start 0).run
    (fun ask hask => hspares ask (mem_append_left _ hask)) htold
  obtain ⟨waiting, hwaiting, hrest⟩ := bind_eq_some_iff.mp hrun
  have hreached := SystemReachable.run (hreachedTold.step _ hserver hwaiting)
    (fun ask hask => hspares ask (mem_append_right _ hask)) hrest
  exact ⟨system, system', hreached, hstep, hqueued,
    noRecoveryLost_of_spared hreached watchService_enabled hstep⟩

/-- The step leaves the watched policy, rule and contact point enabled. -/
def Watch.StaysEnabled (watch : Watch) (_ : System) (action : Action) : Prop :=
  ∀ config, action.config? = some config → watch.Enabled config

/-- The service recovers, and the server seems to be offline before the recovery is sent. -/
def recoveryCut : List (System → Action) :=
  serviceRecovers ++ [askServer .problem 60002, askServer .healthy 60003]

/-- An outage that was only pending leaves a recovery cancelled. -/
theorem recoveryLost : ¬∀ (watch : Watch) (workerId : String) (system system' : System)
    (config : NotificationConfig) (now clock : ℤ),
    SystemReachable workerId watch.StaysEnabled system → watch.Enabled config →
      system.step workerId (.change (.evaluateRecoveries config now system.state) clock)
        = some system' →
        NoRecoveryLost watch system'.state := by
  intro hkeeps
  obtain ⟨system, hrun⟩ : ∃ system, System.run "worker" ⟨createNotificationState 0, .idle⟩
      recoveryCut = some system := ⟨_, rfl⟩
  have henabled : ∀ ask ∈ recoveryCut, ∀ system, watchService.StaysEnabled system (ask system) := by
    intro ask hask system config hreads
    simp only [recoveryCut, serviceRecovers, openingDelivered, cons_append, nil_append,
      mem_cons, not_mem_nil, or_false] at hask
    obtain rfl | rfl | rfl | rfl | rfl | rfl | rfl | rfl := hask
    all_goals first
      | exact Option.some.inj hreads ▸ watchService_enabled
      | exact absurd hreads (some_ne_none _).symm
  have hreached := (SystemReachable.start 0).run henabled hrun
  obtain rfl := Option.some.inj hrun
  obtain ⟨job, hjob, hkind, -, -, hstate⟩ := hkeeps watchService "worker" _ _ serverConfig 60004
    60004 hreached watchService_enabled rfl _ (mem_singleton_self _) rfl rfl
    (mem_singleton_self _) rfl
  -- the two jobs are the opening that was delivered and the recovery that was cancelled
  obtain rfl | rfl := mem_pair.mp hjob
  · exact DeliveryKind.noConfusion hkind
  · obtain h | h | h | h | ⟨h, -⟩ := hstate
    all_goals exact DeliveryState.noConfusion h

end HomelabInventory.Notifications
