import HomelabInventory.IncidentLifecycle

/-!
# How jobs and incidents evolve

What one change of the state can do to the jobs and incidents that are there:
resolved incidents stay resolved, delivered jobs stay delivered as long as
their incident is kept, and new recovery jobs answer a delivered opening of a
resolved incident. The relation composes, so the operations are followed change
by change.
-/

namespace HomelabInventory.Notifications

open List

/-! ## Steps of a job -/

/-- The job waits to be sent. -/
def DeliveryJob.Waits (job : DeliveryJob) : Prop := job.state = .queued ∨ job.state = .retrying

/-- What an incident is about. -/
def Incident.subject (incident : Incident) : HostType × PositiveId × EventType :=
  (incident.hostType, incident.hostId, incident.eventType)

/-- A job after a change that may cancel the jobs in `cancels`. -/
structure JobStep (cancels : DeliveryJob → Prop) (old new : DeliveryJob) : Prop where
  face_eq : new.face = old.face
  delivered_iff : new.state = .delivered ↔ old.state = .delivered
  cancelled : new.state = .cancelled → old.state = .cancelled ∨ cancels old
  exhausted : new.state = .exhausted →
    (old.state = .exhausted ∧ new.attempts = old.attempts) ∨ retryDelaysMs.length ≤ new.attempts

theorem JobStep.refl (cancels : DeliveryJob → Prop) (job : DeliveryJob) :
    JobStep cancels job job :=
  ⟨rfl, Iff.rfl, .inl, fun h => .inl ⟨h, rfl⟩⟩

variable {cancels cancels' : DeliveryJob → Prop}

theorem JobStep.mono {old new : DeliveryJob} (h : JobStep cancels old new)
    (hcancels : cancels old → cancels' old) : JobStep cancels' old new :=
  ⟨h.face_eq, h.delivered_iff, fun hnew => (h.cancelled hnew).imp_right hcancels, h.exhausted⟩

/-- A step that cancels nothing may follow. -/
theorem JobStep.trans {old mid new : DeliveryJob} (h : JobStep cancels old mid)
    (h' : JobStep (fun _ => False) mid new) :
    JobStep cancels old new where
  face_eq := h'.face_eq.trans h.face_eq
  delivered_iff := h'.delivered_iff.trans h.delivered_iff
  cancelled hnew := h.cancelled ((h'.cancelled hnew).resolve_right fun h => h)
  exhausted hnew := by
    obtain ⟨hmid, hsame⟩ | hreal := h'.exhausted hnew
    · obtain ⟨hold, hsame'⟩ | hreal := h.exhausted hmid
      · exact .inl ⟨hold, hsame.trans hsame'⟩
      · exact .inr (hsame ▸ hreal)
    · exact .inr hreal

variable {mid new old state : NotificationState}
variable {incidentId : ℕ}

theorem mem_deliveredOpenings {contactPointId : PositiveId} :
    contactPointId ∈ deliveredOpenings state incidentId ↔
      ∃ job ∈ state.deliveryJobs, job.incidentId = incidentId ∧ job.kind = .opening ∧
        job.state = .delivered ∧ job.contactPointId = contactPointId := by
  simp [deliveredOpenings, and_assoc]

/-- A job that a change pushed. -/
structure NewJob (state : NotificationState) (job : DeliveryJob) : Prop where
  not_delivered : job.state ≠ .delivered
  not_cancelled : job.state ≠ .cancelled
  exhausted : job.state = .exhausted → retryDelaysMs.length ≤ job.attempts
  founded : job.kind = .recovery → Founded state job.incidentId job.contactPointId

/-- **What a change may do to jobs and incidents.** -/
structure Evolves (cancels : DeliveryJob → Prop) (old new : NotificationState) : Prop where
  incidentCounter : old.counters.incident ≤ new.counters.incident
  jobCounter : old.counters.deliveryJob ≤ new.counters.deliveryJob
  incidents : ∀ incident ∈ new.incidents,
    (∃ before ∈ old.incidents, before.id = incident.id ∧ before.subject = incident.subject ∧
      (before.state = .resolved → incident.state = .resolved)) ∨
    old.counters.incident ≤ incident.id
  jobs : ∀ job ∈ new.deliveryJobs,
    (∃ before ∈ old.deliveryJobs, JobStep cancels before job) ∨
    (old.counters.deliveryJob ≤ job.id ∧ NewJob new job)
  delivered : ∀ job ∈ old.deliveryJobs, job.state = .delivered →
    (∃ incident ∈ new.incidents, incident.id = job.incidentId) →
    ∃ after ∈ new.deliveryJobs, JobStep cancels job after

/-! ## Changes compose -/

theorem DeliveryJob.ids_of_face {old new : DeliveryJob} (h : new.face = old.face) :
    new.id = old.id ∧ new.incidentId = old.incidentId ∧
      new.contactPointId = old.contactPointId ∧ new.kind = old.kind := by
  simp only [DeliveryJob.face, Prod.mk.injEq] at h
  obtain ⟨hid, hincident, hcontact, hkind, -⟩ := h
  exact ⟨hid, hincident, hcontact, hkind⟩

/-- What founds a recovery stays. -/
theorem Evolves.founded (h : Evolves cancels old new) {contactPointId : PositiveId}
    (hfounded : Founded old incidentId contactPointId)
    (hknown : incidentId < old.counters.incident) : Founded new incidentId contactPointId := by
  intro incident hmem hid
  obtain ⟨before, hbefore, hsame, -, hresolved⟩ | hnew := h.incidents incident hmem
  · obtain ⟨hstate, hcontact⟩ := hfounded before hbefore (hsame.trans hid)
    refine ⟨hresolved hstate, ?_⟩
    obtain ⟨job, hjob, hof, hkind, hdelivered, hto⟩ := mem_deliveredOpenings.mp hcontact
    obtain ⟨after, hafter, hstep⟩ :=
      h.delivered job hjob hdelivered ⟨incident, hmem, hid.trans hof.symm⟩
    obtain ⟨-, hincident, hcontact, hkind'⟩ := DeliveryJob.ids_of_face hstep.face_eq
    exact mem_deliveredOpenings.mpr ⟨after, hafter, hincident.trans hof, hkind'.trans hkind,
      hstep.delivered_iff.mpr hdelivered, hcontact.trans hto⟩
  · rw [hid] at hnew
    exact absurd hknown (Nat.not_lt.mpr hnew)

theorem Evolves.mono (h : Evolves cancels old new)
    (hcancels : ∀ job ∈ old.deliveryJobs, cancels job → cancels' job) :
    Evolves cancels' old new where
  incidentCounter := h.incidentCounter
  jobCounter := h.jobCounter
  incidents := h.incidents
  jobs job hjob := by
    obtain ⟨before, hbefore, hstep⟩ | hnew := h.jobs job hjob
    · exact .inl ⟨before, hbefore, hstep.mono (hcancels before hbefore)⟩
    · exact .inr hnew
  delivered job hjob hdelivered hkept := by
    obtain ⟨after, hafter, hstep⟩ := h.delivered job hjob hdelivered hkept
    exact ⟨after, hafter, hstep.mono (hcancels job hjob)⟩

theorem Evolves.incidents_trans (h : Evolves cancels old mid) (h' : Evolves cancels' mid new) :
    ∀ incident ∈ new.incidents,
      (∃ before ∈ old.incidents, before.id = incident.id ∧ before.subject = incident.subject ∧
        (before.state = .resolved → incident.state = .resolved)) ∨
      old.counters.incident ≤ incident.id := by
  intro incident hincident
  obtain ⟨between, hbetween, hid, hsubject, hresolved⟩ | hnew := h'.incidents incident hincident
  · obtain ⟨before, hbefore, hid', hsubject', hresolved'⟩ | hnew := h.incidents between hbetween
    · exact .inl ⟨before, hbefore, hid'.trans hid, hsubject'.trans hsubject,
        fun hstate => hresolved (hresolved' hstate)⟩
    · exact .inr (hid ▸ hnew)
  · exact .inr (Nat.le_trans h.incidentCounter hnew)

/-- A change of a coherent state that cancels nothing may follow another. -/
theorem Evolves.trans (h : Evolves cancels old mid) (hold : Coherent old) (hmid : Coherent mid)
    (h' : Evolves (fun _ => False) mid new) : Evolves cancels old new where
  incidentCounter := Nat.le_trans h.incidentCounter h'.incidentCounter
  jobCounter := Nat.le_trans h.jobCounter h'.jobCounter
  incidents := h.incidents_trans h'
  jobs job hjob := by
    obtain ⟨between, hbetween, hstep⟩ | ⟨hfresh, hnew⟩ := h'.jobs job hjob
    · obtain ⟨before, hbefore, hstep'⟩ | ⟨hfresh, hnew⟩ := h.jobs between hbetween
      · exact .inl ⟨before, hbefore, hstep'.trans hstep⟩
      · obtain ⟨hid, hincident, hcontact, hkind⟩ := DeliveryJob.ids_of_face hstep.face_eq
        refine .inr ⟨hid ▸ hfresh, ?_⟩
        refine ⟨fun hstate => hnew.not_delivered (hstep.delivered_iff.mp hstate),
          fun hstate => hnew.not_cancelled ((hstep.cancelled hstate).resolve_right fun h => h),
          fun hstate => ?_, fun hrecovery => ?_⟩
        · obtain ⟨hold, hsame⟩ | hreal := hstep.exhausted hstate
          · exact hsame ▸ hnew.exhausted hold
          · exact hreal
        · rw [hincident, hcontact]
          refine h'.founded (hnew.founded (hkind ▸ hrecovery)) ?_
          exact hmid.incidents.lt _ (hmid.job_known between hbetween)
    · exact .inr ⟨Nat.le_trans h.jobCounter hfresh, hnew⟩
  delivered job hjob hdelivered hkept := by
    obtain ⟨incident, hincident, hid⟩ := hkept
    have hkeptMid : ∃ incident ∈ mid.incidents, incident.id = job.incidentId := by
      obtain ⟨between, hbetween, hsame, -⟩ | hnew := h'.incidents incident hincident
      · exact ⟨between, hbetween, hsame.trans hid⟩
      · have hknown := hold.incidents.lt _ (hold.job_known job hjob)
        exact absurd (Nat.lt_of_lt_of_le hknown (Nat.le_trans h.incidentCounter (hid ▸ hnew)))
          (Nat.lt_irrefl _)
    obtain ⟨between, hbetween, hstep⟩ := h.delivered job hjob hdelivered hkeptMid
    have hof := (DeliveryJob.ids_of_face hstep.face_eq).2.1
    obtain ⟨after, hafter, hstep'⟩ := h'.delivered between hbetween
      (hstep.delivered_iff.mpr hdelivered) ⟨incident, hincident, hid.trans hof.symm⟩
    exact ⟨after, hafter, hstep.trans hstep'⟩

/-- A change may follow one that left the jobs alone. -/
theorem Evolves.trans_of_jobs (h : Evolves (fun _ => False) old mid)
    (hjobs : mid.deliveryJobs = old.deliveryJobs) (h' : Evolves cancels mid new) :
    Evolves cancels old new where
  incidentCounter := Nat.le_trans h.incidentCounter h'.incidentCounter
  jobCounter := Nat.le_trans h.jobCounter h'.jobCounter
  incidents := h.incidents_trans h'
  jobs job hjob := by
    obtain ⟨before, hbefore, hstep⟩ | ⟨hfresh, hnew⟩ := h'.jobs job hjob
    · exact .inl ⟨before, hjobs ▸ hbefore, hstep⟩
    · exact .inr ⟨Nat.le_trans h.jobCounter hfresh, hnew⟩
  delivered job hjob hdelivered hkept := h'.delivered job (hjobs ▸ hjob) hdelivered hkept

/-! ## The changes that the operations are made of -/

theorem Evolves.of_same (hincidents : new.incidents = old.incidents)
    (hjobs : new.deliveryJobs = old.deliveryJobs)
    (hincidentCounter : new.counters.incident = old.counters.incident)
    (hjobCounter : new.counters.deliveryJob = old.counters.deliveryJob) :
    Evolves cancels old new where
  incidentCounter := Nat.le_of_eq hincidentCounter.symm
  jobCounter := Nat.le_of_eq hjobCounter.symm
  incidents incident hincident := .inl ⟨incident, hincidents ▸ hincident, rfl, rfl, fun h => h⟩
  jobs job hjob := .inl ⟨job, hjobs ▸ hjob, .refl _ job⟩
  delivered job hjob _ _ := ⟨job, hjobs ▸ hjob, .refl _ job⟩

theorem Evolves.refl (state : NotificationState) : Evolves cancels state state :=
  .of_same rfl rfl rfl rfl

theorem Evolves.of_jobs {f : DeliveryJob → DeliveryJob}
    (hf : ∀ job ∈ state.deliveryJobs, JobStep cancels job (f job)) :
    Evolves cancels state { state with deliveryJobs := state.deliveryJobs.map f } where
  incidentCounter := Nat.le_refl _
  jobCounter := Nat.le_refl _
  incidents incident hincident := .inl ⟨incident, hincident, rfl, rfl, fun h => h⟩
  jobs job hjob := by
    obtain ⟨before, hbefore, rfl⟩ := mem_map.mp hjob
    exact .inl ⟨before, hbefore, hf before hbefore⟩
  delivered job hjob _ _ := ⟨f job, mem_map_of_mem hjob, hf job hjob⟩

theorem Evolves.of_modifyFirst {p : DeliveryJob → Bool} {f : DeliveryJob → DeliveryJob}
    (hf : ∀ job ∈ state.deliveryJobs, p job → JobStep cancels job (f job)) :
    Evolves cancels state { state with
      deliveryJobs := modifyFirst p f state.deliveryJobs } where
  incidentCounter := Nat.le_refl _
  jobCounter := Nat.le_refl _
  incidents incident hincident := .inl ⟨incident, hincident, rfl, rfl, fun h => h⟩
  jobs job hjob := by
    obtain hold | ⟨before, hbefore, hp, rfl⟩ := mem_modifyFirst hjob
    · exact .inl ⟨job, hold, .refl _ job⟩
    · exact .inl ⟨before, hbefore, hf before hbefore hp⟩
  delivered job hjob _ _ := by
    obtain hsame | ⟨hp, hchanged⟩ := mem_or_mem_modifyFirst (p := p) (f := f) hjob
    · exact ⟨job, hsame, .refl _ job⟩
    · exact ⟨f job, hchanged, hf job hjob hp⟩

/-- A change of an incident that keeps what it is about and leaves it resolved if it was. -/
theorem Evolves.of_modifyIncident {p : Incident → Bool}
    {f : Incident → Incident} (hincidents : new.incidents = modifyFirst p f old.incidents)
    (hjobs : new.deliveryJobs = old.deliveryJobs)
    (hincidentCounter : new.counters.incident = old.counters.incident)
    (hjobCounter : new.counters.deliveryJob = old.counters.deliveryJob)
    (hf : ∀ incident ∈ old.incidents, p incident →
      (f incident).id = incident.id ∧ (f incident).subject = incident.subject ∧
        (incident.state = .resolved → (f incident).state = .resolved)) :
    Evolves (fun _ => False) old new where
  incidentCounter := Nat.le_of_eq hincidentCounter.symm
  jobCounter := Nat.le_of_eq hjobCounter.symm
  incidents incident hincident := by
    rw [hincidents] at hincident
    obtain hold | ⟨before, hbefore, hp, rfl⟩ := mem_modifyFirst hincident
    · exact .inl ⟨incident, hold, rfl, rfl, fun h => h⟩
    · obtain ⟨hid, hsubject, hresolved⟩ := hf before hbefore hp
      exact .inl ⟨before, hbefore, hid.symm, hsubject.symm, hresolved⟩
  jobs job hjob := .inl ⟨job, hjobs ▸ hjob, .refl _ job⟩
  delivered job hjob _ _ := ⟨job, hjobs ▸ hjob, .refl _ job⟩

variable {incident : Incident}

theorem Evolves.closeIncident (h : Coherent state) (hmem : incident ∈ state.incidents)
    (hopened : incident.state = .opened) (target : IncidentState) (reason : String) (now : ℤ) :
    Evolves (fun _ => False) state (closeIncident state incident target reason now) := by
  refine .of_modifyIncident rfl rfl rfl rfl ?_
  intro candidate hcandidate hid
  obtain rfl := h.eq_of_id hcandidate hmem (of_decide_eq_true hid)
  exact ⟨rfl, rfl, fun hresolved => nomatch hopened.symm.trans hresolved⟩

theorem Evolves.of_push {added : List DeliveryJob} {next : ℕ}
    (hnext : state.counters.deliveryJob ≤ next)
    (hadded : ∀ job ∈ added, state.counters.deliveryJob ≤ job.id ∧ job.state = .queued)
    (hfounded : ∀ job ∈ added, job.kind = .recovery →
      Founded state job.incidentId job.contactPointId) :
    Evolves (fun _ => False) state { state with
      deliveryJobs := state.deliveryJobs ++ added
      counters := { state.counters with deliveryJob := next } } where
  incidentCounter := Nat.le_refl _
  jobCounter := hnext
  incidents incident hincident := .inl ⟨incident, hincident, rfl, rfl, fun h => h⟩
  jobs job hjob := by
    obtain hold | hnew := mem_append.mp hjob
    · exact .inl ⟨job, hold, .refl _ job⟩
    · obtain ⟨hfresh, hqueued⟩ := hadded job hnew
      refine .inr ⟨hfresh, ?_, ?_, ?_, fun hrecovery => ?_⟩
      · exact fun hstate => nomatch hqueued.symm.trans hstate
      · exact fun hstate => nomatch hqueued.symm.trans hstate
      · exact fun hstate => nomatch hqueued.symm.trans hstate
      · intro incident hincident hid
        obtain ⟨hresolved, hcontact⟩ := hfounded job hnew hrecovery incident hincident hid
        refine ⟨hresolved, ?_⟩
        obtain ⟨opening, hopening, hof⟩ := mem_deliveredOpenings.mp hcontact
        exact mem_deliveredOpenings.mpr ⟨opening, mem_append_left _ hopening, hof⟩
  delivered job hjob _ _ := ⟨job, mem_append_left _ hjob, .refl _ job⟩

/-- Jobs are queued; recoveries only for resolved incidents and recipients of the opening. -/
theorem Evolves.queueJobs (config : NotificationConfig)
    (incident : Incident) (rule : NotificationRule) (kind : DeliveryKind) (now : ℤ)
    (occurrence : Option ℤ) (recipientIds : Option (List PositiveId))
    (hrecovery : kind = .recovery → ∃ ids, recipientIds = some ids ∧ ∀ id ∈ ids,
      Founded state incident.id id) :
    Evolves (fun _ => False) state
      (queueJobs state config incident rule kind now occurrence recipientIds) := by
  obtain ⟨added, next, heq, hnext, hadded⟩ :=
    queueJobs_pushes state config incident rule kind now occurrence recipientIds
  rw [heq]
  refine .of_push hnext (fun job hjob => ⟨(hadded job hjob).1.fresh, (hadded job hjob).1.queued⟩) ?_
  intro job hjob hkind
  obtain ⟨hqueued, hids⟩ := hadded job hjob
  obtain ⟨ids, hsome, hfounded⟩ := hrecovery (hqueued.kind_eq.symm.trans hkind)
  exact hqueued.incidentId_eq ▸ hfounded _ (hids ids hsome)

theorem Evolves.restoreCancelledOpeningJobs (h : Coherent state) (config : NotificationConfig)
    (incident : Incident) (rule : NotificationRule) (now : ℤ) :
    Evolves (fun _ => False) state
      (restoreCancelledOpeningJobs state config incident rule now).2 := by
  unfold Notifications.restoreCancelledOpeningJobs
  have hloop := List.foldlRecOn
    (motive := fun restored : Bool × NotificationState =>
      Coherent restored.2 ∧ Evolves (fun _ => False) state restored.2)
    (contactPointsFor config rule) (restoreCancelledOpeningJob incident now) (b := (false, state))
    ⟨h, .refl state⟩ ?_
  · exact hloop.2
  rintro restored ⟨hcoherent, hevolves⟩ id -
  refine ⟨hcoherent.restoreCancelledOpeningJob incident now id, hevolves.trans h hcoherent ?_⟩
  simp only [restoreCancelledOpeningJob]
  split
  · exact .refl _
  rename_i job hfind
  split
  · exact .refl _
  · rename_i hcancelled
    rw [not_or, not_not] at hcancelled
    refine .of_modifyFirst fun candidate hcandidate hkey => ?_
    have hfound : job.idempotencyKey = jobKey incident.id id .opening none := by
      simpa using find?_some hfind
    obtain rfl : candidate = job := eq_of_key_eq hcoherent.jobKeys hcandidate
      (mem_of_find?_eq_some hfind) ((of_decide_eq_true hkey).trans hfound.symm)
    refine ⟨rfl, ?_, (by rintro ⟨⟩), (by rintro ⟨⟩)⟩
    simp [hcancelled.1]

theorem Evolves.cancelWaitingJobs (state : NotificationState) (incidentIds : List ℕ)
    (reason : String) (now : ℤ) :
    Evolves (fun job => job.incidentId ∈ incidentIds ∧ (job.state = .queued ∨ job.state = .retrying))
      state (cancelWaitingJobs state incidentIds reason now) := by
  refine .of_jobs fun job _ => ?_
  split
  · rename_i hwaits
    refine ⟨rfl, ?_, fun _ => .inr hwaits, nofun⟩
    obtain ⟨-, hstate | hstate⟩ := hwaits <;> simp [hstate]
  · exact .refl _ job

theorem Evolves.promotePending (state : NotificationState) (rule : NotificationRule)
    (pending : PendingTransition) (now : ℤ) (id : ℕ) (reason : String) :
    Evolves (fun _ => False) state
      (addTransition (promotePending state rule pending now) id .pending .opened reason now) := by
  have hpromoted : ∀ new : NotificationState,
      new.incidents = state.incidents ++ [incidentOf state.counters.incident rule pending now] →
      new.deliveryJobs = state.deliveryJobs →
      new.counters.incident = state.counters.incident + 1 →
      new.counters.deliveryJob = state.counters.deliveryJob →
      Evolves (fun _ => False) state new := by
    intro new hincidents hjobs hincidentCounter hjobCounter
    refine ⟨Nat.le_of_lt (hincidentCounter ▸ Nat.lt_succ_self _),
      Nat.le_of_eq hjobCounter.symm, fun incident hincident => ?_,
      fun job hjob => .inl ⟨job, hjobs ▸ hjob, .refl _ job⟩,
      fun job hjob _ _ => ⟨job, hjobs ▸ hjob, .refl _ job⟩⟩
    rw [hincidents] at hincident
    obtain hold | hnew := mem_append.mp hincident
    · exact .inl ⟨incident, hold, rfl, rfl, fun h => h⟩
    · obtain rfl := mem_singleton.mp hnew
      exact .inr (Nat.le_refl _)
  simp only [Notifications.promotePending]
  split <;> exact hpromoted _ rfl rfl rfl rfl

/-- Only the jobs and incidents a change starts from count. -/
theorem Evolves.congr_left (h : Evolves cancels mid new)
    (hincidents : mid.incidents = old.incidents) (hjobs : mid.deliveryJobs = old.deliveryJobs)
    (hincidentCounter : mid.counters.incident = old.counters.incident)
    (hjobCounter : mid.counters.deliveryJob = old.counters.deliveryJob) :
    Evolves cancels old new where
  incidentCounter := hincidentCounter ▸ h.incidentCounter
  jobCounter := hjobCounter ▸ h.jobCounter
  incidents := hincidents ▸ hincidentCounter ▸ h.incidents
  jobs := hjobs ▸ hjobCounter ▸ h.jobs
  delivered := hjobs ▸ h.delivered

/-! ## Operations of the incident manager -/

/-- An outage of the host that is not open yet cancels what waits for its children. -/
structure InhibitedBy (state : NotificationState) (observation : Observation)
    (job : DeliveryJob) : Prop where
  outage : observation.eventType = .hostOffline
  problem : observation.state = .problem
  not_open : eventKeyFor observation ∉ openKeys state.incidents
  waits : job.Waits
  child : ∃ incident ∈ state.incidents, incident.id = job.incidentId ∧
    incident.hostType = observation.hostType ∧ incident.hostId = observation.hostId ∧
    incident.eventType ≠ .hostOffline

theorem Evolves.inhibitChildren (state : NotificationState) {observation : Observation}
    (hproblem : observation.state = .problem)
    (hclosed : eventKeyFor observation ∉ openKeys state.incidents) (now : ℤ) :
    Evolves (InhibitedBy state observation) state (inhibitChildren state observation now) := by
  unfold Notifications.inhibitChildren
  split
  · rename_i hout
    have hcancelled := Evolves.cancelWaitingJobs
      { state with
        pendingTransitions := state.pendingTransitions.filter fun candidate =>
          candidate.eventKey = eventKeyFor observation
            ∨ candidate.hostType ≠ observation.hostType ∨ candidate.hostId ≠ observation.hostId }
      ((state.incidents.filter fun incident =>
        incident.hostType = observation.hostType ∧ incident.hostId = observation.hostId
          ∧ incident.eventType ≠ .hostOffline).map (·.id))
      "Delivery inhibited by a pending host outage." now
    refine (hcancelled.mono ?_).congr_left rfl rfl rfl rfl
    rintro job - ⟨hchild, hwaits⟩
    obtain ⟨incident, hincident, hid⟩ := mem_map.mp hchild
    obtain ⟨hold, hof⟩ := mem_filter.mp hincident
    exact ⟨hout, hproblem, hclosed, hwaits, incident, hold, hid, of_decide_eq_true hof⟩
  · exact .refl state

/-- The operations go on from what a change has done so far. -/
theorem Evolves.keeps (h : Coherent state) (now : ℤ) :
    Keeps now (fun _ _ => True) fun draft => Coherent draft ∧ Evolves cancels state draft where
  coherent hp := hp.1
  beside hp hbeside hnew := ⟨hnew, hp.2.trans h hp.1 (.of_same hbeside.incidents
    hbeside.deliveryJobs hbeside.incidentCounter hbeside.jobCounter)⟩
  promote pending rule hp hnew :=
    ⟨hnew, hp.2.trans h hp.1 (.promotePending _ rule pending now _ _)⟩
  resolve hp hmem hopened _ hnew :=
    ⟨hnew, hp.2.trans h hp.1 (.closeIncident hp.1 hmem hopened .resolved _ now)⟩
  remind _ hp hnew := ⟨hnew, hp.2.trans h hp.1
    (.of_modifyIncident rfl rfl rfl rfl fun _ _ _ => ⟨rfl, rfl, fun h => h⟩)⟩
  queue config incident rule kind occurrence recipientIds hp _ hrecovery _ hnew := ⟨hnew,
    hp.2.trans h hp.1 (.queueJobs config incident rule kind now occurrence recipientIds hrecovery)⟩
  restore config rule hp _ hnew :=
    ⟨hnew, hp.2.trans h hp.1 (.restoreCancelledOpeningJobs hp.1 config _ rule now)⟩

theorem Evolves.observe (h : Coherent state) (config : NotificationConfig) (clock : ℤ)
    (snapshot : NotificationState) (observation : Observation) :
    Evolves
      (fun job => Heard config clock snapshot observation state ∧
        InhibitedBy state observation job)
      state (observe config clock snapshot observation state).2 := by
  refine ((Evolves.keeps h _).observe ⟨h, .refl state⟩ ?_ fun _ _ _ _ _ => trivial).2
  intro counted hheard hproblem hbeside hclosed hcoherent
  have hincidents := hbeside.incidents
  have hinhibited := (Evolves.inhibitChildren counted hproblem hclosed
    (observation.observedAt.getD clock)).congr_left hincidents hbeside.deliveryJobs
    hbeside.incidentCounter hbeside.jobCounter
  refine ⟨hcoherent, hinhibited.mono ?_⟩
  rintro job - ⟨hout, hstate, hopen, hwaits, child, hchild, hof⟩
  exact ⟨hheard, hout, hstate, hincidents ▸ hopen, hwaits, child, hincidents ▸ hchild, hof⟩

/-! ## Disconnected hosts, changed policies, acknowledgements -/

theorem Evolves.cancelIncidents (h : Coherent state) (p : Incident → Bool) (reason : String)
    (now : ℤ) :
    Evolves (fun _ => False) state (Notifications.cancelIncidents state p reason now) ∧
      (Notifications.cancelIncidents state p reason now).deliveryJobs = state.deliveryJobs := by
  refine (h.cancelIncidents_spec p reason now (P := fun draft =>
    Evolves (fun _ => False) state draft ∧ draft.deliveryJobs = state.deliveryJobs)
    ⟨.refl state, rfl⟩ ?_).2
  rintro draft incident hdraft - - hmem hopened ⟨hevolved, hjobs⟩
  exact ⟨hevolved.trans h hdraft (.closeIncident hdraft hmem hopened .cancelled reason now), hjobs⟩

/-- The incidents that match are closed, after records were dropped beside them, and the jobs of
some incidents are cancelled. -/
theorem Evolves.cancelled (state : NotificationState) {filtered : NotificationState}
    (hfiltered : Coherent filtered)
    (hincidents : filtered.incidents = state.incidents)
    (hjobs : filtered.deliveryJobs = state.deliveryJobs)
    (hincidentCounter : filtered.counters.incident = state.counters.incident)
    (hjobCounter : filtered.counters.deliveryJob = state.counters.deliveryJob)
    {p : Incident → Bool} {reason reason' : String} {now : ℤ} {ids : List ℕ}
    (hcancels : Evolves (fun _ => False) state (Notifications.cancelIncidents filtered p reason now) →
      ∀ job ∈ state.deliveryJobs, job.incidentId ∈ ids → job.Waits → cancels job) :
    Evolves cancels state (Notifications.cancelWaitingJobs
      (Notifications.cancelIncidents filtered p reason now) ids reason' now) := by
  obtain ⟨hclosed, hsame⟩ := Evolves.cancelIncidents hfiltered p reason now
  have hclosed := hclosed.congr_left hincidents hjobs hincidentCounter hjobCounter
  refine (hclosed.trans_of_jobs (hsame.trans hjobs) (.cancelWaitingJobs _ _ _ now)).mono ?_
  exact fun job hjob hof => hcancels hclosed job hjob hof.1 hof.2

theorem Evolves.cancelHost (h : Coherent state) (hostType : HostType) (hostId : PositiveId)
    (reason : String) (now : ℤ) :
    Evolves
      (fun job => job.Waits ∧ ∃ incident ∈ state.incidents, incident.id = job.incidentId ∧
        incident.hostType = hostType ∧ incident.hostId = hostId)
      state (cancelHost hostType hostId reason now state) := by
  refine .cancelled state (h.filterRecords filter_sublist filter_sublist
    filter_sublist filter_sublist) rfl rfl rfl rfl fun hclosed job hjob hof hwaits => ?_
  obtain ⟨incident, hincident, hid⟩ := mem_map.mp hof
  obtain ⟨hmem, hhost⟩ := mem_filter.mp hincident
  obtain ⟨htype, hhostId⟩ := of_decide_eq_true hhost
  obtain ⟨before, hbefore, hsame, hsubject, -⟩ | hnew := hclosed.incidents incident hmem
  · refine ⟨hwaits, before, hbefore, hsame.trans hid, ?_, ?_⟩
    · exact (congrArg (fun subject => subject.1) hsubject).trans htype
    · exact (congrArg (fun subject => subject.2.1) hsubject).trans hhostId
  · have hknown := h.incidents.lt _ (h.job_known job hjob)
    exact absurd hknown (Nat.not_lt.mpr (hid ▸ hnew))

theorem Evolves.reconcilePolicies (h : Coherent state) (config : NotificationConfig)
    (scope : PolicyScope) (reason : String) (now : ℤ) (snapshot : NotificationState) :
    Evolves
      (fun job => job.Waits ∧ ∃ incident ∈ state.incidents, incident.id = job.incidentId ∧
        incident.state = .opened)
      state (reconcilePolicies config scope reason now snapshot state).2 := by
  simp only [Notifications.reconcilePolicies]
  split
  · refine .cancelled state (h.filterRecords filter_sublist filter_sublist
      filter_sublist (.refl _)) rfl rfl rfl rfl fun _ job _ hof hwaits => ?_
    obtain ⟨incident, hincident, hid⟩ := mem_map.mp hof
    obtain ⟨hmem, hopened⟩ := mem_filter.mp hincident
    exact ⟨hwaits, incident, hmem, hid, of_decide_eq_true (Bool.and_eq_true_iff.mp hopened).2⟩
  · exact .refl state

variable {now : ℤ}

theorem Evolves.acknowledge {actor : Option ℕ} {result : Incident × NotificationState}
    (hrun : acknowledge incidentId actor now state = .ok result) :
    Evolves (fun _ => False) state result.2 := by
  simp only [Notifications.acknowledge] at hrun
  split at hrun
  · cases hrun
  split at hrun
  · obtain rfl := Except.ok.inj hrun
    exact .refl state
  · obtain rfl := Except.ok.inj hrun
    exact .of_modifyIncident rfl rfl rfl rfl fun _ _ _ => ⟨rfl, rfl, fun h => h⟩

/-! ## Retention and retries -/

theorem Evolves.retry (h : Coherent state) {jobId : ℕ} {result : DeliveryJob × NotificationState}
    (hrun : retry jobId now state = .ok result) : Evolves (fun _ => False) state result.2 := by
  simp only [Notifications.retry] at hrun
  split at hrun
  · cases hrun
  rename_i job hfind
  split at hrun
  · cases hrun
  rename_i hstate
  obtain rfl := Except.ok.inj hrun
  refine .of_modifyFirst fun candidate hcandidate hid => ?_
  have hfound : job.id = jobId := by simpa using find?_some hfind
  obtain rfl : candidate = job := eq_of_key_eq h.deliveryJobs.nodup hcandidate
    (mem_of_find?_eq_some hfind) ((of_decide_eq_true hid).trans hfound.symm)
  refine ⟨rfl, ⟨(by rintro ⟨⟩), fun hdelivered => ?_⟩, (by rintro ⟨⟩), (by rintro ⟨⟩)⟩
  simp [hdelivered] at hstate

theorem Evolves.prune (removed : List ℕ)
    (hincidents : new.incidents
      = state.incidents.filter fun incident => !(removed.contains incident.id))
    (hjobs : new.deliveryJobs
      = state.deliveryJobs.filter fun job => !(removed.contains job.incidentId))
    (hcounters : new.counters = state.counters) : Evolves (fun _ => False) state new where
  incidentCounter := Nat.le_of_eq (hcounters ▸ rfl)
  jobCounter := Nat.le_of_eq (hcounters ▸ rfl)
  incidents incident hincident := by
    rw [hincidents] at hincident
    exact .inl ⟨incident, (mem_filter.mp hincident).1, rfl, rfl, fun h => h⟩
  jobs job hjob := by
    rw [hjobs] at hjob
    exact .inl ⟨job, (mem_filter.mp hjob).1, .refl _ job⟩
  delivered job hjob _ hkept := by
    obtain ⟨incident, hincident, hid⟩ := hkept
    rw [hincidents] at hincident
    have hstays := (mem_filter.mp hincident).2
    rw [hid] at hstays
    refine ⟨job, ?_, .refl _ job⟩
    rw [hjobs]
    exact mem_filter.mpr ⟨hjob, hstays⟩

theorem Evolves.pruneNotificationHistory (state : NotificationState)
    (config : NotificationConfig) (limits : RetentionLimits) (now : ℤ)
    (snapshot : NotificationState) :
    Evolves (fun _ => False) state (pruneNotificationHistory config limits now snapshot state).2 := by
  simp only [Notifications.pruneNotificationHistory]
  split
  · exact .refl state
  · exact .prune _ rfl rfl rfl

end HomelabInventory.Notifications
