import HomelabInventory.KeptJobs

/-!
# Reminders that stay fresh

A reminder is queued for an incident that is open and unacknowledged. That stays so until the
reminder is sent, unless its incident is acknowledged, resolved or cancelled while the reminder
waits or is leased, or the reminder is retried by hand after that.
-/

namespace HomelabInventory.Notifications

open List

/-! ## The condition -/

/-- The job is a reminder that may still be sent: the store has it outstanding, or the coordinator
has read it. -/
structure ReminderOutstanding (worker : WorkerPhase) (state : NotificationState)
    (job : DeliveryJob) : Prop where
  kind_eq : job.kind = .reminder
  outstanding : (job ∈ state.deliveryJobs ∧ job.IsOutstanding) ∨ worker = .leased job

/-- The change acknowledges, resolves or cancels the incident of a job without cancelling the
job. -/
def Mutation.Overtakes (state : NotificationState) (job : DeliveryJob) : Mutation → Prop
  | .observe config clock snapshot observation =>
    Heard config clock snapshot observation state ∧ observation.state = .healthy ∧
      ∃ incident ∈ state.incidents, incident.id = job.incidentId ∧
        incident.eventKey = eventKeyFor observation
  | .acknowledge incidentId .. => job.incidentId = incidentId
  | .cancelHost hostType hostId .. => ¬job.Waits ∧ ∃ incident ∈ state.incidents,
    incident.id = job.incidentId ∧ incident.hostType = hostType ∧ incident.hostId = hostId
  | .reconcilePolicies config scope _ now _ => ¬job.Waits ∧ ∃ incident ∈ state.incidents,
    incident.id = job.incidentId ∧ allowed config scope now incident.hostType incident.hostId
      incident.resourceId incident.eventType = false
  | _ => False

/-- The change overtakes no reminder that may still be sent, and retries none by hand whose
incident was closed or acknowledged. -/
structure Mutation.SparesReminders (worker : WorkerPhase) (state : NotificationState)
    (mutation : Mutation) : Prop where
  standing : ∀ job, ReminderOutstanding worker state job → ¬mutation.Overtakes state job
  retried : ∀ jobId now, mutation = .retry jobId now → ∀ job ∈ state.deliveryJobs,
    job.id = jobId → job.kind = .reminder → ∀ incident ∈ state.incidents,
      incident.id = job.incidentId → incident.IsRemindable

/-- **The step overtakes no reminder**: a change beside the coordinator closes or acknowledges no
incident while a reminder of it waits or is leased, and retries no reminder that is out of date. -/
def SparesReminders (system : System) (action : Action) : Prop :=
  ∀ mutation clock, action = .change mutation clock →
    mutation.SparesReminders system.worker system.state

/-! ## The invariant -/

/-- **The incidents of the reminders that may still be sent are open and unacknowledged.** -/
structure RemindersFresh (worker : WorkerPhase) (state : NotificationState) : Prop where
  leased : ∀ job, worker = .leased job →
    job.incidentId < state.counters.incident ∧ job.state = .leased
  lease_held : LeaseHeld state
  fresh : ∀ job, ReminderOutstanding worker state job → ∀ incident ∈ state.incidents,
    incident.id = job.incidentId → incident.IsRemindable

variable {worker : WorkerPhase} {new old state : NotificationState}

/-- What a change may do to a job: it goes on as it was, or it is queued, as a reminder only of
what may be reminded of. -/
def JobMayBe (old new : NotificationState) (job : DeliveryJob) : Prop :=
  (∃ before ∈ old.deliveryJobs, JobKept before job) ∨
    (job.leaseOwner = none ∧ (job.kind = .reminder → ∀ incident ∈ new.incidents,
      incident.id = job.incidentId → incident.IsRemindable))

/-- What a change may do to an incident: it stays open and unacknowledged if it was, or no reminder
of it is left. -/
def IncidentMayBe (worker : WorkerPhase) (old new : NotificationState) (incident : Incident) : Prop :=
  (∃ before ∈ old.incidents, before.id = incident.id ∧
    (before.IsRemindable → incident.IsRemindable)) ∨
  ∀ job, ReminderOutstanding worker new job → job.incidentId ≠ incident.id

theorem RemindersFresh.of_change (h : RemindersFresh worker old)
    (hcounter : old.counters.incident ≤ new.counters.incident)
    (hjobs : ∀ job ∈ new.deliveryJobs, JobMayBe old new job)
    (hincidents : ∀ incident ∈ new.incidents, IncidentMayBe worker old new incident) :
    RemindersFresh worker new where
  leased job hleased := by
    obtain ⟨hknown, hstate⟩ := h.leased job hleased
    exact ⟨Nat.lt_of_lt_of_le hknown hcounter, hstate⟩
  lease_held job hjob := by
    obtain ⟨before, -, hkept⟩ | ⟨hnone, -⟩ := hjobs job hjob
    · exact hkept.lease_held
    · rw [hnone]
      exact nofun
  fresh job houtstanding incident hincident hid := by
    obtain ⟨before, hbefore, hsame, hremindable⟩ | hnone := hincidents incident hincident
    · have hold : ∀ job', ReminderOutstanding worker old job' → job'.incidentId = job.incidentId →
          incident.IsRemindable := fun job' hold hof =>
        hremindable (h.fresh job' hold before hbefore (hsame.trans (hid.trans hof.symm)))
      obtain ⟨hkind, ⟨hjob, hout⟩ | hleased⟩ := houtstanding
      · obtain ⟨jobBefore, hjobBefore, hkept⟩ | ⟨-, hqueued⟩ := hjobs job hjob
        · obtain ⟨-, hof, -, hsameKind⟩ := DeliveryJob.ids_of_face hkept.face_eq
          exact hold jobBefore ⟨hsameKind ▸ hkind, .inl ⟨hjobBefore, hkept.outstanding hout⟩⟩
            hof.symm
        · exact hqueued hkind incident hincident hid
      · exact hold job ⟨hkind, .inr hleased⟩ rfl
    · exact absurd hid.symm (hnone job houtstanding)

theorem remindersFresh_start (now : ℤ) : RemindersFresh .idle (createNotificationState now) where
  leased _ hleased := WorkerPhase.noConfusion hleased
  lease_held := by simp [LeaseHeld, createNotificationState]
  fresh := by simp [createNotificationState]

variable (h : RemindersFresh worker state)
include h

/-- A change of the jobs that queues none. -/
theorem RemindersFresh.setJobs (hkept : OnlyJobs state new) : RemindersFresh worker new :=
  h.of_change hkept.incidentCounter.ge (fun job hjob => .inl (hkept.jobs job hjob))
    fun incident hincident => .inl ⟨incident, hkept.incidents ▸ hincident, rfl, fun hopen => hopen⟩

theorem RemindersFresh.congr (hincidents : new.incidents = state.incidents)
    (hjobs : new.deliveryJobs = state.deliveryJobs)
    (hcounter : new.counters.incident = state.counters.incident) : RemindersFresh worker new :=
  h.of_change hcounter.ge (fun job hjob => .inl (h.lease_held.jobsKept (hjobs ▸ Subset.refl _) job hjob))
    fun incident hincident => .inl ⟨incident, hincidents ▸ hincident, rfl, fun hopen => hopen⟩

/-- An incident changes of which no reminder is left, or which stays open and unacknowledged. -/
theorem RemindersFresh.modifyIncident {id : ℕ} {f : Incident → Incident}
    (hf : ∀ incident, (f incident).id = incident.id ∧
      ((incident.IsRemindable → (f incident).IsRemindable) ∨
        ∀ job, ReminderOutstanding worker state job → job.incidentId ≠ id))
    (hincidents : new.incidents = modifyFirst (fun candidate => candidate.id = id) f
      state.incidents)
    (hjobs : new.deliveryJobs = state.deliveryJobs)
    (hcounter : new.counters.incident = state.counters.incident) : RemindersFresh worker new := by
  refine h.of_change hcounter.ge (fun job hjob =>
    .inl (h.lease_held.jobsKept (hjobs ▸ Subset.refl _) job hjob)) fun incident hincident => ?_
  rw [hincidents] at hincident
  obtain hold | ⟨before, hbefore, hid, rfl⟩ := mem_modifyFirst hincident
  · exact .inl ⟨incident, hold, rfl, fun hopen => hopen⟩
  · obtain ⟨hsame, hkept | hnone⟩ := hf before
    · exact .inl ⟨before, hbefore, hsame.symm, hkept⟩
    · refine .inr fun job hjob => ?_
      rw [hsame, of_decide_eq_true hid]
      exact hnone job ⟨hjob.kind_eq, hjobs ▸ hjob.outstanding⟩

/-! ## Operations of the incident manager -/

omit h in
theorem RemindersFresh.queueJobs (h : RemindersFresh worker state) (config : NotificationConfig)
    (incident : Incident) (rule : NotificationRule) (kind : DeliveryKind) (now : ℤ)
    (occurrence : Option ℤ) (recipientIds : Option (List PositiveId))
    (hremindable : kind = .reminder → ∀ other ∈ state.incidents, other.id = incident.id →
      other.IsRemindable) :
    RemindersFresh worker
      (queueJobs state config incident rule kind now occurrence recipientIds) := by
  obtain ⟨added, next, heq, -, hadded⟩ :=
    queueJobs_pushes state config incident rule kind now occurrence recipientIds
  rw [heq]
  refine h.of_change (Nat.le_refl _) (fun job hjob => ?_)
    fun other hother => .inl ⟨other, hother, rfl, fun hopen => hopen⟩
  obtain hold | hnew := mem_append.mp hjob
  · exact .inl ⟨job, hold, h.lease_held.kept hold⟩
  · obtain ⟨hqueued, -⟩ := hadded job hnew
    refine .inr ⟨hqueued.unleased, fun hkind other hother hid => ?_⟩
    exact hremindable (hqueued.kind_eq.symm.trans hkind) other hother
      (hid.trans hqueued.incidentId_eq)

variable (hcoherent : Coherent state)
include hcoherent

theorem RemindersFresh.restoreCancelledOpeningJobs (config : NotificationConfig)
    (incident : Incident) (rule : NotificationRule) (now : ℤ) :
    RemindersFresh worker (restoreCancelledOpeningJobs state config incident rule now).2 := by
  unfold Notifications.restoreCancelledOpeningJobs
  refine (List.foldlRecOn (motive := fun restored : Bool × NotificationState =>
    Coherent restored.2 ∧ RemindersFresh worker restored.2) _ _ ⟨hcoherent, h⟩ ?_).2
  rintro restored ⟨hrestored, hfresh⟩ id -
  refine ⟨hrestored.restoreCancelledOpeningJob incident now id, ?_⟩
  simp only [restoreCancelledOpeningJob]
  split
  · exact hfresh
  split
  · exact hfresh
  refine hfresh.of_change (Nat.le_refl _) (fun job hjob => ?_)
    fun other hother => .inl ⟨other, hother, rfl, fun hopen => hopen⟩
  obtain hold | ⟨before, hbefore, hkey, rfl⟩ := mem_modifyFirst hjob
  · exact .inl ⟨job, hold, hfresh.lease_held.kept hold⟩
  · refine .inr ⟨rfl, fun hkind => ?_⟩
    -- the key is that of an opening
    have hkind : before.kind = .reminder := hkind
    have hkeyed := (hrestored.job_keyed before hbefore).kind_eq
    rw [of_decide_eq_true hkey] at hkeyed
    cases hkeyed.trans hkind

theorem RemindersFresh.promotePending (pending : PendingTransition) (rule : NotificationRule)
    (now : ℤ) : RemindersFresh worker (promotePending state rule pending now) := by
  have hjobs := promotePending_deliveryJobs state rule pending now
  refine h.of_change ?_ (fun job hjob => .inl (h.lease_held.jobsKept
    (hjobs ▸ Subset.refl _) job hjob)) fun incident hincident => ?_
  · simp only [Notifications.promotePending]
    split <;> exact Nat.le_succ _
  rw [promotePending_incidents] at hincident
  obtain hold | hnew := mem_append.mp hincident
  · exact .inl ⟨incident, hold, rfl, fun hopen => hopen⟩
  · refine .inr fun job hjob hid => ?_
    have hknown : job.incidentId < state.counters.incident := by
      obtain ⟨-, ⟨hmem, -⟩ | hleased⟩ := hjob
      · exact hcoherent.incidents.lt _ (hcoherent.job_known job (hjobs ▸ hmem))
      · exact (h.leased job hleased).1
    rw [hid, mem_singleton.mp hnew] at hknown
    exact absurd hknown (Nat.lt_irrefl _)

omit h hcoherent in
/-- **The changes that the operations are made of keep reminders fresh**, where an incident is
resolved only when no reminder of it may still be sent. -/
theorem RemindersFresh.keeps (now : ℤ) :
    Keeps now
      (fun draft incident => ∀ job, ReminderOutstanding worker draft job →
        job.incidentId ≠ incident.id)
      fun draft => Coherent draft ∧ RemindersFresh worker draft where
  coherent hp := hp.1
  beside hp hbeside hnew :=
    ⟨hnew, hp.2.congr hbeside.incidents hbeside.deliveryJobs hbeside.incidentCounter⟩
  promote pending rule hp hnew :=
    ⟨hnew, (hp.2.promotePending hp.1 pending rule now).congr rfl rfl rfl⟩
  resolve hp _ _ hnone hnew := by
    refine ⟨hnew, hp.2.modifyIncident ?_ rfl rfl rfl⟩
    exact fun _ => ⟨rfl, .inr hnone⟩
  remind _ hp hnew := by
    refine ⟨hnew, hp.2.modifyIncident ?_ rfl rfl rfl⟩
    exact fun _ => ⟨rfl, .inl fun hopen => hopen⟩
  queue config incident rule kind occurrence recipientIds hp _ _ hremindable hnew :=
    ⟨hnew, hp.2.queueJobs config incident rule kind now occurrence recipientIds hremindable⟩
  restore config rule hp _ hnew :=
    ⟨hnew, hp.2.restoreCancelledOpeningJobs hp.1 config _ rule now⟩

omit hcoherent in
/-- Incidents are cancelled after records were dropped beside them, and then what waits of them. -/
theorem RemindersFresh.cancelled {filtered : NotificationState} (hfiltered : Coherent filtered)
    (hincidents : filtered.incidents = state.incidents)
    (hjobs : filtered.deliveryJobs = state.deliveryJobs)
    (hcounter : filtered.counters.incident = state.counters.incident) {p : Incident → Bool}
    {reason reason' : String} {now : ℤ} {ids : List ℕ}
    (hids : ∀ incident ∈ (cancelIncidents filtered p reason now).incidents,
      ∀ before ∈ state.incidents, before.id = incident.id → before.subject = incident.subject →
        p before = true → before.state = .opened → incident.id ∈ ids)
    (hspared : ∀ job, ReminderOutstanding worker state job → ¬job.Waits →
      ∀ incident ∈ state.incidents, incident.id = job.incidentId → p incident = false) :
    RemindersFresh worker
      (cancelWaitingJobs (cancelIncidents filtered p reason now) ids reason' now) := by
  obtain ⟨hevolved, hsame⟩ := Evolves.cancelIncidents hfiltered p reason now
  have hclosed := (hfiltered.cancelIncidents_spec p reason now
    (P := fun draft => ∀ incident ∈ draft.incidents, ∃ before ∈ filtered.incidents,
      before.id = incident.id ∧ before.subject = incident.subject ∧
        (incident = before ∨ (p before = true ∧ before.state = .opened)))
    (fun incident hincident => ⟨incident, hincident, rfl, rfl, .inl rfl⟩) ?_).2
  · have hwaiting : ∀ job ∈ (cancelWaitingJobs (cancelIncidents filtered p reason now) ids reason'
        now).deliveryJobs, job.IsOutstanding → job ∈ state.deliveryJobs ∧
          (job.incidentId ∈ ids → ¬job.Waits) := by
      intro job hjob hout
      obtain ⟨before, hbefore, rfl⟩ := mem_map.mp hjob
      split at hout
      · rcases hout with hout | hout | hout <;> cases hout
      · rename_i hstays
        rw [if_neg hstays]
        exact ⟨hjobs ▸ hsame ▸ hbefore, fun hof hwaits => hstays ⟨hof, hwaits⟩⟩
    refine h.of_change (hcounter ▸ hevolved.incidentCounter) (fun job hjob => .inl ?_)
      fun incident hincident => ?_
    · obtain ⟨before, hbefore, hkept⟩ := (LeaseHeld.cancelWaitingJobs
        (fun job hjob => h.lease_held job (hjobs ▸ hsame ▸ hjob)) ids reason' now).jobs job hjob
      exact ⟨before, hjobs ▸ hsame ▸ hbefore, hkept⟩
    · obtain ⟨before, hbefore, hid, hsubject, rfl | ⟨hp, hopened⟩⟩ := hclosed incident hincident
      · exact .inl ⟨incident, hincidents ▸ hbefore, rfl, fun hopen => hopen⟩
      · have hbefore := hincidents ▸ hbefore
        refine .inr fun job hjob hof => ?_
        have hnot : ReminderOutstanding worker state job ∧ ¬job.Waits := by
          obtain ⟨hkind, ⟨hmem, hout⟩ | hleased⟩ := hjob
          · obtain ⟨hold, hnot⟩ := hwaiting job hmem hout
            exact ⟨⟨hkind, .inl ⟨hold, hout⟩⟩,
              hnot (hof ▸ hids incident hincident before hbefore hid hsubject hp hopened)⟩
          · refine ⟨⟨hkind, .inr hleased⟩, ?_⟩
            rw [DeliveryJob.Waits, (h.leased job hleased).2]
            simp
        rw [hspared job hnot.1 hnot.2 before hbefore (hid.trans hof.symm)] at hp
        cases hp
  · intro draft incident hdraft hstart hp hmem hopened hclosed other hother
    obtain hold | ⟨before, hbefore, hid, rfl⟩ := mem_modifyFirst hother
    · exact hclosed other hold
    · obtain rfl := hdraft.eq_of_id hbefore hmem (of_decide_eq_true hid)
      exact ⟨before, hstart, rfl, rfl, .inr ⟨hp, hopened⟩⟩

variable (hcoherent : Coherent state)
include hcoherent

variable {now : ℤ}

theorem RemindersFresh.retry {jobId : ℕ} {result : DeliveryJob × NotificationState}
    (hretried : ∀ job ∈ state.deliveryJobs, job.id = jobId → job.kind = .reminder →
      ∀ incident ∈ state.incidents, incident.id = job.incidentId → incident.IsRemindable)
    (hrun : retry jobId now state = .ok result) : RemindersFresh worker result.2 := by
  simp only [Notifications.retry] at hrun
  split at hrun
  · cases hrun
  rename_i job hfind
  split at hrun
  · cases hrun
  rename_i hstate
  obtain rfl := Except.ok.inj hrun
  refine h.of_change (Nat.le_refl _) (fun other hother => ?_)
    fun incident hincident => .inl ⟨incident, hincident, rfl, fun hopen => hopen⟩
  obtain hold | ⟨before, hbefore, hid, rfl⟩ := mem_modifyFirst hother
  · exact .inl ⟨other, hold, h.lease_held.kept hold⟩
  · have hid : before.id = jobId := of_decide_eq_true hid
    have hfound : job.id = jobId := by simpa using find?_some hfind
    obtain rfl : before = job := eq_of_key_eq hcoherent.deliveryJobs.nodup hbefore
      (mem_of_find?_eq_some hfind) (hid.trans hfound.symm)
    refine .inr ⟨?_, fun hkind => hretried before hbefore hid hkind⟩
    -- a job that may be retried is not leased
    by_contra howner
    have hleased := h.lease_held before hbefore (Option.isSome_iff_ne_none.mpr howner)
    simp [hleased] at hstate

/-- **A change beside the coordinator keeps the reminders fresh** that it spares. -/
theorem RemindersFresh.apply {mutation : Mutation} (hexternal : mutation.isExternal = true)
    (hspares : mutation.SparesReminders worker state) {draft : NotificationState}
    (hrun : mutation.apply state = .ok draft) : RemindersFresh worker draft := by
  cases mutation with
  | observe config clock snapshot observation =>
    obtain rfl := Except.ok.inj hrun
    refine ((RemindersFresh.keeps _).observe ⟨hcoherent, h⟩ ?_ ?_).2
    · intro counted _ _ hbeside _ hnew
      have hcounted := h.congr hbeside.incidents hbeside.deliveryJobs hbeside.incidentCounter
      exact ⟨hnew, hcounted.setJobs (hcounted.lease_held.inhibitChildren observation _)⟩
    · intro draft incident hheard hhealthy hbeside hmem hkey job hjob hof
      exact hspares.standing job ⟨hjob.kind_eq, hbeside.deliveryJobs ▸ hjob.outstanding⟩
        ⟨hheard, hhealthy, incident, hmem, hof.symm, hkey⟩
  | evaluatePending config now snapshot =>
    obtain rfl := Except.ok.inj hrun
    exact ((RemindersFresh.keeps now).evaluatePending ⟨hcoherent, h⟩ config snapshot).2
  | evaluateReminders config now snapshot =>
    obtain rfl := Except.ok.inj hrun
    exact ((RemindersFresh.keeps now).evaluateReminders ⟨hcoherent, h⟩ config snapshot).2
  | evaluateSuppressedOpenings config now snapshot =>
    obtain rfl := Except.ok.inj hrun
    exact ((RemindersFresh.keeps now).evaluateSuppressedOpenings ⟨hcoherent, h⟩ config snapshot).2
  | evaluateRecoveries config now snapshot =>
    obtain rfl := Except.ok.inj hrun
    exact ((RemindersFresh.keeps now).evaluateRecoveries ⟨hcoherent, h⟩ config snapshot).2
  | cancelHost hostType hostId reason now =>
    obtain rfl := Except.ok.inj hrun
    refine h.cancelled (hcoherent.filterRecords filter_sublist filter_sublist filter_sublist
      filter_sublist) rfl rfl rfl ?_ ?_
    · intro incident hincident before _ hid hsubject hp _
      simp only [Incident.subject, Prod.mk.injEq] at hsubject
      refine mem_map_of_mem (mem_filter.mpr ⟨hincident, ?_⟩)
      rwa [← hsubject.1, ← hsubject.2.1]
    · intro job hjob hwaits incident hincident hid
      refine decide_eq_false fun hhost => ?_
      exact hspares.standing job hjob ⟨hwaits, incident, hincident, hid, hhost⟩
  | reconcilePolicies config scope reason now snapshot =>
    obtain rfl := Except.ok.inj hrun
    simp only [Notifications.reconcilePolicies]
    split
    · refine h.cancelled (hcoherent.filterRecords filter_sublist filter_sublist filter_sublist
        (.refl _)) rfl rfl rfl ?_ ?_
      · intro incident _ before hbefore hid _ hp hopened
        refine hid ▸ mem_map_of_mem (mem_filter.mpr ⟨hbefore, ?_⟩)
        rw [hp, hopened]
        rfl
      · intro job hjob hwaits incident hincident hid
        rw [Bool.not_eq_false']
        by_contra hgone
        exact hspares.standing job hjob
          ⟨hwaits, incident, hincident, hid, Bool.eq_false_iff.mpr hgone⟩
    · exact h
  | acknowledge incidentId actor now =>
    obtain ⟨incident, hresult⟩ := map_snd_eq_ok hrun
    simp only [Notifications.acknowledge] at hresult
    split at hresult
    · cases hresult
    split at hresult
    · obtain ⟨-, rfl⟩ := Prod.mk.inj (Except.ok.inj hresult)
      exact h
    · obtain ⟨-, rfl⟩ := Prod.mk.inj (Except.ok.inj hresult)
      refine h.modifyIncident ?_ rfl rfl rfl
      exact fun _ => ⟨rfl, .inr hspares.standing⟩
  | retry jobId now =>
    obtain ⟨job, hresult⟩ := map_snd_eq_ok hrun
    exact h.retry hcoherent (hspares.retried jobId now rfl) hresult
  | prune config limits now snapshot =>
    obtain rfl := Except.ok.inj hrun
    simp only [Notifications.pruneNotificationHistory]
    split
    · exact h
    · exact h.of_change (Nat.le_refl _)
        (fun job hjob => .inl (h.lease_held.jobsKept filter_sublist.subset job hjob))
        fun incident hincident => .inl ⟨incident, (mem_filter.mp hincident).1, rfl,
          fun hopen => hopen⟩
  | lease => cases hexternal
  | succeed => cases hexternal
  | fail => cases hexternal
  | cancel => cases hexternal
  | defer => cases hexternal

/-! ## Steps of the coordinator -/

/-- The notification of a job was sent, and its incident is noted as notified. -/
theorem RemindersFresh.succeed (workerId : String) (config : NotificationConfig) (jobId : ℕ)
    (result : DeliveryResult) :
    RemindersFresh worker (succeed workerId config jobId result now state) := by
  simp only [Notifications.succeed]
  split
  · exact h
  rename_i held hheld
  have hsettled := h.setJobs (h.lease_held.settleDelivered hcoherent hheld result.status
    result.responseExcerpt now)
  generalize addAttempt _ _ _ _ _ _ _ _ = settled at hsettled ⊢
  have hmarked : ∀ new : NotificationState,
      new.incidents = modifyFirst (fun candidate => candidate.id = held.incidentId)
        (fun incident : Incident => { incident with
          notificationDeliveredAt := incident.notificationDeliveredAt <|> some now
          updatedAt := now }) settled.incidents →
      new.deliveryJobs = settled.deliveryJobs →
      new.counters.incident = settled.counters.incident → RemindersFresh worker new :=
    fun new => hsettled.modifyIncident fun _ => ⟨rfl, .inl fun hopen => hopen⟩
  simp only [noteOpening]
  split
  · exact hsettled
  split
  · exact hsettled
  split
  · exact hmarked _ rfl rfl rfl
  split
  · rename_i incident _ _ _ rule _ _
    obtain ⟨cooldowns, next, heq⟩ := startCooldown_same { settled with
      incidents := modifyFirst (fun candidate => candidate.id = held.incidentId)
        (fun incident => { incident with
          notificationDeliveredAt := incident.notificationDeliveredAt <|> some now
          updatedAt := now }) settled.incidents } incident held.contactPointId rule.cooldownSeconds
      now
    rw [heq]
    exact hmarked _ rfl rfl rfl
  · exact hmarked _ rfl rfl rfl

omit h hcoherent

/-- The coordinator has read no job any more. -/
theorem RemindersFresh.finish (h : RemindersFresh worker state) {worker' : WorkerPhase}
    (hnot : ∀ job, worker' ≠ .leased job) : RemindersFresh worker' state where
  leased job hleased := absurd hleased (hnot job)
  lease_held := h.lease_held
  fresh job hjob := h.fresh job ⟨hjob.kind_eq, .inl
    (hjob.outstanding.resolve_right (hnot job))⟩

/-- The coordinator reads a job that it has leased. -/
theorem RemindersFresh.take (h : RemindersFresh worker state) (hcoherent : Coherent state)
    {leased : DeliveryJob} (hmem : leased ∈ state.deliveryJobs) (hstate : leased.state = .leased) :
    RemindersFresh (.leased leased) state where
  leased job hleased := by
    obtain rfl := WorkerPhase.leased.inj hleased
    exact ⟨hcoherent.incidents.lt _ (hcoherent.job_known leased hmem), hstate⟩
  lease_held := h.lease_held
  fresh job hjob := by
    obtain ⟨hkind, hout | hleased⟩ := hjob
    · exact h.fresh job ⟨hkind, .inl hout⟩
    · obtain rfl := WorkerPhase.leased.inj hleased
      exact h.fresh leased ⟨hkind, .inl ⟨hmem, .inr (.inr hstate)⟩⟩

/-- **Every step keeps the reminders fresh** that it spares. -/
theorem RemindersFresh.step {workerId : String} {system system' : System}
    (h : RemindersFresh system.worker system.state) (hsystem : SystemCoherent system)
    {action : Action} (hspares : SparesReminders system action)
    (hstep : system.step workerId action = some system') :
    RemindersFresh system'.worker system'.state := by
  have hcoherent := hsystem.coherent
  have hidle : ∀ job, WorkerPhase.idle ≠ .leased job := fun _ => WorkerPhase.noConfusion
  cases System.stepsTo hcoherent hstep with
  | @change mutation clock _ _ hexternal happly =>
    exact (h.apply hcoherent hexternal (hspares mutation clock rfl) happly).congr rfl rfl rfl
  | @idle now snapshot _ _ =>
    exact ((h.setJobs (h.lease_held.leaseNext workerId now snapshot)).finish hidle).congr rfl rfl rfl
  | @lease now snapshot _ _ _ hjob =>
    obtain ⟨hmem, hstate⟩ := mem_of_leaseNext hjob
    have hleased := hcoherent.apply (rfl : (Mutation.lease workerId now snapshot).apply _ = .ok _)
    have hkept := (h.setJobs (h.lease_held.leaseNext workerId now snapshot)).finish hidle
    exact (hkept.take hleased hmem hstate).congr rfl rfl rfl
  | @decide config now job hworker =>
    refine h.finish fun job => ?_
    dsimp only
    cases decideDelivery config system.state _ now <;> exact WorkerPhase.noConfusion
  | @cancel _ _ now _ jobId reason _ _ =>
    exact ((h.setJobs (h.lease_held.cancel jobId reason now)).finish hidle).congr rfl rfl rfl
  | @defer _ _ now _ jobId mutedUntil _ _ =>
    exact ((h.setJobs (h.lease_held.defer hcoherent workerId jobId mutedUntil now)).finish
      hidle).congr rfl rfl rfl
  | @succeed config result now _ jobId _ _ =>
    exact ((h.succeed hcoherent workerId config jobId result).finish hidle).congr rfl rfl rfl
  | @fail _ message now _ jobId _ _ =>
    exact ((h.setJobs (h.lease_held.fail hcoherent workerId jobId message now)).finish hidle).congr
      rfl rfl rfl

/-- In a run whose steps spare the reminders, they stay fresh. -/
theorem SystemReachable.remindersFresh {workerId : String} {system : System}
    (h : SystemReachable workerId SparesReminders system) :
    RemindersFresh system.worker system.state := by
  induction h with
  | start hstart =>
    obtain ⟨now, rfl⟩ := hstart
    exact remindersFresh_start now
  | step hreached action hspares hstep ih =>
    exact ih.step (SystemReachable.coherent hreached) hspares hstep

end HomelabInventory.Notifications
