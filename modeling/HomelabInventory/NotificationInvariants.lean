import HomelabInventory.NotificationDelivery
import HomelabInventory.OutageBoard

/-!
# What every notification state keeps

The invariant of the notification state, as one structure, and how the changes
that the operations are made of keep it: pushing and changing jobs, closing and
opening incidents, splicing out pending transitions, recording attempts.
-/

namespace HomelabInventory.Notifications

open List

/-! ## The invariant -/

/-- The host that a key is about. -/
def EventKey.host (key : EventKey) : HostType × PositiveId := (key.hostType, key.hostId)

/-- The key is that of a host outage. -/
def EventKey.IsOutage (key : EventKey) : Prop := key.eventType = .hostOffline

/-- The key of a record says what the record is about. -/
structure EventKey.Names (key : EventKey) (hostType : HostType) (hostId : PositiveId)
    (eventType : EventType) : Prop where
  hostType_eq : key.hostType = hostType
  hostId_eq : key.hostId = hostId
  eventType_eq : key.eventType = eventType

theorem eventKeyOf_names (hostType : HostType) (hostId : PositiveId)
    (resourceId : Option PositiveId) (eventType : EventType) :
    (eventKeyOf hostType hostId resourceId eventType).Names hostType hostId eventType :=
  ⟨rfl, rfl, rfl⟩

def NotificationState.pendingKeys (state : NotificationState) : List EventKey :=
  state.pendingTransitions.map (·.eventKey)

/-- The keys of the open ones of some incidents. -/
def openKeys (incidents : List Incident) : List EventKey :=
  (incidents.filter fun incident => incident.state = .opened).map (·.eventKey)

/-- The transitions an incident went through, by the state it is in. -/
def IncidentState.history : IncidentState → List (IncidentState × IncidentState)
  | .pending => []
  | .opened => [(.pending, .opened)]
  | .resolved => [(.pending, .opened), (.opened, .resolved)]
  | .cancelled => [(.pending, .opened), (.opened, .cancelled)]

/-- The recorded transitions of an incident, in order. -/
def transitionsOf (transitions : List Transition) (incidentId : ℕ) :
    List (IncidentState × IncidentState) :=
  (transitions.filter fun transition => transition.incidentId = incidentId).map
    fun transition => (transition.source, transition.target)

/-- The recorded transitions of every incident agree with its state. -/
structure History (incidents : List Incident) (transitions : List Transition) : Prop where
  recorded : ∀ incident ∈ incidents,
    transitionsOf transitions incident.id = incident.state.history
  started : ∀ incident ∈ incidents, incident.state ≠ .pending
  known : ∀ transition ∈ transitions, transition.incidentId ∈ incidents.map (·.id)

/-- The key of a job says what the job is for. -/
structure DeliveryJob.Keyed (job : DeliveryJob) : Prop where
  incidentId_eq : job.idempotencyKey.incidentId = job.incidentId
  contactPointId_eq : job.idempotencyKey.contactPointId = job.contactPointId
  kind_eq : job.idempotencyKey.kind = job.kind

/-- **The invariant of the notification state.** -/
structure Coherent (state : NotificationState) : Prop where
  normalizedStates : Counted (state.normalizedStates.map (·.id)) state.counters.normalizedState
  pendingTransitions :
    Counted (state.pendingTransitions.map (·.id)) state.counters.pendingTransition
  incidents : Counted (state.incidents.map (·.id)) state.counters.incident
  transitions : Counted (state.transitions.map (·.id)) state.counters.transition
  acknowledgements :
    Counted (state.acknowledgements.map (·.id)) state.counters.acknowledgement
  deliveryJobs : Counted (state.deliveryJobs.map (·.id)) state.counters.deliveryJob
  deliveryAttempts :
    Counted (state.deliveryAttempts.map (·.id)) state.counters.deliveryAttempt
  cooldowns : Counted (state.cooldowns.map (·.id)) state.counters.cooldown
  evaluationCursors :
    Counted (state.evaluationCursors.map (·.id)) state.counters.evaluationCursor
  cursorHosts : (state.evaluationCursors.map fun cursor => (cursor.hostType, cursor.hostId)).Nodup
  pending_named : ∀ pending ∈ state.pendingTransitions,
    pending.eventKey.Names pending.hostType pending.hostId pending.eventType
  incident_named : ∀ incident ∈ state.incidents,
    incident.eventKey.Names incident.hostType incident.hostId incident.eventType
  exclusive :
    Exclusive EventKey.host EventKey.IsOutage state.pendingKeys (openKeys state.incidents)
  history : History state.incidents state.transitions
  acknowledgement_known : ∀ acknowledgement ∈ state.acknowledgements,
    acknowledgement.incidentId ∈ state.incidents.map (·.id)
  job_known : ∀ job ∈ state.deliveryJobs, job.incidentId ∈ state.incidents.map (·.id)
  attempt_known : ∀ attempt ∈ state.deliveryAttempts,
    attempt.deliveryJobId ∈ state.deliveryJobs.map (·.id)
  job_keyed : ∀ job ∈ state.deliveryJobs, job.Keyed
  jobKeys : (state.deliveryJobs.map (·.idempotencyKey)).Nodup

theorem coherent_createNotificationState (now : ℤ) : Coherent (createNotificationState now) where
  normalizedStates := .nil
  pendingTransitions := .nil
  incidents := .nil
  transitions := .nil
  acknowledgements := .nil
  deliveryJobs := .nil
  deliveryAttempts := .nil
  cooldowns := .nil
  evaluationCursors := .nil
  cursorHosts := nodup_nil
  pending_named := by simp [createNotificationState]
  incident_named := by simp [createNotificationState]
  exclusive := .nil
  history := by constructor <;> simp [createNotificationState]
  acknowledgement_known := by simp [createNotificationState]
  job_known := by simp [createNotificationState]
  attempt_known := by simp [createNotificationState]
  job_keyed := by simp [createNotificationState]
  jobKeys := nodup_nil

/-! ## Outages -/

variable {incidents incidents' : List Incident}

theorem mem_openKeys {key : EventKey} :
    key ∈ openKeys incidents ↔
      ∃ incident ∈ incidents, incident.state = .opened ∧ incident.eventKey = key := by
  simp [openKeys, and_assoc]

variable {state : NotificationState}

variable (h : Coherent state)
include h

/-- A host is available when neither a pending nor an open event is an outage of it. -/
theorem Coherent.host_available {hostType : HostType} {hostId : PositiveId}
    (havailable : hostIncidentUnavailable state hostType hostId = false) :
    ∀ key, key ∈ state.pendingKeys ∨ key ∈ openKeys state.incidents →
      key.host = (hostType, hostId) → ¬key.IsOutage := by
  obtain ⟨hincidents, hpendings⟩ := Bool.or_eq_false_iff.mp havailable
  rw [any_eq_false] at hincidents hpendings
  rintro key (hkey | hkey) hhost hout
  · obtain ⟨pending, hmem, rfl⟩ := mem_map.mp hkey
    have hnames := h.pending_named pending hmem
    refine hpendings pending hmem (decide_eq_true ⟨?_, ?_, ?_⟩)
    · exact hnames.hostType_eq.symm.trans (congrArg Prod.fst hhost)
    · exact hnames.hostId_eq.symm.trans (congrArg Prod.snd hhost)
    · exact hnames.eventType_eq.symm.trans hout
  · obtain ⟨incident, hmem, hopened, rfl⟩ := mem_openKeys.mp hkey
    have hnames := h.incident_named incident hmem
    refine hincidents incident hmem (decide_eq_true ⟨?_, ?_, ?_, hopened⟩)
    · exact hnames.hostType_eq.symm.trans (congrArg Prod.fst hhost)
    · exact hnames.hostId_eq.symm.trans (congrArg Prod.snd hhost)
    · exact hnames.eventType_eq.symm.trans hout

/-! ## Jobs -/

/-- What no change of a job touches. -/
def DeliveryJob.face (job : DeliveryJob) : ℕ × ℕ × PositiveId × DeliveryKind × JobKey :=
  (job.id, job.incidentId, job.contactPointId, job.kind, job.idempotencyKey)

theorem Coherent.setJobs {jobs : List DeliveryJob}
    (hface : jobs.map (·.face) = state.deliveryJobs.map (·.face)) :
    Coherent { state with deliveryJobs := jobs } := by
  have hof : ∀ job ∈ jobs, ∃ old ∈ state.deliveryJobs, old.face = job.face := by
    intro job hjob
    have hmem : job.face ∈ state.deliveryJobs.map (·.face) := hface ▸ mem_map_of_mem hjob
    simpa using hmem
  have hids : jobs.map (·.id) = state.deliveryJobs.map (·.id) := by
    simpa [DeliveryJob.face, Function.comp_def] using congrArg (List.map fun face => face.1) hface
  have hkeys : jobs.map (·.idempotencyKey) = state.deliveryJobs.map (·.idempotencyKey) := by
    simpa [DeliveryJob.face, Function.comp_def] using
      congrArg (List.map fun face => face.2.2.2.2) hface
  refine { h with
    deliveryJobs := hids ▸ h.deliveryJobs
    job_known := ?_
    attempt_known := fun attempt hattempt => hids ▸ h.attempt_known attempt hattempt
    job_keyed := ?_
    jobKeys := hkeys ▸ h.jobKeys }
  · intro job hjob
    obtain ⟨old, hold, hsame⟩ := hof job hjob
    have hincident : old.incidentId = job.incidentId := congrArg (fun face => face.2.1) hsame
    exact hincident ▸ h.job_known old hold
  · intro job hjob
    obtain ⟨old, hold, hsame⟩ := hof job hjob
    simp only [DeliveryJob.face, Prod.mk.injEq] at hsame
    obtain ⟨-, hincident, hcontact, hkind, hkey⟩ := hsame
    have hkeyed := h.job_keyed old hold
    exact ⟨hkey ▸ hincident ▸ hkeyed.incidentId_eq, hkey ▸ hcontact ▸ hkeyed.contactPointId_eq,
      hkey ▸ hkind ▸ hkeyed.kind_eq⟩

theorem Coherent.modifyJobs {p : DeliveryJob → Bool} {f : DeliveryJob → DeliveryJob}
    (hf : ∀ job, (f job).face = job.face) :
    Coherent { state with deliveryJobs := modifyFirst p f state.deliveryJobs } :=
  h.setJobs (map_modifyFirst (fun job _ => hf job) state.deliveryJobs)

theorem Coherent.mapJobs {f : DeliveryJob → DeliveryJob} (hf : ∀ job, (f job).face = job.face) :
    Coherent { state with deliveryJobs := state.deliveryJobs.map f } := by
  refine h.setJobs ?_
  rw [map_map]
  exact map_congr_left fun job _ => hf job

variable {incident : Incident}

theorem Coherent.pushJob
    (hincident : incident.id ∈ state.incidents.map (·.id)) {contactPointId : PositiveId}
    {kind : DeliveryKind} {now : ℤ} {occurrence : Option ℤ}
    (hfresh : ∀ job ∈ state.deliveryJobs,
      job.idempotencyKey ≠ jobKey incident.id contactPointId kind occurrence) :
    Coherent (pushJob state incident contactPointId kind now occurrence) where
  normalizedStates := h.normalizedStates
  pendingTransitions := h.pendingTransitions
  incidents := h.incidents
  transitions := h.transitions
  acknowledgements := h.acknowledgements
  deliveryJobs := by
    simpa [Notifications.pushJob] using h.deliveryJobs.push
  deliveryAttempts := h.deliveryAttempts
  cooldowns := h.cooldowns
  evaluationCursors := h.evaluationCursors
  cursorHosts := h.cursorHosts
  pending_named := h.pending_named
  incident_named := h.incident_named
  exclusive := h.exclusive
  history := h.history
  acknowledgement_known := h.acknowledgement_known
  job_known job hjob := by
    obtain hjob | hjob := mem_append.mp hjob
    · exact h.job_known job hjob
    · obtain rfl := mem_singleton.mp hjob
      exact hincident
  attempt_known attempt hattempt := by
    have hmem := h.attempt_known attempt hattempt
    simp only [Notifications.pushJob, map_append, mem_append]
    exact .inl hmem
  job_keyed job hjob := by
    obtain hjob | hjob := mem_append.mp hjob
    · exact h.job_keyed job hjob
    · obtain rfl := mem_singleton.mp hjob
      exact ⟨rfl, rfl, rfl⟩
  jobKeys := nodup_map_push h.jobKeys hfresh

/-- A job that was queued for an incident, with an id from the counter. -/
structure QueuedJob (next : ℕ) (incident : Incident) (kind : DeliveryKind) (job : DeliveryJob) :
    Prop where
  fresh : next ≤ job.id
  incidentId_eq : job.incidentId = incident.id
  kind_eq : job.kind = kind
  queued : job.state = .queued
  unleased : job.leaseOwner = none

omit h in
/-- Jobs are pushed, with the counter moved on, and nothing else changes. -/
def AddsJobs (state draft : NotificationState) (P : DeliveryJob → Prop) : Prop :=
  ∃ (added : List DeliveryJob) (next : ℕ),
    draft = { state with
      deliveryJobs := state.deliveryJobs ++ added
      counters := { state.counters with deliveryJob := next } } ∧
    state.counters.deliveryJob ≤ next ∧ ∀ job ∈ added, P job

omit h in
theorem AddsJobs.refl (P : DeliveryJob → Prop) : AddsJobs state state P := by
  refine ⟨[], state.counters.deliveryJob, ?_, Nat.le_refl _, by simp⟩
  rw [append_nil]

omit h in
/-- Queueing a job pushes at most one job, of the incident, recipient and kind asked for. -/
theorem queueJob_pushes (state : NotificationState) (incident : Incident) (kind : DeliveryKind)
    (now : ℤ) (occurrence : Option ℤ) (contactPointId : PositiveId) :
    AddsJobs state (queueJob state incident kind now occurrence contactPointId) fun job =>
      QueuedJob state.counters.deliveryJob incident kind job ∧
        job.contactPointId = contactPointId := by
  unfold queueJob
  split
  · exact .refl _
  · split
    · exact .refl _
    · refine ⟨_, _, rfl, Nat.le_succ _, fun job hjob => ?_⟩
      obtain rfl := mem_singleton.mp hjob
      exact ⟨⟨Nat.le_refl _, rfl, rfl, rfl, rfl⟩, rfl⟩

theorem Coherent.queueJob (hincident : incident.id ∈ state.incidents.map (·.id))
    (kind : DeliveryKind) (now : ℤ) (occurrence : Option ℤ) (contactPointId : PositiveId) :
    Coherent (queueJob state incident kind now occurrence contactPointId) := by
  unfold Notifications.queueJob
  split
  · exact h
  · split
    · exact h
    · rename_i hnone
      rw [any_eq_true] at hnone
      exact h.pushJob hincident fun job hjob hkey =>
        hnone ⟨job, hjob, decide_eq_true hkey⟩

omit h in
/-- Queueing jobs pushes jobs of the incident and kind asked for, and does nothing else. -/
theorem queueJobs_pushes (state : NotificationState) (config : NotificationConfig)
    (incident : Incident) (rule : NotificationRule) (kind : DeliveryKind) (now : ℤ)
    (occurrence : Option ℤ) (recipientIds : Option (List PositiveId)) :
    AddsJobs state (queueJobs state config incident rule kind now occurrence recipientIds) fun job =>
      QueuedJob state.counters.deliveryJob incident kind job ∧
        ∀ ids, recipientIds = some ids → job.contactPointId ∈ ids := by
  unfold queueJobs
  refine List.foldlRecOn (motive := fun draft => AddsJobs state draft _) _ _ (.refl _) ?_
  rintro draft ⟨added, next, rfl, hnext, hadded⟩ id hid
  obtain ⟨more, next', heq, hnext', hmore⟩ := queueJob_pushes { state with
    deliveryJobs := state.deliveryJobs ++ added
    counters := { state.counters with deliveryJob := next } } incident kind now occurrence id
  refine ⟨added ++ more, next', ?_, Nat.le_trans hnext hnext', ?_⟩
  · rw [heq, append_assoc]
  · intro job hjob
    obtain hjob | hjob := mem_append.mp hjob
    · exact hadded job hjob
    · obtain ⟨hqueued, hcontact⟩ := hmore job hjob
      refine ⟨{ hqueued with fresh := Nat.le_trans hnext hqueued.fresh }, ?_⟩
      rintro ids rfl
      simpa [hcontact] using (mem_filter.mp hid).2

theorem Coherent.queueJobs (hincident : incident.id ∈ state.incidents.map (·.id))
    (config : NotificationConfig) (rule : NotificationRule) (kind : DeliveryKind) (now : ℤ)
    (occurrence : Option ℤ) (recipientIds : Option (List PositiveId)) :
    Coherent (queueJobs state config incident rule kind now occurrence recipientIds) := by
  have hloop : ∀ recipients : List PositiveId, ∀ draft : NotificationState, Coherent draft →
      incident.id ∈ draft.incidents.map (·.id) →
      Coherent (recipients.foldl
        (fun draft id => Notifications.queueJob draft incident kind now occurrence id) draft) := by
    intro recipients
    induction recipients with
    | nil => exact fun draft hdraft _ => hdraft
    | cons id ids ih =>
      intro draft hdraft hmem
      refine ih _ (hdraft.queueJob hmem kind now occurrence id) ?_
      obtain ⟨added, next, heq, -⟩ := queueJob_pushes draft incident kind now occurrence id
      simp only [heq]
      exact hmem
  exact hloop _ state h hincident

omit h in
theorem restoreCancelledOpeningJob_incidents (incident : Incident) (now : ℤ)
    (restored : Bool × NotificationState) (contactPointId : PositiveId) :
    (restoreCancelledOpeningJob incident now restored contactPointId).2.incidents
      = restored.2.incidents := by
  simp only [restoreCancelledOpeningJob]
  split
  · rfl
  · split <;> rfl

omit h in
theorem Coherent.restoreCancelledOpeningJob {restored : Bool × NotificationState}
    (h : Coherent restored.2) (incident : Incident) (now : ℤ) (contactPointId : PositiveId) :
    Coherent (restoreCancelledOpeningJob incident now restored contactPointId).2 := by
  simp only [Notifications.restoreCancelledOpeningJob]
  split
  · exact h
  · split
    · exact h
    · exact h.modifyJobs fun _ => rfl

theorem restoreCancelledOpeningJobs_spec (config : NotificationConfig) (incident : Incident)
    (rule : NotificationRule) (now : ℤ) :
    Coherent (restoreCancelledOpeningJobs state config incident rule now).2 ∧
      (restoreCancelledOpeningJobs state config incident rule now).2.incidents
        = state.incidents := by
  unfold restoreCancelledOpeningJobs
  refine List.foldlRecOn
    (motive := fun restored : Bool × NotificationState =>
      Coherent restored.2 ∧ restored.2.incidents = state.incidents)
    _ _ ⟨h, rfl⟩ ?_
  rintro restored ⟨hrestored, hsame⟩ id -
  exact ⟨hrestored.restoreCancelledOpeningJob incident now id,
    (restoreCancelledOpeningJob_incidents incident now restored id).trans hsame⟩

theorem Coherent.cancelWaitingJobs (incidentIds : List ℕ) (reason : String) (now : ℤ) :
    Coherent (cancelWaitingJobs state incidentIds reason now) := by
  refine h.mapJobs fun job => ?_
  split <;> rfl

theorem Coherent.addAttempt {jobId : ℕ} (hjob : jobId ∈ state.deliveryJobs.map (·.id)) (attempt : ℕ)
    (attemptState : AttemptState) (status : Option ℕ) (responseExcerpt error : Option String)
    (now : ℤ) :
    Coherent (addAttempt state jobId attempt attemptState status responseExcerpt error now) :=
  { h with
    deliveryAttempts := by
      simpa [Notifications.addAttempt] using h.deliveryAttempts.push
    attempt_known := by
      intro attempt hattempt
      obtain hattempt | hattempt := mem_append.mp hattempt
      · exact h.attempt_known attempt hattempt
      · obtain rfl := mem_singleton.mp hattempt
        exact hjob }

theorem Coherent.startCooldown (incident : Incident) (contactPointId : PositiveId) (seconds : ℕ)
    (now : ℤ) : Coherent (startCooldown state incident contactPointId seconds now) := by
  simp only [Notifications.startCooldown]
  split
  · refine { h with cooldowns := ?_ }
    rw [map_modifyFirst]
    · exact h.cooldowns
    · intros
      rfl
  · refine { h with cooldowns := ?_ }
    simpa using h.cooldowns.push

/-! ## Incidents -/

/-- What no change of an open incident touches, short of closing it. -/
def Incident.face (incident : Incident) :
    ℕ × EventKey × HostType × PositiveId × EventType × IncidentState :=
  (incident.id, incident.eventKey, incident.hostType, incident.hostId, incident.eventType,
    incident.state)

omit h in
theorem map_openKeys (hface : incidents'.map (·.face) = incidents.map (·.face)) :
    openKeys incidents' = openKeys incidents := by
  have hkeys : ∀ l : List Incident, openKeys l
      = ((l.map (·.face)).filter fun face => face.2.2.2.2.2 = .opened).map (·.2.1) := by
    intro l
    rw [filter_map, map_map]
    rfl
  rw [hkeys, hkeys, hface]

theorem Coherent.setIncidents (hface : incidents.map (·.face) = state.incidents.map (·.face)) :
    Coherent { state with incidents := incidents } := by
  have hof : ∀ incident ∈ incidents, ∃ old ∈ state.incidents, old.face = incident.face := by
    intro incident hincident
    have hmem : incident.face ∈ state.incidents.map (·.face) :=
      hface ▸ mem_map_of_mem hincident
    simpa using hmem
  have hids : incidents.map (·.id) = state.incidents.map (·.id) := by
    simpa [Incident.face, Function.comp_def] using congrArg (List.map fun face => face.1) hface
  refine { h with
    incidents := hids ▸ h.incidents
    incident_named := ?_
    exclusive := ?_
    history := ⟨?_, ?_, fun transition htransition => hids ▸ h.history.known transition htransition⟩
    acknowledgement_known := fun acknowledgement hmem => hids ▸ h.acknowledgement_known _ hmem
    job_known := fun job hjob => hids ▸ h.job_known job hjob }
  · intro incident hincident
    obtain ⟨old, hold, hsame⟩ := hof incident hincident
    simp only [Incident.face, Prod.mk.injEq] at hsame
    obtain ⟨-, hkey, htype, hid, hevent, -⟩ := hsame
    have hnamed := h.incident_named old hold
    rw [hkey, htype, hid, hevent] at hnamed
    exact hnamed
  · have hexclusive := h.exclusive
    rw [← map_openKeys hface] at hexclusive
    exact hexclusive
  · intro incident hincident
    obtain ⟨old, hold, hsame⟩ := hof incident hincident
    simp only [Incident.face, Prod.mk.injEq] at hsame
    obtain ⟨hid, -, -, -, -, hstate⟩ := hsame
    have hrecorded := h.history.recorded old hold
    rw [hid, hstate] at hrecorded
    exact hrecorded
  · intro incident hincident
    obtain ⟨old, hold, hsame⟩ := hof incident hincident
    simp only [Incident.face, Prod.mk.injEq] at hsame
    obtain ⟨-, -, -, -, -, hstate⟩ := hsame
    exact hstate ▸ h.history.started old hold

theorem Coherent.modifyIncident {p : Incident → Bool} {f : Incident → Incident}
    (hf : ∀ incident, (f incident).face = incident.face) :
    Coherent { state with incidents := modifyFirst p f state.incidents } :=
  h.setIncidents (map_modifyFirst (fun incident _ => hf incident) state.incidents)

omit h in
/-- Incidents that a change closes are open no more. -/
theorem openKeys_modifyFirst {p : Incident → Bool} {f : Incident → Incident}
    (hclosed : ∀ incident, (f incident).state ≠ .opened) (incidents : List Incident) :
    (openKeys (modifyFirst p f incidents)).Sublist (openKeys incidents) := by
  refine List.Sublist.map _ ?_
  induction incidents with
  | nil => exact List.Sublist.refl _
  | cons incident rest ih =>
    by_cases hp : p incident
    · rw [modifyFirst, if_pos hp, filter_cons_of_neg (by simpa using hclosed incident)]
      exact (sublist_cons_self incident rest).filter _
    · rw [modifyFirst, if_neg hp]
      by_cases hopen : incident.state = .opened
      · simpa [hopen] using ih
      · simpa [hopen] using ih

omit h in
theorem transitionsOf_push (transitions : List Transition) (transition : Transition)
    (incidentId : ℕ) :
    transitionsOf (transitions ++ [transition]) incidentId = transitionsOf transitions incidentId ++
      if transition.incidentId = incidentId then [(transition.source, transition.target)]
      else [] := by
  by_cases h : transition.incidentId = incidentId <;> simp [transitionsOf, h]

omit h in
theorem History.opens {transitions : List Transition} (h : History incidents transitions)
    {opened : Incident} {transition : Transition} (hfresh : ∀ old ∈ incidents, old.id ≠ opened.id)
    (hstate : opened.state = .opened) (hid : transition.incidentId = opened.id)
    (hsource : transition.source = .pending) (htarget : transition.target = .opened) :
    History (incidents ++ [opened]) (transitions ++ [transition]) where
  recorded incident hincident := by
    rw [transitionsOf_push]
    obtain hincident | hincident := mem_append.mp hincident
    · rw [hid, if_neg (Ne.symm (hfresh incident hincident)), append_nil]
      exact h.recorded incident hincident
    · obtain rfl := mem_singleton.mp hincident
      have hnone : transitionsOf transitions incident.id = [] := by
        refine map_eq_nil_iff.mpr (filter_eq_nil_iff.mpr ?_)
        intro earlier hearlier hsame
        obtain ⟨old, hold, hknown⟩ := mem_map.mp (h.known earlier hearlier)
        exact hfresh old hold (hknown.trans (of_decide_eq_true hsame))
      rw [hnone, if_pos hid, hsource, htarget, hstate]
      rfl
  started incident hincident := by
    obtain hincident | hincident := mem_append.mp hincident
    · exact h.started incident hincident
    · obtain rfl := mem_singleton.mp hincident
      rw [hstate]
      exact nofun
  known earlier hearlier := by
    rw [map_append]
    obtain hearlier | hearlier := mem_append.mp hearlier
    · exact mem_append_left _ (h.known earlier hearlier)
    · obtain rfl := mem_singleton.mp hearlier
      exact mem_append_right _ (mem_singleton.mpr hid)

omit h in
/-- An open incident closes and the closing is recorded. -/
theorem History.closes {transitions : List Transition} (h : History incidents transitions)
    {incident closed : Incident} {transition : Transition} (hmem : incident ∈ incidents)
    (hopened : incident.state = .opened)
    (hof : ∀ i ∈ incidents', (i ∈ incidents ∧ i.id ≠ incident.id) ∨ i = closed)
    (hids : incidents'.map (·.id) = incidents.map (·.id)) (hclosed : closed.id = incident.id)
    (hstate : closed.state = .resolved ∨ closed.state = .cancelled)
    (hid : transition.incidentId = incident.id) (hsource : transition.source = .opened)
    (htarget : transition.target = closed.state) :
    History incidents' (transitions ++ [transition]) where
  recorded i hi := by
    rw [transitionsOf_push]
    obtain ⟨hold, hne⟩ | rfl := hof i hi
    · rw [hid, if_neg (Ne.symm hne), append_nil]
      exact h.recorded i hold
    · rw [hclosed, h.recorded incident hmem, hopened, if_pos hid, hsource, htarget]
      obtain hstate | hstate := hstate <;> rw [hstate] <;> rfl
  started i hi := by
    obtain ⟨hold, -⟩ | rfl := hof i hi
    · exact h.started i hold
    · obtain hstate | hstate := hstate <;> rw [hstate] <;> exact nofun
  known earlier hearlier := by
    rw [hids]
    obtain hearlier | hearlier := mem_append.mp hearlier
    · exact h.known earlier hearlier
    · obtain rfl := mem_singleton.mp hearlier
      exact hid ▸ mem_map_of_mem hmem

theorem Coherent.eq_of_id {a b : Incident} (ha : a ∈ state.incidents) (hb : b ∈ state.incidents)
    (hid : a.id = b.id) : a = b :=
  eq_of_key_eq h.incidents.nodup ha hb hid

/-- An open incident is resolved or cancelled. -/
theorem Coherent.closeIncident (hmem : incident ∈ state.incidents)
    (hopened : incident.state = .opened) {target : IncidentState}
    (htarget : target = .resolved ∨ target = .cancelled) (reason : String) (now : ℤ) :
    Coherent (closeIncident state incident target reason now) := by
  have hne : target ≠ .opened := by
    obtain rfl | rfl := htarget <;> exact nofun
  let close : Incident → Incident := fun incident => { incident with
    state := target
    resolvedAt := if target = .resolved then some now else incident.resolvedAt
    updatedAt := now }
  let incidents := modifyFirst (fun candidate => candidate.id = incident.id) close state.incidents
  have hids : incidents.map (·.id) = state.incidents.map (·.id) :=
    map_modifyFirst (f := close) (fun _ _ => rfl) state.incidents
  have hof : ∀ i ∈ incidents, (i ∈ state.incidents ∧ i.id ≠ incident.id) ∨ i = close incident := by
    intro i hi
    rw [show incidents = _ from modifyFirst_eq_map h.incidents.nodup _ _] at hi
    obtain ⟨old, hold, rfl⟩ := mem_map.mp hi
    by_cases hid : old.id = incident.id
    · rw [if_pos hid, h.eq_of_id hold hmem hid]
      exact .inr rfl
    · rw [if_neg hid]
      exact .inl ⟨hold, hid⟩
  exact { h with
    incidents := by
      have hcounted := h.incidents
      rw [← hids] at hcounted
      exact hcounted
    transitions := by simpa [Notifications.closeIncident, addTransition] using h.transitions.push
    incident_named := by
      intro i hi
      obtain ⟨hold, -⟩ | rfl := hof i hi
      · exact h.incident_named i hold
      · exact h.incident_named incident hmem
    exclusive := h.exclusive.sublist (List.Sublist.refl _)
      (openKeys_modifyFirst (fun _ => hne) state.incidents)
    history := h.history.closes hmem hopened hof hids rfl htarget rfl rfl rfl
    acknowledgement_known := by
      intro acknowledgement hack
      have hknown := h.acknowledgement_known acknowledgement hack
      rw [← hids] at hknown
      exact hknown
    job_known := by
      intro job hjob
      have hknown := h.job_known job hjob
      rw [← hids] at hknown
      exact hknown }

/-! ## Pending transitions -/

theorem Coherent.setPending {pendings : List PendingTransition}
    (hsub : pendings.Sublist state.pendingTransitions) :
    Coherent { state with pendingTransitions := pendings } :=
  { h with
    pendingTransitions := h.pendingTransitions.sublist (hsub.map _)
    pending_named := fun pending hpending => h.pending_named pending (hsub.subset hpending)
    exclusive := h.exclusive.sublist (hsub.map _) (List.Sublist.refl _) }

theorem Coherent.removePending (pending : PendingTransition) :
    Coherent (removePending state pending) :=
  h.setPending (spliceOut_sublist (·.id) pending.id state.pendingTransitions)

variable {pending : PendingTransition}

theorem Coherent.mem_removePending (hmem : pending ∈ state.pendingTransitions)
    {other : PendingTransition} :
    other ∈ (Notifications.removePending state pending).pendingTransitions ↔
      other ∈ state.pendingTransitions ∧ other.id ≠ pending.id := by
  rw [Notifications.removePending, spliceOut_eq_filter h.pendingTransitions.nodup hmem]
  simp

/-- The key of a spliced out transition is pending no more. -/
theorem Coherent.key_removePending (hmem : pending ∈ state.pendingTransitions) :
    pending.eventKey ∉ (Notifications.removePending state pending).pendingKeys := by
  intro hkey
  obtain ⟨other, hother, hsame⟩ := mem_map.mp hkey
  obtain ⟨hold, hid⟩ := (h.mem_removePending hmem).mp hother
  exact hid (congrArg PendingTransition.id (eq_of_key_eq h.exclusive.pending_nodup hold hmem hsame))

omit h in
theorem promotePending_sublist (state : NotificationState) (rule : NotificationRule)
    (pending : PendingTransition) (now : ℤ) :
    (promotePending state rule pending now).pendingTransitions.Sublist
      (removePending state pending).pendingTransitions := by
  simp only [promotePending]
  split
  · exact filter_sublist
  · exact List.Sublist.refl _

omit h in
theorem promotePending_incidents (state : NotificationState) (rule : NotificationRule)
    (pending : PendingTransition) (now : ℤ) :
    (promotePending state rule pending now).incidents
      = state.incidents ++ [incidentOf state.counters.incident rule pending now] := by
  simp only [promotePending]
  split <;> rfl

/-- A promoted transition, with the record of its opening. -/
theorem Coherent.promotePending (hmem : pending ∈ state.pendingTransitions)
    (rule : NotificationRule) (now : ℤ) (reason : String) :
    Coherent (addTransition (promotePending state rule pending now) state.counters.incident
      .pending .opened reason now) := by
  set incident := incidentOf state.counters.incident rule pending now with hincident
  have hfresh : ∀ old ∈ state.incidents, old.id ≠ state.counters.incident := fun old hold hid =>
    Nat.lt_irrefl _ (hid ▸ h.incidents.lt old.id (mem_map_of_mem hold))
  have hnew : ∀ pendings : List PendingTransition,
      pendings.Sublist (Notifications.removePending state pending).pendingTransitions →
      Coherent (addTransition
        { state with
          pendingTransitions := pendings
          incidents := state.incidents ++ [incident]
          counters := { state.counters with incident := state.counters.incident + 1 } }
        state.counters.incident .pending .opened reason now) := by
    intro pendings hsub
    have hpendings := (h.removePending pending).setPending hsub
    exact { h with
      pendingTransitions := hpendings.pendingTransitions
      incidents := by simpa [addTransition, hincident, incidentOf] using h.incidents.push
      transitions := by simpa [addTransition] using h.transitions.push
      pending_named := hpendings.pending_named
      incident_named := by
        intro i hi
        obtain hi | hi := mem_append.mp hi
        · exact h.incident_named i hi
        · obtain rfl := mem_singleton.mp hi
          exact h.pending_named pending hmem
      exclusive := by
        have hkeys : openKeys (state.incidents ++ [incident])
            = openKeys state.incidents ++ [pending.eventKey] := by
          simp [openKeys, hincident, incidentOf]
        have hpromoted := h.exclusive.promote (mem_map_of_mem hmem)
          ((hsub.trans (spliceOut_sublist _ _ _)).map (·.eventKey))
          fun hkey => h.key_removePending hmem ((hsub.map _).subset hkey)
        rw [← hkeys] at hpromoted
        exact hpromoted
      history := h.history.opens hfresh rfl rfl rfl rfl
      acknowledgement_known := fun acknowledgement hack =>
        map_append ▸ mem_append_left _ (h.acknowledgement_known _ hack)
      job_known := fun job hjob => map_append ▸ mem_append_left _ (h.job_known job hjob) }
  have hpromoted := hnew _ (promotePending_sublist state rule pending now)
  simp only [Notifications.promotePending] at hpromoted ⊢
  split at hpromoted
  · rename_i hout
    rw [if_pos hout]
    exact hpromoted
  · rename_i hchild
    rw [if_neg hchild]
    exact hpromoted

end HomelabInventory.Notifications
