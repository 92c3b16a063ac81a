import HomelabInventory.KeptJobs

/-!
# Openings that cool down

What keeps two openings of one event apart: as long as the cooldown of a delivered opening
runs, a record of it is there, and no opening of another incident of the event waits for the
same contact point. Every operation of the incident manager and of the delivery
coordinator keeps this.
-/

namespace HomelabInventory.Notifications

open List

/-! ## Delivered openings -/

/-- What a cooldown is about. -/
abbrev Topic := HostType × PositiveId × Option PositiveId × EventType

def Incident.topic (incident : Incident) : Topic :=
  (incident.hostType, incident.hostId, incident.resourceId, incident.eventType)

def Cooldown.topic (cooldown : Cooldown) : Topic :=
  (cooldown.hostType, cooldown.hostId, cooldown.resourceId, cooldown.eventType)

/-- The rule of a topic. -/
def Topic.rule (config : NotificationConfig) (topic : Topic) : Option NotificationRule :=
  resolveRule (resolveHostNotificationPolicy config topic.1 topic.2.1 0) topic.2.2.2

/-- The cooldown of a topic in milliseconds. -/
def Topic.cooldownMs (config : NotificationConfig) (topic : Topic) : ℤ :=
  ((topic.rule config).map fun rule => (rule.cooldownSeconds : ℤ) * 1000).getD 0

/-- An opening that was delivered. -/
structure Opening where
  incidentId : ℕ
  topic : Topic
  contactPointId : PositiveId
  deliveredAt : ℤ

/-- The instant until which an opening cools down. -/
def Opening.coolsUntil (config : NotificationConfig) (opening : Opening) : ℤ :=
  opening.deliveredAt + opening.topic.cooldownMs config

/-- The rules do not depend on the instant. -/
theorem resolveRule_policy (config : NotificationConfig) (incident : Incident) (now : ℤ) :
    resolveRule (resolveHostNotificationPolicy config incident.hostType incident.hostId now)
      incident.eventType = incident.topic.rule config := rfl

/-! ## The invariant -/

/-- **Delivered openings cool down** in a state at an instant. -/
structure Cools (config : NotificationConfig) (openings : List Opening) (now : ℤ)
    (state : NotificationState) : Prop where
  lease_held : LeaseHeld state
  past : ∀ opening ∈ openings, opening.deliveredAt ≤ now
  recorded : ∀ opening ∈ openings, now < opening.coolsUntil config →
    ∃ cooldown ∈ state.cooldowns, cooldown.topic = opening.topic ∧
      cooldown.contactPointId = opening.contactPointId ∧
      opening.coolsUntil config ≤ cooldown.expiresAt
  apart : ∀ opening ∈ openings, ∀ job ∈ state.deliveryJobs, job.kind = .opening →
    job.IsOutstanding → job.contactPointId = opening.contactPointId →
    ∀ incident ∈ state.incidents, incident.id = job.incidentId →
      incident.topic = opening.topic → incident.id ≠ opening.incidentId →
        opening.coolsUntil config ≤ now

variable {config : NotificationConfig} {openings : List Opening} {now : ℤ}

theorem Cools.create (config : NotificationConfig) (now : ℤ) :
    Cools config [] now (createNotificationState now) where
  lease_held := by simp [LeaseHeld, createNotificationState]
  past := by simp
  recorded := by simp
  apart := by simp

variable {new old state : NotificationState}

variable (h : Cools config openings now state)
include h

/-- Later more openings have cooled down. -/
theorem Cools.later {later : ℤ} (hle : now ≤ later) : Cools config openings later state where
  lease_held := h.lease_held
  past opening hmem := (h.past opening hmem).trans hle
  recorded opening hmem hcools := h.recorded opening hmem (lt_of_le_of_lt hle hcools)
  apart opening hmem job hjob hkind hout hcontact incident hincident hid htopic hne :=
    (h.apart opening hmem job hjob hkind hout hcontact incident hincident hid htopic hne).trans hle

variable {incident : Incident}

/-- A record of a running cooldown holds back the openings of its topic. -/
theorem Cools.cooled {contactPointId : PositiveId}
    (hfree : cooldownActive state incident contactPointId now = false) {opening : Opening}
    (hmem : opening ∈ openings) (htopic : incident.topic = opening.topic)
    (hcontact : contactPointId = opening.contactPointId) : opening.coolsUntil config ≤ now := by
  by_contra hlt
  obtain ⟨cooldown, hcooldown, hof, hto, hexpires⟩ := h.recorded opening hmem (not_le.mp hlt)
  have hsame : cooldown.topic = incident.topic := hof.trans htopic.symm
  simp only [Cooldown.topic, Incident.topic, Prod.mk.injEq] at hsame
  obtain ⟨htype, hid, hresource, hevent⟩ := hsame
  rw [Notifications.cooldownActive, any_eq_false] at hfree
  refine hfree cooldown hcooldown (decide_eq_true ⟨htype, hid, hresource, hevent, ?_, ?_⟩)
  · exact hto.trans hcontact.symm
  · exact lt_of_lt_of_le (not_le.mp hlt) hexpires

/-! ## Changes that take away -/

/-- An incident after a change that raises none. -/
structure IncidentKept (old new : Incident) : Prop where
  id_eq : new.id = old.id
  topic_eq : new.topic = old.topic

omit h in
theorem IncidentKept.refl (incident : Incident) : IncidentKept incident incident := ⟨rfl, rfl⟩

omit h in
/-- A change that raises no incident, queues no job and keeps the running cooldowns. -/
theorem Cools.of_kept (h : Cools config openings now old)
    (hincidents : ∀ incident ∈ new.incidents, ∃ before ∈ old.incidents,
      IncidentKept before incident)
    (hjobs : JobsKept old new)
    (hcooldowns : ∀ cooldown ∈ old.cooldowns, now < cooldown.expiresAt →
      cooldown ∈ new.cooldowns) : Cools config openings now new where
  lease_held := hjobs.leaseHeld
  past := h.past
  recorded opening hmem hcools := by
    obtain ⟨cooldown, hcooldown, hof, hto, hexpires⟩ := h.recorded opening hmem hcools
    exact ⟨cooldown, hcooldowns cooldown hcooldown (lt_of_lt_of_le hcools hexpires), hof, hto,
      hexpires⟩
  apart opening hmem job hjob hkind hout hcontact incident hincident hid htopic hne := by
    obtain ⟨before, hbefore, hkept⟩ := hincidents incident hincident
    obtain ⟨jobBefore, hjobBefore, hjobKept⟩ := hjobs job hjob
    obtain ⟨-, hof, hto, hsame⟩ := DeliveryJob.ids_of_face hjobKept.face_eq
    refine h.apart opening hmem jobBefore hjobBefore (hsame ▸ hkind)
      (hjobKept.outstanding hout) (hto ▸ hcontact) before hbefore ?_
      (hkept.topic_eq ▸ htopic) (hkept.id_eq ▸ hne)
    rw [← hkept.id_eq, hid, hof]

omit h in
/-- A change of records that the invariant does not look at. -/
theorem Cools.congr (h : Cools config openings now old) (hincidents : new.incidents = old.incidents)
    (hjobs : new.deliveryJobs = old.deliveryJobs) (hcooldowns : new.cooldowns = old.cooldowns) :
    Cools config openings now new :=
  h.of_kept (fun incident hincident => ⟨incident, hincidents ▸ hincident, .refl _⟩)
    (h.lease_held.jobsKept (hjobs ▸ Subset.refl _)) fun _ hcooldown _ => hcooldowns ▸ hcooldown

theorem Cools.modifyIncident {p : Incident → Bool} {f : Incident → Incident}
    (hf : ∀ incident, IncidentKept incident (f incident))
    (hincidents : new.incidents = modifyFirst p f state.incidents)
    (hjobs : new.deliveryJobs = state.deliveryJobs) (hcooldowns : new.cooldowns = state.cooldowns) :
    Cools config openings now new := by
  refine h.of_kept ?_ (h.lease_held.jobsKept (hjobs ▸ Subset.refl _))
    fun _ hcooldown _ => hcooldowns ▸ hcooldown
  intro incident hincident
  rw [hincidents] at hincident
  obtain hold | ⟨before, hbefore, -, rfl⟩ := mem_modifyFirst hincident
  · exact ⟨incident, hold, .refl _⟩
  · exact ⟨before, hbefore, hf before⟩

theorem Cools.closeIncident (incident : Incident) (target : IncidentState) (reason : String)
    (instant : ℤ) :
    Cools config openings now (closeIncident state incident target reason instant) := by
  refine h.modifyIncident ?_ rfl rfl rfl
  exact fun _ => ⟨rfl, rfl⟩

theorem Cools.setJobs (hkept : OnlyJobs state new) : Cools config openings now new :=
  h.of_kept (fun incident hincident => ⟨incident, hkept.incidents ▸ hincident, .refl _⟩) hkept.jobs
    fun _ hcooldown _ => hkept.cooldowns ▸ hcooldown

theorem Cools.cancelWaitingJobs (incidentIds : List ℕ) (reason : String) (instant : ℤ) :
    Cools config openings now (cancelWaitingJobs state incidentIds reason instant) :=
  h.setJobs (h.lease_held.cancelWaitingJobs incidentIds reason instant)

/-! ## Changes that add -/

/-- A job is pushed: none of an opening, or one whose topic does not cool down. -/
theorem Cools.pushJob
    {job : DeliveryJob}
    (hfree : job.kind = .opening → ∀ incident ∈ state.incidents, incident.id = job.incidentId →
      cooldownActive state incident job.contactPointId now = false)
    (howner : job.leaseOwner = none) (hjobs : new.deliveryJobs = state.deliveryJobs ++ [job])
    (hincidents : new.incidents = state.incidents)
    (hcooldowns : new.cooldowns = state.cooldowns) : Cools config openings now new where
  lease_held other hother := by
    rw [hjobs] at hother
    obtain hold | hnew := mem_append.mp hother
    · exact h.lease_held other hold
    · rw [mem_singleton.mp hnew, howner]
      exact nofun
  past := h.past
  recorded opening hmem hcools := hcooldowns ▸ h.recorded opening hmem hcools
  apart opening hmem other hother hkind hout hcontact incident hincident hid htopic hne := by
    rw [hincidents] at hincident
    rw [hjobs] at hother
    obtain hold | hnew := mem_append.mp hother
    · exact h.apart opening hmem other hold hkind hout hcontact incident hincident hid htopic hne
    · obtain rfl := mem_singleton.mp hnew
      exact h.cooled (hfree hkind incident hincident hid) hmem htopic hcontact

/-- Two incidents with the same id are about the same. -/
def SameTopic (state : NotificationState) (incident : Incident) : Prop :=
  ∀ other ∈ state.incidents, other.id = incident.id → other.topic = incident.topic

omit h in
theorem cooldownActive_congr {incident other : Incident} (h : other.topic = incident.topic)
    (contactPointId : PositiveId) (now : ℤ) :
    cooldownActive state other contactPointId now =
      cooldownActive state incident contactPointId now := by
  simp only [Incident.topic, Prod.mk.injEq] at h
  obtain ⟨htype, hid, hresource, hevent⟩ := h
  simp only [cooldownActive, htype, hid, hresource, hevent]

theorem Cools.queueJob {kind : DeliveryKind} (hsame : kind = .opening → SameTopic state incident)
    (occurrence : Option ℤ) (contactPointId : PositiveId) :
    Cools config openings now (queueJob state incident kind now occurrence contactPointId) := by
  unfold Notifications.queueJob
  split
  · exact h
  · rename_i hfree
    split
    · exact h
    · refine h.pushJob (fun hkind other hother hid => ?_) rfl rfl rfl rfl
      have hkind : kind = .opening := hkind
      rw [cooldownActive_congr (hsame hkind other hother hid)]
      exact Bool.eq_false_iff.mpr fun hactive => hfree ⟨hkind, hactive⟩

omit h in
theorem queueJob_incidents (state : NotificationState) (incident : Incident)
    (kind : DeliveryKind) (now : ℤ) (occurrence : Option ℤ) (contactPointId : PositiveId) :
    (queueJob state incident kind now occurrence contactPointId).incidents = state.incidents := by
  obtain ⟨added, next, heq, -⟩ := queueJob_pushes state incident kind now occurrence contactPointId
  rw [heq]

theorem Cools.queueJobs {kind : DeliveryKind} (hsame : kind = .opening → SameTopic state incident)
    (configured : NotificationConfig) (rule : NotificationRule) (occurrence : Option ℤ)
    (recipientIds : Option (List PositiveId)) :
    Cools config openings now
      (queueJobs state configured incident rule kind now occurrence recipientIds) := by
  unfold Notifications.queueJobs
  refine (List.foldlRecOn (motive := fun draft : NotificationState =>
    Cools config openings now draft ∧ draft.incidents = state.incidents) _ _ ⟨h, rfl⟩ ?_).1
  rintro draft ⟨hdraft, hincidents⟩ id -
  refine ⟨hdraft.queueJob (fun hkind other hother => ?_) occurrence id,
    (queueJob_incidents ..).trans hincidents⟩
  exact hsame hkind other (hincidents ▸ hother)

/-- Cancelled openings are queued again when their topic does not cool down. -/
theorem Cools.restoreCancelledOpeningJobs (hcoherent : Coherent state)
    (hsame : SameTopic state incident) (configured : NotificationConfig) (rule : NotificationRule) :
    Cools config openings now
      (restoreCancelledOpeningJobs state configured incident rule now).2 := by
  unfold Notifications.restoreCancelledOpeningJobs
  refine (List.foldlRecOn (motive := fun restored : Bool × NotificationState =>
    Coherent restored.2 ∧ Cools config openings now restored.2 ∧
      restored.2.incidents = state.incidents) _ _ ⟨hcoherent, h, rfl⟩ ?_).2.1
  rintro restored ⟨hrestored, hcools, hincidents⟩ id -
  refine ⟨hrestored.restoreCancelledOpeningJob incident now id, ?_,
    (restoreCancelledOpeningJob_incidents incident now restored id).trans hincidents⟩
  simp only [restoreCancelledOpeningJob]
  split
  · exact hcools
  rename_i job hfind
  split
  · exact hcools
  rename_i hcancelled
  rw [not_or, not_not] at hcancelled
  have hfree : cooldownActive restored.2 incident id now = false :=
    Bool.eq_false_iff.mpr hcancelled.2
  refine ⟨fun other hother => ?_, hcools.past, hcools.recorded, ?_⟩
  · obtain hold | ⟨before, -, -, rfl⟩ := mem_modifyFirst hother
    · exact hcools.lease_held other hold
    · rintro ⟨⟩
  · intro opening hmem other hother hkind hout hcontact i hi hid htopic hne
    obtain hold | ⟨before, hbefore, hkey, rfl⟩ := mem_modifyFirst hother
    · exact hcools.apart opening hmem other hold hkind hout hcontact i hi hid htopic hne
    · have hkeyed := hrestored.job_keyed before hbefore
      have hkey : before.idempotencyKey = jobKey incident.id id .opening none :=
        of_decide_eq_true hkey
      have hincident : before.incidentId = incident.id := by
        rw [← hkeyed.incidentId_eq, hkey]
        rfl
      have hto : before.contactPointId = id := by
        rw [← hkeyed.contactPointId_eq, hkey]
        rfl
      have hsameTopic := hsame i (hincidents ▸ hi) (hid.trans hincident)
      exact hcools.cooled hfree hmem (hsameTopic ▸ htopic) (hto ▸ hcontact)

omit h in
theorem promotePending_cooldowns (state : NotificationState) (rule : NotificationRule)
    (pending : PendingTransition) (now : ℤ) :
    (promotePending state rule pending now).cooldowns = state.cooldowns := by
  unfold promotePending
  split <;> rfl

theorem Cools.promotePending (hcoherent : Coherent state) (pending : PendingTransition)
    (rule : NotificationRule) :
    Cools config openings now (promotePending state rule pending now) where
  lease_held job hjob := by
    rw [promotePending_deliveryJobs] at hjob
    exact h.lease_held job hjob
  past := h.past
  recorded opening hopening hcools := by
    rw [promotePending_cooldowns]
    exact h.recorded opening hopening hcools
  apart opening hopening job hjob hkind hout hcontact incident hincident hid htopic hne := by
    rw [promotePending_deliveryJobs] at hjob
    rw [promotePending_incidents] at hincident
    obtain hold | hnew := mem_append.mp hincident
    · exact h.apart opening hopening job hjob hkind hout hcontact incident hold hid htopic hne
    · -- the new incident has no jobs yet
      obtain rfl := mem_singleton.mp hnew
      have hknown := hcoherent.incidents.lt _ (hcoherent.job_known job hjob)
      rw [← hid] at hknown
      exact absurd hknown (Nat.lt_irrefl _)

/-! ## A delivery -/

/-- No opening of another incident of the topic waits for the contact point of an opening. -/
def Opening.Alone (opening : Opening) (state : NotificationState) : Prop :=
  ∀ job ∈ state.deliveryJobs, job.kind = .opening → job.IsOutstanding →
    job.contactPointId = opening.contactPointId →
    ∀ incident ∈ state.incidents, incident.id = job.incidentId →
      incident.topic = opening.topic → incident.id = opening.incidentId

instance (opening : Opening) (state : NotificationState) : Decidable (opening.Alone state) :=
  inferInstanceAs (Decidable (∀ job ∈ state.deliveryJobs, job.kind = .opening →
    (job.state = .queued ∨ job.state = .retrying ∨ job.state = .leased) →
    job.contactPointId = opening.contactPointId →
    ∀ incident ∈ state.incidents, incident.id = job.incidentId →
      (incident.hostType, incident.hostId, incident.resourceId, incident.eventType) =
        opening.topic → incident.id = opening.incidentId))

omit h in
/-- **An opening is delivered** that is alone in waiting, and its cooldown is recorded. -/
theorem Cools.deliver (h : Cools config openings now old)
    {opening : Opening} (halone : opening.Alone old) (hinstant : opening.deliveredAt = now)
    (hincidents : ∀ incident ∈ new.incidents, ∃ before ∈ old.incidents,
      IncidentKept before incident)
    (hjobs : JobsKept old new)
    (hcooldowns : ∀ cooldown ∈ old.cooldowns, cooldown ∈ new.cooldowns ∨
      (cooldown.topic = opening.topic ∧ cooldown.contactPointId = opening.contactPointId))
    (hrecord : now < opening.coolsUntil config → ∃ cooldown ∈ new.cooldowns,
      cooldown.topic = opening.topic ∧ cooldown.contactPointId = opening.contactPointId ∧
        opening.coolsUntil config ≤ cooldown.expiresAt) :
    Cools config (openings ++ [opening]) now new where
  lease_held := hjobs.leaseHeld
  past other hother := by
    obtain hold | hnew := mem_append.mp hother
    · exact h.past other hold
    · rw [mem_singleton.mp hnew, hinstant]
  recorded other hother hcools := by
    obtain hold | hnew := mem_append.mp hother
    · obtain ⟨cooldown, hcooldown, hof, hto, hexpires⟩ := h.recorded other hold hcools
      obtain hkept | ⟨hof', hto'⟩ := hcooldowns cooldown hcooldown
      · exact ⟨cooldown, hkept, hof, hto, hexpires⟩
      · -- the record was started again, and runs longer than the one of the earlier opening
        have hsame : other.topic = opening.topic := hof.symm.trans hof'
        have hle : other.coolsUntil config ≤ opening.coolsUntil config := by
          have hpast := h.past other hold
          rw [Opening.coolsUntil, Opening.coolsUntil, hsame, hinstant]
          omega
        obtain ⟨record, hmem, hof'', hto'', hexpires'⟩ := hrecord (lt_of_lt_of_le hcools hle)
        exact ⟨record, hmem, hof''.trans hsame.symm, hto''.trans (hto'.symm.trans hto),
          hle.trans hexpires'⟩
    · rw [mem_singleton.mp hnew] at hcools ⊢
      exact hrecord hcools
  apart other hother job hjob hkind hout hcontact incident hincident hid htopic hne := by
    obtain ⟨before, hbefore, hkept⟩ := hincidents incident hincident
    obtain ⟨jobBefore, hjobBefore, hjobKept⟩ := hjobs job hjob
    obtain ⟨-, hof, hto, hsame⟩ := DeliveryJob.ids_of_face hjobKept.face_eq
    have hidBefore : before.id = jobBefore.incidentId := by rw [← hkept.id_eq, hid, hof]
    have hkindBefore : jobBefore.kind = .opening := hsame ▸ hkind
    have htoBefore : jobBefore.contactPointId = other.contactPointId := hto ▸ hcontact
    obtain hold | hnew := mem_append.mp hother
    · exact h.apart other hold jobBefore hjobBefore hkindBefore (hjobKept.outstanding hout)
        htoBefore before hbefore hidBefore (hkept.topic_eq ▸ htopic) (hkept.id_eq ▸ hne)
    · rw [mem_singleton.mp hnew] at htoBefore htopic hne
      refine absurd ?_ hne
      rw [hkept.id_eq]
      exact halone jobBefore hjobBefore hkindBefore (hjobKept.outstanding hout) htoBefore before
        hbefore hidBefore (hkept.topic_eq ▸ htopic)

end HomelabInventory.Notifications
