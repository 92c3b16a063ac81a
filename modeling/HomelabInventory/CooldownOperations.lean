import HomelabInventory.CooldownInvariant

/-!
# The operations keep openings apart

Every operation of the incident manager, of the delivery coordinator and of the retention
keeps the invariant, as long as it drops no cooldown that runs.
-/

namespace HomelabInventory.Notifications

open List Option

variable {config : NotificationConfig} {openings : List Opening} {now : ℤ}
  {state : NotificationState}

/-! ## Observations -/

variable (h : Cools config openings now state)
include h

theorem Cools.inhibitChildren (observation : Observation) (instant : ℤ) :
    Cools config openings now (inhibitChildren state observation instant) :=
  h.setJobs (h.lease_held.inhibitChildren observation instant)

variable (hcoherent : Coherent state)
include hcoherent

omit h in
theorem Coherent.sameTopic {incident : Incident} (hmem : incident ∈ state.incidents) :
    SameTopic state incident := by
  intro other hother hid
  rw [hcoherent.eq_of_id hother hmem hid]

omit h hcoherent in
/-- **The changes that the operations are made of keep openings apart.** -/
theorem Cools.keeps :
    Keeps now (fun _ _ => True) fun draft => Coherent draft ∧ Cools config openings now draft where
  coherent hp := hp.1
  beside hp hbeside hnew :=
    ⟨hnew, hp.2.congr hbeside.incidents hbeside.deliveryJobs hbeside.cooldowns⟩
  promote pending rule hp hnew := ⟨hnew, (hp.2.promotePending hp.1 pending rule).congr rfl rfl rfl⟩
  resolve hp _ _ _ hnew := ⟨hnew, hp.2.closeIncident _ .resolved _ now⟩
  remind _ hp hnew := by
    refine ⟨hnew, hp.2.modifyIncident ?_ rfl rfl rfl⟩
    exact fun _ => ⟨rfl, rfl⟩
  queue configured _ rule _ occurrence recipientIds hp hopening _ _ hnew := ⟨hnew,
    hp.2.queueJobs (fun hkind => hp.1.sameTopic (hopening hkind)) configured rule occurrence
      recipientIds⟩
  restore configured rule hp hmem hnew :=
    ⟨hnew, hp.2.restoreCancelledOpeningJobs hp.1 (hp.1.sameTopic hmem) configured rule⟩

omit h hcoherent in
theorem Cools.observe {clock : ℤ} {observation : Observation}
    (h : Cools config openings (observation.observedAt.getD clock) state)
    (hcoherent : Coherent state) (configured : NotificationConfig)
    (snapshot : NotificationState) :
    Cools config openings (observation.observedAt.getD clock)
      (observe configured clock snapshot observation state).2 := by
  refine (Cools.keeps.observe ⟨hcoherent, h⟩ (fun _ _ hbeside _ hnew => ⟨hnew, ?_⟩)
    fun _ _ _ _ _ => trivial).2
  exact (h.congr hbeside.incidents hbeside.deliveryJobs hbeside.cooldowns).inhibitChildren ..

/-! ## Disconnected hosts, changed policies and acknowledgements -/

omit hcoherent in
/-- Pending transitions, normalized states, cursors and cooldowns that do not run may go. -/
theorem Cools.filterRecords
    {pendings : List PendingTransition} {normalized : List NormalizedState}
    {cooldowns : List Cooldown} {cursors : List EvaluationCursor}
    (hcooldowns : ∀ cooldown ∈ state.cooldowns, now < cooldown.expiresAt →
      cooldown ∈ cooldowns) :
    Cools config openings now { state with
      pendingTransitions := pendings
      normalizedStates := normalized
      evaluationCursors := cursors
      cooldowns := cooldowns } :=
  h.of_kept (fun incident hincident => ⟨incident, hincident, .refl _⟩)
    (h.lease_held.jobsKept (Subset.refl _)) hcooldowns

theorem Cools.cancelIncidents (p : Incident → Bool) (reason : String) (instant : ℤ) :
    Cools config openings now (cancelIncidents state p reason instant) :=
  (hcoherent.cancelIncidents_spec p reason instant
    (P := fun draft => Cools config openings now draft) h
    fun _ incident _ _ _ _ _ hdraft => hdraft.closeIncident incident .cancelled reason instant).2

theorem Cools.cancelHost
    {hostType : HostType} {hostId : PositiveId}
    (hover : ∀ cooldown ∈ state.cooldowns, cooldown.hostType = hostType →
      cooldown.hostId = hostId → cooldown.expiresAt ≤ now) (reason : String) :
    Cools config openings now (cancelHost hostType hostId reason now state) := by
  refine (Cools.cancelIncidents ?_ (hcoherent.filterRecords filter_sublist
    filter_sublist filter_sublist filter_sublist) _ reason now).cancelWaitingJobs
    _ _ now
  refine h.filterRecords fun cooldown hcooldown hruns => ?_
  refine mem_filter.mpr ⟨hcooldown, decide_eq_true ?_⟩
  by_contra hof
  rw [not_or, not_not, not_not] at hof
  exact absurd (hover cooldown hcooldown hof.1 hof.2) (not_le.mpr hruns)

/-- The policies change, and still monitor what cools down. -/
theorem Cools.reconcilePolicies
    {configured : NotificationConfig} {scope : PolicyScope}
    (hover : ∀ cooldown ∈ state.cooldowns, allowed configured scope now cooldown.hostType
      cooldown.hostId cooldown.resourceId cooldown.eventType = false → cooldown.expiresAt ≤ now)
    (reason : String) (snapshot : NotificationState) :
    Cools config openings now (reconcilePolicies configured scope reason now snapshot state).2 := by
  simp only [Notifications.reconcilePolicies]
  split
  · refine (Cools.cancelIncidents ?_ (hcoherent.filterRecords filter_sublist
      filter_sublist filter_sublist (List.Sublist.refl _)) _ reason
      now).cancelWaitingJobs _ _ now
    refine h.filterRecords fun cooldown hcooldown hruns => ?_
    refine mem_filter.mpr ⟨hcooldown, ?_⟩
    by_contra hgone
    exact absurd (hover cooldown hcooldown (Bool.eq_false_iff.mpr hgone)) (not_le.mpr hruns)
  · exact h

omit hcoherent in
theorem Cools.acknowledge {incidentId : ℕ} {actor : Option ℕ} {instant : ℤ}
    {result : Incident × NotificationState}
    (hrun : acknowledge incidentId actor instant state = .ok result) :
    Cools config openings now result.2 := by
  simp only [Notifications.acknowledge] at hrun
  split at hrun
  · cases hrun
  split at hrun
  · obtain rfl := Except.ok.inj hrun
    exact h
  · obtain rfl := Except.ok.inj hrun
    refine h.modifyIncident ?_ rfl rfl rfl
    exact fun _ => ⟨rfl, rfl⟩

/-! ## Retention -/

theorem Cools.pruneNotificationHistory (configured : NotificationConfig) (limits : RetentionLimits)
    (snapshot : NotificationState) :
    Cools config openings now
      (pruneNotificationHistory configured limits now snapshot state).2 := by
  simp only [Notifications.pruneNotificationHistory]
  split
  · exact h
  · refine h.of_kept
      (fun incident hincident => ⟨incident, (mem_filter.mp hincident).1, .refl _⟩)
      (h.lease_held.jobsKept filter_sublist.subset)
      fun cooldown hcooldown hruns => mem_filter.mpr ⟨hcooldown, ?_⟩
    -- only cooldowns that are over are removed
    rw [Bool.not_eq_true', contains_eq_mem, decide_eq_false_iff_not]
    intro hremoved
    obtain ⟨other, hother, hid⟩ := mem_map.mp hremoved
    have hsorted := (perm_insertionSort _ _).mem_iff.mp (mem_of_mem_take hother)
    obtain ⟨hmem, hover⟩ := mem_filter.mp hsorted
    obtain rfl := eq_of_key_eq hcoherent.cooldowns.nodup hmem hcooldown hid
    exact lt_asymm hruns (of_decide_eq_true hover)

/-! ## Deliveries -/

/-- The opening that is delivered when the adapter has sent the notification of a job. -/
def deliveredOpening (workerId : String) (jobId : ℕ) (now : ℤ) (state : NotificationState) :
    Option Opening :=
  (heldJob workerId jobId state).bind fun job =>
    if job.kind = .opening then
      (state.incidents.find? fun candidate => candidate.id = job.incidentId).map fun incident =>
        { incidentId := incident.id
          topic := incident.topic
          contactPointId := job.contactPointId
          deliveredAt := now }
    else none

omit hcoherent in
omit h in
/-- A cooldown that is started is recorded, and the others stay. -/
theorem startCooldown_cooldowns (state : NotificationState) (incident : Incident)
    (contactPointId : PositiveId) (seconds : ℕ) (now : ℤ) :
    let new := startCooldown state incident contactPointId seconds now
    (∀ cooldown ∈ state.cooldowns, cooldown ∈ new.cooldowns ∨
      (cooldown.topic = incident.topic ∧ cooldown.contactPointId = contactPointId)) ∧
    ∃ cooldown ∈ new.cooldowns, cooldown.topic = incident.topic ∧
      cooldown.contactPointId = contactPointId ∧ cooldown.expiresAt = now + seconds * 1000 := by
  have hof : ∀ cooldown : Cooldown, cooldown.isOf incident contactPointId = true →
      cooldown.topic = incident.topic ∧ cooldown.contactPointId = contactPointId := by
    intro cooldown hof
    obtain ⟨htype, hid, hresource, hevent, hto⟩ := of_decide_eq_true hof
    refine ⟨?_, hto⟩
    rw [Cooldown.topic, Incident.topic, htype, hid, hresource, hevent]
  simp only [startCooldown]
  split
  · rename_i hany
    obtain ⟨first, hfirst⟩ :=
      isSome_iff_exists.mp (find?_isSome.mpr (any_eq_true.mp hany))
    have hmatches : first.isOf incident contactPointId = true := by
      simpa using find?_some hfirst
    refine ⟨fun cooldown hcooldown => ?_, _, mem_modifyFirst_of_find? hfirst, ?_⟩
    · obtain hkept | ⟨hmatches, -⟩ := mem_or_mem_modifyFirst hcooldown
      · exact .inl hkept
      · exact .inr (hof cooldown hmatches)
    · obtain ⟨htopic, hto⟩ := hof first hmatches
      exact ⟨htopic, hto, rfl⟩
  · refine ⟨fun cooldown hcooldown => .inl (mem_append_left _ hcooldown), _,
      mem_append_right _ (mem_singleton_self _), rfl, rfl, rfl⟩

/-- **A delivery keeps openings apart** when an opening is alone in waiting. -/
theorem Cools.succeed
    {workerId : String} {jobId : ℕ}
    (halone : ∀ opening, deliveredOpening workerId jobId now state = some opening →
      opening.Alone state)
    (result : DeliveryResult) :
    Cools config (openings ++ (deliveredOpening workerId jobId now state).toList) now
      (succeed workerId config jobId result now state) := by
  simp only [Notifications.succeed, deliveredOpening] at halone ⊢
  split
  · rename_i hheld
    rw [hheld]
    simpa using h
  rename_i held hheld
  rw [hheld] at halone ⊢
  rw [bind_some] at halone ⊢
  obtain ⟨hmem, hheldId, -⟩ := mem_of_heldJob hheld
  set settled := addAttempt (Notifications.modifyJob state jobId fun job => { job with
    attempts := job.attempts + 1
    state := .delivered
    deliveredAt := some now
    leaseOwner := none
    leaseExpiresAt := none
    lastError := none
    updatedAt := now }) jobId (held.attempts + 1) .delivered result.status result.responseExcerpt
    none now with hsettled
  have hkept : OnlyJobs state settled :=
    h.lease_held.settleDelivered hcoherent hheld result.status result.responseExcerpt now
  have hsettledCools : Cools config openings now settled := h.setJobs hkept
  obtain ⟨incident, hincident⟩ : ∃ incident,
      state.incidents.find? (fun candidate => candidate.id = held.incidentId) = some incident := by
    obtain ⟨incident, hknown, hid⟩ := mem_map.mp (hcoherent.job_known held hmem)
    exact isSome_iff_exists.mp (find?_isSome.mpr ⟨incident, hknown, decide_eq_true hid⟩)
  have hfound : settled.incidents.find? (fun candidate => candidate.id = held.incidentId) =
      some incident := hincident
  simp only [noteOpening, hfound]
  rw [hincident] at halone ⊢
  by_cases hkind : held.kind = .opening
  · rw [if_pos hkind] at halone ⊢
    rw [if_neg (not_not.mpr hkind)]
    set marked := { settled with
      incidents := modifyFirst (fun candidate => candidate.id = held.incidentId)
        (fun incident : Incident => { incident with
          notificationDeliveredAt := incident.notificationDeliveredAt <|> some now
          updatedAt := now }) settled.incidents } with hmarked
    have hincidents : ∀ incident ∈ marked.incidents, ∃ before ∈ state.incidents,
        IncidentKept before incident := by
      intro incident hincident
      obtain hold | ⟨before, hbefore, -, rfl⟩ := mem_modifyFirst hincident
      · exact ⟨incident, hold, .refl _⟩
      · exact ⟨before, hbefore, rfl, rfl⟩
    have hdeliver : ∀ new : NotificationState, new.incidents = marked.incidents →
        new.deliveryJobs = settled.deliveryJobs →
        (∀ cooldown ∈ state.cooldowns, cooldown ∈ new.cooldowns ∨
          (cooldown.topic = incident.topic ∧ cooldown.contactPointId = held.contactPointId)) →
        (now < now + incident.topic.cooldownMs config → ∃ cooldown ∈ new.cooldowns,
          cooldown.topic = incident.topic ∧ cooldown.contactPointId = held.contactPointId ∧
            now + incident.topic.cooldownMs config ≤ cooldown.expiresAt) →
        Cools config (openings ++ [⟨incident.id, incident.topic, held.contactPointId, now⟩]) now
          new := by
      intro new hnewIncidents hnewJobs hcooldowns hrecord
      exact h.deliver (halone _ rfl) rfl
        (fun incident hmem => hincidents incident (hnewIncidents ▸ hmem))
        (fun job hjob => hkept.jobs job (hnewJobs ▸ hjob)) hcooldowns hrecord
    have hms : ∀ rule, incident.topic.rule config = rule → incident.topic.cooldownMs config =
        (rule.map fun rule => (rule.cooldownSeconds : ℤ) * 1000).getD 0 := by
      rintro rule rfl
      rfl
    rw [resolveRule_policy]
    split
    · rename_i hrule
      refine hdeliver marked rfl rfl (fun cooldown hcooldown => .inl hcooldown) fun hruns => ?_
      rw [hms _ hrule] at hruns
      simp at hruns
    · rename_i rule hrule
      have hseconds := hms _ hrule
      rw [map_some, getD_some] at hseconds
      split
      · obtain ⟨hkept, hrecord⟩ := startCooldown_cooldowns marked incident held.contactPointId
          rule.cooldownSeconds now
        obtain ⟨cooldowns, next, heq⟩ := startCooldown_same marked incident held.contactPointId
          rule.cooldownSeconds now
        refine hdeliver _ (by rw [heq]) (by rw [heq]) hkept fun _ => ?_
        obtain ⟨cooldown, hcooldown, htopic, hto, hexpires⟩ := hrecord
        exact ⟨cooldown, hcooldown, htopic, hto, by rw [hexpires, hseconds]⟩
      · rename_i hnone
        refine hdeliver marked rfl rfl (fun cooldown hcooldown => .inl hcooldown) fun hruns => ?_
        rw [hseconds] at hruns
        omega
  · rw [if_neg hkind, if_pos hkind]
    simpa using hsettledCools

end HomelabInventory.Notifications
