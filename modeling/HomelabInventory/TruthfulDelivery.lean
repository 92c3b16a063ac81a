import HomelabInventory.FreshReminders

/-!
# What is true of a notification when it is sent

At every send the coordinator has read the incident, checked the policy of its
host and, for a child event, that the host is not offline. An opening is sent
for an open incident only, and a recovery only for a resolved one and to a
contact point that got the opening. For a reminder nothing of this is checked:
it is true because its incident stays open and unacknowledged, unless a step of the
run closes or acknowledges the incident while the reminder waits.
-/

namespace HomelabInventory.Notifications

/-- A call of the adapter: the leased job, and the contact point and incident that were read. -/
structure Sent where
  job : DeliveryJob
  contactPoint : ContactPoint
  incident : Incident

/-- What the coordinator sends when it decides now. -/
def System.sends (system : System) (config : NotificationConfig) (now : ℤ) : Option Sent :=
  match system.worker with
  | .leased job => match decideDelivery config system.state job now with
    | .send contactPoint incident => some ⟨job, contactPoint, incident⟩
    | .cancel _ | .defer _ => none
  | _ => none

/-- The notification is true of the state in which it is sent. -/
structure Truthful (state : NotificationState) (config : NotificationConfig) (now : ℤ)
    (sent : Sent) : Prop where
  incident_read : sent.incident ∈ state.incidents ∧ sent.incident.id = sent.job.incidentId
  opening : sent.job.kind = .opening → sent.incident.state = .opened
  reminder : sent.job.kind = .reminder → sent.incident.state = .opened
  recovery : sent.job.kind = .recovery → sent.incident.state = .resolved
  told : sent.job.kind = .recovery → ∃ opening ∈ state.deliveryJobs, opening.kind = .opening ∧
    opening.state = .delivered ∧ opening.incidentId = sent.incident.id ∧
    opening.contactPointId = sent.contactPoint.id
  unacknowledged : sent.job.kind = .reminder → sent.incident.acknowledgedAt = none
  not_muted : (resolveHostNotificationPolicy config sent.incident.hostType sent.incident.hostId
    now).muted = false
  not_quiet : (resolveHostNotificationPolicy config sent.incident.hostType sent.incident.hostId
    now).quiet = false
  host_available : sent.incident.eventType ≠ .hostOffline →
    hostIncidentUnavailable state sent.incident.hostType sent.incident.hostId = false

/-- What the coordinator has checked of a notification that it sends. -/
structure SendChecks (config : NotificationConfig) (state : NotificationState)
    (job : DeliveryJob) (now : ℤ) (contactPoint : ContactPoint) (incident : Incident) : Prop where
  contactPoint_read : config.contactPoints.find?
    (fun candidate => candidate.id = job.contactPointId) = some contactPoint
  incident_read : state.incidents.find? (fun candidate => candidate.id = job.incidentId)
    = some incident
  opening : job.kind = .opening → incident.state = .opened
  not_muted :
    (resolveHostNotificationPolicy config incident.hostType incident.hostId now).muted = false
  not_quiet :
    (resolveHostNotificationPolicy config incident.hostType incident.hostId now).quiet = false
  host_available : hostUnavailable state incident = false

theorem sendChecks_of_decideDelivery {config : NotificationConfig} {state : NotificationState}
    {job : DeliveryJob} {now : ℤ} {contactPoint : ContactPoint} {incident : Incident}
    (h : decideDelivery config state job now = .send contactPoint incident) :
    SendChecks config state job now contactPoint incident := by
  simp only [decideDelivery] at h
  split at h
  · rename_i point found hpoint hincident
    split at h
    · exact nomatch h
    split at h
    · exact nomatch h
    rename_i hopening
    split at h
    · exact nomatch h
    split at h
    · exact nomatch h
    split at h
    · exact nomatch h
    rename_i hfree
    obtain ⟨rfl, rfl⟩ := Decision.send.inj h
    rw [Bool.or_eq_true, Bool.or_eq_true, not_or, not_or] at hfree
    obtain ⟨⟨hmuted, hquiet⟩, havailable⟩ := hfree
    refine ⟨hpoint, hincident, fun hkind => ?_, Bool.eq_false_iff.mpr hmuted,
      Bool.eq_false_iff.mpr hquiet, Bool.eq_false_iff.mpr havailable⟩
    by_contra hclosed
    exact hopening ⟨hkind, hclosed⟩
  · exact nomatch h

theorem System.sends_eq_some {system : System} {config : NotificationConfig} {now : ℤ}
    {sent : Sent} (h : system.sends config now = some sent) :
    system.worker = .leased sent.job ∧
      SendChecks config system.state sent.job now sent.contactPoint sent.incident := by
  simp only [sends] at h
  split at h
  · rename_i job hworker
    split at h
    · rename_i contactPoint incident hdecision
      obtain rfl := Option.some.inj h
      exact ⟨hworker, sendChecks_of_decideDelivery hdecision⟩
    · exact nomatch h
    · exact nomatch h
  · exact nomatch h

/-- **A notification is true when it is sent** in a run that overtakes no reminder: no step
acknowledges, resolves or cancels an incident while a reminder of it waits or is leased, unless it
cancels the reminder too, and no reminder of such an incident is retried by hand. -/
theorem truthful_of_spared {workerId : String} {system : System}
    (h : SystemReachable workerId SparesReminders system) {config : NotificationConfig} {now : ℤ}
    {sent : Sent} (hsends : system.sends config now = some sent) :
    Truthful system.state config now sent := by
  obtain ⟨hworker, hchecks⟩ := System.sends_eq_some hsends
  have hinvariant := h.coherent
  have hmem : sent.incident ∈ system.state.incidents :=
    List.mem_of_find?_eq_some hchecks.incident_read
  have hid : sent.incident.id = sent.job.incidentId := by
    simpa using List.find?_some hchecks.incident_read
  have hpoint : sent.contactPoint.id = sent.job.contactPointId := by
    simpa using List.find?_some hchecks.contactPoint_read
  have hreminder : sent.job.kind = .reminder → sent.incident.IsRemindable := fun hkind =>
    h.remindersFresh.fresh sent.job ⟨hkind, .inr hworker⟩ sent.incident hmem hid
  refine ⟨⟨hmem, hid⟩, hchecks.opening, fun hkind => (hreminder hkind).1, fun hkind => ?_,
    fun hkind => ?_, fun hkind => (hreminder hkind).2, hchecks.not_muted, hchecks.not_quiet,
    fun hchild => ?_⟩
  · exact (hinvariant.leased_founded sent.job hworker hkind sent.incident hmem hid).1
  · obtain ⟨-, htold⟩ := hinvariant.leased_founded sent.job hworker hkind sent.incident hmem hid
    obtain ⟨opening, hopening, hof, hopeningKind, hdelivered, hto⟩ :=
      mem_deliveredOpenings.mp htold
    exact ⟨opening, hopening, hopeningKind, hdelivered, hof.trans hid.symm, hto.trans hpoint.symm⟩
  · have havailable := hchecks.host_available
    rwa [hostUnavailable, if_neg hchild] at havailable

/-- The opening of the service is delivered, and a reminder is queued a minute later. -/
def reminderQueued : List (System → Action) :=
  openingDelivered ++
    [fun system => .change (.evaluateReminders serverConfig 120000 system.state) 120000]

/-- The reminder of the service is true when it is sent. -/
theorem truthful_of_spared_service : ∃ system sent,
    SystemReachable "worker" SparesReminders system ∧
      system.sends serverConfig 120002 = some sent ∧ sent.job.kind = .reminder ∧
      Truthful system.state serverConfig 120002 sent := by
  obtain ⟨system, hrun, sent, hsends, hkind⟩ : ∃ system,
      System.run "worker" ⟨createNotificationState 0, .idle⟩ (reminderQueued ++ [askLease 120002])
        = some system ∧
      ∃ sent, system.sends serverConfig 120002 = some sent ∧ sent.job.kind = .reminder :=
    ⟨_, rfl, _, rfl, rfl⟩
  have hspares : ∀ ask ∈ reminderQueued ++ [askLease 120002], ∀ system,
      SparesReminders system (ask system) := by
    intro ask hask system mutation clock hchange
    simp only [reminderQueued, openingDelivered, List.cons_append, List.nil_append, List.mem_cons,
      List.not_mem_nil, or_false] at hask
    obtain rfl | rfl | rfl | rfl | rfl | rfl | rfl := hask
    -- the service is still seen to fail when it is observed
    all_goals first
      | exact Action.noConfusion hchange
      | obtain ⟨rfl, -⟩ := Action.change.inj hchange
        exact ⟨fun job _ hovertakes => Health.noConfusion hovertakes.2.1,
          fun jobId now hretry => Mutation.noConfusion hretry⟩
      | obtain ⟨rfl, -⟩ := Action.change.inj hchange
        exact ⟨fun job _ hovertakes => hovertakes,
          fun jobId now hretry => Mutation.noConfusion hretry⟩
  have hreached := (SystemReachable.start 0).run hspares hrun
  exact ⟨system, sent, hreached, hsends, hkind, truthful_of_spared hreached hsends⟩

/-- The reminder of the service is queued, and the service recovers before it is sent. -/
def reminderOutlived : List (System → Action) :=
  reminderQueued ++ [askService .healthy 120001, askLease 120002]

/-- A reminder is sent for an incident that was resolved while the reminder waited. -/
theorem untruthful_reminder : ¬∀ (workerId : String) (system : System)
    (config : NotificationConfig) (now : ℤ) (sent : Sent),
    SystemReachable workerId anyStep system → system.sends config now = some sent →
      Truthful system.state config now sent := by
  intro htruthful
  obtain ⟨system, hrun⟩ : ∃ system, System.run "worker" ⟨createNotificationState 0, .idle⟩
      reminderOutlived = some system := ⟨_, rfl⟩
  have hreached : SystemReachable "worker" anyStep system :=
    (SystemReachable.start 0).run (fun _ _ _ => trivial) hrun
  obtain rfl := Option.some.inj hrun
  have hreminder := htruthful "worker" _ serverConfig 120002 _ hreached rfl
  exact nomatch hreminder.reminder rfl

end HomelabInventory.Notifications
