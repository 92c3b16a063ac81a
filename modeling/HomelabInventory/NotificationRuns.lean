import HomelabInventory.IncidentLifecycle

/-!
# Runs of the notification store

The changes that the incident manager, the delivery coordinator and the
retention ask the store for, in any order and with any clocks, configurations
and observations. The store commits a change when the draft passes its check;
the invariant holds in every state reached, and the check passes every time.
-/

namespace HomelabInventory.Notifications

/-! ## The check of the store -/

theorem assertUniqueIds_of_counted {ids : List ℕ} {next : ℕ} (h : Counted ids next)
    (label : String) : assertUniqueIds ids label = .ok () := by
  have hloop : ∀ (ids seen : List ℕ), ids.Nodup → (∀ id ∈ ids, 0 < id) → (∀ id ∈ ids, id ∉ seen) →
      ∃ seen', ids.foldlM
        (fun (seen : List ℕ) id => do
          failIf (id = 0) (NotificationError.invalidId label)
          failIf (id ∈ seen) (.duplicateId label id)
          return seen ++ [id]) seen = Except.ok seen' := by
    intro ids
    induction ids with
    | nil => exact fun seen _ _ _ => ⟨seen, rfl⟩
    | cons id ids ih =>
      intro seen hnodup hpos hfresh
      obtain ⟨hid, hnodup⟩ := List.nodup_cons.mp hnodup
      have hrest : ∀ other ∈ ids, other ∉ seen ++ [id] := by
        intro other hother hmem
        obtain hmem | hmem := List.mem_append.mp hmem
        · exact hfresh other (List.mem_cons_of_mem id hother) hmem
        · exact hid (List.mem_singleton.mp hmem ▸ hother)
      obtain ⟨seen', hrun⟩ := ih (seen ++ [id]) hnodup
        (fun other hother => hpos other (List.mem_cons_of_mem id hother)) hrest
      refine ⟨seen', foldlM_cons_eq_ok.mpr ⟨seen ++ [id], ?_, hrun⟩⟩
      refine bind_eq_ok.mpr ⟨(), ?_, bind_eq_ok.mpr ⟨(), ?_, rfl⟩⟩
      · exact failIf_eq_ok.mpr (Nat.ne_of_gt (hpos id List.mem_cons_self))
      · exact failIf_eq_ok.mpr (hfresh id List.mem_cons_self)
  obtain ⟨seen', hrun⟩ := hloop ids [] h.nodup h.pos fun _ _ => List.not_mem_nil
  exact bind_eq_ok.mpr ⟨seen', hrun, rfl⟩

/-- Cursors of distinct hosts pass the check. -/
theorem assertUniqueCursors_of_nodup {cursors : List EvaluationCursor}
    (h : (cursors.map fun cursor => (cursor.hostType, cursor.hostId)).Nodup) :
    assertUniqueCursors cursors = .ok () := by
  have hloop : ∀ (cursors : List EvaluationCursor) (seen : List (HostType × PositiveId)),
      (cursors.map fun cursor => (cursor.hostType, cursor.hostId)).Nodup →
      (∀ cursor ∈ cursors, (cursor.hostType, cursor.hostId) ∉ seen) →
      ∃ seen', cursors.foldlM
        (fun (seen : List (HostType × PositiveId)) cursor => do
          failIf ((cursor.hostType, cursor.hostId) ∈ seen)
            (NotificationError.duplicateCursor cursor.hostType cursor.hostId)
          return seen ++ [(cursor.hostType, cursor.hostId)]) seen = Except.ok seen' := by
    intro cursors
    induction cursors with
    | nil => exact fun seen _ _ => ⟨seen, rfl⟩
    | cons cursor cursors ih =>
      intro seen hnodup hfresh
      obtain ⟨hcursor, hnodup⟩ := List.nodup_cons.mp hnodup
      have hrest : ∀ other ∈ cursors,
          (other.hostType, other.hostId) ∉ seen ++ [(cursor.hostType, cursor.hostId)] := by
        intro other hother hmem
        obtain hmem | hmem := List.mem_append.mp hmem
        · exact hfresh other (List.mem_cons_of_mem cursor hother) hmem
        · exact hcursor (List.mem_map.mpr ⟨other, hother, List.mem_singleton.mp hmem⟩)
      obtain ⟨seen', hrun⟩ := ih _ hnodup hrest
      refine ⟨seen', foldlM_cons_eq_ok.mpr ⟨_, bind_eq_ok.mpr ⟨(), ?_, rfl⟩, hrun⟩⟩
      exact failIf_eq_ok.mpr (hfresh cursor List.mem_cons_self)
  obtain ⟨seen', hrun⟩ := hloop cursors [] h fun _ _ => List.not_mem_nil
  exact bind_eq_ok.mpr ⟨seen', hrun, rfl⟩

variable {draft state state' : NotificationState}

/-- The invariant passes the check of the store. -/
theorem Coherent.assertNotificationState (h : Coherent state) :
    assertNotificationState state = .ok () := by
  have hpositive : ∀ {value : ℕ} (label : String), 0 < value →
      assertPositive value label = .ok () :=
    fun _ hpos => failIf_eq_ok.mpr (Nat.ne_of_gt hpos)
  have hknown : ∀ {α : Type} (l : List α) (id : α → ℕ) (ids : List ℕ) (e : α → NotificationError),
      (∀ a ∈ l, id a ∈ ids) → l.forM (fun a => failIf (id a ∉ ids) (e a)) = .ok () := by
    intro α l id ids e hl
    exact forM_eq_ok.mpr fun a ha => failIf_eq_ok.mpr fun hnot => hnot (hl a ha)
  have hcounters : assertCounters state.counters = .ok () := by
    simp only [assertCounters, hpositive _ h.normalizedStates.next_pos,
      hpositive _ h.pendingTransitions.next_pos, hpositive _ h.incidents.next_pos,
      hpositive _ h.transitions.next_pos, hpositive _ h.acknowledgements.next_pos,
      hpositive _ h.deliveryJobs.next_pos, hpositive _ h.deliveryAttempts.next_pos,
      hpositive _ h.cooldowns.next_pos, hpositive _ h.evaluationCursors.next_pos, bind_ok]
  simp only [Notifications.assertNotificationState, assertUniqueIds_of_counted h.normalizedStates,
    assertUniqueIds_of_counted h.pendingTransitions, assertUniqueIds_of_counted h.incidents,
    assertUniqueIds_of_counted h.transitions, assertUniqueIds_of_counted h.acknowledgements,
    assertUniqueIds_of_counted h.deliveryJobs, assertUniqueIds_of_counted h.deliveryAttempts,
    assertUniqueIds_of_counted h.cooldowns, assertUniqueIds_of_counted h.evaluationCursors,
    hknown state.transitions _ _ _ h.history.known,
    hknown state.acknowledgements _ _ _ h.acknowledgement_known,
    hknown state.deliveryJobs _ _ _ h.job_known,
    hknown state.deliveryAttempts _ _ _ h.attempt_known,
    assertUniqueCursors_of_nodup h.cursorHosts, hcounters, bind_ok]

/-! ## Changes of the state -/

/-- A change that the incident manager, the delivery coordinator or the retention asks for. -/
inductive Mutation
  | observe (config : NotificationConfig) (clock : ℤ) (snapshot : NotificationState)
      (observation : Observation)
  | evaluatePending (config : NotificationConfig) (now : ℤ) (snapshot : NotificationState)
  | evaluateReminders (config : NotificationConfig) (now : ℤ) (snapshot : NotificationState)
  | evaluateSuppressedOpenings (config : NotificationConfig) (now : ℤ)
      (snapshot : NotificationState)
  | evaluateRecoveries (config : NotificationConfig) (now : ℤ) (snapshot : NotificationState)
  | cancelHost (hostType : HostType) (hostId : PositiveId) (reason : String) (now : ℤ)
  | reconcilePolicies (config : NotificationConfig) (scope : PolicyScope) (reason : String)
      (now : ℤ) (snapshot : NotificationState)
  | acknowledge (incidentId : ℕ) (actor : Option ℕ) (now : ℤ)
  | lease (workerId : String) (now : ℤ) (snapshot : NotificationState)
  | succeed (workerId : String) (config : NotificationConfig) (jobId : ℕ)
      (result : DeliveryResult) (now : ℤ)
  | fail (workerId : String) (jobId : ℕ) (message : String) (now : ℤ)
  | cancel (jobId : ℕ) (reason : String) (now : ℤ)
  | defer (workerId : String) (jobId : ℕ) (mutedUntil : Option ℤ) (now : ℤ)
  | retry (jobId : ℕ) (now : ℤ)
  | prune (config : NotificationConfig) (limits : RetentionLimits) (now : ℤ)
      (snapshot : NotificationState)

/-- The draft that a change leaves. -/
def Mutation.apply (draft : NotificationState) :
    Mutation → Except NotificationError NotificationState
  | observe config clock snapshot observation =>
    .ok (Notifications.observe config clock snapshot observation draft).2
  | evaluatePending config now snapshot =>
    .ok (Notifications.evaluatePending config now snapshot draft).2
  | evaluateReminders config now snapshot =>
    .ok (Notifications.evaluateReminders config now snapshot draft).2
  | evaluateSuppressedOpenings config now snapshot =>
    .ok (Notifications.evaluateSuppressedOpenings config now snapshot draft).2
  | evaluateRecoveries config now snapshot =>
    .ok (Notifications.evaluateRecoveries config now snapshot draft).2
  | cancelHost hostType hostId reason now =>
    .ok (Notifications.cancelHost hostType hostId reason now draft)
  | reconcilePolicies config scope reason now snapshot =>
    .ok (Notifications.reconcilePolicies config scope reason now snapshot draft).2
  | acknowledge incidentId actor now =>
    (Notifications.acknowledge incidentId actor now draft).map (·.2)
  | lease workerId now snapshot => .ok (leaseNext workerId now snapshot draft).2
  | succeed workerId config jobId result now =>
    .ok (Notifications.succeed workerId config jobId result now draft)
  | fail workerId jobId message now => .ok (Notifications.fail workerId jobId message now draft)
  | cancel jobId reason now => .ok (Notifications.cancel jobId reason now draft)
  | defer workerId jobId mutedUntil now =>
    .ok (Notifications.defer workerId jobId mutedUntil now draft)
  | retry jobId now => (Notifications.retry jobId now draft).map (·.2)
  | prune config limits now snapshot =>
    .ok (pruneNotificationHistory config limits now snapshot draft).2

/-- The state after the store was asked for a change at an instant. -/
def Mutation.commit (mutation : Mutation) (now : ℤ) (state : NotificationState) :
    Except NotificationError NotificationState :=
  (mutateState now (fun draft => (mutation.apply draft).map fun draft => ((), draft)) state).map
    (·.2)

variable {mutation : Mutation}
variable {now : ℤ}

/-- What the store does with the draft of a change. -/
theorem Mutation.commit_of_apply (hrun : mutation.apply state = .ok draft) :
    mutation.commit now state =
      if draft = state then .ok state
      else (assertNotificationState { draft with updatedAt := now }).map
        fun _ => { draft with updatedAt := now } := by
  simp only [commit, mutateState, hrun, Except.map, bind_ok]
  by_cases hsame : draft = state
  · rw [if_pos hsame, if_pos hsame]
    rfl
  · rw [if_neg hsame, if_neg hsame]
    cases assertNotificationState { draft with updatedAt := now } <;> rfl

theorem Mutation.commit_of_error {e : NotificationError} (hrun : mutation.apply state = .error e) :
    mutation.commit now state = .error e := by
  simp only [commit, mutateState, hrun, Except.map, bind_error]

theorem map_snd_eq_ok {ε ρ σ : Type} {x : Except ε (ρ × σ)} {s : σ}
    (h : x.map (·.2) = .ok s) : ∃ r, x = .ok (r, s) := by
  cases x with
  | error e => exact nomatch h
  | ok p =>
    obtain rfl : p.2 = s := Except.ok.inj h
    exact ⟨p.1, rfl⟩

/-- Every change keeps the invariant. -/
theorem Coherent.apply (h : Coherent state) (hrun : mutation.apply state = .ok draft) :
    Coherent draft := by
  cases mutation with
  | observe config clock snapshot observation =>
    obtain rfl := Except.ok.inj hrun
    exact (keeps_coherent _).observe h (fun _ _ _ _ hnew => hnew) fun _ _ _ _ _ => trivial
  | evaluatePending config now snapshot =>
    obtain rfl := Except.ok.inj hrun
    exact (keeps_coherent now).evaluatePending h config snapshot
  | evaluateReminders config now snapshot =>
    obtain rfl := Except.ok.inj hrun
    exact (keeps_coherent now).evaluateReminders h config snapshot
  | evaluateSuppressedOpenings config now snapshot =>
    obtain rfl := Except.ok.inj hrun
    exact (keeps_coherent now).evaluateSuppressedOpenings h config snapshot
  | evaluateRecoveries config now snapshot =>
    obtain rfl := Except.ok.inj hrun
    exact (keeps_coherent now).evaluateRecoveries h config snapshot
  | cancelHost hostType hostId reason now =>
    obtain rfl := Except.ok.inj hrun
    exact h.cancelHost hostType hostId reason now
  | reconcilePolicies config scope reason now snapshot =>
    obtain rfl := Except.ok.inj hrun
    exact h.reconcilePolicies config scope reason now snapshot
  | acknowledge incidentId actor now =>
    obtain ⟨incident, hresult⟩ := map_snd_eq_ok hrun
    exact h.acknowledge hresult
  | lease workerId now snapshot =>
    obtain rfl := Except.ok.inj hrun
    exact h.leaseNext workerId now snapshot
  | succeed workerId config jobId result now =>
    obtain rfl := Except.ok.inj hrun
    exact h.succeed workerId config jobId result now
  | fail workerId jobId message now =>
    obtain rfl := Except.ok.inj hrun
    exact h.fail workerId jobId message now
  | cancel jobId reason now =>
    obtain rfl := Except.ok.inj hrun
    exact h.modifyJob jobId fun _ => rfl
  | defer workerId jobId mutedUntil now =>
    obtain rfl := Except.ok.inj hrun
    exact h.defer workerId jobId mutedUntil now
  | retry jobId now =>
    obtain ⟨job, hresult⟩ := map_snd_eq_ok hrun
    exact h.retry hresult
  | prune config limits now snapshot =>
    obtain rfl := Except.ok.inj hrun
    exact h.pruneNotificationHistory config limits now snapshot

/-- A change whose mutator does not throw is committed: the check of the store passes. -/
theorem Coherent.commits (h : Coherent state) (hrun : mutation.apply state = .ok draft) (now : ℤ) :
    ∃ state', mutation.commit now state = .ok state' ∧ Coherent state' := by
  have hkept : Coherent { draft with updatedAt := now } := { h.apply hrun with }
  rw [Mutation.commit_of_apply hrun, hkept.assertNotificationState]
  split
  · exact ⟨state, rfl, h⟩
  · exact ⟨_, rfl, hkept⟩

theorem Coherent.commit (h : Coherent state) (hrun : mutation.commit now state = .ok state') :
    Coherent state' := by
  cases happly : mutation.apply state with
  | error e =>
    rw [Mutation.commit_of_error happly] at hrun
    exact nomatch hrun
  | ok draft =>
    obtain ⟨kept, hcommit, hkept⟩ := h.commits happly now
    rw [hcommit] at hrun
    exact Except.ok.inj hrun ▸ hkept

/-- The states that the store can reach from a new one. -/
inductive Reachable : NotificationState → Prop
  | create (now : ℤ) : Reachable (createNotificationState now)
  | commit {state state' : NotificationState} (mutation : Mutation) (now : ℤ) :
    Reachable state → mutation.commit now state = .ok state' → Reachable state'

/-- **The invariant holds in every reachable state.** -/
theorem Reachable.coherent (h : Reachable state) : Coherent state := by
  induction h with
  | create now => exact coherent_createNotificationState now
  | commit mutation now _ hrun ih => exact ih.commit hrun

/-- Some changes one after the other, each committed at its instant. -/
def commitAll (state : NotificationState) :
    List (ℤ × Mutation) → Except NotificationError NotificationState
  | [] => .ok state
  | (now, mutation) :: mutations => do
    let state ← mutation.commit now state
    commitAll state mutations

/-- A run of changes reaches a reachable state. -/
theorem Reachable.commitAll (h : Reachable state) {mutations : List (ℤ × Mutation)}
    (hrun : commitAll state mutations = .ok state') : Reachable state' := by
  induction mutations generalizing state with
  | nil => exact Except.ok.inj hrun ▸ h
  | cons mutation mutations ih =>
    obtain ⟨next, hcommit, hrest⟩ := bind_eq_ok.mp hrun
    exact ih (.commit mutation.2 mutation.1 h hcommit) hrest

/-! ## What the invariant says -/

/-- The pending transitions of an event key. -/
def NotificationState.pendingOf (state : NotificationState) (key : EventKey) :
    List PendingTransition :=
  state.pendingTransitions.filter fun pending => pending.eventKey = key

/-- The open incidents of an event key. -/
def NotificationState.openOf (state : NotificationState) (key : EventKey) : List Incident :=
  state.incidents.filter fun incident => incident.eventKey = key ∧ incident.state = .opened

/-- What the lifecycle of incidents guarantees of a state. -/
structure LifecycleHolds (state : NotificationState) : Prop where
  one_pending : ∀ key, (state.pendingOf key).length ≤ 1
  one_open : ∀ key, (state.openOf key).length ≤ 1
  never_both : ∀ key, state.pendingOf key = [] ∨ state.openOf key = []
  children_inhibited : ∀ pending ∈ state.pendingTransitions, pending.eventType ≠ .hostOffline →
    hostIncidentUnavailable state pending.hostType pending.hostId = false
  jobKeys_distinct : (state.deliveryJobs.map (·.idempotencyKey)).Nodup
  history_agrees : ∀ incident ∈ state.incidents, incident.state ≠ .pending ∧
    transitionsOf state.transitions incident.id = incident.state.history
  transition_known : ∀ transition ∈ state.transitions,
    ∃ incident ∈ state.incidents, incident.id = transition.incidentId
  acknowledgement_known : ∀ acknowledgement ∈ state.acknowledgements,
    ∃ incident ∈ state.incidents, incident.id = acknowledgement.incidentId
  job_known : ∀ job ∈ state.deliveryJobs,
    ∃ incident ∈ state.incidents, incident.id = job.incidentId
  attempt_known : ∀ attempt ∈ state.deliveryAttempts,
    ∃ job ∈ state.deliveryJobs, job.id = attempt.deliveryJobId

/-- Records of distinct keys: at most one has a given key. -/
theorem length_filter_key_le_one {α κ : Type} [DecidableEq κ] {key : α → κ} {l : List α}
    (h : (l.map key).Nodup) (k : κ) : (l.filter fun a => key a = k).length ≤ 1 := by
  have hcount := List.nodup_iff_count_le_one.mp h k
  rw [List.count_eq_countP, List.countP_map, List.countP_eq_length_filter] at hcount
  simpa [Function.comp_def, beq_eq_decide] using hcount

theorem Coherent.lifecycleHolds (h : Coherent state) : LifecycleHolds state where
  one_pending key := length_filter_key_le_one h.exclusive.pending_nodup key
  one_open key := by
    have hone := length_filter_key_le_one h.exclusive.opened_nodup key
    rw [List.filter_filter] at hone
    simpa [NotificationState.openOf, Bool.decide_and] using hone
  never_both key := by
    by_contra hboth
    rw [not_or] at hboth
    obtain ⟨hpending, hopen⟩ := hboth
    obtain ⟨pending, hmem⟩ := List.exists_mem_of_ne_nil _ hpending
    obtain ⟨incident, hincident⟩ := List.exists_mem_of_ne_nil _ hopen
    obtain ⟨hold, hkey⟩ := List.mem_filter.mp hmem
    obtain ⟨holdIncident, hsame⟩ := List.mem_filter.mp hincident
    obtain ⟨hincidentKey, hopened⟩ := of_decide_eq_true hsame
    refine h.exclusive.disjoint key ?_ (mem_openKeys.mpr ⟨incident, holdIncident, hopened, hincidentKey⟩)
    exact List.mem_map.mpr ⟨pending, hold, of_decide_eq_true hkey⟩
  children_inhibited pending hpending hchild := by
    have hnamed := h.pending_named pending hpending
    have hnot : ∀ key, key ∈ state.pendingKeys ∨ key ∈ openKeys state.incidents →
        key.host = pending.eventKey.host → ¬key.IsOutage :=
      h.exclusive.inhibited pending.eventKey (List.mem_map_of_mem hpending)
        fun hout => hchild (hnamed.eventType_eq.symm.trans hout)
    have hhost : ∀ {key : EventKey} {hostType : HostType} {hostId : PositiveId}
        {eventType : EventType}, key.Names hostType hostId eventType →
        hostType = pending.hostType → hostId = pending.hostId →
        key.host = pending.eventKey.host := by
      intro key hostType hostId eventType hnames htype hid
      exact Prod.ext (hnames.hostType_eq.trans (htype.trans hnamed.hostType_eq.symm))
        (hnames.hostId_eq.trans (hid.trans hnamed.hostId_eq.symm))
    refine Bool.or_eq_false_iff.mpr ⟨List.any_eq_false.mpr ?_, List.any_eq_false.mpr ?_⟩
    · intro incident hincident hout
      obtain ⟨htype, hid, hevent, hopened⟩ := of_decide_eq_true hout
      have hnames := h.incident_named incident hincident
      exact hnot incident.eventKey (.inr (mem_openKeys.mpr ⟨incident, hincident, hopened, rfl⟩))
        (hhost hnames htype hid) (hnames.eventType_eq.trans hevent)
    · intro other hother hout
      obtain ⟨htype, hid, hevent⟩ := of_decide_eq_true hout
      have hnames := h.pending_named other hother
      exact hnot other.eventKey (.inl (List.mem_map_of_mem hother)) (hhost hnames htype hid)
        (hnames.eventType_eq.trans hevent)
  jobKeys_distinct := h.jobKeys
  history_agrees incident hincident :=
    ⟨h.history.started incident hincident, h.history.recorded incident hincident⟩
  transition_known transition htransition :=
    List.mem_map.mp (h.history.known transition htransition)
  acknowledgement_known acknowledgement hack :=
    List.mem_map.mp (h.acknowledgement_known acknowledgement hack)
  job_known job hjob := List.mem_map.mp (h.job_known job hjob)
  attempt_known attempt hattempt := List.mem_map.mp (h.attempt_known attempt hattempt)

/-- **The lifecycle of incidents holds over whole runs.** In every state that the store reaches,
events are pending or open at most once and inhibited by outages of their host, jobs have
distinct keys, the recorded transitions of every incident agree with its state, and references
are to existing records; and whatever change is asked for next, the check of the store does not
reject its draft. -/
theorem reachable_lifecycleHolds {state : NotificationState} (h : Reachable state) :
    LifecycleHolds state ∧ assertNotificationState state = .ok () ∧
      ∀ (mutation : Mutation) (now : ℤ) (draft : NotificationState),
        mutation.apply state = .ok draft →
          assertNotificationState { draft with updatedAt := now } = .ok () ∧
            ∃ state', mutation.commit now state = .ok state' := by
  have hcoherent := h.coherent
  refine ⟨hcoherent.lifecycleHolds, hcoherent.assertNotificationState, ?_⟩
  intro mutation now draft hrun
  have hkept : Coherent { draft with updatedAt := now } := { hcoherent.apply hrun with }
  obtain ⟨state', hcommit, -⟩ := hcoherent.commits hrun now
  exact ⟨hkept.assertNotificationState, state', hcommit⟩

/-- A configuration that monitors a service of a server and reports to one contact point. -/
def serverConfig : NotificationConfig where
  enabled := true
  contactPoints := [⟨⟨1, by decide⟩, .ntfy, true, none⟩]
  rules :=
    [⟨.hostOffline, .critical, 60, true, [⟨1, by decide⟩], none, 0⟩,
     ⟨.serviceUnhealthy, .warning, 60, true, [⟨1, by decide⟩], some ⟨60, by decide⟩, 0⟩]
  quietHours := []
  hostOverrides := []
  monitoredResources := [⟨⟨7, by decide⟩, .server, ⟨1, by decide⟩, true⟩]
  retention := ⟨90, 30⟩

/-- An observation of the service. -/
def serviceSeen (state : Health) (instant : ℤ) : Observation :=
  ⟨.server, ⟨1, by decide⟩, some ⟨7, by decide⟩, .serviceUnhealthy, state, some instant, none, none,
    none⟩

/-- An observation of the server itself. -/
def serverSeen (state : Health) (instant : ℤ) : Observation :=
  ⟨.server, ⟨1, by decide⟩, none, .hostOffline, state, some instant, none, none, none⟩

/-- The service fails, then the server does for a minute, and the service is seen to fail again. -/
def serverFails : List (ℤ × Mutation) :=
  [serviceSeen .problem 0, serverSeen .problem 1000, serverSeen .problem 61000,
    serviceSeen .problem 62000].map fun observation => (observation.observedAt.getD 0,
      .observe serverConfig (observation.observedAt.getD 0) (createNotificationState 0) observation)

/-- The lifecycle holds when the outage drops what is pending of the service, and when it is open. -/
theorem reachable_lifecycleHolds_outage :
    (∃ state, commitAll (createNotificationState 0) (serverFails.take 2) = .ok state ∧
      state.pendingTransitions.map (·.eventType) = [.hostOffline] ∧ LifecycleHolds state) ∧
    ∃ state, commitAll (createNotificationState 0) serverFails = .ok state ∧
      state.pendingTransitions = [] ∧
      state.incidents.map (fun incident => (incident.eventType, incident.state)) =
        [(.hostOffline, .opened)] ∧ LifecycleHolds state := by
  obtain ⟨pending, hpending, hdropped⟩ : ∃ state,
      commitAll (createNotificationState 0) (serverFails.take 2) = .ok state ∧
      state.pendingTransitions.map (·.eventType) = [.hostOffline] := exists_ok_of_any (by decide)
  obtain ⟨state, hrun, hnone, hopened⟩ : ∃ state,
      commitAll (createNotificationState 0) serverFails = .ok state ∧
      state.pendingTransitions = [] ∧
      state.incidents.map (fun incident => (incident.eventType, incident.state)) =
        [(.hostOffline, .opened)] := exists_ok_of_any (by decide)
  exact ⟨⟨pending, hpending, hdropped,
    (reachable_lifecycleHolds ((Reachable.create 0).commitAll hpending)).1⟩, state, hrun, hnone,
    hopened, (reachable_lifecycleHolds ((Reachable.create 0).commitAll hrun)).1⟩

end HomelabInventory.Notifications
