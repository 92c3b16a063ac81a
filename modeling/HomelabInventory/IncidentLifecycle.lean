import HomelabInventory.NotificationInvariants

/-!
# The lifecycle of incidents over whole runs

Every operation of the incident manager, of the delivery coordinator and of the
retention keeps the invariant of the notification state, so the invariant holds
after any run of them, and the check of the store never rejects a change.
-/

namespace HomelabInventory.Notifications

open List

/-! ## Opening -/

variable {state : NotificationState} {pending : PendingTransition}

/-- After a transition was opened its incident is there, and it is pending no more. -/
theorem openFromPending_same (state : NotificationState) (config : NotificationConfig)
    (policy : HostPolicy) (rule : NotificationRule) (pending : PendingTransition) (now : ℤ) :
    (openFromPending state config policy rule pending now).2.pendingTransitions
        = (promotePending state rule pending now).pendingTransitions ∧
      (openFromPending state config policy rule pending now).2.incidents
        = state.incidents ++ [incidentOf state.counters.incident rule pending now] := by
  rw [← promotePending_incidents]
  simp only [openFromPending]
  split
  · obtain ⟨added, next, heq, -⟩ := queueJobs_pushes
      (addTransition (promotePending state rule pending now) state.counters.incident .pending
        .opened "debounce-satisfied" now)
      config (incidentOf state.counters.incident rule pending now) rule .opening now none none
    rw [show (incidentOf state.counters.incident rule pending now).id
      = state.counters.incident from rfl, heq]
    exact ⟨rfl, rfl⟩
  · exact ⟨rfl, rfl⟩

/-! ## Observations -/

variable (h : Coherent state)
include h

theorem Coherent.normalizedStateFor (observation : Observation) (now : ℤ) :
    Coherent (normalizedStateFor state observation now).2 := by
  simp only [Notifications.normalizedStateFor]
  split
  · exact h
  · refine { h with normalizedStates := ?_ }
    simpa using h.normalizedStates.push

theorem Coherent.recordObservation (observation : Observation) (title summary : String) (now : ℤ) :
    Coherent (recordObservation state observation title summary now) := by
  refine { h with normalizedStates := ?_ }
  rw [Notifications.recordObservation, map_modifyFirst]
  · exact h.normalizedStates
  · intros
    rfl

theorem Coherent.dropPending (pending : Option PendingTransition) :
    Coherent ((pending.map (Notifications.removePending state)).getD state) := by
  cases pending with
  | none => exact h
  | some pending => exact h.removePending pending

omit h in
theorem dropPending_incidents (state : NotificationState) (pending : Option PendingTransition) :
    ((pending.map (removePending state)).getD state).incidents = state.incidents := by
  cases pending <;> rfl

omit h in
theorem closeIncident_ids (state : NotificationState) (incident : Incident)
    (target : IncidentState) (reason : String) (now : ℤ) :
    (closeIncident state incident target reason now).incidents.map (·.id)
      = state.incidents.map (·.id) := by
  rw [closeIncident, addTransition, map_modifyFirst]
  intros
  rfl

omit h in
/-- What is pending once the children of a host were inhibited. -/
theorem inhibitChildren_pending (state : NotificationState) (observation : Observation) (now : ℤ) :
    (inhibitChildren state observation now).pendingTransitions =
      if observation.eventType = .hostOffline then
        state.pendingTransitions.filter fun candidate =>
          candidate.eventKey = eventKeyFor observation
            ∨ candidate.hostType ≠ observation.hostType ∨ candidate.hostId ≠ observation.hostId
      else state.pendingTransitions := by
  unfold inhibitChildren
  split <;> rfl

variable {observation : Observation}
variable {now : ℤ}

omit h in
theorem mem_inhibitChildren (hmem : pending ∈ state.pendingTransitions)
    (hkey : pending.eventKey = eventKeyFor observation) :
    pending ∈ (inhibitChildren state observation now).pendingTransitions := by
  rw [inhibitChildren_pending]
  split
  · exact mem_filter.mpr ⟨hmem, decide_eq_true (.inl hkey)⟩
  · exact hmem

theorem Coherent.inhibitChildren (observation : Observation) (now : ℤ) :
    Coherent (inhibitChildren state observation now) := by
  unfold Notifications.inhibitChildren
  split
  · exact (h.setPending filter_sublist).cancelWaitingJobs _ _ now
  · exact h

theorem Coherent.countAgain {p : PendingTransition → Bool} (now : ℤ) :
    Coherent { state with
      pendingTransitions := modifyFirst p
        (fun pending => { pending with
          lastObservedAt := now
          observations := pending.observations + 1 })
        state.pendingTransitions } := by
  set count : PendingTransition → PendingTransition := fun pending => { pending with
    lastObservedAt := now
    observations := pending.observations + 1 } with hcount
  have hkeys : (modifyFirst p count state.pendingTransitions).map (·.eventKey)
      = state.pendingTransitions.map (·.eventKey) :=
    map_modifyFirst (f := count) (fun _ _ => rfl) _
  have hids : (modifyFirst p count state.pendingTransitions).map (·.id)
      = state.pendingTransitions.map (·.id) :=
    map_modifyFirst (f := count) (fun _ _ => rfl) _
  refine { h with pendingTransitions := hids ▸ h.pendingTransitions, pending_named := ?_,
                  exclusive := ?_ }
  · intro pending hpending
    obtain hold | ⟨old, hold, -, rfl⟩ := mem_modifyFirst hpending
    · exact h.pending_named pending hold
    · exact h.pending_named old hold
  · have hexclusive := h.exclusive
    rw [NotificationState.pendingKeys, ← hkeys] at hexclusive
    exact hexclusive

/-- A problem seen for the first time, of an event that is neither pending nor open. -/
theorem Coherent.startPending (hfresh : eventKeyFor observation ∉ state.pendingKeys)
    (hclosed : eventKeyFor observation ∉ openKeys state.incidents)
    (havailable : observation.eventType ≠ .hostOffline →
      hostIncidentUnavailable state observation.hostType observation.hostId = false)
    (rule : NotificationRule) (title summary : String) (now : ℤ) :
    Coherent (Notifications.inhibitChildren
      (countProblem state rule observation title summary none now).2 observation now) := by
  set started := pendingOf state.counters.pendingTransition rule observation title summary now
    with hstarted
  -- an outage is pushed before the children go, so the invariant only holds after both
  have hpushed : ∀ pendings : List PendingTransition,
      pendings.Sublist (state.pendingTransitions ++ [started]) →
      Exclusive EventKey.host EventKey.IsOutage (pendings.map (·.eventKey))
        (openKeys state.incidents) →
      Coherent { state with
        pendingTransitions := pendings
        counters := { state.counters with
          pendingTransition := state.counters.pendingTransition + 1 } } := by
    intro pendings hsub hexclusive
    have hcounted : Counted ((state.pendingTransitions ++ [started]).map (·.id))
        (state.counters.pendingTransition + 1) := by
      simpa [hstarted, pendingOf] using h.pendingTransitions.push
    refine { h with
      pendingTransitions := hcounted.sublist (hsub.map _)
      pending_named := fun pending hpending => ?_
      exclusive := hexclusive }
    obtain hold | hnew := mem_append.mp (hsub.subset hpending)
    · exact h.pending_named pending hold
    · obtain rfl := mem_singleton.mp hnew
      exact eventKeyOf_names _ _ _ _
  unfold Notifications.inhibitChildren
  split
  · rename_i hout
    refine (hpushed _ filter_sublist ?_).cancelWaitingJobs _ _ now
    have hnodup : ((state.pendingTransitions ++ [started]).map (·.eventKey)).Nodup :=
      nodup_map_push h.exclusive.pending_nodup fun old hold hsame =>
        hfresh (mem_map.mpr ⟨old, hold, hsame⟩)
    refine h.exclusive.begin_outage (k := eventKeyFor observation) hclosed ?_
      (hnodup.sublist (filter_sublist.map _)) ?_ hout
    · intro key hkey
      obtain ⟨pending, hpending, rfl⟩ := mem_map.mp hkey
      obtain hold | hnew := mem_append.mp (mem_filter.mp hpending).1
      · exact .inl (mem_map_of_mem hold)
      · exact .inr (mem_singleton.mp hnew ▸ rfl)
    · intro key hkey
      obtain ⟨pending, hpending, rfl⟩ := mem_map.mp hkey
      obtain ⟨hmem, hkept⟩ := mem_filter.mp hpending
      obtain hsame | hother := of_decide_eq_true hkept
      · exact .inl hsame
      · obtain hold | hnew := mem_append.mp hmem
        · right
          intro hhost
          have hnamed := h.pending_named pending hold
          obtain hother | hother := hother
          · exact hother (hnamed.hostType_eq.symm.trans (congrArg Prod.fst hhost))
          · exact hother (hnamed.hostId_eq.symm.trans (congrArg Prod.snd hhost))
        · exact .inl (mem_singleton.mp hnew ▸ rfl)
  · rename_i hchild
    refine hpushed _ (List.Sublist.refl _) ?_
    have hbegun := h.exclusive.begin_child hfresh hclosed hchild
      (h.host_available (havailable hchild))
    rw [map_append]
    exact hbegun

/-- A problem that is neither inhibited nor open is started or counted, and its pending
transition is still there once the children of the host were inhibited. -/
theorem Coherent.countProblem
    {pending : Option PendingTransition}
    (hpending : state.pendingTransitions.find? (fun candidate =>
      candidate.eventKey = eventKeyFor observation) = pending)
    (hclosed : eventKeyFor observation ∉ openKeys state.incidents)
    (havailable : observation.eventType ≠ .hostOffline →
      hostIncidentUnavailable state observation.hostType observation.hostId = false)
    (rule : NotificationRule) (title summary : String) (now : ℤ) :
    Coherent (Notifications.inhibitChildren
      (countProblem state rule observation title summary pending now).2 observation now) ∧
    (countProblem state rule observation title summary pending now).1 ∈
      (Notifications.inhibitChildren
        (countProblem state rule observation title summary pending now).2
        observation now).pendingTransitions := by
  cases pending with
  | none =>
    have hfresh : eventKeyFor observation ∉ state.pendingKeys := by
      rintro hmem
      obtain ⟨old, hold, hsame⟩ := mem_map.mp hmem
      exact find?_eq_none.mp hpending old hold (decide_eq_true hsame)
    refine ⟨h.startPending hfresh hclosed havailable rule title summary now, ?_⟩
    exact mem_inhibitChildren (mem_append_right _ (mem_singleton_self _)) rfl
  | some pending =>
    have hmem := mem_of_find?_eq_some hpending
    have hkey : pending.eventKey = eventKeyFor observation := by
      simpa using find?_some hpending
    refine ⟨(h.countAgain now).inhibitChildren observation now, ?_⟩
    exact mem_inhibitChildren (mem_modifyFirst_of_key h.pendingTransitions.nodup hmem _) hkey

/-! ## What the operations keep -/

/-- A recovery may be sent: the incident, if it is still there, is resolved and its opening was
delivered to the contact point. -/
def Founded (state : NotificationState) (incidentId : ℕ) (contactPointId : PositiveId) : Prop :=
  ∀ incident ∈ state.incidents, incident.id = incidentId →
    incident.state = .resolved ∧ contactPointId ∈ deliveredOpenings state incidentId

/-- The observation is written down: its rule is enabled, it is not a repetition, and its sequence
is new. -/
structure Heard (config : NotificationConfig) (clock : ℤ) (snapshot : NotificationState)
    (observation : Observation) (state : NotificationState) : Prop where
  enabled : (enabledRule (resolveHostNotificationPolicy config observation.hostType
    observation.hostId (observation.observedAt.getD clock)) observation.eventType).isSome
  not_repeated : repeatedObservation snapshot observation = none
  not_replayed : isReplayed observation (state.normalizedStates.find? fun normalized =>
    normalized.eventKey = eventKeyFor observation) = false

/-- The states have the same incidents, jobs and cooldowns. -/
structure Beside (old new : NotificationState) : Prop where
  incidents : new.incidents = old.incidents
  deliveryJobs : new.deliveryJobs = old.deliveryJobs
  cooldowns : new.cooldowns = old.cooldowns
  incidentCounter : new.counters.incident = old.counters.incident
  jobCounter : new.counters.deliveryJob = old.counters.deliveryJob

omit h in
theorem Beside.trans {old mid new : NotificationState} (hold : Beside old mid)
    (hnew : Beside mid new) : Beside old new :=
  ⟨hnew.incidents.trans hold.incidents, hnew.deliveryJobs.trans hold.deliveryJobs,
    hnew.cooldowns.trans hold.cooldowns, hnew.incidentCounter.trans hold.incidentCounter,
    hnew.jobCounter.trans hold.jobCounter⟩

/-- The incident is open and was not acknowledged. -/
def Incident.IsRemindable (incident : Incident) : Prop :=
  incident.state = .opened ∧ incident.acknowledgedAt = none

/-- **A property of coherent states that the changes keep which the operations are made of**, of
the incidents only those being resolved that may be. -/
structure Keeps (now : ℤ) (resolves : NotificationState → Incident → Prop)
    (P : NotificationState → Prop) : Prop where
  coherent : ∀ {state}, P state → Coherent state
  beside : ∀ {old new}, P old → Beside old new → Coherent new → P new
  promote : ∀ {state} pending rule, P state →
    let opened := addTransition (promotePending state rule pending now) state.counters.incident
      .pending .opened "debounce-satisfied" now
    Coherent opened → P opened
  resolve : ∀ {state incident}, P state → incident ∈ state.incidents →
    incident.state = .opened → resolves state incident →
    let resolved := closeIncident state incident .resolved "healthy-observation" now
    Coherent resolved → P resolved
  remind : ∀ {state} incidentId, P state →
    let reminded := { state with
      incidents := modifyFirst (fun candidate => candidate.id = incidentId)
        (fun incident => { incident with lastReminderAt := some now, updatedAt := now })
        state.incidents }
    Coherent reminded → P reminded
  queue : ∀ {state} config incident rule kind occurrence recipientIds, P state →
    (kind = .opening → incident ∈ state.incidents) →
    (kind = .recovery → ∃ ids, recipientIds = some ids ∧ ∀ id ∈ ids, Founded state incident.id id) →
    (kind = .reminder → ∀ other ∈ state.incidents, other.id = incident.id → other.IsRemindable) →
    let queued := queueJobs state config incident rule kind now occurrence recipientIds
    Coherent queued → P queued
  restore : ∀ {state incident} config rule, P state → incident ∈ state.incidents →
    let restored := (restoreCancelledOpeningJobs state config incident rule now).2
    Coherent restored → P restored

omit h in
theorem keeps_coherent (now : ℤ) : Keeps now (fun _ _ => True) Coherent where
  coherent h := h
  beside _ _ h := h
  promote _ _ _ h := h
  resolve _ _ _ _ h := h
  remind _ _ h := h
  queue _ _ _ _ _ _ _ _ _ _ h := h
  restore _ _ _ _ h := h

omit h in
theorem dropPending_beside (state : NotificationState) (pending : Option PendingTransition) :
    Beside state ((pending.map (removePending state)).getD state) := by
  cases pending <;> exact ⟨rfl, rfl, rfl, rfl, rfl⟩

omit h in
theorem countProblem_beside (state : NotificationState) (rule : NotificationRule)
    (observation : Observation) (title summary : String) (pending : Option PendingTransition)
    (now : ℤ) : Beside state (countProblem state rule observation title summary pending now).2 := by
  cases pending <;> exact ⟨rfl, rfl, rfl, rfl, rfl⟩

omit h in
theorem normalizedStateFor_beside (state : NotificationState) (observation : Observation)
    (now : ℤ) : Beside state (normalizedStateFor state observation now).2 := by
  simp only [normalizedStateFor]
  split <;> exact ⟨rfl, rfl, rfl, rfl, rfl⟩

variable {incident : Incident}

/-- After an incident was resolved, recoveries are founded for the recipients of its opening. -/
theorem founded_of_resolved (hmem : incident ∈ state.incidents)
    (hresolved : incident.state = .resolved) {id : PositiveId}
    (hid : id ∈ deliveredOpenings state incident.id) : Founded state incident.id id := by
  intro other hother hsame
  obtain rfl := h.eq_of_id hother hmem hsame
  exact ⟨hresolved, hid⟩

/-- Splicing out or opening a pending transition leaves the others pending. -/
theorem Coherent.others_pending {pending other : PendingTransition}
    (hmem : pending ∈ state.pendingTransitions) (hother : other ∈ state.pendingTransitions)
    (hid : other.id ≠ pending.id) (rule : NotificationRule) (now : ℤ) :
    other ∈ (Notifications.promotePending state rule pending now).pendingTransitions := by
  have hkept := (h.mem_removePending hmem).mpr ⟨hother, hid⟩
  simp only [Notifications.promotePending]
  split
  · rename_i hout
    -- the children of a host with a pending outage are gone already
    refine mem_filter.mpr ⟨hkept, decide_eq_true ?_⟩
    by_cases htype : other.hostType = pending.hostType
    · by_cases hhost : other.hostId = pending.hostId
      · have hnamed := h.pending_named pending hmem
        have hothers := h.pending_named other hother
        have houtage : other.eventKey.IsOutage :=
          h.exclusive.outage_of_pending (mem_map_of_mem hmem)
            (hnamed.eventType_eq.trans hout) (mem_map_of_mem hother)
            (Prod.ext (hothers.hostType_eq.trans (htype.trans hnamed.hostType_eq.symm))
              (hothers.hostId_eq.trans (hhost.trans hnamed.hostId_eq.symm)))
        exact .inr (.inr (hothers.eventType_eq.symm.trans houtage))
      · exact .inr (.inl hhost)
    · exact .inl htype
  · exact hkept

omit h

section Operations

variable {resolves : NotificationState → Incident → Prop} {P : NotificationState → Prop}
  (hP : Keeps now resolves P)
include hP

/-! ## Observations -/

theorem Keeps.openFromPending (h : P state) (hmem : pending ∈ state.pendingTransitions)
    (config : NotificationConfig) (policy : HostPolicy) (rule : NotificationRule) :
    P (openFromPending state config policy rule pending now).2 := by
  have hcoherent := (hP.coherent h).promotePending hmem rule now "debounce-satisfied"
  have hpromoted := hP.promote pending rule h hcoherent
  simp only [Notifications.openFromPending]
  split
  · have hincident : incidentOf state.counters.incident rule pending now ∈ (addTransition
        (promotePending state rule pending now) state.counters.incident .pending .opened
        "debounce-satisfied" now).incidents := by
      rw [addTransition, promotePending_incidents]
      exact mem_append_right _ (mem_singleton_self _)
    exact hP.queue config _ rule .opening none none hpromoted (fun _ => hincident)
      (fun hkind => by cases hkind) (fun hkind => by cases hkind)
      (hcoherent.queueJobs (mem_map_of_mem hincident) config rule .opening now none none)
  · exact hpromoted

theorem Keeps.observeClear (h : P state) {incident : Option Incident}
    (hincident : ∀ i, incident = some i → i ∈ state.incidents ∧ i.state = .opened ∧
      ∀ {draft}, observation.state = .healthy → Beside state draft → resolves draft i)
    (config : NotificationConfig) (rule : NotificationRule)
    (previousState : Health) (pending : Option PendingTransition) :
    P (observeClear state config rule observation previousState pending incident now).2 := by
  have hdropped := hP.beside h (dropPending_beside state pending)
    ((hP.coherent h).dropPending pending)
  simp only [Notifications.observeClear]
  split
  · rename_i incident
    obtain ⟨hmem, hopened, hresolves⟩ := hincident incident rfl
    have hmem : incident ∈ ((pending.map (removePending state)).getD state).incidents :=
      (dropPending_beside state pending).incidents.symm ▸ hmem
    have hcoherent := (hP.coherent hdropped).closeIncident hmem hopened (.inl rfl)
      "healthy-observation" now
    split
    · rename_i hhealthy
      have hclosed := hP.resolve hdropped hmem hopened 
        (hresolves hhealthy (dropPending_beside state pending)) hcoherent
      dsimp only
      split
      · exact hclosed
      · refine hP.queue config incident rule .recovery none _ hclosed nofun
          (fun _ => ⟨_, rfl, fun id hid => ?_⟩) nofun
          (hcoherent.queueJobs ?_ config rule .recovery now none _)
        · -- the closed incident is the one in the list
          have hthere := mem_modifyFirst_of_key (hP.coherent hdropped).incidents.nodup hmem
            fun incident => { incident with
              state := .resolved
              resolvedAt := if IncidentState.resolved = .resolved then some now
                else incident.resolvedAt
              updatedAt := now }
          exact founded_of_resolved hcoherent hthere rfl hid
        · rw [closeIncident_ids]
          exact mem_map_of_mem hmem
    · exact hdropped
  · exact hdropped

/-- A recorded observation keeps what inhibiting the children of the host keeps. -/
theorem Keeps.decideObservation (h : P state)
    (hcounts : ∀ {counted : NotificationState}, observation.state = .problem →
      Beside state counted → eventKeyFor observation ∉ openKeys counted.incidents →
      Coherent (inhibitChildren counted observation now) →
      P (inhibitChildren counted observation now))
    (hresolves : ∀ {draft} {incident : Incident}, observation.state = .healthy →
      Beside state draft → incident ∈ state.incidents →
      incident.eventKey = eventKeyFor observation → resolves draft incident)
    (rule : NotificationRule)
    (config : NotificationConfig) (policy : HostPolicy) (previousState : Health)
    (title summary : String) :
    P (decideObservation state config policy rule observation previousState title summary now).2 := by
  have hopen : ∀ incident, (state.incidents.find? fun candidate =>
      candidate.eventKey = eventKeyFor observation ∧ candidate.state = .opened) = some incident →
      incident ∈ state.incidents ∧ incident.state = .opened ∧
        ∀ {draft}, observation.state = .healthy → Beside state draft → resolves draft incident := by
    intro incident hfind
    have hkept := find?_some hfind
    obtain ⟨hkey, hopened⟩ := of_decide_eq_true hkept
    have hmem := mem_of_find?_eq_some hfind
    exact ⟨hmem, hopened, fun hhealthy hbeside => hresolves hhealthy hbeside hmem hkey⟩
  simp only [Notifications.decideObservation]
  cases hstate : observation.state with
  | healthy => exact hP.observeClear h hopen config rule previousState _
  | unknown => exact hP.observeClear h hopen config rule previousState _
  | problem =>
    simp only [observeProblem]
    split
    · exact hP.beside h (dropPending_beside state _) ((hP.coherent h).dropPending _)
    rename_i hnot
    split
    · exact h
    · rename_i hnone
      have havailable : observation.eventType ≠ .hostOffline →
          hostIncidentUnavailable state observation.hostType observation.hostId = false :=
        fun hchild => Bool.eq_false_iff.mpr fun hout => hnot ⟨hchild, hout⟩
      have hclosed : eventKeyFor observation ∉ openKeys state.incidents := by
        intro hopen
        obtain ⟨incident, hmem, hopened, hkey⟩ := mem_openKeys.mp hopen
        exact find?_eq_none.mp hnone incident hmem (decide_eq_true ⟨hkey, hopened⟩)
      obtain ⟨hcoherent, hmem⟩ :=
        (hP.coherent h).countProblem rfl hclosed havailable rule title summary now
      have hbeside := countProblem_beside state rule observation title summary
        (state.pendingTransitions.find? fun candidate =>
          candidate.eventKey = eventKeyFor observation) now
      have hcounted := hcounts hstate hbeside (hbeside.incidents ▸ hclosed) hcoherent
      split
      · exact hcounted
      · exact hP.openFromPending hcounted hmem config policy rule

omit hP in
/-- **An observation keeps what inhibiting the children of the host keeps.** -/
theorem Keeps.observe {clock : ℤ} (hP : Keeps (observation.observedAt.getD clock) resolves P)
    (h : P state) {config : NotificationConfig} {snapshot : NotificationState}
    (hcounts : ∀ {counted : NotificationState}, Heard config clock snapshot observation state →
      observation.state = .problem → Beside state counted →
      eventKeyFor observation ∉ openKeys counted.incidents →
      Coherent (inhibitChildren counted observation (observation.observedAt.getD clock)) →
      P (inhibitChildren counted observation (observation.observedAt.getD clock)))
    (hresolves : ∀ {draft} {incident : Incident}, Heard config clock snapshot observation state →
      observation.state = .healthy → Beside state draft → incident ∈ state.incidents →
      incident.eventKey = eventKeyFor observation → resolves draft incident) :
    P (observe config clock snapshot observation state).2 := by
  simp only [Notifications.observe]
  split
  · exact h
  rename_i rule hrule
  split
  · exact h
  rename_i hrepeated
  set now := observation.observedAt.getD clock
  have hseen : Coherent { state with lastEvaluatedAt := some now } := { hP.coherent h with }
  simp only [observeDraft]
  split
  · exact hP.beside h ⟨rfl, rfl, rfl, rfl, rfl⟩ hseen
  · rename_i hreplayed
    have hheard : Heard config clock snapshot observation state :=
      ⟨Option.isSome_iff_exists.mpr ⟨rule, hrule⟩, hrepeated, Bool.eq_false_iff.mpr hreplayed⟩
    have hbeside := normalizedStateFor_beside { state with lastEvaluatedAt := some now }
      observation now
    have hbeside : ∀ title summary, Beside state (recordObservation (normalizedStateFor
        { state with lastEvaluatedAt := some now } observation now).2 observation title summary
          now) := fun _ _ => { hbeside with }
    refine hP.decideObservation (hP.beside h (hbeside _ _) ?_) (fun hproblem hcounted =>
      hcounts hheard hproblem ((hbeside _ _).trans hcounted))
      (fun hhealthy hdraft hmem => hresolves hheard hhealthy ((hbeside _ _).trans hdraft)
        ((hbeside _ _).incidents ▸ hmem)) rule config _ _ _ _
    exact (hseen.normalizedStateFor observation now).recordObservation observation _ _ now

/-! ## Pending transitions that are due -/

theorem Keeps.evaluatePendingOne {opened : List ℕ × NotificationState} (h : P opened.2)
    (hmem : pending ∈ opened.2.pendingTransitions) (config : NotificationConfig) :
    P (evaluatePendingOne config now opened pending).2 := by
  have hdropped : P (removePending opened.2 pending) :=
    hP.beside h ⟨rfl, rfl, rfl, rfl, rfl⟩ ((hP.coherent h).removePending pending)
  simp only [Notifications.evaluatePendingOne]
  split
  · exact h
  split
  · exact hdropped
  split
  · exact hdropped
  · rename_i rule _ _
    have hopened := hP.openFromPending h hmem config
      (resolveHostNotificationPolicy config pending.hostType pending.hostId now) rule
    split <;> rename_i hresult <;> rw [hresult] at hopened <;> exact hopened

omit hP in
/-- Deciding one pending transition keeps the invariant and the other pending transitions. -/
theorem evaluatePendingOne_spec {opened : List ℕ × NotificationState} (h : Coherent opened.2)
    (hmem : pending ∈ opened.2.pendingTransitions) (config : NotificationConfig) (now : ℤ) :
    Coherent (evaluatePendingOne config now opened pending).2 ∧
      ∀ other ∈ opened.2.pendingTransitions, other.id ≠ pending.id →
        other ∈ (evaluatePendingOne config now opened pending).2.pendingTransitions := by
  refine ⟨(keeps_coherent now).evaluatePendingOne h hmem config, fun other hother hid => ?_⟩
  have hdropped : other ∈ (removePending opened.2 pending).pendingTransitions :=
    (h.mem_removePending hmem).mpr ⟨hother, hid⟩
  simp only [evaluatePendingOne]
  split
  · exact hother
  split
  · exact hdropped
  split
  · exact hdropped
  · rename_i rule _ _
    have hkept := h.others_pending hmem hother hid rule now
    rw [← (openFromPending_same _ config
      (resolveHostNotificationPolicy config pending.hostType pending.hostId now) ..).1] at hkept
    split <;> rename_i hresult <;> rw [hresult] at hkept <;> exact hkept

omit hP in
/-- The loop over the pending transitions keeps the invariant, and what its turns keep. -/
theorem Coherent.foldl_pending (h : Coherent state)
    (config : NotificationConfig) (now : ℤ) {P : List ℕ × NotificationState → Prop}
    (hstart : P ([], state))
    (hturn : ∀ (opened : List ℕ × NotificationState) (pending : PendingTransition),
      Coherent opened.2 → pending ∈ opened.2.pendingTransitions → P opened →
        P (evaluatePendingOne config now opened pending)) :
    P (state.pendingTransitions.foldl (evaluatePendingOne config now) ([], state)) := by
  -- the loop runs over a copy: what is left of it stays pending in the draft
  have hloop : ∀ (pendings : List PendingTransition) (opened : List ℕ × NotificationState),
      Coherent opened.2 → P opened → (pendings.map (·.id)).Nodup →
      (∀ pending ∈ pendings, pending ∈ opened.2.pendingTransitions) →
      P (pendings.foldl (evaluatePendingOne config now) opened) := by
    intro pendings
    induction pendings with
    | nil => exact fun opened _ hP _ _ => hP
    | cons pending rest ih =>
      intro opened hopened hP hnodup hsub
      obtain ⟨hfresh, hnodup⟩ := nodup_cons.mp hnodup
      have hmem := hsub pending mem_cons_self
      obtain ⟨hnext, hkept⟩ := evaluatePendingOne_spec hopened hmem config now
      refine ih _ hnext (hturn opened pending hopened hmem hP) hnodup fun other hother => ?_
      refine hkept other (hsub other (mem_cons_of_mem pending hother)) fun hid => ?_
      exact hfresh (mem_map.mpr ⟨other, hother, hid⟩)
  exact hloop state.pendingTransitions ([], state) h hstart h.pendingTransitions.nodup
    fun _ hmem => hmem

theorem Keeps.evaluatePending (h : P state) (config : NotificationConfig)
    (snapshot : NotificationState) : P (evaluatePending config now snapshot state).2 := by
  simp only [Notifications.evaluatePending]
  split
  · have hrun := (hP.coherent h).foldl_pending config now (P := fun opened => P opened.2) h
      fun _ _ _ hmem hopened => hP.evaluatePendingOne hopened hmem config
    exact hP.beside hrun ⟨rfl, rfl, rfl, rfl, rfl⟩ { hP.coherent hrun with }
  · exact h

/-! ## Reminders, openings and recoveries -/

omit hP in
/-- A loop over the incidents whose turns keep a property and what the incidents are. -/
theorem foldl_incidents {ρ β : Type} {turn : ρ × NotificationState → Incident → ρ × NotificationState}
    (start : ρ) (face : Incident → β) (h : P state)
    (hturn : ∀ (acc : ρ × NotificationState) (incident : Incident), P acc.2 →
      face incident ∈ acc.2.incidents.map face →
      P (turn acc incident).2 ∧
        (turn acc incident).2.incidents.map face = acc.2.incidents.map face) :
    P (state.incidents.foldl turn (start, state)).2 := by
  refine (List.foldlRecOn
    (motive := fun acc : ρ × NotificationState =>
      P acc.2 ∧ acc.2.incidents.map face = state.incidents.map face)
    state.incidents turn (b := (start, state)) ⟨h, rfl⟩ ?_).1
  rintro acc ⟨hacc, hsame⟩ incident hmem
  obtain ⟨hnext, hkept⟩ := hturn acc incident hacc (hsame ▸ mem_map_of_mem hmem)
  exact ⟨hnext, hkept.trans hsame⟩

omit hP in
theorem queueJobs_incidents (state : NotificationState) (config : NotificationConfig)
    (incident : Incident) (rule : NotificationRule) (kind : DeliveryKind) (now : ℤ)
    (occurrence : Option ℤ) (recipientIds : Option (List PositiveId)) :
    (queueJobs state config incident rule kind now occurrence recipientIds).incidents =
      state.incidents := by
  obtain ⟨added, next, heq, -⟩ :=
    queueJobs_pushes state config incident rule kind now occurrence recipientIds
  rw [heq]

variable {acc : List ℕ × NotificationState}

/-- What of an incident its reminders depend on. -/
def Incident.progress (incident : Incident) : ℕ × IncidentState × Option ℤ :=
  (incident.id, incident.state, incident.acknowledgedAt)

omit hP in
theorem isRemindable_of_dueReminder {config : NotificationConfig} {rule : NotificationRule}
    (h : dueReminder config now state incident = some rule) : incident.IsRemindable := by
  unfold dueReminder at h
  split at h
  · exact nomatch h
  · rename_i hopen
    rwa [not_or, not_not, Bool.not_eq_true, Option.isSome_eq_false_iff, Option.isNone_iff_eq_none]
      at hopen

/-- A turn of the loop over reminders. -/
theorem Keeps.evaluateReminder (h : P acc.2)
    (hmem : incident.progress ∈ acc.2.incidents.map (·.progress)) (config : NotificationConfig) :
    P (evaluateReminder config now acc incident).2 ∧
      (evaluateReminder config now acc incident).2.incidents.map (·.progress)
        = acc.2.incidents.map (·.progress) := by
  obtain ⟨same, hthere, hprogress⟩ := mem_map.mp hmem
  simp only [Incident.progress, Prod.mk.injEq] at hprogress
  obtain ⟨hid, hstate, hacknowledged⟩ := hprogress
  simp only [Notifications.evaluateReminder]
  split
  · exact ⟨h, rfl⟩
  · rename_i rule hrule
    have hcoherent := (hP.coherent h).queueJobs (mem_map.mpr ⟨same, hthere, hid⟩) config rule
      .reminder now (some now) none
    have hremindable : ∀ other ∈ acc.2.incidents, other.id = incident.id → other.IsRemindable := by
      intro other hother hsame
      obtain rfl := (hP.coherent h).eq_of_id hother hthere (hsame.trans hid.symm)
      obtain ⟨hopened, hnever⟩ := isRemindable_of_dueReminder hrule
      exact ⟨hstate.trans hopened, hacknowledged.trans hnever⟩
    have hqueued := hP.queue config incident rule .reminder (some now) none h nofun nofun
      (fun _ => hremindable) hcoherent
    have hsame := queueJobs_incidents acc.2 config incident rule .reminder now (some now) none
    split
    · exact ⟨hqueued, congrArg _ hsame⟩
    · refine ⟨hP.remind incident.id hqueued (hcoherent.modifyIncident fun _ => rfl), ?_⟩
      rw [map_modifyFirst, hsame]
      intros
      rfl

theorem Keeps.evaluateReminders (h : P state) (config : NotificationConfig)
    (snapshot : NotificationState) : P (evaluateReminders config now snapshot state).2 := by
  simp only [Notifications.evaluateReminders]
  split
  · exact foldl_incidents [] (·.progress) h fun _ _ hacc hmem =>
      hP.evaluateReminder hacc hmem config
  · exact h

theorem Keeps.evaluateSuppressedOpening (h : P acc.2) (hmem : incident ∈ acc.2.incidents)
    (config : NotificationConfig) :
    P (evaluateSuppressedOpening config now acc incident).2 ∧
      (evaluateSuppressedOpening config now acc incident).2.incidents = acc.2.incidents := by
  simp only [Notifications.evaluateSuppressedOpening]
  split
  · exact ⟨h, rfl⟩
  · rename_i rule _
    obtain ⟨hcoherent, hincidents⟩ :=
      restoreCancelledOpeningJobs_spec (hP.coherent h) config incident rule now
    have hrestored := hP.restore config rule h hmem hcoherent
    have hmem := hincidents ▸ hmem
    have hqueued := hP.queue config incident rule .opening none none hrestored (fun _ => hmem) nofun
      nofun (hcoherent.queueJobs (mem_map_of_mem hmem) config rule .opening now none none)
    split <;> exact ⟨hqueued, (queueJobs_incidents ..).trans hincidents⟩

theorem Keeps.evaluateSuppressedOpenings (h : P state) (config : NotificationConfig)
    (snapshot : NotificationState) :
    P (evaluateSuppressedOpenings config now snapshot state).2 := by
  simp only [Notifications.evaluateSuppressedOpenings]
  split
  · refine foldl_incidents [] id h fun _ _ hacc hmem => ?_
    simpa using hP.evaluateSuppressedOpening hacc (by simpa using hmem) config
  · exact h

omit hP in
theorem state_of_recoveryRule {config : NotificationConfig} {rule : NotificationRule}
    (h : recoveryRule config now incident = some rule) : incident.state = .resolved := by
  by_contra hne
  rw [recoveryRule, if_pos hne] at h
  exact nomatch h

theorem Keeps.evaluateRecovery (h : P acc.2) (hmem : incident ∈ acc.2.incidents)
    (config : NotificationConfig) :
    P (evaluateRecovery config now acc incident).2 ∧
      (evaluateRecovery config now acc incident).2.incidents = acc.2.incidents := by
  simp only [Notifications.evaluateRecovery]
  split
  · exact ⟨h, rfl⟩
  · rename_i rule hrule
    split
    · exact ⟨h, rfl⟩
    · have hqueued := hP.queue config incident rule .recovery none (some ((deliveredOpenings acc.2
          incident.id).filter fun id => !((recoveredRecipients acc.2 incident.id).contains id))) h
        nofun (fun _ => ⟨_, rfl, fun id hid => founded_of_resolved (hP.coherent h) hmem
          (state_of_recoveryRule hrule) (mem_filter.mp hid).1⟩) nofun
        ((hP.coherent h).queueJobs (mem_map_of_mem hmem) config rule .recovery now none _)
      split <;> exact ⟨hqueued, queueJobs_incidents ..⟩

theorem Keeps.evaluateRecoveries (h : P state) (config : NotificationConfig)
    (snapshot : NotificationState) : P (evaluateRecoveries config now snapshot state).2 := by
  simp only [Notifications.evaluateRecoveries]
  split
  · refine foldl_incidents [] id h fun _ _ hacc hmem => ?_
    simpa using hP.evaluateRecovery hacc (by simpa using hmem) config
  · exact h

end Operations

include h

/-! ## Disconnected hosts, changed policies, acknowledgements -/

omit h in
theorem mem_closeIncident {incident other : Incident} (hother : other ∈ state.incidents)
    (hid : other.id ≠ incident.id) (target : IncidentState) (reason : String) (now : ℤ) :
    other ∈ (closeIncident state incident target reason now).incidents :=
  mem_modifyFirst_of_not hother (decide_eq_false hid)

/-- Cancelling incidents keeps the invariant, and what closing an open incident keeps. -/
theorem Coherent.cancelIncidents_spec
    (p : Incident → Bool) (reason : String) (now : ℤ) {P : NotificationState → Prop}
    (hstart : P state)
    (hclose : ∀ (draft : NotificationState) (incident : Incident), Coherent draft →
      incident ∈ state.incidents → p incident = true → incident ∈ draft.incidents →
        incident.state = .opened → P draft →
        P (Notifications.closeIncident draft incident .cancelled reason now)) :
    Coherent (cancelIncidents state p reason now) ∧ P (cancelIncidents state p reason now) := by
  have hloop : ∀ (incidents : List Incident) (draft : NotificationState), Coherent draft → P draft →
      (incidents.map (·.id)).Nodup →
      (∀ incident ∈ incidents, incident ∈ state.incidents ∧ incident ∈ draft.incidents) →
      let final := incidents.foldl
        (fun draft incident =>
          if p incident && decide (incident.state = .opened) then
            Notifications.closeIncident draft incident .cancelled reason now
          else draft) draft
      Coherent final ∧ P final := by
    intro incidents
    induction incidents with
    | nil => exact fun draft hdraft hP _ _ => ⟨hdraft, hP⟩
    | cons incident rest ih =>
      intro draft hdraft hP hnodup hsub
      obtain ⟨hfresh, hnodup⟩ := nodup_cons.mp hnodup
      obtain ⟨hstart, hmem⟩ := hsub incident mem_cons_self
      have hrest : ∀ other ∈ rest, other ∈ state.incidents ∧ other ∈ draft.incidents ∧
          other.id ≠ incident.id := fun other hother =>
        have hboth := hsub other (mem_cons_of_mem incident hother)
        ⟨hboth.1, hboth.2, fun hid => hfresh (mem_map.mpr ⟨other, hother, hid⟩)⟩
      rw [foldl_cons]
      split
      · rename_i hcancel
        obtain ⟨hp, hopened⟩ := Bool.and_eq_true_iff.mp hcancel
        have hopened : incident.state = .opened := of_decide_eq_true hopened
        refine ih _ (hdraft.closeIncident hmem hopened (.inr rfl) reason now)
          (hclose draft incident hdraft hstart hp hmem hopened hP) hnodup fun other hother => ?_
        obtain ⟨hother, hold, hid⟩ := hrest other hother
        exact ⟨hother, mem_closeIncident hold hid .cancelled reason now⟩
      · exact ih _ hdraft hP hnodup fun other hother =>
          ⟨(hrest other hother).1, (hrest other hother).2.1⟩
  exact hloop state.incidents state h hstart h.incidents.nodup fun _ hmem => ⟨hmem, hmem⟩

theorem Coherent.cancelIncidents (p : Incident → Bool) (reason : String) (now : ℤ) :
    Coherent (cancelIncidents state p reason now) :=
  (h.cancelIncidents_spec p reason now (P := fun _ => True) trivial
    fun _ _ _ _ _ _ _ _ => trivial).1

/-- Pending transitions, normalized states and cooldowns may be filtered. -/
theorem Coherent.filterRecords {pendings : List PendingTransition}
    {normalized : List NormalizedState} {cooldowns : List Cooldown}
    {cursors : List EvaluationCursor} (hpendings : pendings.Sublist state.pendingTransitions)
    (hnormalized : normalized.Sublist state.normalizedStates)
    (hcooldowns : cooldowns.Sublist state.cooldowns)
    (hcursors : cursors.Sublist state.evaluationCursors) :
    Coherent { state with
      pendingTransitions := pendings
      normalizedStates := normalized
      evaluationCursors := cursors
      cooldowns := cooldowns } :=
  { h.setPending hpendings with
    normalizedStates := h.normalizedStates.sublist (hnormalized.map _)
    cooldowns := h.cooldowns.sublist (hcooldowns.map _)
    evaluationCursors := h.evaluationCursors.sublist (hcursors.map _)
    cursorHosts := h.cursorHosts.sublist (hcursors.map _) }

theorem Coherent.cancelHost (hostType : HostType) (hostId : PositiveId) (reason : String)
    (now : ℤ) : Coherent (cancelHost hostType hostId reason now state) := by
  refine Coherent.cancelWaitingJobs (Coherent.cancelIncidents ?_ _ reason now) _ _ now
  exact h.filterRecords filter_sublist filter_sublist filter_sublist
    filter_sublist

theorem Coherent.reconcilePolicies (config : NotificationConfig) (scope : PolicyScope)
    (reason : String) (now : ℤ) (snapshot : NotificationState) :
    Coherent (reconcilePolicies config scope reason now snapshot state).2 := by
  simp only [Notifications.reconcilePolicies]
  split
  · refine Coherent.cancelWaitingJobs (Coherent.cancelIncidents ?_ _ reason now) _ _ now
    exact h.filterRecords filter_sublist filter_sublist filter_sublist (.refl _)
  · exact h

theorem Coherent.acknowledge {incidentId : ℕ} {actor : Option ℕ}
    {result : Incident × NotificationState}
    (hrun : acknowledge incidentId actor now state = .ok result) : Coherent result.2 := by
  simp only [Notifications.acknowledge] at hrun
  split at hrun
  · exact nomatch hrun
  rename_i incident hfind
  split at hrun
  · obtain rfl := Except.ok.inj hrun
    exact h
  · obtain rfl := Except.ok.inj hrun
    have hmem : incidentId ∈ state.incidents.map (·.id) := by
      have hid : incident.id = incidentId := by simpa using find?_some hfind
      exact hid ▸ mem_map_of_mem (mem_of_find?_eq_some hfind)
    have hmarked := h.modifyIncident (p := fun candidate => candidate.id = incidentId)
      (f := fun incident => { incident with
        acknowledgedAt := some now
        acknowledgedBy := actor
        updatedAt := now }) fun _ => rfl
    refine { hmarked with acknowledgements := ?_, acknowledgement_known := ?_ }
    · simpa using h.acknowledgements.push
    · intro acknowledgement hack
      rw [map_modifyFirst (fun _ _ => by rfl)]
      obtain hack | hack := mem_append.mp hack
      · exact h.acknowledgement_known acknowledgement hack
      · obtain rfl := mem_singleton.mp hack
        exact hmem

/-! ## Deliveries -/

omit h in
theorem face_expireLease (now : ℤ) (job : DeliveryJob) : (expireLease now job).face = job.face := by
  unfold expireLease
  split <;> rfl

theorem Coherent.leaseNext (workerId : String) (now : ℤ) (snapshot : NotificationState) :
    Coherent (leaseNext workerId now snapshot state).2 := by
  have hexpired := h.mapJobs (face_expireLease now)
  simp only [Notifications.leaseNext]
  split
  · split
    · exact hexpired
    · exact hexpired.modifyJobs fun _ => rfl
  · exact h

theorem Coherent.modifyJob (jobId : ℕ) {f : DeliveryJob → DeliveryJob}
    (hf : ∀ job, (f job).face = job.face) : Coherent (modifyJob state jobId f) :=
  h.modifyJobs hf

variable {jobId : ℕ}

omit h in
theorem mem_of_heldJob {workerId : String} {job : DeliveryJob}
    (hheld : heldJob workerId jobId state = some job) :
    job ∈ state.deliveryJobs ∧ job.id = jobId ∧ job.leaseOwner = some workerId := by
  obtain ⟨hfind, howner⟩ := Option.filter_eq_some_iff.mp hheld
  exact ⟨mem_of_find?_eq_some hfind, by simpa using find?_some hfind,
    of_decide_eq_true howner⟩

theorem Coherent.noteOpening (config : NotificationConfig) (job : DeliveryJob) (now : ℤ) :
    Coherent (noteOpening config job now state) := by
  have hmarked := h.modifyIncident (p := fun candidate => candidate.id = job.incidentId)
    (f := fun incident => { incident with
      notificationDeliveredAt := incident.notificationDeliveredAt <|> some now
      updatedAt := now }) fun _ => rfl
  simp only [Notifications.noteOpening]
  split
  · exact h
  split
  · exact h
  split
  · exact hmarked
  split
  · exact hmarked.startCooldown _ _ _ now
  · exact hmarked

theorem Coherent.settleJob (hjob : jobId ∈ state.deliveryJobs.map (·.id))
    {f : DeliveryJob → DeliveryJob} (hf : ∀ job, (f job).face = job.face) (attempt : ℕ)
    (attemptState : AttemptState) (status : Option ℕ) (responseExcerpt error : Option String)
    (now : ℤ) :
    Coherent (Notifications.addAttempt (Notifications.modifyJob state jobId f) jobId attempt
      attemptState status responseExcerpt error now) := by
  refine (h.modifyJob jobId hf).addAttempt ?_ attempt attemptState status responseExcerpt error now
  have hids : (Notifications.modifyJob state jobId f).deliveryJobs.map (·.id)
      = state.deliveryJobs.map (·.id) :=
    map_modifyFirst (fun job _ => congrArg (fun face => face.1) (hf job)) _
  exact hids ▸ hjob

theorem Coherent.succeed (workerId : String) (config : NotificationConfig) (jobId : ℕ)
    (result : DeliveryResult) (now : ℤ) :
    Coherent (succeed workerId config jobId result now state) := by
  simp only [Notifications.succeed]
  split
  · exact h
  · rename_i job hheld
    obtain ⟨hmem, hid, -⟩ := mem_of_heldJob hheld
    refine (h.settleJob (mem_map.mpr ⟨job, hmem, hid⟩) ?_ _ _ _ _ _ now).noteOpening config
      job now
    exact fun _ => rfl

theorem Coherent.fail (workerId : String) (jobId : ℕ) (message : String) (now : ℤ) :
    Coherent (fail workerId jobId message now state) := by
  simp only [Notifications.fail]
  split
  · exact h
  · rename_i job hheld
    obtain ⟨hmem, hid, -⟩ := mem_of_heldJob hheld
    refine h.settleJob (mem_map.mpr ⟨job, hmem, hid⟩) ?_ _ _ _ _ _ now
    exact fun _ => rfl

theorem Coherent.defer (workerId : String) (jobId : ℕ) (mutedUntil : Option ℤ) (now : ℤ) :
    Coherent (defer workerId jobId mutedUntil now state) := by
  simp only [Notifications.defer]
  split
  · exact h
  · exact h.modifyJob jobId fun _ => rfl

theorem Coherent.retry {result : DeliveryJob × NotificationState}
    (hrun : retry jobId now state = .ok result) : Coherent result.2 := by
  simp only [Notifications.retry] at hrun
  split at hrun
  · exact nomatch hrun
  split at hrun
  · exact nomatch hrun
  · obtain rfl := Except.ok.inj hrun
    exact h.modifyJob jobId fun _ => rfl

/-! ## Retention -/

/-- Incidents go, with everything that refers to them. -/
theorem Coherent.prune (removed : List ℕ)
    {attempts : List DeliveryAttempt} {cooldowns : List Cooldown}
    (hattempts : attempts.Sublist state.deliveryAttempts)
    (hjobs : ∀ attempt ∈ attempts, attempt.deliveryJobId ∉
      (state.deliveryJobs.filter fun job => removed.contains job.incidentId).map (·.id))
    (hcooldowns : cooldowns.Sublist state.cooldowns) :
    Coherent { state with
      incidents := state.incidents.filter fun incident => !(removed.contains incident.id)
      transitions := state.transitions.filter fun transition =>
        !(removed.contains transition.incidentId)
      acknowledgements := state.acknowledgements.filter fun acknowledgement =>
        !(removed.contains acknowledgement.incidentId)
      deliveryJobs := state.deliveryJobs.filter fun job => !(removed.contains job.incidentId)
      deliveryAttempts := attempts
      cooldowns := cooldowns } := by
  have hkept : ∀ id, id ∈ state.incidents.map (·.id) → (!(removed.contains id)) = true →
      id ∈ (state.incidents.filter fun incident => !(removed.contains incident.id)).map (·.id) := by
    intro id hid hstays
    obtain ⟨incident, hmem, rfl⟩ := mem_map.mp hid
    exact mem_map_of_mem (mem_filter.mpr ⟨hmem, hstays⟩)
  refine { h with
    incidents := h.incidents.sublist (filter_sublist.map _)
    transitions := h.transitions.sublist (filter_sublist.map _)
    acknowledgements := h.acknowledgements.sublist (filter_sublist.map _)
    deliveryJobs := h.deliveryJobs.sublist (filter_sublist.map _)
    deliveryAttempts := h.deliveryAttempts.sublist (hattempts.map _)
    cooldowns := h.cooldowns.sublist (hcooldowns.map _)
    incident_named := fun incident hmem => h.incident_named incident (mem_filter.mp hmem).1
    exclusive := h.exclusive.sublist (List.Sublist.refl _) ((filter_sublist.filter _).map _)
    history := ⟨?_, fun incident hmem => h.history.started incident (mem_filter.mp hmem).1, ?_⟩
    acknowledgement_known := ?_
    job_known := ?_
    attempt_known := ?_
    job_keyed := fun job hmem => h.job_keyed job (mem_filter.mp hmem).1
    jobKeys := h.jobKeys.sublist (filter_sublist.map _) }
  · intro incident hmem
    obtain ⟨hold, hstays⟩ := mem_filter.mp hmem
    rw [← h.history.recorded incident hold, transitionsOf, transitionsOf, filter_filter]
    refine congrArg _ (filter_congr fun transition _ => ?_)
    by_cases hid : transition.incidentId = incident.id
    · simpa [hid] using hstays
    · simp [hid]
  · intro transition hmem
    obtain ⟨hold, hstays⟩ := mem_filter.mp hmem
    exact hkept _ (h.history.known transition hold) hstays
  · intro acknowledgement hmem
    obtain ⟨hold, hstays⟩ := mem_filter.mp hmem
    exact hkept _ (h.acknowledgement_known acknowledgement hold) hstays
  · intro job hmem
    obtain ⟨hold, hstays⟩ := mem_filter.mp hmem
    exact hkept _ (h.job_known job hold) hstays
  · intro attempt hmem
    obtain ⟨job, hjob, hid⟩ := mem_map.mp (h.attempt_known attempt (hattempts.subset hmem))
    refine mem_map.mpr ⟨job, mem_filter.mpr ⟨hjob, ?_⟩, hid⟩
    rw [Bool.not_eq_true']
    by_contra hgone
    rw [Bool.not_eq_false] at hgone
    exact hjobs attempt hmem (mem_map.mpr ⟨job, mem_filter.mpr ⟨hjob, hgone⟩, hid⟩)

theorem Coherent.pruneNotificationHistory (config : NotificationConfig) (limits : RetentionLimits)
    (now : ℤ) (snapshot : NotificationState) :
    Coherent (pruneNotificationHistory config limits now snapshot state).2 := by
  simp only [Notifications.pruneNotificationHistory]
  split
  · exact h
  · refine h.prune _ filter_sublist ?_ filter_sublist
    intro attempt hattempt hmem
    obtain ⟨-, hstays⟩ := mem_filter.mp hattempt
    obtain ⟨hjob, -⟩ := Bool.and_eq_true_iff.mp hstays
    rw [Bool.not_eq_true', contains_eq_mem, decide_eq_false_iff_not] at hjob
    exact hjob hmem

end HomelabInventory.Notifications
