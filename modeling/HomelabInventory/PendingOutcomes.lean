import HomelabInventory.NotificationRuns

/-!
# What becomes of pending transitions

An observation counts for at most one pending transition, and an evaluation decides those that are
there; either of them may open the incident of a pending transition. The rules here say for both
which transitions are pending afterwards, which incidents there are, and what was true of a
pending transition that was opened.
-/

namespace HomelabInventory.Notifications

open List

/-! ## Openings -/

/-- What stays the same of an incident after it was opened. -/
def Incident.opening (incident : Incident) : ℕ × EventKey × HostType × PositiveId × EventType × ℤ :=
  (incident.id, incident.eventKey, incident.hostType, incident.hostId, incident.eventType,
    incident.openedAt)

/-- What is pending after an opening was pending before, apart from what was opened. -/
theorem Coherent.mem_openFromPending {state : NotificationState} (h : Coherent state)
    {pending : PendingTransition} (hmem : pending ∈ state.pendingTransitions)
    (config : NotificationConfig) (policy : HostPolicy) (rule : NotificationRule) (now : ℤ)
    {other : PendingTransition} (hother : other ∈
      (Notifications.openFromPending state config policy rule pending now).2.pendingTransitions) :
    other ∈ state.pendingTransitions ∧ other.eventKey ≠ pending.eventKey := by
  rw [(openFromPending_same ..).1] at hother
  have hkept := (promotePending_sublist state rule pending now).subset hother
  obtain ⟨hold, hid⟩ := (h.mem_removePending hmem).mp hkept
  refine ⟨hold, fun hkey => hid ?_⟩
  exact congrArg PendingTransition.id (eq_of_key_eq h.exclusive.pending_nodup hold hmem hkey)

/-- The host of a pending event that is no outage is available. -/
theorem Coherent.pending_available {state : NotificationState} (h : Coherent state)
    {pending : PendingTransition} (hmem : pending ∈ state.pendingTransitions)
    (hchild : pending.eventType ≠ .hostOffline) :
    hostIncidentUnavailable state pending.hostType pending.hostId = false := by
  have hnamed := h.pending_named pending hmem
  have hevent : ¬pending.eventKey.IsOutage := fun hout =>
    hchild (hnamed.eventType_eq.symm.trans hout)
  have hnone := h.exclusive.inhibited pending.eventKey (mem_map_of_mem hmem) hevent
  rw [hostIncidentUnavailable, Bool.or_eq_false_iff, any_eq_false, any_eq_false]
  refine ⟨fun incident hincident hout => ?_, fun other hother hout => ?_⟩
  · obtain ⟨htype, hid, hkind, hopened⟩ := of_decide_eq_true hout
    have hnames := h.incident_named incident hincident
    refine hnone incident.eventKey (.inr (mem_openKeys.mpr ⟨incident, hincident, hopened, rfl⟩))
      (Prod.ext ?_ ?_) (hnames.eventType_eq.trans hkind)
    · exact hnames.hostType_eq.trans (htype.trans hnamed.hostType_eq.symm)
    · exact hnames.hostId_eq.trans (hid.trans hnamed.hostId_eq.symm)
  · obtain ⟨htype, hid, hkind⟩ := of_decide_eq_true hout
    have hnames := h.pending_named other hother
    refine hnone other.eventKey (.inl (mem_map_of_mem hother)) (Prod.ext ?_ ?_)
      (hnames.eventType_eq.trans hkind)
    · exact hnames.hostType_eq.trans (htype.trans hnamed.hostType_eq.symm)
    · exact hnames.hostId_eq.trans (hid.trans hnamed.hostId_eq.symm)

/-! ## Evaluations -/

section Evaluations

variable {config : NotificationConfig} {now : ℤ}

/-- The rule under which a pending transition is decided. -/
def PendingTransition.rule? (config : NotificationConfig) (now : ℤ) (pending : PendingTransition) :
    Option NotificationRule :=
  enabledRule (resolveHostNotificationPolicy config pending.hostType pending.hostId now)
    pending.eventType

/-- A turn of an evaluation keeps the incidents, and may add that of its pending transition, when
it is due. -/
theorem evaluatePendingOne_incidents (config : NotificationConfig) (now : ℤ)
    (opened : List ℕ × NotificationState) (pending : PendingTransition) :
    ((evaluatePendingOne config now opened pending).1 = opened.1 ∧
      (evaluatePendingOne config now opened pending).2.incidents = opened.2.incidents) ∨
    pending.isDue now = true ∧ ∃ id rule, pending.rule? config now = some rule ∧
      (evaluatePendingOne config now opened pending).1 = opened.1 ++ [id] ∧
      (evaluatePendingOne config now opened pending).2.incidents =
        opened.2.incidents ++ [incidentOf id rule pending now] := by
  unfold evaluatePendingOne
  dsimp only
  split
  · exact .inl ⟨rfl, rfl⟩
  rename_i hdue
  rw [Bool.not_eq_false] at hdue
  split
  · exact .inl ⟨rfl, rfl⟩
  rename_i rule hrule
  split
  · exact .inl ⟨rfl, rfl⟩
  · refine .inr ⟨hdue, opened.2.counters.incident, rule, hrule, rfl, ?_⟩
    exact (openFromPending_same opened.2 config
      (resolveHostNotificationPolicy config pending.hostType pending.hostId now) rule pending now).2

variable {opened : List ℕ × NotificationState}

/-- A turn of an evaluation only takes pending transitions away. -/
theorem Coherent.evaluatePendingOne_pending (h : Coherent opened.2)
    {pending other : PendingTransition} (hmem : pending ∈ opened.2.pendingTransitions)
    (hother : other ∈ (evaluatePendingOne config now opened pending).2.pendingTransitions) :
    other ∈ opened.2.pendingTransitions := by
  simp only [evaluatePendingOne] at hother
  split at hother
  · exact hother
  split at hother
  · exact ((h.mem_removePending hmem).mp hother).1
  split at hother
  · exact ((h.mem_removePending hmem).mp hother).1
  · rename_i rule _ _
    have hgone := @Coherent.mem_openFromPending _ h _ hmem config
      (resolveHostNotificationPolicy config pending.hostType pending.hostId now) rule now other
    split at hother <;> rename_i hresult <;> rw [hresult] at hgone <;> exact (hgone hother).1

variable {pending : PendingTransition}
variable {rule : NotificationRule}

/-- **A turn of an evaluation opens a pending transition that is due**, when its rule is enabled. -/
theorem Coherent.evaluatePendingOne_due (h : Coherent opened.2)
    (hmem : pending ∈ opened.2.pendingTransitions) (hdue : pending.isDue now = true)
    (hrule : pending.rule? config now = some rule) :
    (evaluatePendingOne config now opened pending).2.incidents =
      opened.2.incidents ++ [incidentOf opened.2.counters.incident rule pending now] := by
  have hadded := (openFromPending_same opened.2 config
    (resolveHostNotificationPolicy config pending.hostType pending.hostId now) rule pending now).2
  have hfree : ¬(pending.eventType ≠ .hostOffline ∧
      hostIncidentUnavailable opened.2 pending.hostType pending.hostId = true) := by
    rintro ⟨hchild, hout⟩
    rw [h.pending_available hmem hchild] at hout
    cases hout
  rw [PendingTransition.rule?] at hrule
  simp only [evaluatePendingOne, hdue, hrule, Bool.true_eq_false, if_false, if_neg hfree]
  split <;> rename_i hresult <;> rw [hresult] at hadded <;> exact hadded

/-- What an evaluation leaves: fewer pending transitions, and the incidents of those that were
due, which it lists. -/
structure Evaluated (config : NotificationConfig) (now : ℤ) (state : NotificationState)
    (opened : List ℕ × NotificationState) : Prop where
  pending : ∀ other ∈ opened.2.pendingTransitions, other ∈ state.pendingTransitions
  incidents : ∀ incident ∈ opened.2.incidents, incident ∈ state.incidents ∨
    incident.id ∈ opened.1 ∧ ∃ pending ∈ state.pendingTransitions, pending.isDue now = true ∧
      ∃ id rule, pending.rule? config now = some rule ∧ incident = incidentOf id rule pending now

/-- **An evaluation opens pending transitions that are due.** -/
theorem Coherent.evaluated {state : NotificationState} (h : Coherent state)
    (snapshot : NotificationState) :
    Evaluated config now state (Notifications.evaluatePending config now snapshot state) := by
  have hstart : Evaluated config now state ([], state) :=
    ⟨fun _ hother => hother, fun _ hincident => .inl hincident⟩
  have hturn : ∀ (opened : List ℕ × NotificationState) (pending : PendingTransition),
      Coherent opened.2 → pending ∈ opened.2.pendingTransitions →
      Evaluated config now state opened →
      Evaluated config now state (evaluatePendingOne config now opened pending) := by
    intro opened pending hcoherent hmem hopened
    refine ⟨fun other hother => hopened.pending other
      (hcoherent.evaluatePendingOne_pending hmem hother), fun incident hincident => ?_⟩
    obtain ⟨hlist, hsame⟩ | ⟨hdue, id, rule, hrule, hlist, hadded⟩ :=
      evaluatePendingOne_incidents config now opened pending
    · rw [hsame] at hincident
      rw [hlist]
      exact hopened.incidents incident hincident
    · rw [hadded] at hincident
      rw [hlist]
      obtain hold | hnew := mem_append.mp hincident
      · exact (hopened.incidents incident hold).imp_right
          fun ⟨hlisted, hrest⟩ => ⟨mem_append_left _ hlisted, hrest⟩
      · obtain rfl := mem_singleton.mp hnew
        exact .inr ⟨mem_append_right _ (mem_singleton_self _), pending,
          hopened.pending pending hmem, hdue, id, rule, hrule, rfl⟩
  unfold Notifications.evaluatePending
  split
  · have hrun := h.foldl_pending config now hstart hturn
    exact ⟨hrun.pending, hrun.incidents⟩
  · exact hstart

/-- Open events stay open during an evaluation. -/
theorem openKeys_evaluatePendingOne {key : EventKey} (hkey : key ∈ openKeys opened.2.incidents) :
    key ∈ openKeys (evaluatePendingOne config now opened pending).2.incidents := by
  obtain ⟨incident, hmem, hopened, rfl⟩ := mem_openKeys.mp hkey
  obtain ⟨-, hsame⟩ | ⟨-, id, rule, -, -, hadded⟩ :=
    evaluatePendingOne_incidents config now opened pending
  · rw [hsame]
    exact hkey
  · rw [hadded]
    exact mem_openKeys.mpr ⟨incident, mem_append_left _ hmem, hopened, rfl⟩

/-- The loop of an evaluation opens a pending transition that is due and still to come. -/
theorem Coherent.openKeys_loop {pendings : List PendingTransition} (h : Coherent opened.2)
    (hnodup : (pendings.map (·.id)).Nodup)
    (hsub : ∀ pending ∈ pendings, pending ∈ opened.2.pendingTransitions) (hmem : pending ∈ pendings)
    (hdue : pending.isDue now = true) (hrule : pending.rule? config now = some rule) :
    pending.eventKey ∈ openKeys
      (pendings.foldl (evaluatePendingOne config now) opened).2.incidents := by
  have hstays : ∀ (later : List PendingTransition) (opened : List ℕ × NotificationState),
      pending.eventKey ∈ openKeys opened.2.incidents →
      pending.eventKey ∈ openKeys
        (later.foldl (evaluatePendingOne config now) opened).2.incidents := by
    intro later
    induction later with
    | nil => exact fun _ hopen => hopen
    | cons _ later ih => exact fun _ hopen => ih _ (openKeys_evaluatePendingOne hopen)
  induction pendings generalizing opened with
  | nil => exact absurd hmem not_mem_nil
  | cons first rest ih =>
    obtain ⟨hfresh, hnodup⟩ := nodup_cons.mp hnodup
    have hfirst := hsub first mem_cons_self
    rw [foldl_cons]
    obtain rfl | hrest := mem_cons.mp hmem
    · -- the turn of the transition
      refine hstays rest _ ?_
      rw [h.evaluatePendingOne_due hfirst hdue hrule]
      exact mem_openKeys.mpr
        ⟨_, mem_append_right _ (mem_singleton_self _), rfl, rfl⟩
    · -- the turn of another one, which leaves it pending
      obtain ⟨hnext, hkept⟩ := evaluatePendingOne_spec h hfirst config now
      refine ih hnext hnodup (fun other hother => ?_) hrest
      refine hkept other (hsub other (mem_cons_of_mem first hother)) fun hid => ?_
      exact hfresh (mem_map.mpr ⟨other, hother, hid⟩)

/-- **An evaluation opens a pending transition exactly when it is due**, if its rule is enabled. -/
theorem Coherent.opened_iff_isDue {state : NotificationState} (h : Coherent state)
    (hmem : pending ∈ state.pendingTransitions) (hrule : pending.rule? config now = some rule) :
    pending.eventKey ∈ openKeys (Notifications.evaluatePending config now state state).2.incidents ↔
      pending.isDue now = true := by
  constructor
  · intro hkey
    obtain ⟨incident, hincident, hopened, hsame⟩ := mem_openKeys.mp hkey
    obtain hold | ⟨-, other, hother, hdue, id, rule', -, rfl⟩ := (h.evaluated state).incidents _ hincident
    · exact absurd (mem_openKeys.mpr ⟨incident, hold, hopened, hsame⟩)
        (h.exclusive.disjoint _ (mem_map_of_mem hmem))
    · rw [eq_of_key_eq h.exclusive.pending_nodup hmem hother hsame.symm]
      exact hdue
  · intro hdue
    have hwork : hasDueWork config now state = true := by
      rw [hasDueWork, any_eq_true]
      refine ⟨pending, hmem, ?_⟩
      rw [hdue, Bool.true_and, Bool.or_eq_true]
      by_cases hchild : pending.eventType = .hostOffline
      · exact .inl (by rw [decide_eq_true hchild, Bool.or_true])
      · exact .inr (by rw [h.pending_available hmem hchild]; rfl)
    simp only [Notifications.evaluatePending, hwork, if_true]
    exact h.openKeys_loop h.pendingTransitions.nodup (fun _ hother => hother) hmem hdue hrule

end Evaluations

/-! ## Observations -/

section Observations

variable {config : NotificationConfig} {now : ℤ} {observation : Observation}

/-- A pending transition was first seen a minute ago, when it takes two observations. -/
def PendingTransition.isSpaced (pending : PendingTransition) (now : ℤ) : Bool :=
  decide (minimumObservations pending.eventType = 1)
    || decide (60000 ≤ now - pending.firstObservedAt)

/-- The pending transition that a problem counts for: a new one, or one with an observation
more. -/
inductive CountsFor (state : NotificationState) (rule : NotificationRule)
    (observation : Observation) (now : ℤ) : PendingTransition → Prop
  | started (id : ℕ) (title summary : String)
    (hfresh : eventKeyFor observation ∉ state.pendingKeys) :
    CountsFor state rule observation now (pendingOf id rule observation title summary now)
  | counted (pending : PendingTransition) (hmem : pending ∈ state.pendingTransitions)
    (hkey : pending.eventKey = eventKeyFor observation) :
    CountsFor state rule observation now { pending with
      lastObservedAt := now
      observations := pending.observations + 1 }

/-- What an observation that is recorded answers, and the pending transitions and incidents that it
leaves. -/
inductive Recorded (state : NotificationState) (rule : NotificationRule) (observation : Observation)
    (now : ℤ) : IncidentAction → List PendingTransition → List Incident → Prop
  /-- what is no problem drops the pending transition -/
  | cleared {answer pendings incidents} (hstate : observation.state ≠ .problem)
    (hpendings : ∀ other ∈ pendings, other ∈ state.pendingTransitions ∧
      other.eventKey ≠ eventKeyFor observation)
    (hincidents : incidents.map Incident.opening = state.incidents.map Incident.opening) :
    Recorded state rule observation now answer pendings incidents
  /-- so does an outage of the host -/
  | inhibited {pendings} (hstate : observation.state = .problem)
    (hout : observation.eventType ≠ .hostOffline ∧
      hostIncidentUnavailable state observation.hostType observation.hostId = true)
    (hpendings : ∀ other ∈ pendings, other ∈ state.pendingTransitions ∧
      other.eventKey ≠ eventKeyFor observation) :
    Recorded state rule observation now (.inhibited "host-offline") pendings state.incidents
  /-- a problem that is open already is known -/
  | known (id : ℕ) (hstate : observation.state = .problem)
    (hopen : eventKeyFor observation ∈ openKeys state.incidents) :
    Recorded state rule observation now (.unchanged (some id)) state.pendingTransitions
      state.incidents
  /-- a problem is counted, not yet often or long enough -/
  | counted {pending pendings} (hstate : observation.state = .problem)
    (hclosed : eventKeyFor observation ∉ openKeys state.incidents)
    (hcounts : CountsFor state rule observation now pending)
    (hready : (pending.isDue now && pending.isSpaced now) = false)
    (hpendings : ∀ other ∈ pendings, other = pending ∨ other ∈ state.pendingTransitions ∧
      other.eventKey ≠ eventKeyFor observation) :
    Recorded state rule observation now (.pending pending.id) pendings state.incidents
  /-- a problem was counted often and long enough -/
  | opened {pending pendings} (id : ℕ) (hstate : observation.state = .problem)
    (hcounts : CountsFor state rule observation now pending)
    (hready : (pending.isDue now && pending.isSpaced now) = true)
    (hpendings : ∀ other ∈ pendings, other ∈ state.pendingTransitions ∧
      other.eventKey ≠ eventKeyFor observation) :
    Recorded state rule observation now (.opened id) pendings
      (state.incidents ++ [incidentOf id rule pending now])

variable {state : NotificationState}
variable {rule : NotificationRule}

/-- A pending transition that a problem counts for is of its event. -/
theorem CountsFor.key {pending : PendingTransition}
    (h : CountsFor state rule observation now pending) :
    pending.eventKey = eventKeyFor observation := by
  cases h with
  | started => rfl
  | counted _ _ hkey => exact hkey

variable {pending : Option PendingTransition}

variable (h : Coherent state)
include h

/-- Dropping the pending transition of an event leaves those of other events. -/
theorem Coherent.mem_dropPending {key : EventKey}
    (hpending : state.pendingTransitions.find? (fun candidate => candidate.eventKey = key) = pending)
    {other : PendingTransition}
    (hother : other ∈ ((pending.map (Notifications.removePending state)).getD state).pendingTransitions) :
    other ∈ state.pendingTransitions ∧ other.eventKey ≠ key := by
  cases pending with
  | none =>
    refine ⟨hother, fun hkey => ?_⟩
    exact find?_eq_none.mp hpending other hother (decide_eq_true hkey)
  | some pending =>
    have hmem := mem_of_find?_eq_some hpending
    have hkey : pending.eventKey = key := by simpa using find?_some hpending
    obtain ⟨hold, hid⟩ := (h.mem_removePending hmem).mp hother
    refine ⟨hold, fun hsame => hid (congrArg PendingTransition.id ?_)⟩
    exact eq_of_key_eq h.exclusive.pending_nodup hold hmem (hsame.trans hkey.symm)

omit h in
/-- Closing an incident leaves its opening as it was. -/
theorem closeIncident_openings (state : NotificationState) (incident : Incident)
    (target : IncidentState) (reason : String) (now : ℤ) :
    (closeIncident state incident target reason now).incidents.map Incident.opening =
      state.incidents.map Incident.opening := by
  rw [closeIncident, addTransition, map_modifyFirst]
  intros
  rfl

/-- What is no problem clears its event. -/
theorem observeClear_recorded (hstate : observation.state ≠ .problem)
    (hpending : state.pendingTransitions.find? (fun candidate =>
      candidate.eventKey = eventKeyFor observation) = pending)
    (config : NotificationConfig) (rule rule' : NotificationRule) (previousState : Health)
    (incident : Option Incident) :
    Recorded state rule' observation now
      (observeClear state config rule observation previousState pending incident now).1
      (observeClear state config rule observation previousState pending incident now).2.pendingTransitions
      (observeClear state config rule observation previousState pending incident now).2.incidents := by
  have hpendings : ∀ other ∈ ((pending.map (removePending state)).getD state).pendingTransitions,
      other ∈ state.pendingTransitions ∧ other.eventKey ≠ eventKeyFor observation :=
    fun other hother => h.mem_dropPending hpending hother
  have hdropped : ((pending.map (removePending state)).getD state).incidents.map Incident.opening =
      state.incidents.map Incident.opening := by
    rw [dropPending_incidents]
  unfold observeClear
  dsimp only
  split
  · rename_i incident
    have hclosed := (closeIncident_openings ((pending.map (removePending state)).getD state)
      incident .resolved "healthy-observation" now).trans hdropped
    split
    · dsimp only
      split
      · exact .cleared hstate hpendings hclosed
      · obtain ⟨added, next, heq, -⟩ := queueJobs_pushes
          (closeIncident ((pending.map (removePending state)).getD state) incident .resolved
            "healthy-observation" now) config incident rule .recovery now none
          (some (deliveredOpenings (closeIncident ((pending.map (removePending state)).getD state)
            incident .resolved "healthy-observation" now) incident.id))
        rw [heq]
        exact .cleared hstate hpendings hclosed
    · exact .cleared hstate hpendings hdropped
  · exact .cleared hstate hpendings hdropped

/-- The pending transition that a problem counts for, and those that stay beside it. -/
theorem countProblem_countsFor
    (hpending : state.pendingTransitions.find? (fun candidate =>
      candidate.eventKey = eventKeyFor observation) = pending)
    (rule : NotificationRule) (title summary : String) (now : ℤ) :
    CountsFor state rule observation now
      (countProblem state rule observation title summary pending now).1 ∧
    ∀ other ∈ (inhibitChildren (countProblem state rule observation title summary pending now).2
        observation now).pendingTransitions,
      other = (countProblem state rule observation title summary pending now).1 ∨
        other ∈ state.pendingTransitions ∧ other.eventKey ≠ eventKeyFor observation := by
  have hsub : ∀ {draft : NotificationState} {other : PendingTransition},
      other ∈ (inhibitChildren draft observation now).pendingTransitions →
      other ∈ draft.pendingTransitions := by
    intro draft other hother
    rw [inhibitChildren_pending] at hother
    split at hother
    · exact mem_of_mem_filter hother
    · exact hother
  cases pending with
  | none =>
    have hfresh : ∀ other ∈ state.pendingTransitions, other.eventKey ≠ eventKeyFor observation :=
      fun other hother hkey => find?_eq_none.mp hpending other hother (decide_eq_true hkey)
    refine ⟨.started _ title summary fun hkey => ?_, fun other hother => ?_⟩
    · obtain ⟨other, hother, hsame⟩ := mem_map.mp hkey
      exact hfresh other hother hsame
    · obtain hold | hnew := mem_append.mp (hsub hother)
      · exact .inr ⟨hold, hfresh other hold⟩
      · exact .inl (mem_singleton.mp hnew)
  | some pending =>
    have hmem := mem_of_find?_eq_some hpending
    have hkey : pending.eventKey = eventKeyFor observation := by
      simpa using find?_some hpending
    refine ⟨.counted pending hmem hkey, fun other hother => ?_⟩
    have hother := hsub hother
    -- the other transitions stay as they are, and are of other events
    rw [countProblem, modifyFirst_eq_map h.pendingTransitions.nodup] at hother
    obtain ⟨old, hold, rfl⟩ := mem_map.mp hother
    split
    · rename_i hid
      have hsame := eq_of_key_eq h.pendingTransitions.nodup hold hmem hid
      rw [hsame]
      exact .inl rfl
    · rename_i hid
      refine .inr ⟨hold, fun hsame => hid (congrArg PendingTransition.id ?_)⟩
      exact eq_of_key_eq h.exclusive.pending_nodup hold hmem (hsame.trans hkey.symm)

omit h in
theorem inhibitChildren_incidents (state : NotificationState) (observation : Observation)
    (now : ℤ) : (inhibitChildren state observation now).incidents = state.incidents := by
  unfold inhibitChildren
  split <;> rfl

/-- A counted transition keeps the event type of its observation. -/
theorem CountsFor.eventType {pending : PendingTransition}
    (hcounts : CountsFor state rule observation now pending) :
    pending.eventType = observation.eventType := by
  cases hcounts with
  | started => rfl
  | counted pending hmem hkey =>
    have hnamed := h.pending_named pending hmem
    rw [hkey] at hnamed
    exact hnamed.eventType_eq.symm

/-- A problem is inhibited, known, counted or opened. -/
theorem observeProblem_recorded (hstate : observation.state = .problem)
    (hpending : state.pendingTransitions.find? (fun candidate =>
      candidate.eventKey = eventKeyFor observation) = pending)
    {incident : Option Incident}
    (hincident : state.incidents.find? (fun candidate =>
      candidate.eventKey = eventKeyFor observation ∧ candidate.state = .opened) = incident)
    (config : NotificationConfig) (policy : HostPolicy) (rule : NotificationRule)
    (title summary : String) :
    Recorded state rule observation now
      (observeProblem state config policy rule observation title summary pending incident now).1
      (observeProblem state config policy rule observation title summary pending incident
        now).2.pendingTransitions
      (observeProblem state config policy rule observation title summary pending incident
        now).2.incidents := by
  unfold observeProblem
  split
  · rename_i hout
    rw [dropPending_incidents]
    exact .inhibited hstate hout fun other hother => h.mem_dropPending hpending hother
  rename_i hnot
  split
  · rename_i incident
    have hkept := find?_some hincident
    obtain ⟨hkey, hopened⟩ := of_decide_eq_true hkept
    exact .known incident.id hstate
      (mem_openKeys.mpr ⟨incident, mem_of_find?_eq_some hincident, hopened, hkey⟩)
  · have hclosed : eventKeyFor observation ∉ openKeys state.incidents := by
      intro hopen
      obtain ⟨incident, hmem, hopened, hkey⟩ := mem_openKeys.mp hopen
      exact find?_eq_none.mp hincident incident hmem (decide_eq_true ⟨hkey, hopened⟩)
    have havailable : observation.eventType ≠ .hostOffline →
        hostIncidentUnavailable state observation.hostType observation.hostId = false :=
      fun hchild => Bool.eq_false_iff.mpr fun hout => hnot ⟨hchild, hout⟩
    obtain ⟨hcounts, hothers⟩ := countProblem_countsFor h hpending rule title summary now
    obtain ⟨hcoherent, hmem⟩ := h.countProblem hpending hclosed havailable rule title summary now
    have hincidents := (inhibitChildren_incidents (countProblem state rule observation title summary
      pending now).2 observation now).trans
        (countProblem_beside state rule observation title summary pending now).incidents
    generalize countProblem state rule observation title summary pending now = counted at *
    obtain ⟨current, draft⟩ := counted
    dsimp only at hcounts hothers hcoherent hmem hincidents ⊢
    have hready : (!decide (current.dueAt ≤ now) ||
        decide (current.observations < minimumObservations observation.eventType) ||
        !(decide (minimumObservations observation.eventType = 1) ||
          decide (60000 ≤ now - current.firstObservedAt))) =
        !(current.isDue now && current.isSpaced now) := by
      simp only [PendingTransition.isDue, PendingTransition.isSpaced, hcounts.eventType h,
        ← Nat.not_le, decide_not, Bool.not_and]
    split
    · rename_i hwaits
      rw [hready, Bool.not_eq_true'] at hwaits
      rw [hincidents]
      exact .counted hstate hclosed hcounts hwaits hothers
    · rename_i hopens
      rw [hready, Bool.not_eq_true', Bool.not_eq_false] at hopens
      rw [(openFromPending_same ..).2, hincidents]
      refine .opened _ hstate hcounts hopens fun other hother => ?_
      obtain ⟨hold, hkey⟩ := hcoherent.mem_openFromPending hmem config policy rule now hother
      rw [hcounts.key] at hkey
      obtain rfl | hother := hothers other hold
      · exact absurd hcounts.key hkey
      · exact hother

omit h in
/-- What an observation does depends on the pending transitions and the incidents alone. -/
theorem Recorded.congr {state draft : NotificationState}
    (hpendings : draft.pendingTransitions = state.pendingTransitions)
    (hincidents : draft.incidents = state.incidents) {answer : IncidentAction}
    {pendings : List PendingTransition} {incidents : List Incident}
    (h : Recorded draft rule observation now answer pendings incidents) :
    Recorded state rule observation now answer pendings incidents := by
  have hcounts : ∀ {pending : PendingTransition}, CountsFor draft rule observation now pending →
      CountsFor state rule observation now pending := by
    intro pending hcounts
    cases hcounts with
    | started id title summary hfresh =>
      refine .started id title summary ?_
      rw [NotificationState.pendingKeys, ← hpendings]
      exact hfresh
    | counted pending hmem hkey => exact .counted pending (hpendings ▸ hmem) hkey
  cases h with
  | cleared hstate hothers hopenings =>
    exact .cleared hstate (hpendings ▸ hothers) (hincidents ▸ hopenings)
  | inhibited hstate hout hothers =>
    rw [hincidents]
    refine .inhibited hstate ⟨hout.1, ?_⟩ (hpendings ▸ hothers)
    rw [hostIncidentUnavailable, ← hincidents, ← hpendings]
    exact hout.2
  | known id hstate hopen =>
    rw [hpendings, hincidents]
    exact .known id hstate (hincidents ▸ hopen)
  | counted hstate hclosed hcount hready hothers =>
    rw [hincidents]
    exact .counted hstate (hincidents ▸ hclosed) (hcounts hcount) hready (hpendings ▸ hothers)
  | opened id hstate hcount hready hothers =>
    rw [hincidents]
    exact .opened id hstate (hcounts hcount) hready (hpendings ▸ hothers)

/-- What a recorded observation does, by the state that it reports. -/
theorem decideObservation_recorded (config : NotificationConfig) (policy : HostPolicy)
    (rule : NotificationRule) (observation : Observation) (previousState : Health)
    (title summary : String) (now : ℤ) :
    Recorded state rule observation now
      (decideObservation state config policy rule observation previousState title summary now).1
      (decideObservation state config policy rule observation previousState title summary
        now).2.pendingTransitions
      (decideObservation state config policy rule observation previousState title summary
        now).2.incidents := by
  unfold decideObservation
  dsimp only
  cases hstate : observation.state with
  | healthy => exact observeClear_recorded h (by simp [hstate]) rfl config rule rule _ _
  | unknown => exact observeClear_recorded h (by simp [hstate]) rfl config rule rule _ _
  | problem => exact observeProblem_recorded h hstate rfl rfl config policy rule title summary

omit h in
theorem normalizedStateFor_pending (state : NotificationState) (observation : Observation)
    (now : ℤ) :
    (normalizedStateFor state observation now).2.pendingTransitions = state.pendingTransitions := by
  unfold normalizedStateFor
  split <;> rfl

/-- An observation is recorded when it is monitored, brings news and is not replayed. -/
def records (config : NotificationConfig) (clock : ℤ) (snapshot : NotificationState)
    (observation : Observation) (state : NotificationState) : Bool :=
  (enabledRule (resolveHostNotificationPolicy config observation.hostType observation.hostId
      (observation.observedAt.getD clock)) observation.eventType).isSome
    && (repeatedObservation snapshot observation).isNone
    && !isReplayed observation
      (state.normalizedStates.find? fun normalized => normalized.eventKey = eventKeyFor observation)

/-- **What an observation does.** One that is not recorded leaves the pending transitions and the
incidents as they are. -/
theorem observe_recorded (config : NotificationConfig) (clock : ℤ) (snapshot : NotificationState)
    (observation : Observation) :
    (records config clock snapshot observation state = false ∧
      (observe config clock snapshot observation state).2.pendingTransitions =
        state.pendingTransitions ∧
      (observe config clock snapshot observation state).2.incidents = state.incidents) ∨
    records config clock snapshot observation state = true ∧
      ∃ rule, enabledRule (resolveHostNotificationPolicy config observation.hostType
        observation.hostId (observation.observedAt.getD clock)) observation.eventType = some rule ∧
      Recorded state rule observation (observation.observedAt.getD clock)
        (observe config clock snapshot observation state).1
        (observe config clock snapshot observation state).2.pendingTransitions
        (observe config clock snapshot observation state).2.incidents := by
  unfold observe records
  dsimp only
  split
  · rename_i hrule
    rw [hrule]
    exact .inl ⟨rfl, rfl, rfl⟩
  rename_i rule hrule
  rw [hrule]
  split
  · rename_i action hrepeated
    rw [hrepeated]
    exact .inl ⟨rfl, rfl, rfl⟩
  rename_i hnews
  rw [hnews]
  unfold observeDraft
  dsimp only
  split
  · rename_i hreplayed
    rw [hreplayed]
    exact .inl ⟨rfl, rfl, rfl⟩
  · rename_i hfresh
    rw [Bool.not_eq_true] at hfresh
    rw [hfresh]
    refine .inr ⟨rfl, rule, rfl, ?_⟩
    have hseen : Coherent { state with
        lastEvaluatedAt := some (observation.observedAt.getD clock) } := { h with }
    refine (decideObservation_recorded ((hseen.normalizedStateFor observation _).recordObservation
      observation _ _ _) config _ rule observation _ _ _ _).congr ?_ ?_
    · exact normalizedStateFor_pending _ observation _
    · exact (normalizedStateFor_beside _ observation _).incidents

end Observations

end HomelabInventory.Notifications
