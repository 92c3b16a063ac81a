import HomelabInventory.PendingOutcomes

/-!
# The debounce rule

A pending transition may be opened by the observation that makes it sufficient or by a later
evaluation. Against a log of the observations and evaluations the rule is the same for both: enough
problems since the transition began, with nothing else recorded in between, the debounce of the
rule, and a minute for the events that take two observations. An evaluation does not ask for the
minute, so it keeps the rule when the transitions that it opens were first seen that long ago.
-/

namespace HomelabInventory.Notifications

open List

/-! ## The log -/

/-- An observation with what was made of it. -/
structure Entry where
  key : EventKey
  health : Health
  instant : ℤ
  recorded : Bool
  answer : IncidentAction

/-- What happened: an observation, or an evaluation with the incidents that it opened. -/
inductive LogEvent
  | observed (entry : Entry)
  | evaluated (now : ℤ) (opened : List ℕ)

/-- The observation was accepted as a problem. -/
def Entry.counts (entry : Entry) : Bool :=
  entry.recorded && decide (entry.health = .problem) &&
    match entry.answer with
    | .pending _ | .opened _ => true
    | _ => false

/-- A problem of an event was accepted. -/
def LogEvent.countsFor (key : EventKey) : LogEvent → Bool
  | .observed entry => decide (entry.key = key) && entry.counts
  | .evaluated _ _ => false

/-- The incident was opened by what happened. -/
def LogEvent.Opens (id : ℕ) : LogEvent → Prop
  | .observed entry => entry.answer = .opened id
  | .evaluated _ opened => id ∈ opened

def LogEvent.instant : LogEvent → ℤ
  | .observed entry => entry.instant
  | .evaluated now _ => now

/-- The entry of an observation of a state. -/
def entryOf (config : NotificationConfig) (clock : ℤ) (snapshot : NotificationState)
    (observation : Observation) (state : NotificationState) : Entry where
  key := eventKeyFor observation
  health := observation.state
  instant := observation.observedAt.getD clock
  recorded := records config clock snapshot observation state
  answer := (observe config clock snapshot observation state).1

/-- Runs of observations and evaluations under one configuration, with their log. The evaluations
are at the states and instants that are allowed. -/
inductive Run (config : NotificationConfig) (allowed : NotificationState → ℤ → Prop) :
    List LogEvent → NotificationState → Prop
  | create (now : ℤ) : Run config allowed [] (createNotificationState now)
  | observe {log state next} (clock instant : ℤ) (snapshot : NotificationState)
    (observation : Observation) (hrun : Run config allowed log state)
    (hcommit : (Mutation.observe config clock snapshot observation).commit instant state = .ok next) :
    Run config allowed (log ++ [.observed (entryOf config clock snapshot observation state)]) next
  | evaluate {log state next} (now instant : ℤ) (snapshot : NotificationState)
    (hallowed : allowed state now) (hrun : Run config allowed log state)
    (hcommit : (Mutation.evaluatePending config now snapshot).commit instant state = .ok next) :
    Run config allowed
      (log ++ [.evaluated now (evaluatePending config now snapshot state).1]) next

/-- Every pending transition that is due was first seen a minute ago, when it takes two
observations. -/
def SpacedAt (state : NotificationState) (now : ℤ) : Prop :=
  ∀ pending ∈ state.pendingTransitions, pending.isDue now = true → pending.isSpaced now = true

/-! ## The rule -/

/-- A stretch of the log since a pending transition began: it starts with the first problem, records
nothing of the event but problems that are counted for the transition, and has a number of them. -/
structure Since (events : List LogEvent) (key : EventKey) (pendingId : ℕ) (began : ℤ)
    (count : ℕ) : Prop where
  first : ∃ first later, events = .observed first :: later ∧ first.key = key ∧
    first.counts = true ∧ first.instant = began
  counted : ∀ entry, .observed entry ∈ events → entry.key = key → entry.recorded = true →
    entry.health = .problem ∧
      (entry.answer = .pending pendingId ∨ ∃ id, entry.answer = .opened id)
  count_eq : (events.filter (LogEvent.countsFor key)).length = count

/-- **The incident was opened by the debounce rule**: the stretch since its pending transition began
ends with what opened it, has enough problems, and is as long as the rule asks for, and a minute for
the events that take two observations. -/
def OpenedByRule (config : NotificationConfig) (log : List LogEvent) (incident : Incident) : Prop :=
  ∃ before since last after pendingId began count rule, log = before ++ (since ++ [last]) ++ after ∧
    last.Opens incident.id ∧ last.instant = incident.openedAt ∧
    (Since (since ++ [last]) incident.eventKey pendingId began count ∧
      minimumObservations incident.eventType ≤ count ∧
      (1 < minimumObservations incident.eventType → began + 60000 ≤ incident.openedAt) ∧
      enabledRule (resolveHostNotificationPolicy config incident.hostType incident.hostId
        incident.openedAt) incident.eventType = some rule ∧
      began + rule.debounceSeconds * 1000 ≤ incident.openedAt)

/-- A pending transition is backed by the log. -/
structure Backed (config : NotificationConfig) (log : List LogEvent) (pending : PendingTransition) :
    Prop where
  since : ∃ before since, log = before ++ since ∧
    Since since pending.eventKey pending.id pending.firstObservedAt pending.observations
  due : ∃ rule, pending.rule? config pending.firstObservedAt = some rule ∧
    pending.dueAt = pending.firstObservedAt + rule.debounceSeconds * 1000

/-- **The invariant of a run**: pending transitions are backed by the log, and incidents were opened
by the rule. -/
structure Ledger (config : NotificationConfig) (log : List LogEvent) (state : NotificationState) :
    Prop where
  coherent : Coherent state
  pending : ∀ pending ∈ state.pendingTransitions, Backed config log pending
  incidents : ∀ incident ∈ state.incidents, OpenedByRule config log incident

/-! ## Longer logs -/

section Logs

variable {config : NotificationConfig} {log : List LogEvent} {event : LogEvent} {entry : Entry}

theorem Entry.problem_of_counts (h : entry.counts = true) : entry.health = .problem := by
  rw [Entry.counts, Bool.and_eq_true, Bool.and_eq_true] at h
  exact of_decide_eq_true h.1.2

variable {pendingId : ℕ}

/-- What records nothing of the event leaves the stretch as it is. -/
theorem Since.pass {events : List LogEvent} {key : EventKey} {began : ℤ} {count : ℕ}
    (h : Since events key pendingId began count)
    (hevent : ∀ entry, event = .observed entry → entry.key = key → entry.recorded = false) :
    Since (events ++ [event]) key pendingId began count := by
  obtain ⟨first, later, rfl, hfirst⟩ := h.first
  refine ⟨⟨first, later ++ [event], rfl, hfirst⟩, fun other hother hkey hrecorded => ?_, ?_⟩
  · obtain hother | hnew := mem_append.mp hother
    · exact h.counted other hother hkey hrecorded
    · rw [hevent other (mem_singleton.mp hnew).symm hkey] at hrecorded
      cases hrecorded
  · have hout : event.countsFor key = false := by
      cases event with
      | evaluated => rfl
      | observed entry =>
        rw [LogEvent.countsFor, Bool.and_eq_false_iff]
        by_cases hkey : entry.key = key
        · exact .inr (by rw [Entry.counts, hevent entry rfl hkey]; rfl)
        · exact .inl (decide_eq_false hkey)
    rw [filter_append, length_append, h.count_eq]
    simp [hout]

/-- A problem that is counted for the transition makes the stretch longer by one. -/
theorem Since.count {events : List LogEvent} {key : EventKey} {began : ℤ} {count : ℕ}
    (h : Since events key pendingId began count) (hkey : entry.key = key)
    (hcounts : entry.counts = true)
    (hanswer : entry.answer = .pending pendingId ∨ ∃ id, entry.answer = .opened id) :
    Since (events ++ [.observed entry]) key pendingId began (count + 1) := by
  obtain ⟨first, later, rfl, hfirst⟩ := h.first
  refine ⟨⟨first, later ++ [.observed entry], rfl, hfirst⟩, fun other hother hother' hrecorded => ?_,
    ?_⟩
  · obtain hother | hnew := mem_append.mp hother
    · exact h.counted other hother hother' hrecorded
    · obtain rfl := LogEvent.observed.inj (mem_singleton.mp hnew)
      exact ⟨Entry.problem_of_counts hcounts, hanswer⟩
  · rw [filter_append, length_append, h.count_eq]
    simp [LogEvent.countsFor, hkey, hcounts]

theorem Since.start (hcounts : entry.counts = true)
    (hanswer : entry.answer = .pending pendingId ∨ ∃ id, entry.answer = .opened id) :
    Since [.observed entry] entry.key pendingId entry.instant 1 := by
  refine ⟨⟨entry, [], rfl, rfl, hcounts, rfl⟩, fun other hother _ _ => ?_,
    by simp [LogEvent.countsFor, hcounts]⟩
  obtain rfl := LogEvent.observed.inj (mem_singleton.mp hother)
  exact ⟨Entry.problem_of_counts hcounts, hanswer⟩

theorem OpenedByRule.append {incident : Incident} (h : OpenedByRule config log incident)
    (events : List LogEvent) : OpenedByRule config (log ++ events) incident := by
  obtain ⟨before, since, last, after, pendingId, began, count, rule, rfl, hrest⟩ := h
  exact ⟨before, since, last, after ++ events, pendingId, began, count, rule, by simp, hrest⟩

/-- An opening is about what stays the same of an incident. -/
theorem OpenedByRule.congr {incident other : Incident} (hsame : other.opening = incident.opening)
    (h : OpenedByRule config log incident) : OpenedByRule config log other := by
  simp only [Incident.opening, Prod.mk.injEq] at hsame
  obtain ⟨hid, hkey, htype, hhost, hevent, hopened⟩ := hsame
  unfold OpenedByRule
  rw [hid, hkey, htype, hhost, hevent, hopened]
  exact h

/-- A pending transition stays backed when nothing of its event is recorded. -/
theorem Backed.pass {pending : PendingTransition} (h : Backed config log pending)
    (hevent : ∀ entry, event = .observed entry → entry.key = pending.eventKey →
      entry.recorded = false) :
    Backed config (log ++ [event]) pending := by
  obtain ⟨before, since, rfl, hsince⟩ := h.since
  exact ⟨⟨before, since ++ [event], by simp, hsince.pass hevent⟩, h.due⟩

/-- **A pending transition that is due and spaced is opened by the rule.** -/
theorem Backed.opens {pending : PendingTransition} {now : ℤ} {id : ℕ} {rule : NotificationRule}
    (h : Backed config (log ++ [event]) pending) (hdue : pending.isDue now = true)
    (hspaced : pending.isSpaced now = true) (hopens : event.Opens id) (hinstant : event.instant = now) :
    OpenedByRule config (log ++ [event]) (incidentOf id rule pending now) := by
  obtain ⟨before, since, hlog, hsince⟩ := h.since
  obtain ⟨rule', hrule, hdueAt⟩ := h.due
  -- the stretch is not empty, so it ends with what opened the incident
  obtain ⟨first, later, hstretch, -⟩ := hsince.first
  obtain ⟨rest, hrest⟩ : ∃ rest, since = rest ++ [event] := by
    obtain rfl | ⟨rest, last, rfl⟩ := eq_nil_or_concat since
    · cases hstretch
    · rw [concat_eq_append, ← append_assoc] at hlog
      obtain rfl := singleton_inj.mp (append_inj_right' hlog rfl)
      exact ⟨rest, concat_eq_append⟩
  rw [PendingTransition.isDue, Bool.and_eq_true, decide_eq_true_eq, decide_eq_true_eq] at hdue
  rw [PendingTransition.isSpaced, Bool.or_eq_true, decide_eq_true_eq, decide_eq_true_eq] at hspaced
  rw [hrest] at hlog hsince
  refine ⟨before, rest, event, [], pending.id, pending.firstObservedAt, pending.observations, rule',
    by rw [hlog, append_nil], hopens, hinstant, hsince, hdue.2, fun htwo => ?_, hrule, ?_⟩
  · change 1 < minimumObservations pending.eventType at htwo
    show pending.firstObservedAt + 60000 ≤ now
    omega
  · show pending.firstObservedAt + rule'.debounceSeconds * 1000 ≤ now
    rw [← hdueAt]
    exact hdue.1

end Logs

/-! ## Steps and runs -/

section Steps

variable {config : NotificationConfig} {log : List LogEvent} {state next : NotificationState}

/-- What a commit stores has the pending transitions and incidents of its draft. -/
theorem commit_draft {mutation : Mutation} {instant : ℤ} {draft : NotificationState}
    (happly : mutation.apply state = .ok draft) (hcommit : mutation.commit instant state = .ok next) :
    next.pendingTransitions = draft.pendingTransitions ∧ next.incidents = draft.incidents := by
  rw [Mutation.commit_of_apply happly] at hcommit
  split at hcommit
  · rename_i hsame
    obtain rfl := Except.ok.inj hcommit
    rw [hsame]
    exact ⟨rfl, rfl⟩
  · cases hassert : assertNotificationState { draft with updatedAt := instant } with
    | error error =>
      rw [hassert] at hcommit
      cases hcommit
    | ok u =>
      rw [hassert] at hcommit
      obtain rfl := Except.ok.inj hcommit
      exact ⟨rfl, rfl⟩

/-- A problem that counts for a transition backs it. -/
theorem Ledger.backs (h : Ledger config log state) {rule : NotificationRule}
    {observation : Observation} {entry : Entry} {pending : PendingTransition}
    (hkey : entry.key = eventKeyFor observation) (hcounts : entry.counts = true)
    (hanswer : entry.answer = .pending pending.id ∨ ∃ id, entry.answer = .opened id)
    (hrule : enabledRule (resolveHostNotificationPolicy config observation.hostType
      observation.hostId entry.instant) observation.eventType = some rule)
    (hfor : CountsFor state rule observation entry.instant pending) :
    Backed config (log ++ [.observed entry]) pending := by
  cases hfor with
  | started id title summary hfresh =>
    have hsince := Since.start hcounts hanswer
    rw [hkey] at hsince
    exact ⟨⟨log, [.observed entry], rfl, hsince⟩, ⟨rule, hrule, rfl⟩⟩
  | counted pending hmem hsame =>
    have hbefore := h.pending pending hmem
    obtain ⟨before, since, rfl, hsince⟩ := hbefore.since
    exact ⟨⟨before, since ++ [.observed entry], by simp,
      hsince.count (hkey.trans hsame.symm) hcounts hanswer⟩, hbefore.due⟩

/-- **An observation keeps the invariant.** -/
theorem Ledger.observe (h : Ledger config log state) {clock instant : ℤ}
    {snapshot : NotificationState} {observation : Observation}
    (hcommit : (Mutation.observe config clock snapshot observation).commit instant state = .ok next) :
    Ledger config (log ++ [.observed (entryOf config clock snapshot observation state)]) next := by
  have hcoherent := h.coherent.commit hcommit
  obtain ⟨hpendings, hincidents⟩ := commit_draft rfl hcommit
  set entry := entryOf config clock snapshot observation state with hentry
  -- the transitions of other events stay backed, and the incidents stay as they were opened
  have hothers : ∀ other ∈ state.pendingTransitions, other.eventKey ≠ eventKeyFor observation →
      Backed config (log ++ [.observed entry]) other := by
    intro other hother hkey
    refine (h.pending other hother).pass fun seen hseen hsame => ?_
    obtain rfl := LogEvent.observed.inj hseen
    exact absurd hsame.symm hkey
  have hopened : ∀ incident ∈ state.incidents,
      OpenedByRule config (log ++ [.observed entry]) incident :=
    fun incident hincident => (h.incidents incident hincident).append [.observed entry]
  suffices hboth : (∀ pending ∈ next.pendingTransitions,
        Backed config (log ++ [.observed entry]) pending) ∧
      ∀ incident ∈ next.incidents, OpenedByRule config (log ++ [.observed entry]) incident from
    ⟨hcoherent, hboth.1, hboth.2⟩
  rw [hpendings, hincidents]
  obtain ⟨hnone, hsame, hsame'⟩ | ⟨hrecords, rule, hrule, houtcome⟩ :=
    observe_recorded h.coherent config clock snapshot observation
  · rw [hsame, hsame']
    refine ⟨fun pending hmem => (h.pending pending hmem).pass fun seen hseen _ => ?_, hopened⟩
    obtain rfl := LogEvent.observed.inj hseen
    exact hnone
  have hcounts : observation.state = .problem →
      (∃ id, entry.answer = .pending id ∨ entry.answer = .opened id) → entry.counts = true := by
    rintro hproblem ⟨id, hcounted⟩
    have hhealth : entry.health = .problem := hproblem
    have hrecorded : entry.recorded = true := hrecords
    obtain hcounted | hcounted := hcounted <;> simp [Entry.counts, hhealth, hrecorded, hcounted]
  have hgiven : entry.answer = (Notifications.observe config clock snapshot observation state).1 := rfl
  generalize (Notifications.observe config clock snapshot observation state).1 = answer
    at houtcome hgiven
  generalize (Notifications.observe config clock snapshot observation state).2.pendingTransitions =
    pendings at houtcome ⊢
  generalize (Notifications.observe config clock snapshot observation state).2.incidents =
    incidents at houtcome ⊢
  cases houtcome with
  | cleared hstate hkept hopenings =>
    refine ⟨fun pending hmem => ?_, fun incident hmem => ?_⟩
    · exact hothers pending (hkept pending hmem).1 (hkept pending hmem).2
    · have hopening : incident.opening ∈ state.incidents.map Incident.opening := by
        rw [← hopenings]
        exact mem_map_of_mem hmem
      obtain ⟨old, hold, hsame⟩ := mem_map.mp hopening
      exact (hopened old hold).congr hsame.symm
  | inhibited hstate hout hkept =>
    exact ⟨fun pending hmem => hothers pending (hkept pending hmem).1 (hkept pending hmem).2, hopened⟩
  | known id hstate hopen =>
    -- an event that is open is not pending
    refine ⟨fun pending hmem => hothers pending hmem fun hkey => ?_, hopened⟩
    exact h.coherent.exclusive.disjoint _ (mem_map_of_mem hmem) (hkey ▸ hopen)
  | counted hstate hclosed hfor hready hkept =>
    refine ⟨fun other hmem => ?_, hopened⟩
    obtain rfl | hother := hkept other hmem
    · exact h.backs rfl (hcounts hstate ⟨_, .inl hgiven⟩) (.inl hgiven) hrule hfor
    · exact hothers other hother.1 hother.2
  | opened id hstate hfor hready hkept =>
    obtain ⟨hdue, hspaced⟩ := Bool.and_eq_true_iff.mp hready
    have hbacked := h.backs rfl (hcounts hstate ⟨_, .inr hgiven⟩) (.inr ⟨id, hgiven⟩) hrule hfor
    refine ⟨fun other hmem => hothers other (hkept other hmem).1 (hkept other hmem).2,
      fun incident hmem => ?_⟩
    obtain hold | hnew := mem_append.mp hmem
    · exact hopened incident hold
    · obtain rfl := mem_singleton.mp hnew
      exact hbacked.opens hdue hspaced hgiven rfl

/-- **An evaluation keeps the invariant** when what is due is spaced. -/
theorem Ledger.evaluate (h : Ledger config log state) {now instant : ℤ}
    {snapshot : NotificationState} (hspaced : SpacedAt state now)
    (hcommit : (Mutation.evaluatePending config now snapshot).commit instant state = .ok next) :
    Ledger config (log ++ [.evaluated now (evaluatePending config now snapshot state).1]) next := by
  have hcoherent := h.coherent.commit hcommit
  obtain ⟨hpendings, hincidents⟩ := commit_draft rfl hcommit
  have hevaluated : Evaluated config now state
      (Notifications.evaluatePending config now snapshot state) := h.coherent.evaluated snapshot
  -- an evaluation records no observation
  have hbacked : ∀ opened, ∀ pending ∈ state.pendingTransitions,
      Backed config (log ++ [.evaluated now opened]) pending := by
    intro opened pending hmem
    refine (h.pending pending hmem).pass fun entry hseen => ?_
    cases hseen
  refine ⟨hcoherent, fun pending hmem => ?_, fun incident hmem => ?_⟩
  · rw [hpendings] at hmem
    exact hbacked _ pending (hevaluated.pending pending hmem)
  · rw [hincidents] at hmem
    obtain hold | ⟨hlisted, pending, hpending, hdue, id, rule, -, rfl⟩ :=
      hevaluated.incidents incident hmem
    · exact (h.incidents incident hold).append _
    · exact (hbacked _ pending hpending).opens hdue (hspaced pending hpending hdue) hlisted rfl

/-- **The invariant holds in every run** whose evaluations find what is due spaced. -/
theorem Run.ledger (h : Run config SpacedAt log state) : Ledger config log state := by
  induction h with
  | create now =>
    refine ⟨coherent_createNotificationState now, fun pending hmem => ?_, fun incident hmem => ?_⟩
    · cases hmem
    · cases hmem
  | observe _ _ _ _ _ hcommit ih => exact ih.observe hcommit
  | evaluate _ _ _ hspaced _ hcommit ih => exact ih.evaluate hspaced hcommit

end Steps

/-! ## Two ways of opening -/

section Ways

variable {config : NotificationConfig} {log : List LogEvent} {state : NotificationState}
  {clock now : ℤ} {pending : PendingTransition} {observation : Observation}

/-- A pending transition with an observation more. -/
def PendingTransition.seenAgain (pending : PendingTransition) (now : ℤ) : PendingTransition :=
  { pending with
    lastObservedAt := now
    observations := pending.observations + 1 }

/-- A problem of a pending event at an instant, which is recorded. -/
structure Repeats (config : NotificationConfig) (clock now : ℤ) (state : NotificationState)
    (pending : PendingTransition) (observation : Observation) : Prop where
  key : eventKeyFor observation = pending.eventKey
  problem : observation.state = .problem
  instant : observation.observedAt.getD clock = now
  recorded : records config clock state observation state = true

/-- An observation of a pending event opens it exactly when it is due and spaced with one
observation more. -/
theorem Coherent.opened_iff_ready (h : Coherent state) (hmem : pending ∈ state.pendingTransitions)
    (hrepeats : Repeats config clock now state pending observation) :
    pending.eventKey ∈ openKeys (Notifications.observe config clock state observation state).2.incidents
      ↔ ((pending.seenAgain now).isDue now && (pending.seenAgain now).isSpaced now) = true := by
  have hclosed := h.exclusive.disjoint _ (mem_map_of_mem hmem)
  have hfor : ∀ {rule : NotificationRule} {other : PendingTransition},
      CountsFor state rule observation now other → other = pending.seenAgain now := by
    intro rule other hfor
    cases hfor with
    | started id title summary hfresh =>
      rw [hrepeats.key] at hfresh
      exact absurd (mem_map_of_mem hmem) hfresh
    | counted old hold hkey =>
      rw [eq_of_key_eq h.exclusive.pending_nodup hold hmem (hkey.trans hrepeats.key)]
      rfl
  obtain ⟨hnone, -⟩ | ⟨-, rule, -, houtcome⟩ := observe_recorded h config clock state observation
  · rw [hrepeats.recorded] at hnone
    cases hnone
  rw [hrepeats.instant] at houtcome
  generalize (Notifications.observe config clock state observation state).1 = answer at houtcome
  generalize (Notifications.observe config clock state observation state).2.pendingTransitions =
    pendings at houtcome
  generalize (Notifications.observe config clock state observation state).2.incidents =
    incidents at houtcome ⊢
  cases houtcome with
  | cleared hstate => exact absurd hrepeats.problem hstate
  | inhibited _ hout =>
    -- the host of a pending event is available
    have hnamed := h.pending_named pending hmem
    have hnames := eventKeyOf_names observation.hostType observation.hostId observation.resourceId
      observation.eventType
    rw [← eventKeyFor, hrepeats.key] at hnames
    have htype := hnames.hostType_eq.symm.trans hnamed.hostType_eq
    have hid := hnames.hostId_eq.symm.trans hnamed.hostId_eq
    have hevent := hnames.eventType_eq.symm.trans hnamed.eventType_eq
    rw [htype, hid, h.pending_available hmem (hevent ▸ hout.1)] at hout
    exact absurd hout.2 Bool.false_ne_true
  | known id _ hopen =>
    rw [hrepeats.key] at hopen
    exact absurd hopen hclosed
  | counted _ _ hcounts hwaits =>
    obtain rfl := hfor hcounts
    rw [hwaits]
    exact ⟨fun hopen => absurd hopen hclosed, fun hfalse => absurd hfalse Bool.false_ne_true⟩
  | opened id _ hcounts hopens =>
    obtain rfl := hfor hcounts
    exact ⟨fun _ => hopens, fun _ =>
      mem_openKeys.mpr ⟨_, mem_append_right _ (mem_singleton_self _), rfl, rfl⟩⟩

/-- The two ways of opening agree on a pending transition: an evaluation opens it exactly when it
was observed often enough and one more observation would open it. -/
def WaysAgree (config : NotificationConfig) (state : NotificationState) (now : ℤ)
    (pending : PendingTransition) : Prop :=
  ∀ (clock : ℤ) (observation : Observation), Repeats config clock now state pending observation →
    (pending.eventKey ∈ openKeys (Notifications.evaluatePending config now state state).2.incidents ↔
      minimumObservations pending.eventType ≤ pending.observations ∧
        pending.eventKey ∈ openKeys
          (Notifications.observe config clock state observation state).2.incidents)

/-- The problem that repeats a pending transition at an instant. Its sequence is new. -/
def repeatOf (state : NotificationState) (pending : PendingTransition) (now : ℤ) : Observation where
  hostType := pending.hostType
  hostId := pending.hostId
  resourceId := if h : 0 < pending.eventKey.resource then some ⟨pending.eventKey.resource, h⟩ else none
  eventType := pending.eventType
  state := .problem
  observedAt := some now
  sequence :=
    some ((((state.normalizedStates.find? fun normalized =>
      normalized.eventKey = pending.eventKey).bind (·.sequence)).getD 0) + 1)
  title := none
  summary := none

/-- Every pending transition can be repeated. -/
theorem Ledger.repeats (h : Ledger config log state) (hmem : pending ∈ state.pendingTransitions)
    (clock now : ℤ) : Repeats config clock now state pending (repeatOf state pending now) := by
  obtain ⟨rule, hrule, -⟩ := (h.pending pending hmem).due
  have hnamed := h.coherent.pending_named pending hmem
  have hkey : eventKeyFor (repeatOf state pending now) = pending.eventKey := by
    have hresource : (((repeatOf state pending now).resourceId.map (·.val)).getD 0) =
        pending.eventKey.resource := by
      unfold repeatOf
      dsimp only
      split
      · rfl
      · simp_all
    rw [eventKeyFor, eventKeyOf, hresource]
    simp only [repeatOf, ← hnamed.hostType_eq, ← hnamed.hostId_eq, ← hnamed.eventType_eq]
  refine ⟨hkey, rfl, rfl, ?_⟩
  have hrule' : enabledRule (resolveHostNotificationPolicy config
      (repeatOf state pending now).hostType (repeatOf state pending now).hostId
      ((repeatOf state pending now).observedAt.getD clock)) (repeatOf state pending now).eventType =
      some rule := hrule
  have hnews : repeatedObservation state (repeatOf state pending now) = none := by
    unfold repeatedObservation
    exact if_pos (.inr rfl)
  -- the sequence is after the last one
  have hfresh : isReplayed (repeatOf state pending now) (state.normalizedStates.find?
      fun normalized => normalized.eventKey = pending.eventKey) = false := by
    unfold isReplayed repeatOf
    dsimp only
    split
    · rename_i last sequence hlast hsequence
      obtain rfl := Option.some.inj hsequence
      rw [hlast]
      exact decide_eq_false (by simp only [Option.getD_some]; omega)
    · rfl
  rw [records, hrule', hnews, hkey, hfresh]
  rfl

/-- **The ways of opening agree on a pending transition exactly when** it is spaced if it is due. -/
theorem Ledger.waysAgree_iff (h : Ledger config log state)
    (hmem : pending ∈ state.pendingTransitions) :
    WaysAgree config state now pending ↔
      (pending.isDue now = true → pending.isSpaced now = true) := by
  obtain ⟨rule, hrule, -⟩ := (h.pending pending hmem).due
  have hevaluate := h.coherent.opened_iff_isDue hmem (show pending.rule? config now = some rule from hrule)
  have hdue : pending.isDue now = true ↔
      pending.dueAt ≤ now ∧ minimumObservations pending.eventType ≤ pending.observations := by
    rw [PendingTransition.isDue, Bool.and_eq_true, decide_eq_true_eq, decide_eq_true_eq]
  have hagain : (pending.seenAgain now).isDue now = true ↔
      pending.dueAt ≤ now ∧ minimumObservations pending.eventType ≤ pending.observations + 1 := by
    rw [PendingTransition.isDue, Bool.and_eq_true, decide_eq_true_eq, decide_eq_true_eq]
    rfl
  have hsame : (pending.seenAgain now).isSpaced now = pending.isSpaced now := rfl
  constructor
  · intro hagree hready
    obtain ⟨-, hopens⟩ := (hagree now _ (h.repeats hmem now now)).mp (hevaluate.mpr hready)
    rw [h.coherent.opened_iff_ready hmem (h.repeats hmem now now), Bool.and_eq_true, hsame] at hopens
    exact hopens.2
  · intro hspaced clock observation hrepeats
    rw [hevaluate, h.coherent.opened_iff_ready hmem hrepeats, Bool.and_eq_true, hagain, hsame]
    rw [hdue] at hspaced ⊢
    constructor
    · rintro ⟨hinstant, hcount⟩
      exact ⟨hcount, ⟨hinstant, Nat.le_succ_of_le hcount⟩, hspaced ⟨hinstant, hcount⟩⟩
    · rintro ⟨hcount, ⟨hinstant, -⟩, -⟩
      exact ⟨hinstant, hcount⟩

/-- **Both ways of opening an incident use the debounce rule** in every run whose evaluations find
what is due spaced: every incident was opened by the rule, and an evaluation opens what one more
observation would open exactly at the instants at which what is due is spaced. -/
theorem incidents_openedByRule (config : NotificationConfig) (log : List LogEvent)
    (state : NotificationState) (h : Run config SpacedAt log state) :
    (∀ incident ∈ state.incidents, OpenedByRule config log incident) ∧
      ∀ now, (∀ pending ∈ state.pendingTransitions, WaysAgree config state now pending) ↔
        SpacedAt state now :=
  ⟨h.ledger.incidents, fun _ => forall₂_congr fun _ hmem => h.ledger.waysAgree_iff hmem⟩

/-- The service fails at the start and again later, and the pending transitions are evaluated at
the end: the states before and after the evaluation. -/
def failsTwice (config : NotificationConfig) (again now : ℤ) :
    Except NotificationError (NotificationState × NotificationState) := do
  let start := createNotificationState 0
  let first ← (Mutation.observe config 0 start (serviceSeen .problem 0)).commit 0 start
  let second ← (Mutation.observe config again first (serviceSeen .problem again)).commit again first
  let evaluated ← (Mutation.evaluatePending config now second).commit now second
  return (second, evaluated)

/-- The run of a service that fails twice. -/
theorem run_failsTwice {allowed : NotificationState → ℤ → Prop} {again : ℤ}
    {second evaluated : NotificationState}
    (h : failsTwice config again now = .ok (second, evaluated)) (hallowed : allowed second now)
    (hagain : 0 ≤ again) (hnow : again ≤ now) :
    ∃ log, Run config allowed log evaluated ∧
      (log.map LogEvent.instant).Pairwise (· ≤ ·) ∧ ∀ event ∈ log, 0 ≤ event.instant := by
  rw [failsTwice] at h
  obtain ⟨first, hfirst, h⟩ := bind_eq_ok.mp h
  obtain ⟨_, hsecond, h⟩ := bind_eq_ok.mp h
  obtain ⟨_, hevaluated, h⟩ := bind_eq_ok.mp h
  obtain ⟨rfl, rfl⟩ := Prod.mk.inj (Except.ok.inj h)
  have hstart := @Run.create config allowed 0
  have hbefore := (hstart.observe _ _ _ _ hfirst).observe _ _ _ _ hsecond
  refine ⟨_, hbefore.evaluate _ _ _ hallowed hevaluated, ?_, ?_⟩ <;>
    simp [LogEvent.instant, entryOf, serviceSeen, hagain, hnow, hagain.trans hnow]

instance (state : NotificationState) (now : ℤ) : Decidable (SpacedAt state now) :=
  inferInstanceAs (Decidable (∀ pending ∈ state.pendingTransitions,
    pending.isDue now = true → pending.isSpaced now = true))

/-- The rule opens the incident of a service that fails for a minute. -/
theorem incidents_openedByRule_service :
    ∃ log state, Run serverConfig SpacedAt log state ∧ state.incidents.map (·.openedAt) = [60000] ∧
      ∀ incident ∈ state.incidents, OpenedByRule serverConfig log incident := by
  have hruns : (failsTwice serverConfig 30000 60000).map (fun states =>
      (states.2.incidents.map (·.openedAt), decide (SpacedAt states.1 60000))) =
      .ok ([60000], true) := by decide
  obtain ⟨⟨second, evaluated⟩, hstates⟩ : ∃ states, failsTwice serverConfig 30000 60000 = .ok states :=
    ⟨_, rfl⟩
  rw [hstates] at hruns
  obtain ⟨hopened, hspaced⟩ := Prod.mk.inj (Except.ok.inj hruns)
  obtain ⟨log, hrun, -⟩ :=
    run_failsTwice hstates (of_decide_eq_true hspaced) (by decide) (by decide)
  exact ⟨log, evaluated, hrun, hopened, (incidents_openedByRule serverConfig log evaluated hrun).1⟩

theorem minute_pos : 0 < 60 := by decide

/-- A configuration whose rule waits ten seconds. -/
def briefConfig : NotificationConfig :=
  { serverConfig with
    rules := [⟨.serviceUnhealthy, .warning, 10, true, [⟨1, Nat.one_pos⟩], some ⟨60, minute_pos⟩, 0⟩] }

/-- **An evaluation opens the incident of a service ten seconds after it was first seen to fail**,
which no observation does. -/
theorem evaluation_opensEarly :
    ¬∀ config log state, Run config (fun _ _ => True) log state →
      (log.map LogEvent.instant).Pairwise (· ≤ ·) →
      (∀ incident ∈ state.incidents, OpenedByRule config log incident) ∧
        ∀ now, ∀ pending ∈ state.pendingTransitions, WaysAgree config state now pending := by
  intro hrule
  have hruns : (failsTwice briefConfig 5000 10000).map (fun states =>
      states.2.incidents.map fun incident => (incident.eventType, incident.openedAt)) =
      .ok [(.serviceUnhealthy, 10000)] := by decide
  obtain ⟨⟨second, evaluated⟩, hstates⟩ : ∃ states, failsTwice briefConfig 5000 10000 = .ok states :=
    ⟨_, rfl⟩
  rw [hstates] at hruns
  obtain ⟨log, hrun, hsorted, hinstants⟩ : ∃ log, Run briefConfig (fun _ _ => True) log evaluated ∧
      (log.map LogEvent.instant).Pairwise (· ≤ ·) ∧ ∀ event ∈ log, 0 ≤ event.instant :=
    run_failsTwice hstates trivial (by decide) (by decide)
  obtain ⟨incident, hincident, htype, hopened⟩ : ∃ incident ∈ evaluated.incidents,
      incident.eventType = .serviceUnhealthy ∧ incident.openedAt = 10000 := by
    have hmem : (EventType.serviceUnhealthy, (10000 : ℤ)) ∈ evaluated.incidents.map
        fun incident => (incident.eventType, incident.openedAt) := by
      have hall : evaluated.incidents.map (fun incident => (incident.eventType, incident.openedAt)) =
          [(.serviceUnhealthy, 10000)] := Except.ok.inj hruns
      rw [hall]
      exact mem_singleton_self _
    obtain ⟨incident, hincident, hsame⟩ := mem_map.mp hmem
    exact ⟨incident, hincident, Prod.mk.inj hsame⟩
  obtain ⟨before, since, last, after, _, began, _, rule, rfl, -, -, hsince, -, hminute, -⟩ :=
    (hrule _ _ _ hrun hsorted).1 incident hincident
  obtain ⟨first, later, hfirst, -, -, hbegan⟩ := hsince.first
  -- what began the transition is in the log, so it was not before the start
  have hstart : 0 ≤ began := by
    rw [← hbegan]
    refine hinstants (.observed first) ?_
    rw [hfirst]
    simp
  have := hminute (by rw [htype]; decide)
  omega

end Ways

end HomelabInventory.Notifications
