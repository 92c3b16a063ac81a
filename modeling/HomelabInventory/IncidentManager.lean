import HomelabInventory.Notifications

/-!
# The incident manager

Observations become pending transitions, pending transitions become incidents,
and incidents queue the deliveries of their openings, reminders and recoveries.
Each operation is the change it makes to a draft of the state; `config` is the
configuration it read, `snapshot` the state it read before it asked for the
change, which other changes may have left behind by then.
-/

namespace HomelabInventory.Notifications

/-! ## Jobs, transitions and outages -/

structure Observation where
  hostType : HostType
  hostId : PositiveId
  resourceId : Option PositiveId
  eventType : EventType
  state : Health
  observedAt : Option ℤ
  sequence : Option ℤ
  title : Option String
  summary : Option String

/-- The key of what happens to a resource of a host, or to the host itself. -/
def eventKeyOf (hostType : HostType) (hostId : PositiveId) (resourceId : Option PositiveId)
    (eventType : EventType) : EventKey :=
  ⟨hostType, hostId, (resourceId.map (·.val)).getD 0, eventType⟩

def eventKeyFor (observation : Observation) : EventKey :=
  eventKeyOf observation.hostType observation.hostId observation.resourceId
    observation.eventType

def jobKey (incidentId : ℕ) (contactPointId : PositiveId) (kind : DeliveryKind)
    (occurrence : Option ℤ) : JobKey :=
  ⟨incidentId, contactPointId, kind, occurrence⟩

def cooldownActive (draft : NotificationState) (incident : Incident)
    (contactPointId : PositiveId) (now : ℤ) : Bool :=
  draft.cooldowns.any fun cooldown =>
    cooldown.hostType = incident.hostType ∧ cooldown.hostId = incident.hostId
      ∧ cooldown.resourceId = incident.resourceId ∧ cooldown.eventType = incident.eventType
      ∧ cooldown.contactPointId = contactPointId ∧ now < cooldown.expiresAt

/-- Push a queued job. -/
def pushJob (draft : NotificationState) (incident : Incident) (contactPointId : PositiveId)
    (kind : DeliveryKind) (now : ℤ) (occurrence : Option ℤ) : NotificationState :=
  { draft with
    deliveryJobs := draft.deliveryJobs ++
      [{ id := draft.counters.deliveryJob
         incidentId := incident.id
         contactPointId := contactPointId
         kind := kind
         state := .queued
         idempotencyKey := jobKey incident.id contactPointId kind occurrence
         attempts := 0
         availableAt := now
         leaseOwner := none
         leaseExpiresAt := none
         deliveredAt := none
         lastError := none
         createdAt := now
         updatedAt := now }]
    counters := { draft.counters with deliveryJob := draft.counters.deliveryJob + 1 } }

/-- Queue the job of one recipient, unless it cools down or the job is known. -/
def queueJob (draft : NotificationState) (incident : Incident) (kind : DeliveryKind) (now : ℤ)
    (occurrence : Option ℤ) (contactPointId : PositiveId) : NotificationState :=
  if kind = .opening ∧ cooldownActive draft incident contactPointId now then draft
  else if draft.deliveryJobs.any fun job =>
      job.idempotencyKey = jobKey incident.id contactPointId kind occurrence then draft
  else pushJob draft incident contactPointId kind now occurrence

def queueJobs (draft : NotificationState) (config : NotificationConfig) (incident : Incident)
    (rule : NotificationRule) (kind : DeliveryKind) (now : ℤ) (occurrence : Option ℤ)
    (recipientIds : Option (List PositiveId)) : NotificationState :=
  let recipients := match recipientIds with
    | none => contactPointsFor config rule
    | some ids => (contactPointsFor config rule).filter fun id => ids.contains id
  recipients.foldl (fun draft id => queueJob draft incident kind now occurrence id) draft

/-- Queue the opening job of one recipient again when it was cancelled. -/
def restoreCancelledOpeningJob (incident : Incident) (now : ℤ)
    (restored : Bool × NotificationState) (contactPointId : PositiveId) :
    Bool × NotificationState :=
  let draft := restored.2
  let key := jobKey incident.id contactPointId .opening none
  match draft.deliveryJobs.find? fun candidate => candidate.idempotencyKey = key with
  | none => restored
  | some job =>
    if job.state ≠ .cancelled ∨ cooldownActive draft incident contactPointId now then restored
    else
      (true, { draft with
        deliveryJobs := modifyFirst (fun candidate => candidate.idempotencyKey = key)
          (fun job => { job with
            state := .queued
            availableAt := now
            leaseOwner := none
            leaseExpiresAt := none
            lastError := none
            updatedAt := now })
          draft.deliveryJobs })

def restoreCancelledOpeningJobs (draft : NotificationState) (config : NotificationConfig)
    (incident : Incident) (rule : NotificationRule) (now : ℤ) : Bool × NotificationState :=
  (contactPointsFor config rule).foldl (restoreCancelledOpeningJob incident now) (false, draft)

def addTransition (draft : NotificationState) (incidentId : ℕ) (source target : IncidentState)
    (reason : String) (now : ℤ) : NotificationState :=
  { draft with
    transitions := draft.transitions ++
      [⟨draft.counters.transition, incidentId, source, target, reason, now⟩]
    counters := { draft.counters with transition := draft.counters.transition + 1 } }

def hostIncidentUnavailable (draft : NotificationState) (hostType : HostType)
    (hostId : PositiveId) : Bool :=
  (draft.incidents.any fun incident =>
    incident.hostType = hostType ∧ incident.hostId = hostId
      ∧ incident.eventType = .hostOffline ∧ incident.state = .opened)
  || draft.pendingTransitions.any fun pending =>
    pending.hostType = hostType ∧ pending.hostId = hostId ∧ pending.eventType = .hostOffline

/-- Cancel the queued and retrying jobs of some incidents. -/
def cancelWaitingJobs (draft : NotificationState) (incidentIds : List ℕ) (reason : String)
    (now : ℤ) : NotificationState :=
  { draft with
    deliveryJobs := draft.deliveryJobs.map fun job =>
      if job.incidentId ∈ incidentIds ∧ (job.state = .queued ∨ job.state = .retrying) then
        { job with
          state := .cancelled
          leaseOwner := none
          leaseExpiresAt := none
          lastError := some reason
          updatedAt := now }
      else job }

def cancelPendingChildDeliveries (draft : NotificationState) (hostType : HostType)
    (hostId : PositiveId) (now : ℤ) : NotificationState :=
  let childIncidentIds := (draft.incidents.filter fun incident =>
    incident.hostType = hostType ∧ incident.hostId = hostId
      ∧ incident.eventType ≠ .hostOffline).map (·.id)
  cancelWaitingJobs draft childIncidentIds "Delivery inhibited by a pending host outage." now

/-- The contact points to which the opening of an incident was delivered. -/
def deliveredOpenings (draft : NotificationState) (incidentId : ℕ) : List PositiveId :=
  (draft.deliveryJobs.filter fun job =>
    job.incidentId = incidentId ∧ job.kind = .opening ∧ job.state = .delivered).map
      (·.contactPointId)

/-- The contact points that have a recovery job of an incident. -/
def recoveredRecipients (draft : NotificationState) (incidentId : ℕ) : List PositiveId :=
  (draft.deliveryJobs.filter fun job =>
    job.incidentId = incidentId ∧ job.kind = .recovery).map (·.contactPointId)

/-- Resolve or cancel an incident. -/
def closeIncident (draft : NotificationState) (incident : Incident) (target : IncidentState)
    (reason : String) (now : ℤ) : NotificationState :=
  let draft := { draft with
    incidents := modifyFirst (fun candidate => candidate.id = incident.id)
      (fun incident => { incident with
        state := target
        resolvedAt := if target = .resolved then some now else incident.resolvedAt
        updatedAt := now })
      draft.incidents }
  addTransition draft incident.id .opened target reason now

/-! ## Observations -/

/-- What an observation or an evaluation did. -/
inductive IncidentAction
  | ignored (reason : String)
  | pending (pendingId : ℕ)
  | unchanged (incidentId : Option ℕ)
  | cancelled (previousState : Health)
  | observed (previousState : Health)
  | resolved (incidentId : ℕ)
  | inhibited (reason : String)
  | opened (incidentId : ℕ)
deriving DecidableEq

def minimumObservations : EventType → ℕ
  | .serviceUnhealthy | .containerUnhealthy | .containerMissing => 2
  | .hostOffline | .storageWarning | .storageFailed => 1

/-- Splice a pending transition out of the draft. -/
def removePending (draft : NotificationState) (pending : PendingTransition) :
    NotificationState :=
  { draft with pendingTransitions := spliceOut (·.id) pending.id draft.pendingTransitions }

/-- The incident that a pending transition becomes. -/
def incidentOf (id : ℕ) (rule : NotificationRule) (pending : PendingTransition) (now : ℤ) :
    Incident where
  id := id
  eventKey := pending.eventKey
  hostType := pending.hostType
  hostId := pending.hostId
  resourceId := pending.resourceId
  eventType := pending.eventType
  severity := rule.severity
  title := pending.title
  summary := pending.summary
  state := .opened
  openedAt := now
  resolvedAt := none
  acknowledgedAt := none
  acknowledgedBy := none
  notificationDeliveredAt := none
  lastReminderAt := none
  createdAt := now
  updatedAt := now

/-- Move a pending transition to the incidents; a host outage drops the pending transitions of
the host's children. -/
def promotePending (draft : NotificationState) (rule : NotificationRule)
    (pending : PendingTransition) (now : ℤ) : NotificationState :=
  let draft := { draft with
    incidents := draft.incidents ++ [incidentOf draft.counters.incident rule pending now]
    counters := { draft.counters with incident := draft.counters.incident + 1 } }
  let draft := removePending draft pending
  if pending.eventType = .hostOffline then
    { draft with
      pendingTransitions := draft.pendingTransitions.filter fun candidate =>
        candidate.hostType ≠ pending.hostType ∨ candidate.hostId ≠ pending.hostId
          ∨ candidate.eventType = .hostOffline }
  else draft

def openFromPending (draft : NotificationState) (config : NotificationConfig)
    (policy : HostPolicy) (rule : NotificationRule) (pending : PendingTransition) (now : ℤ) :
    IncidentAction × NotificationState :=
  let incident := incidentOf draft.counters.incident rule pending now
  let draft := promotePending draft rule pending now
  let draft := addTransition draft incident.id .pending .opened "debounce-satisfied" now
  let draft := if policy.muted = false ∧ policy.quiet = false
    then queueJobs draft config incident rule .opening now none none else draft
  (.opened incident.id, draft)

/-- The answer to an observation without a sequence that repeats what is known of a host. -/
def repeatedObservation (snapshot : NotificationState) (observation : Observation) :
    Option IncidentAction :=
  let eventKey := eventKeyFor observation
  let normalized := snapshot.normalizedStates.find? fun state => state.eventKey = eventKey
  let pending := snapshot.pendingTransitions.find? fun candidate => candidate.eventKey = eventKey
  let incident := snapshot.incidents.find? fun candidate =>
    candidate.eventKey = eventKey ∧ candidate.state = .opened
  if observation.eventType ≠ .hostOffline ∨ observation.sequence.isSome then none
  else if normalized.map (·.state) ≠ some observation.state then none
  else match observation.state, pending, incident with
    | .problem, some pending, _ => some (.pending pending.id)
    | .problem, none, some incident => some (.unchanged (some incident.id))
    | .unknown, none, _ => some (.unchanged none)
    | .healthy, none, none => some (.unchanged none)
    | _, _, _ => none

/-- The sequence of the observation is not after the last one seen. -/
def isReplayed (observation : Observation) (normalized : Option NormalizedState) : Bool :=
  match normalized.bind (·.sequence), observation.sequence with
  | some last, some sequence => decide (sequence ≤ last)
  | _, _ => false

/-- The normalized state of an event, pushed when there is none. -/
def normalizedStateFor (draft : NotificationState) (observation : Observation) (now : ℤ) :
    NormalizedState × NotificationState :=
  match draft.normalizedStates.find? fun state => state.eventKey = eventKeyFor observation with
  | some normalized => (normalized, draft)
  | none =>
    let normalized : NormalizedState :=
      { id := draft.counters.normalizedState
        eventKey := eventKeyFor observation
        hostType := observation.hostType
        hostId := observation.hostId
        resourceId := observation.resourceId
        eventType := observation.eventType
        state := .unknown
        firstObservedAt := now
        lastObservedAt := now
        sequence := observation.sequence
        title := none
        summary := none }
    (normalized, { draft with
      normalizedStates := draft.normalizedStates ++ [normalized]
      counters := { draft.counters with
        normalizedState := draft.counters.normalizedState + 1 } })

/-- Write an observation into the normalized state of its event. -/
def recordObservation (draft : NotificationState) (observation : Observation)
    (title summary : String) (now : ℤ) : NotificationState :=
  { draft with
    normalizedStates := modifyFirst (fun state => state.eventKey = eventKeyFor observation)
      (fun state => { state with
        state := observation.state
        lastObservedAt := now
        sequence := observation.sequence <|> state.sequence
        title := some title
        summary := some summary })
      draft.normalizedStates }

/-- An observation that is no problem drops the pending transition; a healthy one resolves the
incident. -/
def observeClear (draft : NotificationState) (config : NotificationConfig)
    (rule : NotificationRule) (observation : Observation) (previousState : Health)
    (pending : Option PendingTransition) (incident : Option Incident) (now : ℤ) :
    IncidentAction × NotificationState :=
  let draft := (pending.map (removePending draft)).getD draft
  match incident with
  | some incident =>
    if observation.state = .healthy then
      let draft := closeIncident draft incident .resolved "healthy-observation" now
      let openingRecipients := deliveredOpenings draft incident.id
      let draft := if openingRecipients.isEmpty then draft
        else queueJobs draft config incident rule .recovery now none (some openingRecipients)
      (.resolved incident.id, draft)
    else (if pending.isSome then .cancelled previousState else .observed previousState, draft)
  | none => (if pending.isSome then .cancelled previousState else .observed previousState, draft)

/-- The pending transition that the first observation of a problem starts. -/
def pendingOf (id : ℕ) (rule : NotificationRule) (observation : Observation)
    (title summary : String) (now : ℤ) : PendingTransition where
  id := id
  eventKey := eventKeyFor observation
  hostType := observation.hostType
  hostId := observation.hostId
  resourceId := observation.resourceId
  eventType := observation.eventType
  severity := rule.severity
  title := title
  summary := summary
  firstObservedAt := now
  lastObservedAt := now
  observations := 1
  dueAt := now + rule.debounceSeconds * 1000

/-- Start the pending transition of a problem, or count the observation. -/
def countProblem (draft : NotificationState) (rule : NotificationRule)
    (observation : Observation) (title summary : String) (pending : Option PendingTransition)
    (now : ℤ) : PendingTransition × NotificationState :=
  match pending with
  | none =>
    let started := pendingOf draft.counters.pendingTransition rule observation title summary now
    (started, { draft with
      pendingTransitions := draft.pendingTransitions ++ [started]
      counters := { draft.counters with
        pendingTransition := draft.counters.pendingTransition + 1 } })
  | some pending =>
    let count (pending : PendingTransition) : PendingTransition := { pending with
      lastObservedAt := now
      observations := pending.observations + 1 }
    (count pending, { draft with
      pendingTransitions := modifyFirst (fun candidate => candidate.id = pending.id) count
        draft.pendingTransitions })

/-- An outage that becomes pending drops the other pending transitions of the host and cancels
the waiting deliveries of its children. -/
def inhibitChildren (draft : NotificationState) (observation : Observation) (now : ℤ) :
    NotificationState :=
  if observation.eventType = .hostOffline then
    cancelPendingChildDeliveries
      { draft with
        pendingTransitions := draft.pendingTransitions.filter fun candidate =>
          candidate.eventKey = eventKeyFor observation
            ∨ candidate.hostType ≠ observation.hostType ∨ candidate.hostId ≠ observation.hostId }
      observation.hostType observation.hostId now
  else draft

/-- A problem is inhibited by an outage of its host, known as an open incident, or counted until
it was seen often and long enough. -/
def observeProblem (draft : NotificationState) (config : NotificationConfig)
    (policy : HostPolicy) (rule : NotificationRule) (observation : Observation)
    (title summary : String) (pending : Option PendingTransition) (incident : Option Incident)
    (now : ℤ) : IncidentAction × NotificationState :=
  if observation.eventType ≠ .hostOffline
      ∧ hostIncidentUnavailable draft observation.hostType observation.hostId then
    (.inhibited "host-offline", (pending.map (removePending draft)).getD draft)
  else match incident with
    | some incident => (.unchanged (some incident.id), draft)
    | none =>
      let (currentPending, draft) :=
        countProblem draft rule observation title summary pending now
      let draft := inhibitChildren draft observation now
      let minimum := minimumObservations observation.eventType
      let enoughTime := decide (currentPending.dueAt ≤ now)
      let enoughSpacing :=
        minimum = 1 || decide (60000 ≤ now - currentPending.firstObservedAt)
      if !enoughTime || decide (currentPending.observations < minimum) || !enoughSpacing then
        (.pending currentPending.id, draft)
      else openFromPending draft config policy rule currentPending now

/-- What a recorded observation makes of the pending transition and the incident of its event. -/
def decideObservation (draft : NotificationState) (config : NotificationConfig)
    (policy : HostPolicy) (rule : NotificationRule) (observation : Observation)
    (previousState : Health) (title summary : String) (now : ℤ) :
    IncidentAction × NotificationState :=
  let eventKey := eventKeyFor observation
  let pending := draft.pendingTransitions.find? fun candidate => candidate.eventKey = eventKey
  let incident := draft.incidents.find? fun candidate =>
    candidate.eventKey = eventKey ∧ candidate.state = .opened
  match observation.state with
  | .healthy | .unknown =>
    observeClear draft config rule observation previousState pending incident now
  | .problem =>
    observeProblem draft config policy rule observation title summary pending incident now

/-- The change that an observation asks for. -/
def observeDraft (config : NotificationConfig) (policy : HostPolicy) (rule : NotificationRule)
    (observation : Observation) (now : ℤ) (draft : NotificationState) :
    IncidentAction × NotificationState :=
  let eventKey := eventKeyFor observation
  let draft := { draft with lastEvaluatedAt := some now }
  if isReplayed observation
      (draft.normalizedStates.find? fun state => state.eventKey = eventKey) then
    (.ignored "replayed-sequence", draft)
  else
    let (normalized, draft) := normalizedStateFor draft observation now
    let title := (observation.title <|> normalized.title).getD observation.eventType.text
    let summary := (observation.summary <|> normalized.summary).getD ""
    let draft := recordObservation draft observation title summary now
    decideObservation draft config policy rule observation normalized.state title summary now

def observe (config : NotificationConfig) (clock : ℤ) (snapshot : NotificationState)
    (observation : Observation) (draft : NotificationState) :
    IncidentAction × NotificationState :=
  let now := observation.observedAt.getD clock
  let policy := resolveHostNotificationPolicy config observation.hostType observation.hostId now
  match enabledRule policy observation.eventType with
  | none => (.ignored "disabled", draft)
  | some rule =>
    match repeatedObservation snapshot observation with
    | some action => (action, draft)
    | none => observeDraft config policy rule observation now draft

/-! ## Evaluations -/

/-- A pending transition was seen long and often enough to be decided. -/
def PendingTransition.isDue (pending : PendingTransition) (now : ℤ) : Bool :=
  decide (pending.dueAt ≤ now)
    && decide (minimumObservations pending.eventType ≤ pending.observations)

/-- Decide one pending transition: drop it, or open its incident. -/
def evaluatePendingOne (config : NotificationConfig) (now : ℤ)
    (opened : List ℕ × NotificationState) (pending : PendingTransition) :
    List ℕ × NotificationState :=
  let draft := opened.2
  if pending.isDue now = false then opened
  else
    let policy := resolveHostNotificationPolicy config pending.hostType pending.hostId now
    match enabledRule policy pending.eventType with
    | none => (opened.1, removePending draft pending)
    | some rule =>
      if pending.eventType ≠ .hostOffline
          ∧ hostIncidentUnavailable draft pending.hostType pending.hostId then
        (opened.1, removePending draft pending)
      else match openFromPending draft config policy rule pending now with
        | (.opened incidentId, draft) => (opened.1 ++ [incidentId], draft)
        | (_, draft) => (opened.1, draft)

/-- Some pending transition is due and would be dropped or opened. -/
def hasDueWork (config : NotificationConfig) (now : ℤ) (snapshot : NotificationState) : Bool :=
  snapshot.pendingTransitions.any fun pending =>
    pending.isDue now &&
      (let policy := resolveHostNotificationPolicy config pending.hostType pending.hostId now
       (enabledRule policy pending.eventType).isNone || decide (pending.eventType = .hostOffline)
         || !hostIncidentUnavailable snapshot pending.hostType pending.hostId)

def evaluatePending (config : NotificationConfig) (now : ℤ) (snapshot draft : NotificationState) :
    List ℕ × NotificationState :=
  if hasDueWork config now snapshot then
    -- the loop runs over a copy of the list
    let (opened, draft) := draft.pendingTransitions.foldl (evaluatePendingOne config now) ([], draft)
    (opened, { draft with lastEvaluatedAt := some now })
  else ([], draft)

/-- The child of a host that is offline, or about to be. -/
def isInhibited (state : NotificationState) (incident : Incident) : Bool :=
  decide (incident.eventType ≠ .hostOffline)
    && hostIncidentUnavailable state incident.hostType incident.hostId

/-- The rule by which a reminder of an incident is due. -/
def dueReminder (config : NotificationConfig) (now : ℤ) (state : NotificationState)
    (incident : Incident) : Option NotificationRule :=
  if incident.state ≠ .opened ∨ incident.acknowledgedAt.isSome then none
  else match incident.notificationDeliveredAt with
    | none => none
    | some deliveredAt =>
      if isInhibited state incident then none
      else
        let policy := resolveHostNotificationPolicy config incident.hostType incident.hostId now
        let lastSentAt := incident.lastReminderAt.getD deliveredAt
        if policy.muted || policy.quiet then none
        else (enabledRule policy incident.eventType).filter fun rule =>
          rule.reminderIntervalSeconds.any fun interval =>
            decide ((interval.val : ℤ) * 1000 ≤ now - lastSentAt)

def evaluateReminder (config : NotificationConfig) (now : ℤ)
    (reminded : List ℕ × NotificationState) (incident : Incident) :
    List ℕ × NotificationState :=
  let draft := reminded.2
  match dueReminder config now draft incident with
  | none => reminded
  | some rule =>
    let queued := queueJobs draft config incident rule .reminder now (some now) none
    if queued.deliveryJobs.length = draft.deliveryJobs.length then (reminded.1, queued)
    else
      (reminded.1 ++ [incident.id], { queued with
        incidents := modifyFirst (fun candidate => candidate.id = incident.id)
          (fun incident => { incident with lastReminderAt := some now, updatedAt := now })
          queued.incidents })

def evaluateReminders (config : NotificationConfig) (now : ℤ)
    (snapshot draft : NotificationState) : List ℕ × NotificationState :=
  if snapshot.incidents.any fun incident =>
      (dueReminder config now snapshot incident).isSome then
    draft.incidents.foldl (evaluateReminder config now) ([], draft)
  else ([], draft)

/-- The rule by which the opening of an incident may be sent now. -/
def openingRule (config : NotificationConfig) (now : ℤ) (state : NotificationState)
    (incident : Incident) : Option NotificationRule :=
  if incident.state ≠ .opened then none
  else if isInhibited state incident then none
  else
    let policy := resolveHostNotificationPolicy config incident.hostType incident.hostId now
    if policy.muted || policy.quiet then none else enabledRule policy incident.eventType

/-- Some contact point has no opening job of the incident, or a cancelled one. -/
def hasOpeningOpportunity (config : NotificationConfig) (now : ℤ)
    (snapshot : NotificationState) (incident : Incident) : Bool :=
  (openingRule config now snapshot incident).any fun rule =>
    (contactPointsFor config rule).any fun contactPointId =>
      let job := snapshot.deliveryJobs.find? fun candidate =>
        candidate.idempotencyKey = jobKey incident.id contactPointId .opening none
      (job.all fun job => job.state = .cancelled)
        && !cooldownActive snapshot incident contactPointId now

def evaluateSuppressedOpening (config : NotificationConfig) (now : ℤ)
    (queued : List ℕ × NotificationState) (incident : Incident) : List ℕ × NotificationState :=
  match openingRule config now queued.2 incident with
  | none => queued
  | some rule =>
    let (restored, draft) := restoreCancelledOpeningJobs queued.2 config incident rule now
    let before := draft.deliveryJobs.length
    let draft := queueJobs draft config incident rule .opening now none none
    if restored || decide (before < draft.deliveryJobs.length) then
      (queued.1 ++ [incident.id], draft)
    else (queued.1, draft)

def evaluateSuppressedOpenings (config : NotificationConfig) (now : ℤ)
    (snapshot draft : NotificationState) : List ℕ × NotificationState :=
  if snapshot.incidents.any (hasOpeningOpportunity config now snapshot) then
    draft.incidents.foldl (evaluateSuppressedOpening config now) ([], draft)
  else ([], draft)

/-- The rule by which the recovery of an incident may be queued. -/
def recoveryRule (config : NotificationConfig) (now : ℤ) (incident : Incident) :
    Option NotificationRule :=
  if incident.state ≠ .resolved then none
  else enabledRule (resolveHostNotificationPolicy config incident.hostType incident.hostId now)
    incident.eventType

/-- Some contact point was told of the incident and has no recovery job. -/
def hasRecoveryOpportunity (config : NotificationConfig) (now : ℤ)
    (snapshot : NotificationState) (incident : Incident) : Bool :=
  (recoveryRule config now incident).any fun rule =>
    (contactPointsFor config rule).any fun contactPointId =>
      (deliveredOpenings snapshot incident.id).contains contactPointId
        && !(recoveredRecipients snapshot incident.id).contains contactPointId

def evaluateRecovery (config : NotificationConfig) (now : ℤ)
    (queued : List ℕ × NotificationState) (incident : Incident) : List ℕ × NotificationState :=
  match recoveryRule config now incident with
  | none => queued
  | some rule =>
    let before := queued.2
    let recovered := recoveredRecipients before incident.id
    let openingRecipients := (deliveredOpenings before incident.id).filter fun id =>
      !(recovered.contains id)
    if openingRecipients.isEmpty then queued
    else
      let draft :=
        queueJobs before config incident rule .recovery now none (some openingRecipients)
      if before.deliveryJobs.length < draft.deliveryJobs.length then
        (queued.1 ++ [incident.id], draft)
      else (queued.1, draft)

def evaluateRecoveries (config : NotificationConfig) (now : ℤ)
    (snapshot draft : NotificationState) : List ℕ × NotificationState :=
  if snapshot.incidents.any (hasRecoveryOpportunity config now snapshot) then
    draft.incidents.foldl (evaluateRecovery config now) ([], draft)
  else ([], draft)

/-! ## Disconnected hosts, changed policies and acknowledgements -/

/-- Cancel the open incidents that match. -/
def cancelIncidents (draft : NotificationState) (p : Incident → Bool) (reason : String)
    (now : ℤ) : NotificationState :=
  draft.incidents.foldl
    (fun draft incident =>
      if p incident && decide (incident.state = .opened) then
        closeIncident draft incident .cancelled reason now
      else draft)
    draft

/-- The change of the state that `cancelHost` asks for; it drops the host from the configuration
before. -/
def cancelHost (hostType : HostType) (hostId : PositiveId) (reason : String) (now : ℤ)
    (draft : NotificationState) : NotificationState :=
  let draft := { draft with
    pendingTransitions := draft.pendingTransitions.filter fun pending =>
      pending.hostType ≠ hostType ∨ pending.hostId ≠ hostId
    normalizedStates := draft.normalizedStates.filter fun state =>
      state.hostType ≠ hostType ∨ state.hostId ≠ hostId
    evaluationCursors := draft.evaluationCursors.filter fun cursor =>
      cursor.hostType ≠ hostType ∨ cursor.hostId ≠ hostId
    cooldowns := draft.cooldowns.filter fun cooldown =>
      cooldown.hostType ≠ hostType ∨ cooldown.hostId ≠ hostId }
  let draft := cancelIncidents draft
    (fun incident => incident.hostType = hostType ∧ incident.hostId = hostId) reason now
  let hostIncidentIds := (draft.incidents.filter fun incident =>
    incident.hostType = hostType ∧ incident.hostId = hostId).map (·.id)
  cancelWaitingJobs draft hostIncidentIds
    "Delivery cancelled because the monitored host was disconnected." now

/-- The hosts that a change of the policies is about; none means all. -/
structure PolicyScope where
  hostType : Option HostType
  hostId : Option PositiveId

/-- The policies still monitor what an event is about. -/
def allowed (config : NotificationConfig) (scope : PolicyScope) (now : ℤ) (hostType : HostType)
    (hostId : PositiveId) (resourceId : Option PositiveId) (eventType : EventType) : Bool :=
  let inScope := scope.hostType.all (hostType = ·) && scope.hostId.all (hostId = ·)
  if inScope = false then true
  else
    let policy := resolveHostNotificationPolicy config hostType hostId now
    if (enabledRule policy eventType).isNone then false
    else if eventType = .hostOffline then true
    else resourceId.any fun id => policy.resources.any fun resource => resource.id = id

/-- Some record of the snapshot is no longer allowed. -/
def requiresReconciliation (config : NotificationConfig) (scope : PolicyScope) (now : ℤ)
    (snapshot : NotificationState) : Bool :=
  (snapshot.pendingTransitions.any fun record =>
    !(allowed config scope now record.hostType record.hostId record.resourceId record.eventType))
  || (snapshot.normalizedStates.any fun record =>
    !(allowed config scope now record.hostType record.hostId record.resourceId record.eventType))
  || (snapshot.cooldowns.any fun record =>
    !(allowed config scope now record.hostType record.hostId record.resourceId record.eventType))
  || snapshot.incidents.any fun record =>
    decide (record.state = .opened)
      && !(allowed config scope now record.hostType record.hostId record.resourceId
        record.eventType)

def reconcilePolicies (config : NotificationConfig) (scope : PolicyScope) (reason : String)
    (now : ℤ) (snapshot draft : NotificationState) : List ℕ × NotificationState :=
  if requiresReconciliation config scope now snapshot then
    let draft := { draft with
      pendingTransitions := draft.pendingTransitions.filter fun record =>
        allowed config scope now record.hostType record.hostId record.resourceId record.eventType
      normalizedStates := draft.normalizedStates.filter fun record =>
        allowed config scope now record.hostType record.hostId record.resourceId record.eventType
      cooldowns := draft.cooldowns.filter fun record =>
        allowed config scope now record.hostType record.hostId record.resourceId
          record.eventType }
    let unmonitored (record : Incident) : Bool :=
      !(allowed config scope now record.hostType record.hostId record.resourceId
        record.eventType)
    let cancelledIncidentIds := (draft.incidents.filter fun incident =>
      unmonitored incident && decide (incident.state = .opened)).map (·.id)
    let draft := cancelIncidents draft unmonitored reason now
    (cancelledIncidentIds, cancelWaitingJobs draft cancelledIncidentIds
      "Delivery cancelled because the notification policy no longer monitors this incident." now)
  else ([], draft)

def acknowledge (incidentId : ℕ) (actor : Option ℕ) (now : ℤ) (draft : NotificationState) :
    Except NotificationError (Incident × NotificationState) :=
  match draft.incidents.find? fun candidate => candidate.id = incidentId with
  | none => .error (.unknownIncident incidentId)
  | some incident =>
    if incident.acknowledgedAt.isSome then .ok (incident, draft)
    else
      let acknowledged (incident : Incident) : Incident := { incident with
        acknowledgedAt := some now
        acknowledgedBy := actor
        updatedAt := now }
      .ok (acknowledged incident, { draft with
        incidents := modifyFirst (fun candidate => candidate.id = incidentId) acknowledged
          draft.incidents
        acknowledgements := draft.acknowledgements ++
          [⟨draft.counters.acknowledgement, incidentId, actor, now⟩]
        counters := { draft.counters with
          acknowledgement := draft.counters.acknowledgement + 1 } })

end HomelabInventory.Notifications
