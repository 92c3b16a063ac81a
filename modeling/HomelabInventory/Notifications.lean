import HomelabInventory.ExceptLoop
import HomelabInventory.RecordTable
import Mathlib.Data.Int.Notation

/-!
# The notification configuration and state

The records of the notification store, the policy that a configuration gives a
host, and the check every change of the state has to pass. Instants are
milliseconds; where the source stores the ISO text of an instant, the model
stores the instant.
-/

namespace HomelabInventory.Notifications

/-! ## Configuration -/

/-- A positive id, as `assertPositiveId` requires of every reference from outside. -/
abbrev PositiveId := { n : ℕ // 0 < n }

inductive HostType
  | server
  | nas
  | pcBuild
deriving DecidableEq

inductive EventType
  | hostOffline
  | serviceUnhealthy
  | containerUnhealthy
  | containerMissing
  | storageWarning
  | storageFailed
deriving DecidableEq

def EventType.text : EventType → String
  | .hostOffline => "host.offline"
  | .serviceUnhealthy => "service.unhealthy"
  | .containerUnhealthy => "container.unhealthy"
  | .containerMissing => "container.missing"
  | .storageWarning => "storage.warning"
  | .storageFailed => "storage.failed"

inductive Severity
  | info
  | warning
  | critical
deriving DecidableEq

inductive ContactPointType
  | ntfy
  | webhook
deriving DecidableEq

structure ContactPoint where
  id : PositiveId
  type : ContactPointType
  enabled : Bool
  secretId : Option PositiveId
deriving DecidableEq

structure NotificationRule where
  eventType : EventType
  severity : Severity
  debounceSeconds : ℕ
  enabled : Bool
  contactPointIds : List PositiveId
  reminderIntervalSeconds : Option PositiveId
  cooldownSeconds : ℕ
deriving DecidableEq

/-- The rule of a host override: the fields it has replace those of the rule. -/
structure RuleOverride where
  eventType : EventType
  severity : Option Severity
  debounceSeconds : Option ℕ
  enabled : Option Bool
  contactPointIds : Option (List PositiveId)
  reminderIntervalSeconds : Option (Option PositiveId)
  cooldownSeconds : Option ℕ

inductive HostOverrideMode
  | inherit
  | custom
  | disabled
deriving DecidableEq

structure HostOverride where
  hostType : HostType
  hostId : PositiveId
  mode : HostOverrideMode
  mutedUntil : Option ℤ
  monitoredResourceIds : List PositiveId
  rules : List RuleOverride

structure MonitoredResource where
  id : PositiveId
  hostType : HostType
  hostId : PositiveId
  enabled : Bool
deriving DecidableEq

/-- The weekday (0 is Sunday) and the minutes since midnight of an instant. -/
structure LocalDateParts where
  weekday : ℕ
  minutes : ℕ

/-- A time zone is what it makes of an instant; the platform throws for an unknown one. -/
abbrev TimeZone := ℤ → Option LocalDateParts

structure QuietHours where
  enabled : Bool
  timezone : TimeZone
  /-- The clock minutes of `HH:MM`. -/
  start : ℕ
  finish : ℕ
  weekdays : List ℕ

structure Retention where
  incidentDays : ℕ
  deliveryAttemptDays : ℕ

structure NotificationConfig where
  enabled : Bool
  contactPoints : List ContactPoint
  rules : List NotificationRule
  quietHours : List QuietHours
  hostOverrides : List HostOverride
  monitoredResources : List MonitoredResource
  retention : Retention

/-! ## Policies -/

def QuietHours.active (schedule : QuietHours) (now : ℤ) : Bool :=
  if schedule.enabled = false then false
  else match schedule.timezone now with
    | none => false
    | some localDate =>
      if schedule.start = schedule.finish then schedule.weekdays.contains localDate.weekday
      else if schedule.start < schedule.finish then
        schedule.weekdays.contains localDate.weekday && decide (schedule.start ≤ localDate.minutes)
          && decide (localDate.minutes < schedule.finish)
      else if schedule.start ≤ localDate.minutes then
        schedule.weekdays.contains localDate.weekday
      else
        -- after midnight the schedule of the day before still runs
        decide (localDate.minutes < schedule.finish)
          && schedule.weekdays.contains ((localDate.weekday + 6) % 7)

def quietHoursActive (quietHours : List QuietHours) (now : ℤ) : Bool :=
  quietHours.any fun schedule => schedule.active now

def mergeRule (rule : NotificationRule) : Option RuleOverride → NotificationRule
  | none => rule
  | some override =>
    { eventType := rule.eventType
      severity := override.severity.getD rule.severity
      debounceSeconds := override.debounceSeconds.getD rule.debounceSeconds
      enabled := override.enabled.getD rule.enabled
      contactPointIds := override.contactPointIds.getD rule.contactPointIds
      reminderIntervalSeconds :=
        override.reminderIntervalSeconds.getD rule.reminderIntervalSeconds
      cooldownSeconds := override.cooldownSeconds.getD rule.cooldownSeconds }

structure HostPolicy where
  enabled : Bool
  muted : Bool
  mutedUntil : Option ℤ
  quiet : Bool
  rules : List NotificationRule
  resources : List MonitoredResource

def resolveHostNotificationPolicy (config : NotificationConfig) (hostType : HostType)
    (hostId : PositiveId) (now : ℤ) : HostPolicy :=
  let override := config.hostOverrides.find? fun candidate =>
    candidate.hostType = hostType ∧ candidate.hostId = hostId
  let mode : HostOverrideMode := (override.map (·.mode)).getD .inherit
  let mutedUntil := override.bind (·.mutedUntil)
  let customRules := (override.map (·.rules)).getD []
  let resourceIds :=
    if mode = .custom then (override.map (·.monitoredResourceIds)).getD []
    else (config.monitoredResources.filter fun resource =>
      resource.hostType = hostType ∧ resource.hostId = hostId ∧ resource.enabled).map (·.id)
  { enabled := config.enabled && decide (mode ≠ .disabled)
    muted := mutedUntil.any (now < ·)
    mutedUntil := mutedUntil
    quiet := quietHoursActive config.quietHours now
    rules := config.rules.map fun rule =>
      -- the rules of the override are a map: the last one of an event type counts
      mergeRule rule <| if mode = .custom
        then customRules.reverse.find? fun custom => custom.eventType = rule.eventType
        else none
    resources := config.monitoredResources.filter fun resource =>
      resourceIds.contains resource.id && resource.enabled }

def resolveRule (policy : HostPolicy) (eventType : EventType) : Option NotificationRule :=
  policy.rules.find? fun rule => rule.eventType = eventType

/-- The rule of an event type, when the policy and the rule are enabled. -/
def enabledRule (policy : HostPolicy) (eventType : EventType) : Option NotificationRule :=
  if policy.enabled then (resolveRule policy eventType).filter (·.enabled) else none

/-- The enabled contact points of a rule, each once. -/
def contactPointsFor (config : NotificationConfig) (rule : NotificationRule) : List PositiveId :=
  let enabled := (config.contactPoints.filter (·.enabled)).map (·.id)
  rule.contactPointIds.eraseDups.filter fun id => enabled.contains id

/-! ## State -/

/-- What an event is about; the source joins the parts with `:`, a missing resource is 0. -/
structure EventKey where
  hostType : HostType
  hostId : PositiveId
  resource : ℕ
  eventType : EventType
deriving DecidableEq

inductive Health
  | healthy
  | unknown
  | problem
deriving DecidableEq

structure NormalizedState where
  id : ℕ
  eventKey : EventKey
  hostType : HostType
  hostId : PositiveId
  resourceId : Option PositiveId
  eventType : EventType
  state : Health
  firstObservedAt : ℤ
  lastObservedAt : ℤ
  sequence : Option ℤ
  title : Option String
  summary : Option String
deriving DecidableEq

structure PendingTransition where
  id : ℕ
  eventKey : EventKey
  hostType : HostType
  hostId : PositiveId
  resourceId : Option PositiveId
  eventType : EventType
  severity : Severity
  title : String
  summary : String
  firstObservedAt : ℤ
  lastObservedAt : ℤ
  observations : ℕ
  dueAt : ℤ
deriving DecidableEq

/-- The states of an incident; `opened` is the source's `open`. -/
inductive IncidentState
  | pending
  | opened
  | resolved
  | cancelled
deriving DecidableEq

structure Incident where
  id : ℕ
  eventKey : EventKey
  hostType : HostType
  hostId : PositiveId
  resourceId : Option PositiveId
  eventType : EventType
  severity : Severity
  title : String
  summary : String
  state : IncidentState
  openedAt : ℤ
  resolvedAt : Option ℤ
  acknowledgedAt : Option ℤ
  acknowledgedBy : Option ℕ
  notificationDeliveredAt : Option ℤ
  lastReminderAt : Option ℤ
  createdAt : ℤ
  updatedAt : ℤ
deriving DecidableEq

structure Transition where
  id : ℕ
  incidentId : ℕ
  source : IncidentState
  target : IncidentState
  reason : String
  occurredAt : ℤ
deriving DecidableEq

structure Acknowledgement where
  id : ℕ
  incidentId : ℕ
  actor : Option ℕ
  acknowledgedAt : ℤ
deriving DecidableEq

inductive DeliveryState
  | queued
  | leased
  | delivered
  | retrying
  | exhausted
  | cancelled
deriving DecidableEq

inductive DeliveryKind
  | opening
  | reminder
  | recovery
deriving DecidableEq

/-- What a delivery is for; the source joins the parts with `:`. -/
structure JobKey where
  incidentId : ℕ
  contactPointId : PositiveId
  kind : DeliveryKind
  occurrence : Option ℤ
deriving DecidableEq

structure DeliveryJob where
  id : ℕ
  incidentId : ℕ
  contactPointId : PositiveId
  kind : DeliveryKind
  state : DeliveryState
  idempotencyKey : JobKey
  attempts : ℕ
  availableAt : ℤ
  leaseOwner : Option String
  leaseExpiresAt : Option ℤ
  deliveredAt : Option ℤ
  lastError : Option String
  createdAt : ℤ
  updatedAt : ℤ
deriving DecidableEq

inductive AttemptState
  | delivered
  | exhausted
  | failed
deriving DecidableEq

structure DeliveryAttempt where
  id : ℕ
  deliveryJobId : ℕ
  attempt : ℕ
  state : AttemptState
  status : Option ℕ
  responseExcerpt : Option String
  error : Option String
  attemptedAt : ℤ
deriving DecidableEq

structure Cooldown where
  id : ℕ
  hostType : HostType
  hostId : PositiveId
  resourceId : Option PositiveId
  eventType : EventType
  contactPointId : PositiveId
  expiresAt : ℤ
  createdAt : ℤ
  updatedAt : ℤ
deriving DecidableEq

structure EvaluationCursor where
  id : ℕ
  hostType : HostType
  hostId : PositiveId
  lastSequence : ℕ
deriving DecidableEq

/-- The next id of each collection. -/
structure Counters where
  normalizedState : ℕ
  pendingTransition : ℕ
  incident : ℕ
  transition : ℕ
  acknowledgement : ℕ
  deliveryJob : ℕ
  deliveryAttempt : ℕ
  cooldown : ℕ
  evaluationCursor : ℕ
deriving DecidableEq

structure NotificationState where
  normalizedStates : List NormalizedState
  pendingTransitions : List PendingTransition
  incidents : List Incident
  transitions : List Transition
  acknowledgements : List Acknowledgement
  deliveryJobs : List DeliveryJob
  deliveryAttempts : List DeliveryAttempt
  cooldowns : List Cooldown
  evaluationCursors : List EvaluationCursor
  counters : Counters
  lastEvaluatedAt : Option ℤ
  updatedAt : ℤ
deriving DecidableEq

def createNotificationState (now : ℤ) : NotificationState where
  normalizedStates := []
  pendingTransitions := []
  incidents := []
  transitions := []
  acknowledgements := []
  deliveryJobs := []
  deliveryAttempts := []
  cooldowns := []
  evaluationCursors := []
  counters := ⟨1, 1, 1, 1, 1, 1, 1, 1, 1⟩
  lastEvaluatedAt := none
  updatedAt := now

/-! ## The store -/

/-- The errors of a change of the state. -/
inductive NotificationError
  | invalidId (label : String)
  | duplicateId (label : String) (id : ℕ)
  | missingIncident (label : String) (id : ℕ)
  | missingJob (label : String) (id : ℕ)
  | duplicateCursor (hostType : HostType) (hostId : PositiveId)
  | unknownIncident (id : ℕ)
  | unknownDeliveryJob (id : ℕ)
  | notRetryable
deriving DecidableEq

/-- Ids are positive and occur once. -/
def assertUniqueIds (ids : List ℕ) (label : String) : Except NotificationError Unit := do
  let _ ← ids.foldlM
    (fun (seen : List ℕ) id => do
      failIf (id = 0) (.invalidId label)
      failIf (id ∈ seen) (.duplicateId label id)
      return seen ++ [id])
    []

def assertPositive (value : ℕ) (label : String) : Except NotificationError Unit :=
  failIf (value = 0) (.invalidId label)

/-- A host has one evaluation cursor. -/
def assertUniqueCursors (cursors : List EvaluationCursor) : Except NotificationError Unit := do
  let _ ← cursors.foldlM
    (fun (seen : List (HostType × PositiveId)) cursor => do
      failIf ((cursor.hostType, cursor.hostId) ∈ seen)
        (.duplicateCursor cursor.hostType cursor.hostId)
      return seen ++ [(cursor.hostType, cursor.hostId)])
    []

/-- Every counter is positive. -/
def assertCounters (counters : Counters) : Except NotificationError Unit := do
  assertPositive counters.normalizedState "normalizedState"
  assertPositive counters.pendingTransition "pendingTransition"
  assertPositive counters.incident "incident"
  assertPositive counters.transition "transition"
  assertPositive counters.acknowledgement "acknowledgement"
  assertPositive counters.deliveryJob "deliveryJob"
  assertPositive counters.deliveryAttempt "deliveryAttempt"
  assertPositive counters.cooldown "cooldown"
  assertPositive counters.evaluationCursor "evaluationCursor"

def assertNotificationState (value : NotificationState) : Except NotificationError Unit := do
  assertUniqueIds (value.normalizedStates.map (·.id)) "notificationState.normalizedStates"
  assertUniqueIds (value.pendingTransitions.map (·.id)) "notificationState.pendingTransitions"
  assertUniqueIds (value.incidents.map (·.id)) "notificationState.incidents"
  assertUniqueIds (value.transitions.map (·.id)) "notificationState.transitions"
  assertUniqueIds (value.acknowledgements.map (·.id)) "notificationState.acknowledgements"
  assertUniqueIds (value.deliveryJobs.map (·.id)) "notificationState.deliveryJobs"
  assertUniqueIds (value.deliveryAttempts.map (·.id)) "notificationState.deliveryAttempts"
  assertUniqueIds (value.cooldowns.map (·.id)) "notificationState.cooldowns"
  assertUniqueIds (value.evaluationCursors.map (·.id)) "notificationState.evaluationCursors"
  let incidentIds := value.incidents.map (·.id)
  value.transitions.forM fun transition =>
    failIf (transition.incidentId ∉ incidentIds)
      (.missingIncident "Transition" transition.incidentId)
  value.acknowledgements.forM fun acknowledgement =>
    failIf (acknowledgement.incidentId ∉ incidentIds)
      (.missingIncident "Acknowledgement" acknowledgement.incidentId)
  value.deliveryJobs.forM fun job =>
    failIf (job.incidentId ∉ incidentIds) (.missingIncident "Delivery job" job.incidentId)
  value.deliveryAttempts.forM fun attempt =>
    failIf (attempt.deliveryJobId ∉ value.deliveryJobs.map (·.id))
      (.missingJob "Delivery attempt" attempt.deliveryJobId)
  assertUniqueCursors value.evaluationCursors
  assertCounters value.counters

/-- A change of the state: the mutator works on a draft, and a draft that differs has to pass
the check before it replaces the state. -/
def mutateState {ρ : Type} (now : ℤ)
    (mutator : NotificationState → Except NotificationError (ρ × NotificationState))
    (state : NotificationState) : Except NotificationError (ρ × NotificationState) := do
  let (result, draft) ← mutator state
  if draft = state then return (result, state)
  let draft := { draft with updatedAt := now }
  assertNotificationState draft
  return (result, draft)

end HomelabInventory.Notifications
