import HomelabInventory.IncidentManager
import Mathlib.Data.List.Sort

/-!
# The delivery coordinator and the retention of history

The coordinator leases a job, decides from the configuration and state it then
reads what to do with it, and settles the job when the decision or the adapter
has answered. `pruneNotificationHistory` drops what is older than the retention
allows.
-/

namespace HomelabInventory.Notifications

/-! ## Leases -/

def retryDelaysMs : List ℤ := [0, 30000, 120000, 600000, 1800000, 7200000]

def leaseMs : ℤ := 30000

/-- The job waits and its time has come. -/
def DeliveryJob.isReady (job : DeliveryJob) (now : ℤ) : Bool :=
  decide (job.state = .queued ∨ job.state = .retrying) && decide (job.availableAt ≤ now)

/-- The job is leased and the lease is over. -/
def DeliveryJob.isExpired (job : DeliveryJob) (now : ℤ) : Bool :=
  decide (job.state = .leased) && job.leaseExpiresAt.any (decide <| · ≤ now)

/-- Give a job back whose lease is over. -/
def expireLease (now : ℤ) (job : DeliveryJob) : DeliveryJob :=
  if job.isExpired now then
    { job with
      state := .retrying
      leaseOwner := none
      leaseExpiresAt := none }
  else job

/-- Take a job. -/
def leaseJob (workerId : String) (now : ℤ) (job : DeliveryJob) : DeliveryJob :=
  { job with
    state := .leased
    leaseOwner := some workerId
    leaseExpiresAt := some (now + leaseMs)
    updatedAt := now }

def leaseNext (workerId : String) (now : ℤ) (snapshot draft : NotificationState) :
    Option DeliveryJob × NotificationState :=
  if snapshot.deliveryJobs.any fun job => job.isExpired now || job.isReady now then
    let draft := { draft with deliveryJobs := draft.deliveryJobs.map (expireLease now) }
    match draft.deliveryJobs.find? fun candidate => candidate.isReady now with
    | none => (none, draft)
    | some job =>
      (some (leaseJob workerId now job), { draft with
        deliveryJobs := modifyFirst (·.isReady now) (leaseJob workerId now) draft.deliveryJobs })
  else (none, draft)

/-! ## Settling a job -/

/-- The job with an id, when the worker still holds its lease. -/
def heldJob (workerId : String) (jobId : ℕ) (draft : NotificationState) : Option DeliveryJob :=
  (draft.deliveryJobs.find? fun candidate => candidate.id = jobId).filter fun job =>
    job.leaseOwner = some workerId

/-- Change the job with an id. -/
def modifyJob (draft : NotificationState) (jobId : ℕ) (f : DeliveryJob → DeliveryJob) :
    NotificationState :=
  { draft with
    deliveryJobs := modifyFirst (fun candidate => candidate.id = jobId) f draft.deliveryJobs }

def addAttempt (draft : NotificationState) (jobId attempt : ℕ) (state : AttemptState)
    (status : Option ℕ) (responseExcerpt error : Option String) (now : ℤ) :
    NotificationState :=
  { draft with
    deliveryAttempts := draft.deliveryAttempts ++
      [⟨draft.counters.deliveryAttempt, jobId, attempt, state, status, responseExcerpt, error,
        now⟩]
    counters := { draft.counters with
      deliveryAttempt := draft.counters.deliveryAttempt + 1 } }

/-- What an adapter answers. -/
structure DeliveryResult where
  status : Option ℕ
  responseExcerpt : Option String

/-- The cooldown is the one of an incident and a contact point. -/
def Cooldown.isOf (candidate : Cooldown) (incident : Incident) (contactPointId : PositiveId) :
    Bool :=
  candidate.hostType = incident.hostType ∧ candidate.hostId = incident.hostId
    ∧ candidate.resourceId = incident.resourceId ∧ candidate.eventType = incident.eventType
    ∧ candidate.contactPointId = contactPointId

/-- Start the cooldown of an incident's event and a contact point, or start it again. -/
def startCooldown (draft : NotificationState) (incident : Incident)
    (contactPointId : PositiveId) (seconds : ℕ) (now : ℤ) : NotificationState :=
  let expiresAt := now + seconds * 1000
  if draft.cooldowns.any fun candidate => candidate.isOf incident contactPointId then
    { draft with
      cooldowns := modifyFirst (fun candidate => candidate.isOf incident contactPointId)
        (fun cooldown => { cooldown with expiresAt := expiresAt, updatedAt := now })
        draft.cooldowns }
  else
    { draft with
      cooldowns := draft.cooldowns ++
        [⟨draft.counters.cooldown, incident.hostType, incident.hostId, incident.resourceId,
          incident.eventType, contactPointId, expiresAt, now, now⟩]
      counters := { draft.counters with cooldown := draft.counters.cooldown + 1 } }

/-- A delivered opening marks its incident and starts the cooldown of its rule. -/
def noteOpening (config : NotificationConfig) (job : DeliveryJob) (now : ℤ)
    (draft : NotificationState) : NotificationState :=
  match draft.incidents.find? fun candidate => candidate.id = job.incidentId with
  | none => draft
  | some incident =>
    if job.kind ≠ .opening then draft
    else
      let draft := { draft with
        incidents := modifyFirst (fun candidate => candidate.id = job.incidentId)
          (fun incident => { incident with
            notificationDeliveredAt := incident.notificationDeliveredAt <|> some now
            updatedAt := now })
          draft.incidents }
      let policy := resolveHostNotificationPolicy config incident.hostType incident.hostId now
      match resolveRule policy incident.eventType with
      | none => draft
      | some rule =>
        if 0 < rule.cooldownSeconds then
          startCooldown draft incident job.contactPointId rule.cooldownSeconds now
        else draft

def succeed (workerId : String) (config : NotificationConfig) (jobId : ℕ)
    (result : DeliveryResult) (now : ℤ) (draft : NotificationState) : NotificationState :=
  match heldJob workerId jobId draft with
  | none => draft
  | some job =>
    let draft := modifyJob draft jobId fun job => { job with
      attempts := job.attempts + 1
      state := .delivered
      deliveredAt := some now
      leaseOwner := none
      leaseExpiresAt := none
      lastError := none
      updatedAt := now }
    let draft := addAttempt draft jobId (job.attempts + 1) .delivered result.status
      result.responseExcerpt none now
    noteOpening config job now draft

def fail (workerId : String) (jobId : ℕ) (message : String) (now : ℤ)
    (draft : NotificationState) : NotificationState :=
  match heldJob workerId jobId draft with
  | none => draft
  | some job =>
    let attempts := job.attempts + 1
    let exhausted := decide (retryDelaysMs.length ≤ attempts)
    let draft := modifyJob draft jobId fun job => { job with
      attempts := attempts
      state := if exhausted then .exhausted else .retrying
      availableAt := now + retryDelaysMs.getD attempts 0
      leaseOwner := none
      leaseExpiresAt := none
      lastError := some message
      updatedAt := now }
    addAttempt draft jobId attempts (if exhausted then .exhausted else .failed) none none
      (some message) now

def cancel (jobId : ℕ) (reason : String) (now : ℤ) (draft : NotificationState) :
    NotificationState :=
  modifyJob draft jobId fun job => { job with
    state := .cancelled
    leaseOwner := none
    leaseExpiresAt := none
    lastError := some reason
    updatedAt := now }

def defer (workerId : String) (jobId : ℕ) (mutedUntil : Option ℤ) (now : ℤ)
    (draft : NotificationState) : NotificationState :=
  match heldJob workerId jobId draft with
  | none => draft
  | some _ =>
    modifyJob draft jobId fun job => { job with
      state := .retrying
      availableAt := ((mutedUntil.filter (now < ·)).getD (now + 30000))
      leaseOwner := none
      leaseExpiresAt := none
      updatedAt := now }

def retry (jobId : ℕ) (now : ℤ) (draft : NotificationState) :
    Except NotificationError (DeliveryJob × NotificationState) :=
  match draft.deliveryJobs.find? fun candidate => candidate.id = jobId with
  | none => .error (.unknownDeliveryJob jobId)
  | some job =>
    if job.state ≠ .exhausted ∧ job.state ≠ .cancelled then .error .notRetryable
    else
      let queued (job : DeliveryJob) : DeliveryJob := { job with
        state := .queued
        availableAt := now
        lastError := none
        updatedAt := now }
      .ok (queued job, modifyJob draft jobId queued)

/-! ## Processing a leased job -/

/-- The job is a child's and its host is offline, or about to be. -/
def hostUnavailable (state : NotificationState) (incident : Incident) : Bool :=
  if incident.eventType = .hostOffline then false
  else hostIncidentUnavailable state incident.hostType incident.hostId

/-- What the coordinator decides about a leased job. -/
inductive Decision
  | cancel (reason : String)
  | defer (mutedUntil : Option ℤ)
  | send (contactPoint : ContactPoint) (incident : Incident)

/-- The decision about a leased job, from the configuration and state read after the lease. -/
def decideDelivery (config : NotificationConfig) (state : NotificationState)
    (leased : DeliveryJob) (now : ℤ) : Decision :=
  let contactPoint := config.contactPoints.find? fun candidate =>
    candidate.id = leased.contactPointId
  let incident := state.incidents.find? fun candidate => candidate.id = leased.incidentId
  match contactPoint, incident with
  | some contactPoint, some incident =>
    if contactPoint.enabled = false then
      .cancel "Notification contact point or incident is unavailable."
    else if leased.kind = .opening ∧ incident.state ≠ .opened then
      .cancel "Incident resolved before its opening notification was delivered."
    else
      let policy := resolveHostNotificationPolicy config incident.hostType incident.hostId now
      match enabledRule policy incident.eventType with
      | none => .cancel "Notification policy no longer permits this delivery."
      | some rule =>
        if !(rule.contactPointIds.contains contactPoint.id) then
          .cancel "Notification policy no longer permits this delivery."
        else if policy.muted || policy.quiet || hostUnavailable state incident then
          .defer policy.mutedUntil
        else .send contactPoint incident
  | _, _ => .cancel "Notification contact point or incident is unavailable."

/-! ## Retention -/

structure RetentionLimits where
  incidents : ℕ
  attempts : ℕ
  cooldowns : ℕ

def dayMs : ℤ := 86400000

/-- The instant from which the age of a settled incident counts. -/
def Incident.settledAt (incident : Incident) : ℤ := incident.resolvedAt.getD incident.updatedAt

def Incident.isExpired (incident : Incident) (cutoff : ℤ) : Bool :=
  decide (incident.state = .resolved ∨ incident.state = .cancelled)
    && decide (incident.settledAt < cutoff)

/-- The ids of the oldest of some records, at most `limit` of them. -/
def oldestIds {α : Type} (records : List α) (instant : α → ℤ) (id : α → ℕ) (limit : ℕ) : List ℕ :=
  ((records.insertionSort fun left right => instant left ≤ instant right).take limit).map id

/-- Some record is older than the retention allows. -/
def hasExpired (config : NotificationConfig) (now : ℤ) (state : NotificationState) : Bool :=
  (state.incidents.any (·.isExpired (now - config.retention.incidentDays * dayMs)))
  || (state.deliveryAttempts.any fun attempt =>
    attempt.attemptedAt < now - config.retention.deliveryAttemptDays * dayMs)
  || state.cooldowns.any fun cooldown => cooldown.expiresAt < now

structure PruneResult where
  incidents : ℕ
  attempts : ℕ
  remaining : Bool
deriving DecidableEq

def pruneNotificationHistory (config : NotificationConfig) (limits : RetentionLimits) (now : ℤ)
    (snapshot draft : NotificationState) : PruneResult × NotificationState :=
  if hasExpired config now snapshot = false then (⟨0, 0, false⟩, draft)
  else
    let incidentCutoff := now - config.retention.incidentDays * dayMs
    let attemptCutoff := now - config.retention.deliveryAttemptDays * dayMs
    let removedIncidentIds := oldestIds (draft.incidents.filter (·.isExpired incidentCutoff))
      (·.settledAt) (·.id) limits.incidents
    let removedJobIds := (draft.deliveryJobs.filter fun job =>
      removedIncidentIds.contains job.incidentId).map (·.id)
    let removedAttemptIds := oldestIds
      (draft.deliveryAttempts.filter fun attempt =>
        !(removedJobIds.contains attempt.deliveryJobId)
          && decide (attempt.attemptedAt < attemptCutoff))
      (·.attemptedAt) (·.id) limits.attempts
    let removedCooldownIds := oldestIds
      (draft.cooldowns.filter fun cooldown => cooldown.expiresAt < now)
      (·.expiresAt) (·.id) limits.cooldowns
    let pruned := { draft with
      incidents := draft.incidents.filter fun incident =>
        !(removedIncidentIds.contains incident.id)
      transitions := draft.transitions.filter fun transition =>
        !(removedIncidentIds.contains transition.incidentId)
      acknowledgements := draft.acknowledgements.filter fun acknowledgement =>
        !(removedIncidentIds.contains acknowledgement.incidentId)
      deliveryJobs := draft.deliveryJobs.filter fun job =>
        !(removedIncidentIds.contains job.incidentId)
      deliveryAttempts := draft.deliveryAttempts.filter fun attempt =>
        !(removedJobIds.contains attempt.deliveryJobId)
          && !(removedAttemptIds.contains attempt.id)
      cooldowns := draft.cooldowns.filter fun cooldown =>
        !(removedCooldownIds.contains cooldown.id) }
    ({ incidents := draft.incidents.length - pruned.incidents.length
       attempts := draft.deliveryAttempts.length - pruned.deliveryAttempts.length
       remaining := hasExpired config now pruned },
      pruned)

end HomelabInventory.Notifications
