import HomelabInventory.DeliveryEvolution
import HomelabInventory.GuardedRuns
import HomelabInventory.NotificationRuns

/-!
# Runs of the delivery coordinator among other changes

The coordinator processes one job at a time: it leases it, reads the
configuration and state, decides, and settles the job with what it decided or
with what the adapter answered. Between any two of these steps the incident
manager, a retry or the retention may change the state.
-/

namespace HomelabInventory.Notifications

open Option

/-! ## The coordinator and its surroundings -/

/-- How far the coordinator is with the job it processes. -/
inductive WorkerPhase
  | idle
  | leased (job : DeliveryJob)
  | cancelling (jobId : ℕ) (reason : String)
  | deferring (jobId : ℕ) (mutedUntil : Option ℤ)
  | sending (jobId : ℕ)

structure System where
  state : NotificationState
  worker : WorkerPhase

/-- The changes that are not the coordinator's own steps on the job it processes. -/
def Mutation.isExternal : Mutation → Bool
  | .lease .. | .succeed .. | .fail .. | .cancel .. | .defer .. => false
  | _ => true

/-- A step of the system. -/
inductive Action
  /-- A change by the incident manager, a retry or the retention. -/
  | change (mutation : Mutation) (clock : ℤ)
  /-- The coordinator leases the next job. -/
  | lease (now : ℤ) (snapshot : NotificationState) (clock : ℤ)
  /-- The coordinator reads the configuration and state and decides about the leased job. -/
  | decide (config : NotificationConfig) (now : ℤ)
  /-- The coordinator settles the job; a sent one with the answer of the adapter. -/
  | settle (config : NotificationConfig) (answer : Except String DeliveryResult) (now clock : ℤ)

def WorkerPhase.ofDecision (job : DeliveryJob) : Decision → WorkerPhase
  | .cancel reason => .cancelling job.id reason
  | .defer mutedUntil => .deferring job.id mutedUntil
  | .send _ _ => .sending job.id

/-- The change that settles a job. -/
def WorkerPhase.settlement (workerId : String) (config : NotificationConfig)
    (answer : Except String DeliveryResult) (now : ℤ) : WorkerPhase → Option Mutation
  | .idle | .leased _ => none
  | .cancelling jobId reason => some (.cancel jobId reason now)
  | .deferring jobId mutedUntil => some (.defer workerId jobId mutedUntil now)
  | .sending jobId => match answer with
    | .ok result => some (.succeed workerId config jobId result now)
    | .error message => some (.fail workerId jobId message now)

/-- The next state of the system, when the step is possible and the store takes its change. -/
def System.step (workerId : String) (system : System) : Action → Option System
  | .change mutation clock =>
    if mutation.isExternal then
      (mutation.commit clock system.state).toOption.map fun state => { system with state }
    else none
  | .lease now snapshot clock => match system.worker with
    | .idle =>
      match ((Mutation.lease workerId now snapshot).commit clock system.state).toOption with
      | none => none
      | some state => match (leaseNext workerId now snapshot system.state).1 with
        | none => some ⟨state, .idle⟩
        | some job => some ⟨state, .leased job⟩
    | _ => none
  | .decide config now => match system.worker with
    | .leased job =>
      some { system with worker := .ofDecision job (decideDelivery config system.state job now) }
    | _ => none
  | .settle config answer now clock =>
    (system.worker.settlement workerId config answer now).bind fun mutation =>
      (mutation.commit clock system.state).toOption.map fun state => ⟨state, .idle⟩

/-- The states that the system can reach, all its steps meeting a condition. -/
abbrev SystemReachable (workerId : String) (condition : System → Action → Prop) : System → Prop :=
  RunsTo (·.step workerId ·) condition fun system =>
    ∃ now, system = ⟨createNotificationState now, .idle⟩

/-- Any step is possible. -/
abbrev anyStep : System → Action → Prop := fun _ _ => True

/-! ## External changes -/

/-- The jobs that an external change may cancel. -/
def Mutation.Cancels (state : NotificationState) (job : DeliveryJob) : Mutation → Prop
  | .observe config clock snapshot observation =>
    Heard config clock snapshot observation state ∧ InhibitedBy state observation job
  | .cancelHost hostType hostId _ _ => job.Waits ∧ ∃ incident ∈ state.incidents,
    incident.id = job.incidentId ∧ incident.hostType = hostType ∧ incident.hostId = hostId
  | .reconcilePolicies .. => job.Waits ∧ ∃ incident ∈ state.incidents,
    incident.id = job.incidentId ∧ incident.state = .opened
  | _ => False

variable {draft new old state state' : NotificationState}
variable {mutation : Mutation}

theorem Evolves.apply (h : Coherent state) (hexternal : mutation.isExternal = true)
    (hrun : mutation.apply state = .ok draft) :
    Evolves (fun job => mutation.Cancels state job) state draft := by
  cases mutation with
  | observe config clock snapshot observation =>
    obtain rfl := Except.ok.inj hrun
    exact .observe h config clock snapshot observation
  | evaluatePending config now snapshot =>
    obtain rfl := Except.ok.inj hrun
    exact ((Evolves.keeps h now).evaluatePending ⟨h, .refl state⟩ config snapshot).2
  | evaluateReminders config now snapshot =>
    obtain rfl := Except.ok.inj hrun
    exact ((Evolves.keeps h now).evaluateReminders ⟨h, .refl state⟩ config snapshot).2
  | evaluateSuppressedOpenings config now snapshot =>
    obtain rfl := Except.ok.inj hrun
    exact ((Evolves.keeps h now).evaluateSuppressedOpenings ⟨h, .refl state⟩ config snapshot).2
  | evaluateRecoveries config now snapshot =>
    obtain rfl := Except.ok.inj hrun
    exact ((Evolves.keeps h now).evaluateRecoveries ⟨h, .refl state⟩ config snapshot).2
  | cancelHost hostType hostId reason now =>
    obtain rfl := Except.ok.inj hrun
    exact .cancelHost h hostType hostId reason now
  | reconcilePolicies config scope reason now snapshot =>
    obtain rfl := Except.ok.inj hrun
    exact .reconcilePolicies h config scope reason now snapshot
  | acknowledge incidentId actor now =>
    obtain ⟨incident, hresult⟩ := map_snd_eq_ok hrun
    exact .acknowledge hresult
  | retry jobId now =>
    obtain ⟨job, hresult⟩ := map_snd_eq_ok hrun
    exact .retry h hresult
  | prune config limits now snapshot =>
    obtain rfl := Except.ok.inj hrun
    exact .pruneNotificationHistory state config limits now snapshot
  | lease => exact nomatch hexternal
  | succeed => exact nomatch hexternal
  | fail => exact nomatch hexternal
  | cancel => exact nomatch hexternal
  | defer => exact nomatch hexternal

variable {now : ℤ}

/-- The store commits the draft of a change, up to the instant it notes. -/
theorem Coherent.commit_eq (h : Coherent state) (hrun : mutation.commit now state = .ok state') :
    ∃ draft, mutation.apply state = .ok draft ∧
      state' = { draft with updatedAt := state'.updatedAt } := by
  cases happly : mutation.apply state with
  | error e =>
    rw [Mutation.commit_of_error happly] at hrun
    exact nomatch hrun
  | ok draft =>
    refine ⟨draft, rfl, ?_⟩
    have hkept : Coherent { draft with updatedAt := now } := { h.apply happly with }
    rw [Mutation.commit_of_apply happly, hkept.assertNotificationState] at hrun
    split at hrun
    · rename_i hsame
      obtain rfl := Except.ok.inj hrun
      rw [hsame]
    · obtain rfl := Except.ok.inj hrun
      rfl

/-! ## Steps of the coordinator -/

theorem step_expireLease (now : ℤ) (job : DeliveryJob) :
    JobStep (fun _ => False) job (expireLease now job) := by
  unfold expireLease
  split
  · rename_i hexpired
    have hleased : job.state = .leased := of_decide_eq_true (Bool.and_eq_true_iff.mp hexpired).1
    refine ⟨rfl, ?_, nofun, nofun⟩
    simp [hleased]
  · exact .refl _ job

variable {workerId : String}

theorem step_leaseJob {job : DeliveryJob} (hready : job.isReady now) :
    JobStep (fun _ => False) job (leaseJob workerId now job) := by
  have hwaits : job.state = .queued ∨ job.state = .retrying :=
    of_decide_eq_true (Bool.and_eq_true_iff.mp hready).1
  refine ⟨rfl, ?_, nofun, nofun⟩
  obtain hstate | hstate := hwaits <;> simp [leaseJob, hstate]

theorem Evolves.leaseNext (h : Coherent state) (workerId : String) (now : ℤ)
    (snapshot : NotificationState) :
    Evolves (fun _ => False) state (leaseNext workerId now snapshot state).2 := by
  have hexpired : Evolves (fun _ => False) state _ := .of_jobs fun job _ => step_expireLease now job
  simp only [Notifications.leaseNext]
  split
  · split
    · exact hexpired
    · exact hexpired.trans h (h.mapJobs (face_expireLease now))
        (.of_modifyFirst fun job _ hready => step_leaseJob hready)
  · exact .refl state

/-- The job that was leased is in the state, leased. -/
theorem mem_of_leaseNext {snapshot state : NotificationState} {job : DeliveryJob}
    (hleased : (leaseNext workerId now snapshot state).1 = some job) :
    job ∈ (leaseNext workerId now snapshot state).2.deliveryJobs ∧ job.state = .leased := by
  simp only [leaseNext] at hleased ⊢
  split at hleased
  · rename_i hwork
    rw [if_pos hwork]
    split at hleased
    · cases hleased
    · rename_i ready hfind
      obtain rfl := some.inj hleased
      exact ⟨mem_modifyFirst_of_find? hfind, rfl⟩
  · cases hleased

/-- Giving up on a job that was not delivered. -/
theorem Evolves.cancel {jobId : ℕ}
    (hopen : ∀ job ∈ state.deliveryJobs, job.id = jobId → job.state ≠ .delivered) (reason : String)
    (now : ℤ) : Evolves (fun job => job.id = jobId) state (cancel jobId reason now state) := by
  refine .of_modifyFirst fun job hjob hid => ?_
  have hid : job.id = jobId := of_decide_eq_true hid
  exact ⟨rfl, ⟨nofun, fun hstate => absurd hstate (hopen job hjob hid)⟩, fun _ => .inr hid, nofun⟩

theorem Evolves.defer {jobId : ℕ}
    (hopen : ∀ job ∈ state.deliveryJobs, job.id = jobId → job.state ≠ .delivered)
    (workerId : String) (mutedUntil : Option ℤ) (now : ℤ) :
    Evolves (fun _ => False) state (defer workerId jobId mutedUntil now state) := by
  simp only [Notifications.defer]
  split
  · exact .refl state
  · refine .of_modifyFirst fun job hjob hid => ?_
    have hid : job.id = jobId := of_decide_eq_true hid
    exact ⟨rfl, ⟨(by rintro ⟨⟩), fun hstate => absurd hstate (hopen job hjob hid)⟩,
      (by rintro ⟨⟩), (by rintro ⟨⟩)⟩

theorem Evolves.fail (h : Coherent state) {jobId : ℕ}
    (hopen : ∀ job ∈ state.deliveryJobs, job.id = jobId → job.state ≠ .delivered)
    (workerId : String) (message : String) (now : ℤ) :
    Evolves (fun _ => False) state (fail workerId jobId message now state) := by
  simp only [Notifications.fail]
  split
  · exact .refl state
  · rename_i held hheld
    obtain ⟨hmem, hheldId, -⟩ := mem_of_heldJob hheld
    have hfailed : ∀ job ∈ state.deliveryJobs, decide (job.id = jobId) = true →
        JobStep (fun _ => False) job { job with
          attempts := held.attempts + 1
          state := if decide (retryDelaysMs.length ≤ held.attempts + 1) then .exhausted
            else .retrying
          availableAt := now + retryDelaysMs.getD (held.attempts + 1) 0
          leaseOwner := none
          leaseExpiresAt := none
          lastError := some message
          updatedAt := now } := by
      intro job hjob hid
      have hid : job.id = jobId := of_decide_eq_true hid
      by_cases hmany : retryDelaysMs.length ≤ held.attempts + 1
      · refine ⟨rfl, ?_, ?_, fun _ => .inr hmany⟩ <;> simp [hmany, hopen job hjob hid]
      · refine ⟨rfl, ?_, ?_, ?_⟩ <;> simp [hmany, hopen job hjob hid]
    have hevolved := Evolves.of_modifyFirst hfailed
    refine hevolved.trans h (h.modifyJobs fun _ => rfl) (.of_same rfl rfl rfl rfl)

/-- A delivery changes its job, and marks the incident of an opening. -/
structure Delivers (jobId : ℕ) (old new : NotificationState) : Prop where
  counters : new.counters.incident = old.counters.incident
  jobCounter : new.counters.deliveryJob = old.counters.deliveryJob
  incidents : ∀ incident ∈ new.incidents, ∃ before ∈ old.incidents, before.face = incident.face
  jobs : ∀ job ∈ new.deliveryJobs, job ∈ old.deliveryJobs ∨
    ∃ before ∈ old.deliveryJobs, before.id = jobId ∧ job.face = before.face ∧
      job.state = .delivered
  kept : ∀ job ∈ old.deliveryJobs, job ∈ new.deliveryJobs ∨
    ∃ after ∈ new.deliveryJobs, after.face = job.face ∧ after.state = .delivered

theorem startCooldown_same (state : NotificationState) (incident : Incident)
    (contactPointId : PositiveId) (seconds : ℕ) (now : ℤ) :
    ∃ cooldowns next, startCooldown state incident contactPointId seconds now = { state with
      cooldowns := cooldowns
      counters := { state.counters with cooldown := next } } := by
  simp only [startCooldown]
  split <;> exact ⟨_, _, rfl⟩

theorem noteOpening_spec (config : NotificationConfig) (job : DeliveryJob) (now : ℤ)
    (state : NotificationState) :
    let new := noteOpening config job now state
    (∀ incident ∈ new.incidents, ∃ before ∈ state.incidents, before.face = incident.face) ∧
      new.deliveryJobs = state.deliveryJobs ∧
      new.counters.incident = state.counters.incident ∧
      new.counters.deliveryJob = state.counters.deliveryJob := by
  have hmarked : ∀ incident ∈ modifyFirst (fun candidate => candidate.id = job.incidentId)
      (fun incident : Incident => { incident with
        notificationDeliveredAt := incident.notificationDeliveredAt <|> some now
        updatedAt := now }) state.incidents,
      ∃ before ∈ state.incidents, before.face = incident.face := by
    intro incident hincident
    obtain hold | ⟨before, hbefore, -, rfl⟩ := mem_modifyFirst hincident
    · exact ⟨incident, hold, rfl⟩
    · exact ⟨before, hbefore, rfl⟩
  simp only [noteOpening]
  split
  · exact ⟨fun incident hincident => ⟨incident, hincident, rfl⟩, rfl, rfl, rfl⟩
  split
  · exact ⟨fun incident hincident => ⟨incident, hincident, rfl⟩, rfl, rfl, rfl⟩
  split
  · exact ⟨hmarked, rfl, rfl, rfl⟩
  split
  · rename_i incident _ _ _ rule _ _
    obtain ⟨cooldowns, next, heq⟩ := startCooldown_same { state with
      incidents := modifyFirst (fun candidate => candidate.id = job.incidentId)
        (fun incident => { incident with
          notificationDeliveredAt := incident.notificationDeliveredAt <|> some now
          updatedAt := now }) state.incidents } incident job.contactPointId rule.cooldownSeconds now
    rw [heq]
    exact ⟨hmarked, rfl, rfl, rfl⟩
  · exact ⟨hmarked, rfl, rfl, rfl⟩

theorem succeed_delivers (workerId : String) (config : NotificationConfig) (jobId : ℕ)
    (result : DeliveryResult) (now : ℤ) (state : NotificationState) :
    Delivers jobId state (succeed workerId config jobId result now state) := by
  simp only [succeed]
  split
  · exact ⟨rfl, rfl, fun incident h => ⟨incident, h, rfl⟩, fun job h => .inl h, fun job h => .inl h⟩
  · rename_i held _
    obtain ⟨hincidents, hjobs, hcounter, hjobCounter⟩ := noteOpening_spec config held now
      (addAttempt (modifyJob state jobId fun job => { job with
        attempts := job.attempts + 1
        state := .delivered
        deliveredAt := some now
        leaseOwner := none
        leaseExpiresAt := none
        lastError := none
        updatedAt := now }) jobId (held.attempts + 1) .delivered result.status
        result.responseExcerpt none now)
    refine ⟨hcounter, hjobCounter, hincidents, fun job hjob => ?_, fun job hjob => ?_⟩
    · rw [hjobs] at hjob
      obtain hold | ⟨before, hbefore, hid, rfl⟩ := mem_modifyFirst hjob
      · exact .inl hold
      · exact .inr ⟨before, hbefore, of_decide_eq_true hid, rfl, rfl⟩
    · rw [hjobs]
      obtain hsame | ⟨-, hchanged⟩ := mem_or_mem_modifyFirst hjob
      · exact .inl hsame
      · exact .inr ⟨_, hchanged, rfl, rfl⟩

/-! ## The invariant of the system -/

/-- The job that the coordinator processes. -/
def WorkerPhase.jobId : WorkerPhase → Option ℕ
  | .idle => none
  | .leased job => some job.id
  | .cancelling jobId _ | .deferring jobId _ | .sending jobId => some jobId

/-- Recovery jobs are founded, and the job that is processed is not delivered yet. -/
structure SystemCoherent (system : System) : Prop where
  coherent : Coherent system.state
  recoveries : ∀ job ∈ system.state.deliveryJobs, job.kind = .recovery →
    Founded system.state job.incidentId job.contactPointId
  leased_known : ∀ job, system.worker = .leased job →
    job.incidentId < system.state.counters.incident
  leased_founded : ∀ job, system.worker = .leased job → job.kind = .recovery →
    Founded system.state job.incidentId job.contactPointId
  open_job : ∀ jobId, system.worker.jobId = some jobId →
    ∀ job ∈ system.state.deliveryJobs, job.id = jobId → job.state ≠ .delivered

theorem systemCoherent_start (now : ℤ) : SystemCoherent ⟨createNotificationState now, .idle⟩ where
  coherent := coherent_createNotificationState now
  recoveries := by simp [createNotificationState]
  leased_known _ hleased := WorkerPhase.noConfusion hleased
  leased_founded _ hleased := WorkerPhase.noConfusion hleased
  open_job _ hprocessed := absurd hprocessed (some_ne_none _).symm

/-- Founded recoveries stay founded. -/
theorem Evolves.recoveries {cancels : DeliveryJob → Prop}
    (h : Evolves cancels old new) (hold : Coherent old)
    (hrecoveries : ∀ job ∈ old.deliveryJobs, job.kind = .recovery →
      Founded old job.incidentId job.contactPointId) :
    ∀ job ∈ new.deliveryJobs, job.kind = .recovery →
      Founded new job.incidentId job.contactPointId := by
  intro job hjob hrecovery
  obtain ⟨before, hbefore, hstep⟩ | ⟨-, hnew⟩ := h.jobs job hjob
  · obtain ⟨-, hincident, hcontact, hkind⟩ := DeliveryJob.ids_of_face hstep.face_eq
    rw [hincident, hcontact]
    exact h.founded (hrecoveries before hbefore (hkind ▸ hrecovery))
      (hold.incidents.lt _ (hold.job_known before hbefore))
  · exact hnew.founded hrecovery

variable {system : System}

/-- A change of the state around the job that is processed. -/
theorem SystemCoherent.evolve (h : SystemCoherent system) (hcoherent : Coherent state)
    {cancels : DeliveryJob → Prop} (hevolved : Evolves cancels system.state state) :
    SystemCoherent { system with state := state } where
  coherent := hcoherent
  recoveries := hevolved.recoveries h.coherent h.recoveries
  leased_known job hleased := Nat.lt_of_lt_of_le (h.leased_known job hleased)
    hevolved.incidentCounter
  leased_founded job hleased hrecovery := hevolved.founded
    (h.leased_founded job hleased hrecovery) (h.leased_known job hleased)
  open_job jobId hprocessed job hjob hid := by
    obtain ⟨before, hbefore, hstep⟩ | ⟨-, hnew⟩ := hevolved.jobs job hjob
    · have hsame := (DeliveryJob.ids_of_face hstep.face_eq).1
      intro hdelivered
      exact h.open_job jobId hprocessed before hbefore (hsame.symm.trans hid)
        (hstep.delivered_iff.mp hdelivered)
    · exact hnew.not_delivered

theorem SystemCoherent.finish (h : SystemCoherent system) :
    SystemCoherent { system with worker := .idle } where
  coherent := h.coherent
  recoveries := h.recoveries
  leased_known _ hleased := WorkerPhase.noConfusion hleased
  leased_founded _ hleased := WorkerPhase.noConfusion hleased
  open_job _ hprocessed := absurd hprocessed (some_ne_none _).symm

theorem Delivers.deliveredOpenings {jobId : ℕ} (h : Delivers jobId old new) {incidentId : ℕ}
    {contactPointId : PositiveId} (hmem : contactPointId ∈ deliveredOpenings old incidentId) :
    contactPointId ∈ Notifications.deliveredOpenings new incidentId := by
  obtain ⟨job, hjob, hof, hkind, hdelivered, hto⟩ := mem_deliveredOpenings.mp hmem
  obtain hsame | ⟨after, hafter, hface, hstate⟩ := h.kept job hjob
  · exact mem_deliveredOpenings.mpr ⟨job, hsame, hof, hkind, hdelivered, hto⟩
  · obtain ⟨-, hincident, hcontact, hkind'⟩ := DeliveryJob.ids_of_face hface
    exact mem_deliveredOpenings.mpr ⟨after, hafter, hincident.trans hof, hkind'.trans hkind,
      hstate, hcontact.trans hto⟩

theorem Delivers.founded {jobId : ℕ} (h : Delivers jobId old new) {incidentId : ℕ}
    {contactPointId : PositiveId} (hfounded : Founded old incidentId contactPointId) :
    Founded new incidentId contactPointId := by
  intro incident hincident hid
  obtain ⟨before, hbefore, hface⟩ := h.incidents incident hincident
  simp only [Incident.face, Prod.mk.injEq] at hface
  obtain ⟨hsame, -, -, -, -, hstate⟩ := hface
  obtain ⟨hresolved, hcontact⟩ := hfounded before hbefore (hsame.trans hid)
  exact ⟨hstate ▸ hresolved, h.deliveredOpenings hcontact⟩

/-- The job was delivered, and the coordinator is done with it. -/
theorem SystemCoherent.deliver (h : SystemCoherent system) (hcoherent : Coherent state) {jobId : ℕ}
    (hdelivers : Delivers jobId system.state state) : SystemCoherent ⟨state, .idle⟩ where
  coherent := hcoherent
  recoveries job hjob hrecovery := by
    obtain hold | ⟨before, hbefore, -, hface, -⟩ := hdelivers.jobs job hjob
    · exact hdelivers.founded (h.recoveries job hold hrecovery)
    · obtain ⟨-, hincident, hcontact, hkind⟩ := DeliveryJob.ids_of_face hface
      rw [hincident, hcontact]
      exact hdelivers.founded (h.recoveries before hbefore (hkind ▸ hrecovery))
  leased_known _ hleased := WorkerPhase.noConfusion hleased
  leased_founded _ hleased := WorkerPhase.noConfusion hleased
  open_job _ hprocessed := absurd hprocessed (some_ne_none _).symm

/-! ## Runs -/

/-- What a step leads to: what the change of the step makes of the state, up to the instant that the
store notes when it commits, and how far the coordinator is then. -/
inductive StepsTo (workerId : String) (system : System) : Action → System → Prop
  | change {mutation : Mutation} {clock : ℤ} {draft : NotificationState} (noted : ℤ)
    (hexternal : mutation.isExternal = true) (happly : mutation.apply system.state = .ok draft) :
    StepsTo workerId system (.change mutation clock)
      ⟨{ draft with updatedAt := noted }, system.worker⟩
  | idle {now : ℤ} {snapshot : NotificationState} {clock : ℤ} (noted : ℤ) :
    StepsTo workerId system (.lease now snapshot clock)
      ⟨{ (leaseNext workerId now snapshot system.state).2 with updatedAt := noted }, .idle⟩
  | lease {now : ℤ} {snapshot : NotificationState} {clock : ℤ} {job : DeliveryJob} (noted : ℤ)
    (hjob : (leaseNext workerId now snapshot system.state).1 = some job) :
    StepsTo workerId system (.lease now snapshot clock)
      ⟨{ (leaseNext workerId now snapshot system.state).2 with updatedAt := noted }, .leased job⟩
  | decide {config : NotificationConfig} {now : ℤ} {job : DeliveryJob}
    (hworker : system.worker = .leased job) :
    StepsTo workerId system (.decide config now)
      { system with worker := .ofDecision job (decideDelivery config system.state job now) }
  | cancel {config : NotificationConfig} {answer : Except String DeliveryResult} {now clock : ℤ}
    {jobId : ℕ} {reason : String} (noted : ℤ) (hworker : system.worker = .cancelling jobId reason) :
    StepsTo workerId system (.settle config answer now clock)
      ⟨{ cancel jobId reason now system.state with updatedAt := noted }, .idle⟩
  | defer {config : NotificationConfig} {answer : Except String DeliveryResult} {now clock : ℤ}
    {jobId : ℕ} {mutedUntil : Option ℤ} (noted : ℤ)
    (hworker : system.worker = .deferring jobId mutedUntil) :
    StepsTo workerId system (.settle config answer now clock)
      ⟨{ defer workerId jobId mutedUntil now system.state with updatedAt := noted }, .idle⟩
  | succeed {config : NotificationConfig} {result : DeliveryResult} {now clock : ℤ} {jobId : ℕ}
    (noted : ℤ) (hworker : system.worker = .sending jobId) :
    StepsTo workerId system (.settle config (.ok result) now clock)
      ⟨{ succeed workerId config jobId result now system.state with updatedAt := noted }, .idle⟩
  | fail {config : NotificationConfig} {message : String} {now clock : ℤ} {jobId : ℕ} (noted : ℤ)
    (hworker : system.worker = .sending jobId) :
    StepsTo workerId system (.settle config (.error message) now clock)
      ⟨{ fail workerId jobId message now system.state with updatedAt := noted }, .idle⟩

theorem System.stepsTo {system' : System} (h : Coherent system.state) {action : Action}
    (hstep : system.step workerId action = some system') :
    StepsTo workerId system action system' := by
  have hcommitted : ∀ {mutation : Mutation} {clock : ℤ} {state : NotificationState},
      (mutation.commit clock system.state).toOption = some state → ∃ draft noted,
        mutation.apply system.state = .ok draft ∧ state = { draft with updatedAt := noted } := by
    intro mutation clock state hcommit
    obtain ⟨draft, happly, heq⟩ := h.commit_eq (eq_ok_of_toOption hcommit)
    exact ⟨draft, _, happly, heq⟩
  cases action with
  | change mutation clock =>
    simp only [System.step] at hstep
    split at hstep
    · rename_i hexternal
      obtain ⟨state, hcommit, rfl⟩ := map_eq_some_iff.mp hstep
      obtain ⟨draft, noted, happly, rfl⟩ := hcommitted hcommit
      exact .change noted hexternal happly
    · exact nomatch hstep
  | lease now snapshot clock =>
    simp only [System.step] at hstep
    split at hstep
    · split at hstep
      · exact nomatch hstep
      · rename_i hcommit
        obtain ⟨draft, noted, happly, rfl⟩ := hcommitted hcommit
        obtain rfl := Except.ok.inj happly
        split at hstep
        · obtain rfl := some.inj hstep
          exact .idle noted
        · rename_i job hjob
          obtain rfl := some.inj hstep
          exact .lease noted hjob
    · exact nomatch hstep
  | decide config now =>
    simp only [System.step] at hstep
    split at hstep
    · rename_i hworker
      obtain rfl := some.inj hstep
      exact .decide hworker
    · exact nomatch hstep
  | settle config answer now clock =>
    obtain ⟨mutation, hsettles, hstep⟩ := bind_eq_some_iff.mp hstep
    obtain ⟨state, hcommit, rfl⟩ := map_eq_some_iff.mp hstep
    obtain ⟨draft, noted, happly, rfl⟩ := hcommitted hcommit
    cases hworker : system.worker with
    | idle => exact nomatch hworker ▸ hsettles
    | leased job => exact nomatch hworker ▸ hsettles
    | cancelling jobId reason =>
      obtain rfl := some.inj (hworker ▸ hsettles)
      obtain rfl := Except.ok.inj happly
      exact .cancel noted hworker
    | deferring jobId mutedUntil =>
      obtain rfl := some.inj (hworker ▸ hsettles)
      obtain rfl := Except.ok.inj happly
      exact .defer noted hworker
    | sending jobId =>
      rw [hworker] at hsettles
      cases answer with
      | ok result =>
        obtain rfl := some.inj hsettles
        obtain rfl := Except.ok.inj happly
        exact .succeed noted hworker
      | error message =>
        obtain rfl := some.inj hsettles
        obtain rfl := Except.ok.inj happly
        exact .fail noted hworker

/-- A state is as coherent as the draft it was committed from. -/
theorem SystemCoherent.setUpdatedAt {worker : WorkerPhase} (h : SystemCoherent ⟨state, worker⟩)
    (now : ℤ) : SystemCoherent ⟨{ state with updatedAt := now }, worker⟩ :=
  h.evolve { h.coherent with } (@Evolves.of_same (fun _ => False) _ _ rfl rfl rfl rfl)

/-- **Every step keeps the invariant of the system.** -/
theorem SystemCoherent.step {system system' : System} (h : SystemCoherent system) {action : Action}
    (hstep : system.step workerId action = some system') : SystemCoherent system' := by
  have hprocessed : ∀ {jobId}, system.worker.jobId = some jobId →
      ∀ job ∈ system.state.deliveryJobs, job.id = jobId → job.state ≠ .delivered := fun {jobId} =>
    h.open_job jobId
  cases System.stepsTo h.coherent hstep with
  | change noted hexternal happly =>
    exact (h.evolve (h.coherent.apply happly) (.apply h.coherent hexternal happly)).setUpdatedAt noted
  | @idle now snapshot _ noted =>
    exact (h.evolve (h.coherent.apply
        (rfl : (Mutation.lease workerId now snapshot).apply system.state = .ok _))
      (.leaseNext h.coherent workerId now snapshot)).finish.setUpdatedAt noted
  | @lease now snapshot _ job noted hjob =>
    have hleased := h.coherent.apply (rfl : (Mutation.lease workerId now snapshot).apply system.state = .ok _)
    have hkept := (h.evolve hleased (.leaseNext h.coherent workerId now snapshot)).finish
    obtain ⟨hmem, hstate⟩ := mem_of_leaseNext hjob
    have hholds : SystemCoherent
        ⟨(leaseNext workerId now snapshot system.state).2, .leased job⟩ := by
      refine ⟨hleased, hkept.recoveries, ?_, ?_, ?_⟩
      · intro other hother
        obtain rfl := WorkerPhase.leased.inj hother
        exact hleased.incidents.lt _ (hleased.job_known job hmem)
      · intro other hother hrecovery
        obtain rfl := WorkerPhase.leased.inj hother
        exact hkept.recoveries job hmem hrecovery
      · intro jobId hprocessed other hother hid
        obtain rfl := some.inj hprocessed
        obtain rfl := eq_of_key_eq hleased.deliveryJobs.nodup hother hmem hid
        rw [hstate]
        exact nofun
    exact hholds.setUpdatedAt noted
  | @decide config now job hworker =>
    have hopen := h.open_job job.id (by rw [hworker]; rfl)
    refine ⟨h.coherent, h.recoveries, ?_, ?_, ?_⟩
    all_goals
      cases decideDelivery config system.state job now
    all_goals first
      | exact fun _ hleased => WorkerPhase.noConfusion hleased
      | exact fun jobId hprocessed => some.inj hprocessed ▸ hopen
  | @cancel _ _ now _ jobId reason noted hworker =>
    exact (h.evolve (h.coherent.apply
        (rfl : (Mutation.cancel jobId reason now).apply system.state = .ok _))
      (.cancel (hprocessed (by rw [hworker]; rfl)) reason now)).finish.setUpdatedAt noted
  | @defer _ _ now _ jobId mutedUntil noted hworker =>
    exact (h.evolve (h.coherent.apply
        (rfl : (Mutation.defer workerId jobId mutedUntil now).apply system.state = .ok _))
      (.defer (hprocessed (by rw [hworker]; rfl)) workerId mutedUntil now)).finish.setUpdatedAt noted
  | @succeed config result now _ jobId noted hworker =>
    exact (h.deliver (h.coherent.apply
        (rfl : (Mutation.succeed workerId config jobId result now).apply system.state = .ok _))
      (succeed_delivers workerId config jobId result now system.state)).setUpdatedAt noted
  | @fail _ message now _ jobId noted hworker =>
    exact (h.evolve (h.coherent.apply
        (rfl : (Mutation.fail workerId jobId message now).apply system.state = .ok _))
      (.fail h.coherent (hprocessed (by rw [hworker]; rfl)) workerId message now)
      ).finish.setUpdatedAt noted

/-- The invariant of the system holds after any run. -/
theorem SystemReachable.coherent {condition : System → Action → Prop}
    (h : SystemReachable workerId condition system) : SystemCoherent system :=
  h.invariant (fun _ ⟨now, hstart⟩ => hstart ▸ systemCoherent_start now)
    fun _ _ _ hcoherent _ hstep => hcoherent.step hstep

/-- Some steps one after the other, each asked for with what it reads of the system. -/
def System.run (workerId : String) (system : System) (asks : List (System → Action)) :
    Option System :=
  asks.foldlM (fun system ask => system.step workerId (ask system)) system

theorem SystemReachable.start {workerId : String} {condition : System → Action → Prop} (now : ℤ) :
    SystemReachable workerId condition ⟨createNotificationState now, .idle⟩ :=
  RunsTo.start ⟨now, rfl⟩

/-- A run reaches its system when all that is asked for meets the condition. -/
theorem SystemReachable.run {workerId : String} {condition : System → Action → Prop}
    {system system' : System} {asks : List (System → Action)}
    (h : SystemReachable workerId condition system)
    (hasks : ∀ ask ∈ asks, ∀ system, condition system (ask system))
    (hrun : system.run workerId asks = some system') :
    SystemReachable workerId condition system' :=
  RunsTo.run h (fun ask hask system _ hstep => ⟨ask system, hasks ask hask system, hstep⟩) hrun

/-- The service of `serverConfig` is observed. -/
def askService (state : Health) (instant : ℤ) (system : System) : Action :=
  .change (.observe serverConfig instant system.state (serviceSeen state instant)) instant

/-- The server of `serverConfig` is observed. -/
def askServer (state : Health) (instant : ℤ) (system : System) : Action :=
  .change (.observe serverConfig instant system.state (serverSeen state instant)) instant

/-- The coordinator leases the next job. -/
def askLease (instant : ℤ) (system : System) : Action := .lease instant system.state instant

/-- The coordinator decides by `serverConfig`. -/
def askDecide (instant : ℤ) (_ : System) : Action := .decide serverConfig instant

/-- The adapter has answered that it sent the notification. -/
def askSettle (instant : ℤ) (_ : System) : Action :=
  .settle serverConfig (.ok ⟨some 200, none⟩) instant instant

/-- The service fails for a minute and its opening is delivered. -/
def openingDelivered : List (System → Action) :=
  [askService .problem 0, askService .problem 60000, askLease 60000, askDecide 60000,
    askSettle 60000]

end HomelabInventory.Notifications
