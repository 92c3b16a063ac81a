import HomelabInventory.DeliveryRuns

/-!
# Changes that queue no job

A step of the delivery coordinator, and a cancellation of what waits, takes jobs on or gives
them up: no job comes to be outstanding by it that was not. What is said of the jobs that may
still be delivered is kept by all of these changes for the same reason.
-/

namespace HomelabInventory.Notifications

open List

/-! ## Jobs that are kept -/

/-- The job may still be delivered. -/
def DeliveryJob.IsOutstanding (job : DeliveryJob) : Prop :=
  job.state = .queued ∨ job.state = .retrying ∨ job.state = .leased

/-- A job after a change that queues none. -/
structure JobKept (old new : DeliveryJob) : Prop where
  face_eq : new.face = old.face
  outstanding : new.IsOutstanding → old.IsOutstanding
  lease_held : new.leaseOwner.isSome → new.state = .leased

/-- Only a leased job has an owner. -/
def LeaseHeld (state : NotificationState) : Prop :=
  ∀ job ∈ state.deliveryJobs, job.leaseOwner.isSome → job.state = .leased

/-- The jobs after a change that queues none. -/
def JobsKept (old new : NotificationState) : Prop :=
  ∀ job ∈ new.deliveryJobs, ∃ before ∈ old.deliveryJobs, JobKept before job

/-- A change of the jobs that queues none. -/
structure OnlyJobs (old new : NotificationState) : Prop where
  jobs : JobsKept old new
  incidents : new.incidents = old.incidents
  cooldowns : new.cooldowns = old.cooldowns
  incidentCounter : new.counters.incident = old.counters.incident

variable {old mid new state : NotificationState} {workerId : String} {jobId : ℕ}

theorem OnlyJobs.trans (h : OnlyJobs old mid) (h' : OnlyJobs mid new) : OnlyJobs old new where
  jobs job hjob := by
    obtain ⟨between, hbetween, hkept⟩ := h'.jobs job hjob
    obtain ⟨before, hbefore, hkept'⟩ := h.jobs between hbetween
    exact ⟨before, hbefore, hkept.face_eq.trans hkept'.face_eq,
      fun hout => hkept'.outstanding (hkept.outstanding hout), hkept.lease_held⟩
  incidents := h'.incidents.trans h.incidents
  cooldowns := h'.cooldowns.trans h.cooldowns
  incidentCounter := h'.incidentCounter.trans h.incidentCounter

theorem JobsKept.leaseHeld (h : JobsKept old new) : LeaseHeld new := by
  intro job hjob
  obtain ⟨before, -, hkept⟩ := h job hjob
  exact hkept.lease_held

theorem promotePending_deliveryJobs (state : NotificationState) (rule : NotificationRule)
    (pending : PendingTransition) (now : ℤ) :
    (promotePending state rule pending now).deliveryJobs = state.deliveryJobs := by
  unfold promotePending
  split <;> rfl

variable (h : LeaseHeld state)
include h

theorem LeaseHeld.kept {job : DeliveryJob} (hjob : job ∈ state.deliveryJobs) : JobKept job job :=
  ⟨rfl, fun h => h, h job hjob⟩

theorem LeaseHeld.jobsKept (hjobs : new.deliveryJobs ⊆ state.deliveryJobs) : JobsKept state new :=
  fun job hjob => ⟨job, hjobs hjob, h.kept (hjobs hjob)⟩

/-- Nothing that is looked at changes. -/
theorem LeaseHeld.onlyJobs (hjobs : new.deliveryJobs = state.deliveryJobs)
    (hincidents : new.incidents = state.incidents) (hcooldowns : new.cooldowns = state.cooldowns)
    (hcounter : new.counters.incident = state.counters.incident) : OnlyJobs state new :=
  ⟨h.jobsKept (hjobs ▸ Subset.refl _), hincidents, hcooldowns, hcounter⟩

theorem LeaseHeld.cancelWaitingJobs (incidentIds : List ℕ) (reason : String) (instant : ℤ) :
    OnlyJobs state (cancelWaitingJobs state incidentIds reason instant) := by
  refine ⟨fun job hjob => ?_, rfl, rfl, rfl⟩
  obtain ⟨before, hbefore, rfl⟩ := mem_map.mp hjob
  refine ⟨before, hbefore, ?_⟩
  split
  · refine ⟨rfl, fun hout => ?_, nofun⟩
    rcases hout with hout | hout | hout <;> cases hout
  · exact h.kept hbefore

theorem LeaseHeld.inhibitChildren (observation : Observation) (instant : ℤ) :
    OnlyJobs state (inhibitChildren state observation instant) := by
  unfold Notifications.inhibitChildren
  split
  · refine OnlyJobs.trans ?_ (LeaseHeld.cancelWaitingJobs ?_ _ _ instant)
    · exact h.onlyJobs rfl rfl rfl rfl
    · exact h
  · exact h.onlyJobs rfl rfl rfl rfl

/-! ## Steps of the coordinator -/

theorem LeaseHeld.expireLease {job : DeliveryJob} (hjob : job ∈ state.deliveryJobs) (instant : ℤ) :
    JobKept job (expireLease instant job) := by
  unfold Notifications.expireLease
  split
  · rename_i hexpired
    have hleased : job.state = .leased := of_decide_eq_true (Bool.and_eq_true_iff.mp hexpired).1
    exact ⟨rfl, fun _ => .inr (.inr hleased), nofun⟩
  · exact h.kept hjob

theorem LeaseHeld.leaseNext (workerId : String) (instant : ℤ) (snapshot : NotificationState) :
    OnlyJobs state (leaseNext workerId instant snapshot state).2 := by
  have hexpired : OnlyJobs state { state with
      deliveryJobs := state.deliveryJobs.map (Notifications.expireLease instant) } := by
    refine ⟨fun job hjob => ?_, rfl, rfl, rfl⟩
    obtain ⟨before, hbefore, rfl⟩ := mem_map.mp hjob
    exact ⟨before, hbefore, h.expireLease hbefore instant⟩
  simp only [Notifications.leaseNext]
  split
  · split
    · exact hexpired
    · refine hexpired.trans ⟨fun job hjob => ?_, rfl, rfl, rfl⟩
      obtain hold | ⟨before, hbefore, hready, rfl⟩ := mem_modifyFirst hjob
      · exact ⟨job, hold, hexpired.jobs.leaseHeld.kept hold⟩
      · have hwaits : before.state = .queued ∨ before.state = .retrying :=
          of_decide_eq_true (Bool.and_eq_true_iff.mp hready).1
        exact ⟨before, hbefore, rfl, fun _ => hwaits.elim .inl fun h => .inr (.inl h), fun _ => rfl⟩
  · exact h.onlyJobs rfl rfl rfl rfl

/-- The job with an id gives its lease back, and is outstanding only if it was. -/
theorem LeaseHeld.modifyJob (jobId : ℕ) {f : DeliveryJob → DeliveryJob}
    (hf : ∀ job ∈ state.deliveryJobs, job.id = jobId → JobKept job (f job)) :
    OnlyJobs state (modifyJob state jobId f) := by
  refine ⟨fun job hjob => ?_, rfl, rfl, rfl⟩
  obtain hold | ⟨before, hbefore, hid, rfl⟩ := mem_modifyFirst hjob
  · exact ⟨job, hold, h.kept hold⟩
  · exact ⟨before, hbefore, hf before hbefore (of_decide_eq_true hid)⟩

theorem LeaseHeld.cancel (jobId : ℕ) (reason : String) (instant : ℤ) :
    OnlyJobs state (cancel jobId reason instant state) := by
  refine h.modifyJob jobId fun job _ _ => ⟨rfl, fun hout => ?_, nofun⟩
  rcases hout with hout | hout | hout <;> cases hout

variable (hcoherent : Coherent state)
include hcoherent

/-- The job that the worker holds is leased. -/
theorem LeaseHeld.outstanding_of_heldJob {held job : DeliveryJob}
    (hheld : heldJob workerId jobId state = some held) (hjob : job ∈ state.deliveryJobs)
    (hid : job.id = jobId) : job.IsOutstanding := by
  obtain ⟨hmem, hheldId, howner⟩ := mem_of_heldJob hheld
  obtain rfl := eq_of_key_eq hcoherent.deliveryJobs.nodup hjob hmem (hid.trans hheldId.symm)
  exact .inr (.inr (h job hjob (by rw [howner]; rfl)))

theorem LeaseHeld.fail (workerId : String) (jobId : ℕ) (message : String) (instant : ℤ) :
    OnlyJobs state (fail workerId jobId message instant state) := by
  simp only [Notifications.fail]
  split
  · exact h.onlyJobs rfl rfl rfl rfl
  · rename_i held hheld
    have hkept := h.modifyJob jobId fun job hjob hid => show JobKept job { job with
        attempts := held.attempts + 1
        state := if decide (retryDelaysMs.length ≤ held.attempts + 1) then .exhausted
          else .retrying
        availableAt := instant + retryDelaysMs.getD (held.attempts + 1) 0
        leaseOwner := none
        leaseExpiresAt := none
        lastError := some message
        updatedAt := instant } from
      ⟨rfl, fun _ => h.outstanding_of_heldJob hcoherent hheld hjob hid, by rintro ⟨⟩⟩
    exact ⟨hkept.jobs, rfl, rfl, rfl⟩

theorem LeaseHeld.defer (workerId : String) (jobId : ℕ) (mutedUntil : Option ℤ) (instant : ℤ) :
    OnlyJobs state (defer workerId jobId mutedUntil instant state) := by
  simp only [Notifications.defer]
  split
  · exact h.onlyJobs rfl rfl rfl rfl
  · rename_i held hheld
    exact h.modifyJob jobId fun job hjob hid =>
      ⟨rfl, fun _ => h.outstanding_of_heldJob hcoherent hheld hjob hid, by rintro ⟨⟩⟩

/-- The job that was delivered is no longer outstanding. -/
theorem LeaseHeld.settleDelivered {held : DeliveryJob}
    (hheld : heldJob workerId jobId state = some held) (status : Option ℕ)
    (responseExcerpt : Option String) (instant : ℤ) :
    OnlyJobs state (addAttempt (Notifications.modifyJob state jobId fun job => { job with
      attempts := job.attempts + 1
      state := .delivered
      deliveredAt := some instant
      leaseOwner := none
      leaseExpiresAt := none
      lastError := none
      updatedAt := instant }) jobId (held.attempts + 1) .delivered status responseExcerpt none
      instant) := by
  have hkept := h.modifyJob jobId fun job hjob hid => show JobKept job { job with
      attempts := job.attempts + 1
      state := .delivered
      deliveredAt := some instant
      leaseOwner := none
      leaseExpiresAt := none
      lastError := none
      updatedAt := instant } from
    ⟨rfl, fun _ => h.outstanding_of_heldJob hcoherent hheld hjob hid, by rintro ⟨⟩⟩
  exact ⟨hkept.jobs, rfl, rfl, rfl⟩

end HomelabInventory.Notifications
