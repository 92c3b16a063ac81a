import HomelabInventory.CooldownOperations

/-!
# How far apart openings are delivered

Runs of the incident manager and the delivery coordinator by one configuration, without
retries by hand, at instants that never go back. The cooldown is checked when an opening is
queued and recorded when one was delivered: an opening whose delivery outlives its incident
may find the opening of the next incident queued already.
-/

namespace HomelabInventory.Notifications

open List Option

/-! ## Runs at instants -/

/-- The instant at which a change is asked for. -/
def Mutation.instant : Mutation → ℤ
  | .observe _ clock _ observation => observation.observedAt.getD clock
  | .evaluatePending _ now _ | .evaluateReminders _ now _ | .evaluateSuppressedOpenings _ now _
  | .evaluateRecoveries _ now _ | .cancelHost _ _ _ now | .reconcilePolicies _ _ _ now _
  | .acknowledge _ _ now | .lease _ now _ | .succeed _ _ _ _ now | .fail _ _ _ now
  | .cancel _ _ now | .defer _ _ _ now | .retry _ now | .prune _ _ now _ => now

/-- The change reads no other configuration. -/
def Mutation.Reads (config : NotificationConfig) : Mutation → Prop
  | .observe read _ _ _ | .evaluatePending read _ _ | .evaluateReminders read _ _
  | .evaluateSuppressedOpenings read _ _ | .evaluateRecoveries read _ _
  | .reconcilePolicies read _ _ _ _ | .succeed _ read _ _ _ | .prune read _ _ _ => read = config
  | .cancelHost .. | .acknowledge .. | .lease .. | .fail .. | .cancel .. | .defer .. | .retry .. =>
    True

def Mutation.isRetry : Mutation → Bool
  | .retry .. => true
  | _ => false

def Action.instant : Action → ℤ
  | .change mutation _ => mutation.instant
  | .lease now _ _ | .decide _ now | .settle _ _ now _ => now

/-- The step reads no other configuration, and is no retry by hand. -/
def Action.Admitted (config : NotificationConfig) : Action → Prop
  | .change mutation _ => mutation.Reads config ∧ mutation.isRetry = false
  | .lease .. => True
  | .decide read _ | .settle read _ _ _ => read = config

/-- The job whose notification the adapter has sent. -/
def System.sentJob (system : System) : Action → Option ℕ
  | .settle _ (.ok _) _ _ => match system.worker with
    | .sending jobId => some jobId
    | _ => none
  | _ => none

/-- The opening that a step delivers. -/
def System.delivers (workerId : String) (system : System) (action : Action) : Option Opening :=
  (system.sentJob action).bind fun jobId =>
    deliveredOpening workerId jobId action.instant system.state

/-- A system with the instant of its last step and the openings that were delivered. -/
structure Journal where
  system : System
  clock : ℤ
  openings : List Opening

/-- A journal after a step that does not go back in time. -/
def Journal.step (workerId : String) (journal : Journal) (action : Action) : Option Journal :=
  if journal.clock ≤ action.instant then
    (journal.system.step workerId action).map fun system =>
      ⟨system, action.instant,
        journal.openings ++ (journal.system.delivers workerId action).toList⟩
  else none

/-- The journals of the runs by a configuration whose steps all meet a condition. -/
abbrev JournalReachable (workerId : String) (config : NotificationConfig)
    (condition : System → Action → Prop) : Journal → Prop :=
  RunsTo (·.step workerId ·)
    (fun journal action => action.Admitted config ∧ condition journal.system action)
    fun journal => ∃ now, journal = ⟨⟨createNotificationState now, .idle⟩, now, []⟩

/-- Openings of one topic for one contact point are apart by the cooldown of their rule. -/
def FarApart (config : NotificationConfig) (openings : List Opening) : Prop :=
  ∀ opening ∈ openings, ∀ other ∈ openings, opening.topic = other.topic →
    opening.contactPointId = other.contactPointId → opening.incidentId ≠ other.incidentId →
    ∀ rule, opening.topic.rule config = some rule →
      rule.cooldownSeconds * 1000 ≤ (opening.deliveredAt - other.deliveredAt).natAbs

/-! ## The condition -/

/-- The change drops no cooldown that runs. -/
def Mutation.SparesCooldowns (state : NotificationState) : Mutation → Prop
  | .cancelHost hostType hostId _ now => ∀ cooldown ∈ state.cooldowns,
    cooldown.hostType = hostType → cooldown.hostId = hostId → cooldown.expiresAt ≤ now
  | .reconcilePolicies config scope _ now _ => ∀ cooldown ∈ state.cooldowns,
    allowed config scope now cooldown.hostType cooldown.hostId cooldown.resourceId
      cooldown.eventType = false → cooldown.expiresAt ≤ now
  | _ => True

/-- A step that keeps openings apart: the job of a notification that was sent is still held, an
opening that is delivered is alone in waiting, and no cooldown that runs is dropped. -/
structure KeepsApart (workerId : String) (system : System) (action : Action) : Prop where
  held : ∀ jobId, system.sentJob action = some jobId →
    (heldJob workerId jobId system.state).isSome
  alone : ∀ opening, system.delivers workerId action = some opening → opening.Alone system.state
  spares : ∀ mutation clock, action = .change mutation clock →
    mutation.SparesCooldowns system.state

/-! ## Steps -/

/-- The invariant of a journal. -/
structure JournalCoherent (config : NotificationConfig) (journal : Journal) : Prop where
  system : SystemCoherent journal.system
  cools : Cools config journal.openings journal.clock journal.system.state
  apart : FarApart config journal.openings

variable {config : NotificationConfig} {openings : List Opening} {now : ℤ}
  {state : NotificationState}

variable {mutation : Mutation}

theorem Cools.apply (h : Cools config openings now state) (hcoherent : Coherent state)
    (hexternal : mutation.isExternal = true) (hretry : mutation.isRetry = false)
    (hinstant : mutation.instant = now) (hspares : mutation.SparesCooldowns state)
    {draft : NotificationState} (hrun : mutation.apply state = .ok draft) :
    Cools config openings now draft := by
  subst hinstant
  cases mutation with
  | observe read clock snapshot observation =>
    obtain rfl := Except.ok.inj hrun
    exact Cools.observe h hcoherent read snapshot
  | evaluatePending read now snapshot =>
    obtain rfl := Except.ok.inj hrun
    exact (Cools.keeps.evaluatePending ⟨hcoherent, h⟩ read snapshot).2
  | evaluateReminders read now snapshot =>
    obtain rfl := Except.ok.inj hrun
    exact (Cools.keeps.evaluateReminders ⟨hcoherent, h⟩ read snapshot).2
  | evaluateSuppressedOpenings read now snapshot =>
    obtain rfl := Except.ok.inj hrun
    exact (Cools.keeps.evaluateSuppressedOpenings ⟨hcoherent, h⟩ read snapshot).2
  | evaluateRecoveries read now snapshot =>
    obtain rfl := Except.ok.inj hrun
    exact (Cools.keeps.evaluateRecoveries ⟨hcoherent, h⟩ read snapshot).2
  | cancelHost hostType hostId reason now =>
    obtain rfl := Except.ok.inj hrun
    exact Cools.cancelHost h hcoherent hspares reason
  | reconcilePolicies read scope reason now snapshot =>
    obtain rfl := Except.ok.inj hrun
    exact Cools.reconcilePolicies h hcoherent hspares reason snapshot
  | acknowledge incidentId actor now =>
    obtain ⟨incident, hresult⟩ := map_snd_eq_ok hrun
    exact Cools.acknowledge h hresult
  | prune read limits now snapshot =>
    obtain rfl := Except.ok.inj hrun
    exact Cools.pruneNotificationHistory h hcoherent read limits snapshot
  | retry => exact nomatch hretry
  | lease => exact nomatch hexternal
  | succeed => exact nomatch hexternal
  | fail => exact nomatch hexternal
  | cancel => exact nomatch hexternal
  | defer => exact nomatch hexternal

variable {workerId : String}

/-- A delivered opening is far from the earlier ones. -/
theorem Cools.farApart (h : Cools config openings now state) (hcoherent : Coherent state)
    (hapart : FarApart config openings) {jobId : ℕ} {opening : Opening}
    (hdelivered : deliveredOpening workerId jobId now state = some opening) :
    FarApart config (openings ++ [opening]) := by
  obtain ⟨held, hheld, hopening⟩ := bind_eq_some_iff.mp hdelivered
  split at hopening
  case isFalse => exact nomatch hopening
  rename_i hkind
  obtain ⟨incident, hfind, rfl⟩ := map_eq_some_iff.mp hopening
  have hread := mem_of_find?_eq_some hfind
  have hid : incident.id = held.incidentId := by simpa using find?_some hfind
  obtain ⟨hmem, hheldId, -⟩ := mem_of_heldJob hheld
  have hcooled : ∀ other ∈ openings, other.topic = incident.topic →
      other.contactPointId = held.contactPointId → other.incidentId ≠ incident.id →
      other.coolsUntil config ≤ now := fun other hother htopic hcontact hne =>
    h.apart other hother held hmem hkind
      (h.lease_held.outstanding_of_heldJob hcoherent hheld hmem hheldId)
      hcontact.symm incident hread hid htopic.symm hne.symm
  have hfar : ∀ other ∈ openings, other.topic = incident.topic →
      other.contactPointId = held.contactPointId → other.incidentId ≠ incident.id →
      ∀ rule, other.topic.rule config = some rule →
        rule.cooldownSeconds * 1000 ≤ (other.deliveredAt - now).natAbs := by
    intro other hother htopic hcontact hne rule hrule
    have hover := hcooled other hother htopic hcontact hne
    rw [Opening.coolsUntil, Topic.cooldownMs, hrule, map_some, getD_some] at hover
    omega
  intro first hfirst second hsecond htopic hcontact hne rule hrule
  obtain hfirst | hfirst := mem_append.mp hfirst
  · obtain hsecond | hsecond := mem_append.mp hsecond
    · exact hapart first hfirst second hsecond htopic hcontact hne rule hrule
    · rw [mem_singleton.mp hsecond] at htopic hcontact hne ⊢
      exact hfar first hfirst htopic hcontact hne rule hrule
  · rw [mem_singleton.mp hfirst] at htopic hcontact hne hrule ⊢
    obtain hsecond | hsecond := mem_append.mp hsecond
    · have hsoon := hfar second hsecond htopic.symm hcontact.symm hne.symm rule (htopic ▸ hrule)
      dsimp only
      omega
    · rw [mem_singleton.mp hsecond] at hne
      exact absurd rfl hne

/-- **Every step keeps the invariant of the journal** when it meets the condition. -/
theorem JournalCoherent.step {journal : Journal} (h : JournalCoherent config journal)
    {action : Action} (hadmitted : action.Admitted config)
    (hcondition : KeepsApart workerId journal.system action) {next : Journal}
    (hnext : journal.step workerId action = some next) : JournalCoherent config next := by
  rw [Journal.step] at hnext
  split at hnext
  case isFalse => exact nomatch hnext
  rename_i hclock
  obtain ⟨system, hstep, rfl⟩ := map_eq_some_iff.mp hnext
  have hcoherent := h.system.coherent
  have hnow := h.cools.later hclock
  have hjobs : ∀ {new : NotificationState} {delivered : Option Opening}, delivered = none →
      Cools config journal.openings action.instant new →
      Cools config (journal.openings ++ delivered.toList) action.instant new := by
    rintro new delivered rfl hcools
    rwa [toList_none, append_nil]
  refine ⟨h.system.step hstep, ?_, ?_⟩
  · cases System.stepsTo hcoherent hstep with
    | @change mutation clock _ _ hexternal happly =>
      exact hjobs rfl ((hnow.apply hcoherent hexternal hadmitted.2 rfl
        (hcondition.spares mutation clock rfl) happly).congr rfl rfl rfl)
    | @idle now snapshot _ _ =>
      exact hjobs rfl
        ((hnow.setJobs (hnow.lease_held.leaseNext workerId now snapshot)).congr rfl rfl rfl)
    | @lease now snapshot _ _ _ _ =>
      exact hjobs rfl
        ((hnow.setJobs (hnow.lease_held.leaseNext workerId now snapshot)).congr rfl rfl rfl)
    | decide _ => exact hjobs rfl hnow
    | @cancel _ answer now _ jobId reason _ hworker =>
      exact hjobs (by cases answer <;> simp [System.delivers, System.sentJob, hworker])
        ((hnow.setJobs (hnow.lease_held.cancel jobId reason now)).congr rfl rfl rfl)
    | @defer _ answer now _ jobId mutedUntil _ hworker =>
      exact hjobs (by cases answer <;> simp [System.delivers, System.sentJob, hworker])
        ((hnow.setJobs (hnow.lease_held.defer hcoherent workerId jobId mutedUntil now)).congr
          rfl rfl rfl)
    | @succeed read result now clock jobId _ hworker =>
      obtain rfl : read = config := hadmitted
      have hsent : journal.system.delivers workerId (.settle read (.ok result) now clock) =
          deliveredOpening workerId jobId now journal.system.state := by
        simp [System.delivers, System.sentJob, hworker, Action.instant]
      have halone := hcondition.alone
      rw [hsent] at halone ⊢
      exact (Cools.succeed hnow hcoherent halone result).congr rfl rfl rfl
    | @fail _ message now _ jobId _ _ =>
      exact hjobs rfl
        ((hnow.setJobs (hnow.lease_held.fail hcoherent workerId jobId message now)).congr
          rfl rfl rfl)
  · cases hdelivers : journal.system.delivers workerId action with
    | none => simpa using h.apart
    | some opening =>
      obtain ⟨jobId, -, hdelivered⟩ := bind_eq_some_iff.mp hdelivers
      exact Cools.farApart hnow hcoherent h.apart hdelivered

/-! ## Runs -/

/-- The invariant of the journal holds after any run whose steps all meet the condition. -/
theorem JournalReachable.coherent {journal : Journal}
    (h : JournalReachable workerId config (KeepsApart workerId) journal) :
    JournalCoherent config journal := by
  refine h.invariant ?_ fun _ _ _ hcoherent hcondition hstep =>
    hcoherent.step hcondition.1 hcondition.2 hstep
  rintro _ ⟨now, rfl⟩
  exact ⟨systemCoherent_start now, Cools.create config now, by simp [FarApart]⟩

/-- **Openings are apart** by the cooldown of their rule in every run whose steps keep them
apart. -/
theorem farApart_of_keepsApart (workerId : String) (config : NotificationConfig)
    (journal : Journal) (h : JournalReachable workerId config (KeepsApart workerId) journal) :
    FarApart config journal.openings :=
  h.coherent.apart

/-! ## A rule that cools down -/

/-- Some steps one after the other. -/
def Journal.run (workerId : String) (journal : Journal) (asks : List (System → Action)) :
    Option Journal :=
  asks.foldlM (fun journal ask => journal.step workerId (ask journal.system)) journal

theorem JournalReachable.start {workerId : String} {config : NotificationConfig}
    {condition : System → Action → Prop} (now : ℤ) : JournalReachable workerId config condition
      ⟨⟨createNotificationState now, .idle⟩, now, []⟩ :=
  RunsTo.start ⟨now, rfl⟩

/-- A run reaches its journal when all that is asked for meets the condition. -/
theorem JournalReachable.run {workerId : String} {condition : System → Action → Prop}
    {asks : List (System → Action)} {journal last : Journal}
    (h : JournalReachable workerId config condition journal)
    (hasks : ∀ ask ∈ asks, ∀ system, (ask system).Admitted config ∧
      condition system (ask system))
    (hrun : journal.run workerId asks = some last) :
    JournalReachable workerId config condition last :=
  RunsTo.run h (fun ask hask journal _ hstep =>
    ⟨ask journal.system, hasks ask hask journal.system, hstep⟩) hrun

/-- The storage of a server is reported at once, and then not for a quarter of an hour. -/
def coolingConfig : NotificationConfig :=
  { serverConfig with
    rules := [⟨.storageWarning, .warning, 0, true, [⟨1, Nat.one_pos⟩], none, 900⟩] }

/-- The storage of the server is observed. -/
def askStorage (state : Health) (instant : ℤ) (system : System) : Action :=
  .change (.observe coolingConfig instant system.state
    ⟨.server, ⟨1, Nat.one_pos⟩, none, .storageWarning, state, some instant, none, none, none⟩) instant

/-- The coordinator decides by `coolingConfig`. -/
def askDecideCooling (instant : ℤ) (_ : System) : Action := .decide coolingConfig instant

/-- The adapter has sent a notification of `coolingConfig`. -/
def askSettleCooling (instant : ℤ) (_ : System) : Action :=
  .settle coolingConfig (.ok ⟨some 200, none⟩) instant instant

/-- The storage fails, and the coordinator is about to send the opening. -/
def openingSent : List (System → Action) :=
  [askStorage .problem 0, askLease 0, askDecideCooling 0]

theorem keepsApart_askStorage (workerId : String) (state : Health) (instant : ℤ)
    (system : System) : (askStorage state instant system).Admitted coolingConfig ∧
      KeepsApart workerId system (askStorage state instant system) := by
  refine ⟨⟨rfl, rfl⟩, (fun jobId h => nomatch h), (fun opening h => nomatch h),
    fun mutation clock h => ?_⟩
  obtain ⟨rfl, rfl⟩ := Action.change.inj h
  trivial

/-- The notification of a job that is still held has been sent, and an opening that it delivers is
alone. -/
theorem keepsApart_askSettleCooling {workerId : String} {system : System} {instant : ℤ} (jobId : ℕ)
    (hsending : system.worker = .sending jobId)
    (hheld : (heldJob workerId jobId system.state).isSome)
    (halone : ∀ opening ∈ deliveredOpening workerId jobId instant system.state,
      opening.Alone system.state) :
    KeepsApart workerId system (askSettleCooling instant system) := by
  have hsent : system.sentJob (askSettleCooling instant system) = some jobId := by
    simp [askSettleCooling, System.sentJob, hsending]
  refine ⟨fun job hjob => ?_, fun opening hopening => halone opening ?_, fun _ _ h => nomatch h⟩
  · exact Option.some.inj (hsent.symm.trans hjob) ▸ hheld
  · rwa [System.delivers, hsent, bind_some] at hopening

/-- The storage recovers, and the coordinator is about to send the recovery. -/
def recoverySent : List (System → Action) :=
  [askStorage .healthy 10, askLease 10, askDecideCooling 10]

/-- The storage fails again a quarter of an hour later. -/
def openingSentLater : List (System → Action) :=
  [askStorage .problem 900010, askLease 900010, askDecideCooling 900010]

/-- The storage is observed, and the coordinator leases and decides. -/
theorem keepsApart_sent (workerId : String) :
    ∀ ask ∈ openingSent ++ recoverySent ++ openingSentLater, ∀ system,
      (ask system).Admitted coolingConfig ∧ KeepsApart workerId system (ask system) := by
  intro ask hask system
  simp only [openingSent, recoverySent, openingSentLater, cons_append, nil_append, mem_cons,
    not_mem_nil, or_false] at hask
  obtain rfl | rfl | rfl | rfl | rfl | rfl | rfl | rfl | rfl := hask
  all_goals first
    | exact keepsApart_askStorage workerId _ _ system
    | exact ⟨trivial, (fun jobId h => nomatch h), (fun opening h => nomatch h),
        (fun mutation clock h => nomatch h)⟩
    | exact ⟨rfl, (fun jobId h => nomatch h), (fun opening h => nomatch h),
        (fun mutation clock h => nomatch h)⟩

/-- The openings of two incidents of one storage are delivered a quarter of an hour apart. -/
theorem farApart_of_keepsApart_storage :
    ∃ journal, JournalReachable "worker" coolingConfig (KeepsApart "worker") journal ∧
      journal.openings.map (fun opening => (opening.incidentId, opening.deliveredAt)) =
        [(1, 3), (2, 900010)] ∧
      FarApart coolingConfig journal.openings := by
  obtain ⟨sent, hsent, told, htold, closed, hclosed, recovered, hrecovered, later, hlater, journal,
      hjournal, hopenings⟩ : ∃ sent,
      Journal.run "worker" ⟨⟨createNotificationState 0, .idle⟩, 0, []⟩ openingSent = some sent ∧
      ∃ told, sent.step "worker" (askSettleCooling 3 sent.system) = some told ∧
      ∃ closed, told.run "worker" recoverySent = some closed ∧
      ∃ recovered, closed.step "worker" (askSettleCooling 10 closed.system) = some recovered ∧
      ∃ later, recovered.run "worker" openingSentLater = some later ∧
      ∃ journal, later.step "worker" (askSettleCooling 900010 later.system) = some journal ∧
        journal.openings.map (fun opening => (opening.incidentId, opening.deliveredAt)) =
          [(1, 3), (2, 900010)] :=
    ⟨_, rfl, _, rfl, _, rfl, _, rfl, _, rfl, _, rfl, rfl⟩
  have hreachedSent := JournalReachable.run (JournalReachable.start 0) (fun ask hask =>
    keepsApart_sent "worker" ask (mem_append_left _ (mem_append_left _ hask))) hsent
  have htelling : KeepsApart "worker" sent.system (askSettleCooling 3 sent.system) := by
    obtain rfl := Option.some.inj hsent
    exact keepsApart_askSettleCooling 1 rfl rfl (by decide)
  have hreachedOver := JournalReachable.run
    (hreachedSent.step (askSettleCooling 3 _) ⟨rfl, htelling⟩ htold) (fun ask hask =>
    keepsApart_sent "worker" ask (mem_append_left _ (mem_append_right _ hask))) hclosed
  have hrecovering : KeepsApart "worker" closed.system (askSettleCooling 10 closed.system) := by
    obtain rfl := Option.some.inj hsent
    obtain rfl := Option.some.inj htold
    obtain rfl := Option.some.inj hclosed
    exact keepsApart_askSettleCooling 2 rfl rfl (by decide)
  have hreachedLater := JournalReachable.run
    (hreachedOver.step (askSettleCooling 10 _) ⟨rfl, hrecovering⟩ hrecovered)
    (fun ask hask => keepsApart_sent "worker" ask (mem_append_right _ hask)) hlater
  -- the opening of the first incident is no longer outstanding
  have htellingLater : KeepsApart "worker" later.system (askSettleCooling 900010 later.system) := by
    obtain rfl := Option.some.inj hsent
    obtain rfl := Option.some.inj htold
    obtain rfl := Option.some.inj hclosed
    obtain rfl := Option.some.inj hrecovered
    obtain rfl := Option.some.inj hlater
    exact keepsApart_askSettleCooling 3 rfl rfl (by decide)
  have hreached := hreachedLater.step (askSettleCooling 900010 _) ⟨rfl, htellingLater⟩ hjournal
  exact ⟨journal, hreached, hopenings, farApart_of_keepsApart "worker" coolingConfig journal hreached⟩

/-- The opening of an incident is delivered after the next incident of its event has opened. -/
def openingOutlived : List (System → Action) :=
  openingSent ++ [askStorage .healthy 1, askStorage .problem 2, askSettleCooling 3, askLease 4,
    askDecideCooling 4, askSettleCooling 5]

/-- Two openings are delivered two milliseconds apart by a rule of a quarter of an hour. -/
theorem farApart_outlived : ¬∀ (workerId : String) (config : NotificationConfig)
    (journal : Journal), JournalReachable workerId config (fun _ _ => True) journal →
      FarApart config journal.openings := by
  intro hapart
  obtain ⟨journal, hrun⟩ : ∃ journal, Journal.run "worker"
      ⟨⟨createNotificationState 0, .idle⟩, 0, []⟩ openingOutlived = some journal := ⟨_, rfl⟩
  have hreached : JournalReachable "worker" coolingConfig (fun _ _ => True) journal := by
    refine (JournalReachable.start 0).run (fun ask hask system => ⟨?_, trivial⟩) hrun
    simp only [openingOutlived, openingSent, cons_append, nil_append, mem_cons,
      not_mem_nil, or_false] at hask
    rcases hask with rfl | rfl | rfl | rfl | rfl | rfl | rfl | rfl | rfl
    all_goals first
      | exact ⟨rfl, rfl⟩
      | exact rfl
      | exact trivial
  have hfar := hapart "worker" coolingConfig journal hreached
  obtain rfl := Option.some.inj hrun
  have hsoon := hfar _ mem_cons_self _ (mem_cons_of_mem _ mem_cons_self) rfl rfl
    (by decide) _ rfl
  exact absurd hsoon (by decide)

end HomelabInventory.Notifications
