import HomelabInventory.ContributionInvariants
import HomelabInventory.GuardedRuns

/-!
# Runs that keep every contribution

In a run whose discoveries write undisturbed, and that crashes only while no
record is in delivery, no contribution is lost, duplicated or stuck. A discovery
that writes what it read before a delivery settled it brings a delivered record
back, and a crash during a delivery leaves its records in delivery for good.
-/

namespace HomelabInventory.Contributions

open InsertionMap List Option

/-! ## Runs -/

/-- Discoveries write undisturbed, and a crash interrupts no delivery. -/
def System.Unhindered (s : System) : Update → Prop
  | .writeDiscovery => ∀ now plan, s.running = some (.discovering now plan) →
      plan.Undisturbed s.store
  | .writeLinks index => ∀ plan, s.discoveries[index]? = some plan → plan.Undisturbed s.store
  | .crash => s.store.NoneDelivering
  | _ => True

/-- A step that leaves the ledger below its limit. -/
def System.stepBelow (P : CatalogProtocol) (s : System) (update : Update) : Option System :=
  (s.step P update).filter (·.store.contributionLedger.length < MAX_LEDGER_RECORDS)

/-- The steps that lead from one system to another, all under a condition, with
the ledger below its limit. -/
abbrev Runs (P : CatalogProtocol) (condition : System → Update → Prop) (start : System) :
    System → Prop :=
  RunsTo (·.stepBelow P ·) condition (· = start)

/-- Nothing runs, nothing is in delivery, and the store is intact. -/
structure System.Quiet (s : System) : Prop where
  running : s.running = none
  discoveries : s.discoveries = []
  store : s.store.Intact
  idle : s.store.NoneDelivering

/-! ## What holds between the awaits -/

/-- What is in delivery, and what a discovery under way may still rely on. -/
def DeliveryCall.Sound (store : Registry) : Option DeliveryCall → Prop
  | some (.discovering _ plan) => plan.Sound ∧ store.NoneDelivering ∧
      ∀ hash ∈ store.ledgerHashes, hash ∈ plan.registry.ledgerHashes
  | some (.posting _ dueIds) => ∀ record ∈ store.contributionOutbox,
      record.state = .delivering → record.id ∈ dueIds
  | _ => store.NoneDelivering

structure System.Sound (s : System) : Prop where
  store : s.store.Intact
  running : DeliveryCall.Sound s.store s.running
  discoveries : ∀ plan ∈ s.discoveries, plan.Sound ∧ plan.found.candidates = []

variable {s s' : System}

theorem System.Quiet.sound (h : s.Quiet) : s.Sound where
  store := h.store
  running := by
    rw [h.running]
    exact h.idle
  discoveries := by
    rw [h.discoveries]
    exact fun _ hplan => by cases hplan

variable {store store' : Registry}

/-- A call stays sound when the store changes so that nothing comes into delivery,
and the ledger keeps its hashes. -/
theorem DeliveryCall.Sound.of_store {running : Option DeliveryCall}
    (h : DeliveryCall.Sound store running)
    (hdelivering : ∀ record ∈ store'.contributionOutbox, record.state = .delivering →
      ∃ before ∈ store.contributionOutbox, before.id = record.id ∧ before.state = .delivering)
    (hledger : store'.ledgerHashes = store.ledgerHashes) : DeliveryCall.Sound store' running := by
  have hnone : store.NoneDelivering → store'.NoneDelivering := by
    intro hidle record hrecord hstate
    obtain ⟨before, hbefore, -, hbeforeState⟩ := hdelivering record hrecord hstate
    exact hidle before hbefore hbeforeState
  match running with
  | none => exact hnone h
  | some (.digesting _ _) => exact hnone h
  | some (.discovering _ plan) =>
    obtain ⟨hplan, hidle, hhashes⟩ := h
    exact ⟨hplan, hnone hidle, hledger ▸ hhashes⟩
  | some (.discovered _) => exact hnone h
  | some (.posting _ dueIds) =>
    intro record hrecord hstate
    obtain ⟨before, hbefore, hid, hbeforeState⟩ := hdelivering record hrecord hstate
    exact hid ▸ h before hbefore hbeforeState
  | some (.refreshing _) => exact hnone h

/-- Writing links keeps the outbox and the ledger, so it disturbs nothing. -/
theorem DeliveryCall.Sound.edit {running : Option DeliveryCall}
    (h : DeliveryCall.Sound store running)
    (houtbox : store'.contributionOutbox = store.contributionOutbox)
    (hledger : store'.contributionLedger = store.contributionLedger) :
    DeliveryCall.Sound store' running := by
  refine h.of_store ?_ ?_
  · intro record hrecord hstate
    exact ⟨record, houtbox ▸ hrecord, rfl, hstate⟩
  · rw [Registry.ledgerHashes, hledger, Registry.ledgerHashes]

theorem System.sound_refreshing (hstore : store.Intact) (hidle : store.NoneDelivering)
    (hdiscoveries : ∀ plan ∈ s.discoveries, plan.Sound ∧ plan.found.candidates = []) (now : ℤ) :
    (s.refreshing store now).Sound where
  store := hstore
  running := by
    change DeliveryCall.Sound store (if _ then _ else _)
    split
    · exact hidle
    · exact hidle
  discoveries := hdiscoveries

variable {dueIds : List ℕ}

theorem System.Sound.fail (h : s.Sound)
    (hdue : ∀ record ∈ s.store.contributionOutbox, record.state = .delivering → record.id ∈ dueIds)
    (now : ℤ) (random : ℕ → ℚ) (error : String) : (s.fail now dueIds random error).Sound := by
  have hintact := h.store.reschedule now random dueIds error
  have htransaction : s.store.registryTransaction (Registry.reschedule now random dueIds error) =
      some (Registry.reschedule now random dueIds error s.store) :=
    Registry.registryTransaction_of_wellFormed hintact.wellFormed
  rw [System.fail, htransaction]
  exact ⟨hintact, Registry.noneDelivering_reschedule hdue now random error, h.discoveries⟩

theorem System.Sound.receive (h : s.Sound)
    (hdue : ∀ record ∈ s.store.contributionOutbox, record.state = .delivering → record.id ∈ dueIds)
    (now : ℤ) (random : ℕ → ℚ) (answer : DeliveryAnswer) :
    (s.receive now dueIds random answer).Sound := by
  cases answer with
  | failed error => exact h.fail hdue now random error
  | results results =>
    rw [System.receive]
    split
    · rename_i store htransaction
      have hintact := h.store.settle htransaction
      obtain ⟨-, rfl⟩ := Registry.registryTransaction_eq_some.mp htransaction
      exact System.sound_refreshing hintact (Registry.noneDelivering_settle hdue now random _)
        h.discoveries now
    · exact h.fail hdue now random _

variable {update : Update}

/-- **Every unhindered step keeps a system sound.** -/
theorem System.Sound.step {P : CatalogProtocol} (h : s.Sound) (hupdate : s.Unhindered update)
    (hstep : s.step P update = some s') : s'.Sound := by
  have hrunning := h.running
  cases update with
  | trigger explicit now =>
    simp only [System.step] at hstep
    split at hstep
    · rename_i hallowed
      obtain rfl := some.inj hstep
      rw [Bool.and_eq_true, isNone_iff_eq_none] at hallowed
      rw [hallowed.1] at hrunning
      exact ⟨h.store, hrunning, h.discoveries⟩
    · obtain rfl := some.inj hstep
      exact h
  | digest external =>
    simp only [System.step] at hstep
    split at hstep
    · rename_i explicit now hcall
      rw [hcall] at hrunning
      split at hstep
      · rename_i plan hplan
        obtain rfl := some.inj hstep
        obtain ⟨hregistry, hsound, -⟩ := discoverContributionCandidates_sound hplan h.store
        exact ⟨h.store, ⟨hsound, hrunning, hregistry ▸ fun _ hhash => hhash⟩, h.discoveries⟩
      · obtain rfl := some.inj hstep
        exact ⟨h.store, hrunning, h.discoveries⟩
    · cases hstep
  | writeDiscovery =>
    simp only [System.step] at hstep
    split at hstep
    · rename_i now plan hcall
      rw [hcall] at hrunning
      obtain ⟨hplan, hidle, hledger⟩ := hrunning
      have hundisturbed := hupdate now plan hcall
      split at hstep
      · rename_i store hcommit
        obtain rfl := some.inj hstep
        have hintact := hplan.commit hundisturbed (fun candidate hcandidate hmem =>
          hplan.newLedger candidate hcandidate (hledger _ hmem)) hcommit
        exact ⟨hintact, hundisturbed.noneDelivering hcommit hidle, h.discoveries⟩
      · obtain rfl := some.inj hstep
        exact ⟨h.store, hidle, h.discoveries⟩
    · cases hstep
  | claim =>
    simp only [System.step] at hstep
    split at hstep
    · rename_i now hcall
      rw [hcall] at hrunning
      split at hstep
      · obtain rfl := some.inj hstep
        exact System.sound_refreshing h.store hrunning h.discoveries now
      · rw [h.store.claim_transaction] at hstep
        obtain rfl := some.inj hstep
        refine ⟨h.store.claim _, ?_, h.discoveries⟩
        -- nothing was in delivery before, so what is now was claimed
        intro record hrecord hstate
        rcases Registry.mem_claim hrecord with hdue | hbefore
        · exact hdue
        · exact absurd hstate (hrunning record hbefore)
    · cases hstep
  | answer answer random =>
    simp only [System.step] at hstep
    split at hstep
    · rename_i now dueIds hcall
      rw [hcall] at hrunning
      obtain rfl := some.inj hstep
      exact h.receive hrunning now random answer
    · cases hstep
  | refresh statuses =>
    simp only [System.step] at hstep
    split at hstep
    · rename_i now hcall
      rw [hcall] at hrunning
      split at hstep
      · rename_i statuses
        have hintact := h.store.refreshStatuses (ofEntries statuses)
        rw [Registry.registryTransaction_of_wellFormed hintact.wellFormed] at hstep
        obtain rfl := some.inj hstep
        exact ⟨hintact, hrunning, h.discoveries⟩
      · obtain rfl := some.inj hstep
        exact ⟨h.store, hrunning, h.discoveries⟩
    · cases hstep
  | rejectDelivery =>
    simp only [System.step] at hstep
    split at hstep
    · rename_i explicit now hcall
      rw [hcall] at hrunning
      obtain rfl := some.inj hstep
      exact ⟨h.store, hrunning, h.discoveries⟩
    · rename_i now plan hcall
      rw [hcall] at hrunning
      obtain rfl := some.inj hstep
      exact ⟨h.store, hrunning.2.1, h.discoveries⟩
    · cases hstep
  | discoverLinks now external =>
    simp only [System.step] at hstep
    split at hstep
    · rename_i plan hplan
      obtain rfl := some.inj hstep
      obtain ⟨-, hsound, hlinkOnly⟩ := discoverContributionCandidates_sound hplan h.store
      refine ⟨h.store, hrunning, ?_⟩
      intro other hother
      rcases mem_append.mp hother with hother | hother
      · exact h.discoveries other hother
      · obtain rfl := mem_singleton.mp hother
        exact ⟨hsound, hlinkOnly rfl⟩
    · obtain rfl := some.inj hstep
      exact h
  | writeLinks index =>
    simp only [System.step] at hstep
    split at hstep
    · rename_i plan hplan
      obtain rfl := some.inj hstep
      have hundisturbed := hupdate plan hplan
      obtain ⟨hsound, hnone⟩ := h.discoveries plan (mem_of_getElem? hplan)
      have hdiscoveries : ∀ plan ∈ s.discoveries.eraseIdx index,
          plan.Sound ∧ plan.found.candidates = [] := fun other hother =>
        h.discoveries other (mem_of_mem_eraseIdx hother)
      cases hcommit : plan.commit s.store with
      | none => exact ⟨h.store, hrunning, hdiscoveries⟩
      | some store =>
        refine ⟨hsound.commit hundisturbed (by simp [hnone]) hcommit, ?_, hdiscoveries⟩
        refine DeliveryCall.Sound.of_store hrunning
          (fun record hrecord hstate => hundisturbed.delivering hcommit hrecord hstate) ?_
        rw [getD_some, Registry.ledgerHashes, (Plan.commit_eq_some hcommit).2.2,
          Registry.ledgerHashes]
    · cases hstep
  | rejectLinks index =>
    simp only [System.step] at hstep
    obtain rfl := some.inj hstep
    exact ⟨h.store, hrunning, fun other hother =>
      h.discoveries other (mem_of_mem_eraseIdx hother)⟩
  | edit store items =>
    simp only [System.step] at hstep
    split at hstep
    · rename_i hsame
      obtain ⟨houtbox, hledger⟩ := hsame
      obtain ⟨store', hstore, rfl⟩ := map_eq_some_iff.mp hstep
      obtain ⟨hwellFormed, rfl⟩ := Registry.registryTransaction_eq_some.mp hstore
      refine ⟨⟨hwellFormed, ?_, ?_⟩, hrunning.edit houtbox hledger, h.discoveries⟩
      · rw [Registry.outboxHashes, houtbox]
        exact h.store.hashes
      · rw [Registry.outboxHashes, Registry.ledgerHashes, houtbox, hledger]
        exact h.store.apart
    · cases hstep
  | crash =>
    simp only [System.step] at hstep
    obtain rfl := some.inj hstep
    exact ⟨h.store, hupdate, fun _ hplan => by cases hplan⟩

/-! ## Where a record goes -/

/-- The record is still in the outbox. -/
def OutboxRecord.Stays (record : OutboxRecord) (r : Registry) : Prop :=
  ∃ after ∈ r.contributionOutbox,
    after.id = record.id ∧ after.contributionKey = record.contributionKey

/-- The group of the record is eligible, by the plan. -/
def Plan.eligible (plan : Plan) (record : OutboxRecord) : Bool :=
  (get? (activeGroupsByContribution plan.groups) record.contributionKey).isSome

/-- The ledger lost nothing, and every record of the outbox stayed there, went to
the ledger, or was dropped. -/
structure Registry.Kept (dropped : OutboxRecord → Prop) (r r' : Registry) : Prop where
  ledger : r.ledgerHashes ⊆ r'.ledgerHashes
  outbox : ∀ record ∈ r.contributionOutbox,
    record.Stays r' ∨ record.contentHash ∈ r'.ledgerHashes ∨ dropped record

section
variable {dropped : OutboxRecord → Prop}

variable {r r' : Registry}

/-- A change in place that keeps the id and the key of every record drops none. -/
theorem Registry.Kept.of_map (hledger : r'.ledgerHashes = r.ledgerHashes)
    {change : OutboxRecord → OutboxRecord}
    (houtbox : r'.contributionOutbox = r.contributionOutbox.map change)
    (hchange : ∀ record, (change record).id = record.id ∧
      (change record).contributionKey = record.contributionKey) : r.Kept dropped r' where
  ledger := by
    rw [hledger]
    exact List.Subset.refl _
  outbox record hrecord := by
    refine .inl ⟨change record, ?_, hchange record⟩
    rw [houtbox]
    exact mem_map_of_mem hrecord

theorem Registry.Kept.of_eq (hledger : r'.ledgerHashes = r.ledgerHashes)
    (houtbox : r'.contributionOutbox = r.contributionOutbox) : r.Kept dropped r' :=
  .of_map hledger (houtbox.trans (map_id _).symm) fun _ => ⟨rfl, rfl⟩

theorem Registry.Kept.claim (dueIds : List ℕ) (r : Registry) :
    r.Kept dropped (Registry.claim dueIds r) :=
  .of_map rfl rfl fun record => ⟨record.claim_id dueIds, record.claim_contributionKey dueIds⟩

theorem Registry.Kept.reschedule (now : ℤ) (random : ℕ → ℚ) (dueIds : List ℕ) (error : String)
    (r : Registry) : r.Kept dropped (Registry.reschedule now random dueIds error r) := by
  refine .of_map rfl rfl ?_
  intro record
  split <;> exact ⟨rfl, rfl⟩

/-- A settled record goes to the ledger, and the others stay. -/
theorem Registry.Kept.settle {now : ℤ} {random : ℕ → ℚ} {dueIds : List ℕ}
    {results : List (String × String)}
    (hroom : (Registry.settle now random dueIds results r).contributionLedger.length <
      MAX_LEDGER_RECORDS) : r.Kept dropped (Registry.settle now random dueIds results r) := by
  have hledger := Registry.settle_ledgerHashes hroom
  refine ⟨?_, ?_⟩
  · rw [hledger]
    exact subset_append_left _ _
  · intro record hrecord
    cases hsettled : settled dueIds results record with
    | true =>
      refine .inr (.inl ?_)
      rw [hledger]
      exact mem_append_right _ (mem_map_of_mem (mem_filter.mpr ⟨hrecord, hsettled⟩))
    | false =>
      have hkept : record ∈ r.contributionOutbox.filter fun record =>
          !settled dueIds results record := by
        rw [mem_filter, hsettled]
        exact ⟨hrecord, rfl⟩
      refine .inl ⟨_, mem_map_of_mem hkept, ?_⟩
      split <;> exact ⟨rfl, rfl⟩

/-- An undisturbed plan drops only records whose group is not eligible. -/
theorem Registry.Kept.commit {plan : Plan} {store store' : Registry}
    (h : plan.Undisturbed store) (hcommit : plan.commit store = some store') :
    store.Kept (fun record => plan.eligible record = false) store' := by
  obtain ⟨-, houtbox, hledger⟩ := Plan.commit_eq_some hcommit
  refine ⟨?_, ?_⟩
  · rw [Registry.ledgerHashes, Registry.ledgerHashes, hledger]
    exact List.Subset.refl _
  · intro record hrecord
    obtain ⟨read, hread, hid, hkey⟩ := h.added record hrecord
    cases hretains : plan.retains read with
    | true =>
      refine .inl ⟨plan.refresh read, houtbox ▸ Plan.refresh_mem_outbox hread hretains, ?_, ?_⟩
      · rw [plan.refresh_id, hid]
      · rw [plan.refresh_contributionKey, hkey]
    | false =>
      rw [Plan.retains, Bool.or_eq_false_iff] at hretains
      refine .inr (.inr ?_)
      rw [Plan.eligible, ← hkey]
      exact hretains.2

end

/-- The plan a step writes. -/
def System.writes (s : System) : Update → Option Plan
  | .writeDiscovery =>
    match s.running with
    | some (.discovering _ plan) => some plan
    | _ => none
  | .writeLinks index => s.discoveries[index]?
  | _ => none

/-- The step writes a plan in which the group of the record is not eligible. -/
def System.Drops (s : System) (update : Update) (record : OutboxRecord) : Prop :=
  ∃ plan, s.writes update = some plan ∧ plan.eligible record = false

theorem Registry.Kept.drops {plan : Plan} {r r' : Registry}
    (h : r.Kept (fun record => plan.eligible record = false) r')
    (hwrites : s.writes update = some plan) : r.Kept (s.Drops update) r' where
  ledger := h.ledger
  outbox record hrecord := by
    rcases h.outbox record hrecord with hstays | hledger | hdropped
    · exact .inl hstays
    · exact .inr (.inl hledger)
    · exact .inr (.inr ⟨plan, hwrites, hdropped⟩)

theorem System.kept_fail {dropped : OutboxRecord → Prop} (now : ℤ) (dueIds : List ℕ)
    (random : ℕ → ℚ) (error : String) :
    s.store.Kept dropped (s.fail now dueIds random error).store := by
  rw [System.fail]
  cases htransaction :
      s.store.registryTransaction (Registry.reschedule now random dueIds error) with
  | none => exact .of_eq rfl rfl
  | some store =>
    obtain ⟨-, rfl⟩ := Registry.registryTransaction_eq_some.mp htransaction
    exact .reschedule now random dueIds error s.store

theorem System.kept_receive {dropped : OutboxRecord → Prop} {now : ℤ}
    {random : ℕ → ℚ} {answer : DeliveryAnswer}
    (hroom : (s.receive now dueIds random answer).store.contributionLedger.length <
      MAX_LEDGER_RECORDS) :
    s.store.Kept dropped (s.receive now dueIds random answer).store := by
  cases answer with
  | failed error => exact s.kept_fail now dueIds random error
  | results results =>
    rw [System.receive] at hroom ⊢
    split
    · rename_i store htransaction
      rw [htransaction] at hroom
      obtain ⟨-, rfl⟩ := Registry.registryTransaction_eq_some.mp htransaction
      exact .settle hroom
    · exact s.kept_fail now dueIds random _

/-- **No step loses a record.** It stays in the outbox, goes to the ledger, or is
dropped by a plan in which its group is not eligible. -/
theorem System.kept_step {P : CatalogProtocol} (hupdate : s.Unhindered update)
    (hstep : s.step P update = some s')
    (hroom : s'.store.contributionLedger.length < MAX_LEDGER_RECORDS) :
    s.store.Kept (s.Drops update) s'.store := by
  cases update with
  | trigger explicit now =>
    simp only [System.step] at hstep
    split at hstep <;> obtain rfl := some.inj hstep <;> exact .of_eq rfl rfl
  | digest external =>
    simp only [System.step] at hstep
    split at hstep
    · split at hstep <;> obtain rfl := some.inj hstep <;> exact .of_eq rfl rfl
    · cases hstep
  | writeDiscovery =>
    simp only [System.step] at hstep
    split at hstep
    · rename_i now plan hcall
      split at hstep
      · rename_i store hcommit
        obtain rfl := some.inj hstep
        refine (Registry.Kept.commit (hupdate now plan hcall) hcommit).drops ?_
        rw [System.writes, hcall]
      · obtain rfl := some.inj hstep
        exact .of_eq rfl rfl
    · cases hstep
  | claim =>
    simp only [System.step] at hstep
    split at hstep
    · split at hstep
      · obtain rfl := some.inj hstep
        exact .of_eq rfl rfl
      · split at hstep
        · rename_i store htransaction
          obtain rfl := some.inj hstep
          obtain ⟨-, rfl⟩ := Registry.registryTransaction_eq_some.mp htransaction
          exact .claim _ s.store
        · obtain rfl := some.inj hstep
          exact .of_eq rfl rfl
    · cases hstep
  | answer answer random =>
    simp only [System.step] at hstep
    split at hstep
    · obtain rfl := some.inj hstep
      exact System.kept_receive hroom
    · cases hstep
  | refresh statuses =>
    simp only [System.step] at hstep
    split at hstep
    · split at hstep
      · rename_i statuses
        obtain rfl := some.inj hstep
        cases htransaction : s.store.registryTransaction
            (Registry.refreshStatuses (ofEntries statuses)) with
        | none => exact .of_eq rfl rfl
        | some store =>
          obtain ⟨-, rfl⟩ := Registry.registryTransaction_eq_some.mp htransaction
          exact .of_eq (Registry.refreshStatuses_ledgerHashes _ _) rfl
      · obtain rfl := some.inj hstep
        exact .of_eq rfl rfl
    · cases hstep
  | rejectDelivery =>
    simp only [System.step] at hstep
    split at hstep
    · obtain rfl := some.inj hstep
      exact .of_eq rfl rfl
    · obtain rfl := some.inj hstep
      exact .of_eq rfl rfl
    · cases hstep
  | discoverLinks now external =>
    simp only [System.step] at hstep
    split at hstep <;> obtain rfl := some.inj hstep <;> exact .of_eq rfl rfl
  | writeLinks index =>
    simp only [System.step] at hstep
    split at hstep
    · rename_i plan hplan
      obtain rfl := some.inj hstep
      cases hcommit : plan.commit s.store with
      | none => exact .of_eq rfl rfl
      | some store => exact (Registry.Kept.commit (hupdate plan hplan) hcommit).drops hplan
    · cases hstep
  | rejectLinks index =>
    simp only [System.step] at hstep
    obtain rfl := some.inj hstep
    exact .of_eq rfl rfl
  | edit store items =>
    simp only [System.step] at hstep
    split at hstep
    · rename_i hsame
      obtain ⟨store', hstore, rfl⟩ := map_eq_some_iff.mp hstep
      obtain ⟨-, rfl⟩ := Registry.registryTransaction_eq_some.mp hstore
      refine .of_eq ?_ hsame.1
      rw [Registry.ledgerHashes, hsame.2, Registry.ledgerHashes]
    · cases hstep
  | crash =>
    simp only [System.step] at hstep
    obtain rfl := some.inj hstep
    exact .of_eq rfl rfl

end HomelabInventory.Contributions
