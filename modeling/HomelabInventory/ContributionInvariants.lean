import HomelabInventory.ContributionDelivery

/-!
# What every step keeps of the contributions

The store is intact when no content is in the outbox twice, or in outbox and
ledger at once. A plan keeps it intact when nothing that it read was added to,
delivered or released before it writes; the steps of a delivery always do.
-/

namespace HomelabInventory.Contributions

open InsertionMap List

/-! ## Intact stores -/

/-- No content is in the outbox twice, or in the outbox and the ledger. -/
structure Registry.Intact (r : Registry) : Prop where
  wellFormed : r.WellFormed
  hashes : r.outboxHashes.Nodup
  apart : ∀ hash ∈ r.outboxHashes, hash ∉ r.ledgerHashes

/-- No record is in delivery. -/
def Registry.NoneDelivering (r : Registry) : Prop :=
  ∀ record ∈ r.contributionOutbox, record.state ≠ .delivering

variable {r r' store store' : Registry}
variable {record : OutboxRecord}

theorem Registry.mem_outboxHashes (h : record ∈ r.contributionOutbox) :
    record.contentHash ∈ r.outboxHashes :=
  mem_map_of_mem h

/-- A transaction that keeps the hashes keeps the store intact. -/
theorem Registry.Intact.transaction {mutator : Registry → Registry} (h : r.Intact)
    (hr : r.registryTransaction mutator = some r')
    (houtbox : (mutator r).outboxHashes.Sublist r.outboxHashes)
    (hledger : ∀ hash ∈ (mutator r).outboxHashes, hash ∉ (mutator r).ledgerHashes) : r'.Intact := by
  obtain ⟨hwellFormed, rfl⟩ := registryTransaction_eq_some.mp hr
  exact ⟨hwellFormed, h.hashes.sublist houtbox, hledger⟩

/-! ## What a plan found -/

section
variable {P : CatalogProtocol}

/-- What is to be queued is news, and nothing twice. -/
structure Findings.News (hashes : List String) (found : Findings) : Prop where
  known : hashes ⊆ found.knownHashes
  nodup : (found.candidates.map (·.contentHash)).Nodup
  queued : ∀ candidate ∈ found.candidates, candidate.contentHash ∈ found.knownHashes
  fresh : ∀ candidate ∈ found.candidates, candidate.contentHash ∉ hashes

theorem Findings.News.start (hashes : List String) :
    Findings.News hashes { knownHashes := hashes } where
  known := List.Subset.refl _
  nodup := nodup_nil
  queued _ h := by cases h
  fresh _ h := by cases h

variable {found : Findings}

theorem Findings.News.queue {hashes : List String} (h : found.News hashes) (known : Known)
    (group : CatalogGroup) : (found.queue P known group).News hashes := by
  rw [Findings.queue]
  split
  · exact h
  rename_i hnew
  split
  · exact h
  refine ⟨?_, ?_, ?_, ?_⟩
  · exact fun hash hhash => mem_cons_of_mem _ (h.known hhash)
  · refine nodup_map_push h.nodup ?_
    intro candidate hcandidate heq
    have hqueued := h.queued candidate hcandidate
    rw [heq] at hqueued
    exact hnew hqueued
  · intro candidate hcandidate
    rcases mem_append.mp hcandidate with hcandidate | hcandidate
    · exact mem_cons_of_mem _ (h.queued candidate hcandidate)
    · obtain rfl := mem_singleton.mp hcandidate
      exact mem_cons_self
  · intro candidate hcandidate
    rcases mem_append.mp hcandidate with hcandidate | hcandidate
    · exact h.fresh candidate hcandidate
    · obtain rfl := mem_singleton.mp hcandidate
      exact fun hmem => hnew (h.known hmem)

/-- A group is queued as news or not at all. -/
theorem Findings.consider_candidates (known : Known) (found : Findings) (group : CatalogGroup) :
    (found.consider P known group = found.queue P known group) ∨
      ((found.consider P known group).candidates = found.candidates ∧
        (found.consider P known group).knownHashes = found.knownHashes) := by
  simp only [Findings.consider]
  split
  · exact .inr ⟨rfl, rfl⟩
  split
  · exact .inr ⟨rfl, rfl⟩
  split
  · exact .inr ⟨rfl, rfl⟩
  · exact .inl rfl

theorem Findings.News.consider {hashes : List String} (h : found.News hashes) (known : Known)
    (group : CatalogGroup) : (found.consider P known group).News hashes := by
  rcases found.consider_candidates known group with heq | ⟨hcandidates, hknown⟩
  · exact heq ▸ h.queue known group
  · refine ⟨hknown ▸ h.known, hcandidates ▸ h.nodup, ?_, ?_⟩
    · rw [hcandidates, hknown]
      exact h.queued
    · rw [hcandidates]
      exact h.fresh

/-- A discovery that may only link queues nothing. -/
theorem Findings.consider_linkOnly {known : Known} (hknown : known.contributionsAllowed = false)
    (h : found.candidates = []) (group : CatalogGroup) :
    (found.consider P known group).candidates = [] := by
  rcases found.consider_candidates known group with heq | ⟨hcandidates, -⟩
  · rw [heq, Findings.queue]
    split
    · exact h
    · rw [hknown, Bool.not_false, if_pos rfl]
      exact h
  · exact hcandidates.trans h

/-- A plan that was made from an intact store, and queues only what is news there. -/
structure Plan.Sound (plan : Plan) : Prop where
  intact : plan.registry.Intact
  nodup : (plan.found.candidates.map (·.contentHash)).Nodup
  newOutbox : ∀ candidate ∈ plan.found.candidates,
    candidate.contentHash ∉ plan.registry.outboxHashes
  newLedger : ∀ candidate ∈ plan.found.candidates,
    candidate.contentHash ∉ plan.registry.ledgerHashes

/-- What a discovery plans is sound, and queues nothing when it may only link. -/
theorem discoverContributionCandidates_sound {registry : Registry} {items : List Item} {now : ℤ}
    {external : ExternalHashes} {options : DiscoveryOptions} {plan : Plan}
    (h : discoverContributionCandidates P registry items now external options = some plan)
    (hintact : registry.Intact) :
    plan.registry = registry ∧ plan.Sound ∧
      (options.linkOnly = true → plan.found.candidates = []) := by
  simp only [discoverContributionCandidates] at h
  split at h
  · cases h
  split at h
  · cases h
  obtain rfl := Option.some.inj h
  refine ⟨rfl, ?_, ?_⟩
  · have hnews : ∀ known (groups : List CatalogGroup),
        Findings.News (registry.knownHashes external) (groups.foldl (Findings.consider P known)
          { knownHashes := registry.knownHashes external }) := by
      intro known groups
      exact List.foldlRecOn groups _ (.start _) fun found hfound group _ =>
        hfound.consider known group
    refine ⟨hintact, (hnews _ _).nodup, ?_, ?_⟩
    · intro candidate hcandidate hmem
      refine (hnews _ _).fresh candidate hcandidate ?_
      exact mem_append_left _ (mem_append_left _ (mem_append_right _ hmem))
    · intro candidate hcandidate hmem
      refine (hnews _ _).fresh candidate hcandidate ?_
      exact mem_append_left _ (mem_append_right _ hmem)
  · intro hlinkOnly
    refine List.foldlRecOn (motive := fun found : Findings => found.candidates = []) _ _ rfl ?_
    intro found hfound group _
    exact Findings.consider_linkOnly (by simp [hlinkOnly]) hfound group

end

/-! ## Writing a plan -/

@[simp] theorem Plan.refresh_id (plan : Plan) (record : OutboxRecord) :
    (plan.refresh record).id = record.id := by
  rw [refresh]
  split
  · rfl
  · split <;> rfl

@[simp] theorem Plan.refresh_state (plan : Plan) (record : OutboxRecord) :
    (plan.refresh record).state = record.state := by
  rw [refresh]
  split
  · rfl
  · split <;> rfl

@[simp] theorem Plan.refresh_contentHash (plan : Plan) (record : OutboxRecord) :
    (plan.refresh record).contentHash = record.contentHash := by
  rw [refresh]
  split
  · rfl
  · split <;> rfl

@[simp] theorem Plan.refresh_contributionKey (plan : Plan) (record : OutboxRecord) :
    (plan.refresh record).contributionKey = record.contributionKey := by
  rw [refresh]
  split
  · rfl
  · split <;> rfl

variable {plan : Plan}

/-- A record of the written outbox was read, or is a candidate. -/
theorem Plan.mem_outbox (h : record ∈ plan.outbox) :
    (∃ read ∈ plan.registry.contributionOutbox, record = plan.refresh read) ∨
      ∃ candidate ∈ plan.found.candidates, ∃ id, record = candidate.enqueue id plan.now := by
  rcases mem_append.mp h with h | h
  · obtain ⟨read, hread, rfl⟩ := mem_map.mp h
    exact .inl ⟨read, mem_of_mem_filter hread, rfl⟩
  · obtain ⟨⟨candidate, id⟩, hcandidate, rfl⟩ := mem_map.mp h
    exact .inr ⟨candidate, fst_mem_of_mem_zipIdx hcandidate, id, rfl⟩

/-- What the plan keeps is in the outbox it writes. -/
theorem Plan.refresh_mem_outbox {read : OutboxRecord} (h : read ∈ plan.registry.contributionOutbox)
    (hretains : plan.retains read = true) : plan.refresh read ∈ plan.outbox :=
  mem_append_left _ (mem_map_of_mem (mem_filter.mpr ⟨h, hretains⟩))

theorem Plan.outboxHashes (plan : Plan) :
    plan.outbox.map (·.contentHash) = plan.retainedOutbox.map (·.contentHash) ++
      plan.found.candidates.map (·.contentHash) := by
  rw [outbox, map_append]
  congr 1
  · rw [map_map]
    exact map_congr_left fun record _ => plan.refresh_contentHash record
  · have henqueued := @map_zipIdx_eq_map _ _ _ (fun candidate id => candidate.enqueue id plan.now)
      Candidate.contentHash OutboxRecord.contentHash fun _ _ => rfl
    exact henqueued _ _

/-- Nothing happened to the outbox that the plan does not know of: no record was
added, none it read was delivered, and none it read in delivery was released. -/
structure Plan.Undisturbed (plan : Plan) (store : Registry) : Prop where
  added : ∀ record ∈ store.contributionOutbox, ∃ read ∈ plan.registry.contributionOutbox,
    read.id = record.id ∧ read.contributionKey = record.contributionKey
  delivered : ∀ read ∈ plan.registry.contributionOutbox, read.contentHash ∉ store.ledgerHashes
  released : ∀ read ∈ plan.registry.contributionOutbox, read.state = .delivering →
    ∃ record ∈ store.contributionOutbox, record.id = read.id ∧ record.state = .delivering

/-- What a plan writes is its outbox and the links. -/
theorem Plan.commit_eq_some (h : plan.commit store = some store') :
    store'.WellFormed ∧ store'.contributionOutbox = plan.outbox ∧
      store'.contributionLedger = store.contributionLedger := by
  rw [commit] at h
  split at h
  · cases h
  · obtain ⟨hwellFormed, rfl⟩ := Registry.registryTransaction_eq_some.mp h
    exact ⟨hwellFormed, rfl, rfl⟩

/-- **An undisturbed plan keeps the store intact.** -/
theorem Plan.Sound.commit (h : plan.Sound) (hundisturbed : plan.Undisturbed store)
    (hnew : ∀ candidate ∈ plan.found.candidates, candidate.contentHash ∉ store.ledgerHashes)
    (hcommit : plan.commit store = some store') : store'.Intact := by
  obtain ⟨hwellFormed, houtbox, hledger⟩ := Plan.commit_eq_some hcommit
  refine ⟨hwellFormed, ?_, ?_⟩
  · rw [Registry.outboxHashes, houtbox, plan.outboxHashes, nodup_append]
    refine ⟨h.intact.hashes.sublist (filter_sublist.map _), h.nodup, ?_⟩
    rintro hash hread hash' hcandidate rfl
    obtain ⟨candidate, hmem, rfl⟩ := mem_map.mp hcandidate
    exact h.newOutbox candidate hmem (filter_sublist.map _ |>.subset hread)
  · intro hash hhash
    rw [Registry.ledgerHashes, hledger]
    rw [Registry.outboxHashes, houtbox] at hhash
    obtain ⟨record, hrecord, rfl⟩ := mem_map.mp hhash
    rcases Plan.mem_outbox hrecord with ⟨read, hread, rfl⟩ | ⟨candidate, hcandidate, id, rfl⟩
    · rw [plan.refresh_contentHash]
      exact hundisturbed.delivered read hread
    · exact hnew candidate hcandidate

/-- What is in delivery after the write was in delivery before it. -/
theorem Plan.Undisturbed.delivering (h : plan.Undisturbed store)
    (hcommit : plan.commit store = some store') (hrecord : record ∈ store'.contributionOutbox)
    (hstate : record.state = .delivering) :
    ∃ before ∈ store.contributionOutbox, before.id = record.id ∧ before.state = .delivering := by
  obtain ⟨-, houtbox, -⟩ := Plan.commit_eq_some hcommit
  rw [houtbox] at hrecord
  rcases Plan.mem_outbox hrecord with ⟨read, hread, rfl⟩ | ⟨candidate, -, id, rfl⟩
  · rw [plan.refresh_state] at hstate
    rw [plan.refresh_id]
    exact h.released read hread hstate
  · cases hstate

theorem Plan.Undisturbed.noneDelivering (h : plan.Undisturbed store)
    (hcommit : plan.commit store = some store') (hstore : store.NoneDelivering) :
    store'.NoneDelivering := by
  intro record hrecord hstate
  obtain ⟨before, hbefore, -, hdelivering⟩ := h.delivering hcommit hrecord hstate
  exact hstore before hbefore hdelivering

/-! ## The transactions of a delivery -/

/-- Changing the records in place, by a change that keeps ids and hashes, keeps both. -/
theorem map_outbox (records : List OutboxRecord) {change : OutboxRecord → OutboxRecord}
    (hid : ∀ record, (change record).id = record.id)
    (hhash : ∀ record, (change record).contentHash = record.contentHash) :
    (records.map change).map (·.id) = records.map (·.id) ∧
      (records.map change).map (·.contentHash) = records.map (·.contentHash) := by
  refine ⟨?_, ?_⟩
  · rw [map_map]
    exact map_congr_left fun record _ => hid record
  · rw [map_map]
    exact map_congr_left fun record _ => hhash record

@[simp] theorem OutboxRecord.claim_id (dueIds : List ℕ) (record : OutboxRecord) :
    (record.claim dueIds).id = record.id := by
  rw [claim]
  split <;> rfl

@[simp] theorem OutboxRecord.claim_contentHash (dueIds : List ℕ) (record : OutboxRecord) :
    (record.claim dueIds).contentHash = record.contentHash := by
  rw [claim]
  split <;> rfl

@[simp] theorem OutboxRecord.claim_contributionKey (dueIds : List ℕ) (record : OutboxRecord) :
    (record.claim dueIds).contributionKey = record.contributionKey := by
  rw [claim]
  split <;> rfl

/-- A store whose outbox only changed in place, and whose ledger kept its ids and
hashes, is still intact. -/
theorem Registry.Intact.of_eq (h : r.Intact) (hlinks : r'.links = r.links)
    (hids : r'.outboxIds = r.outboxIds) (hhashes : r'.outboxHashes = r.outboxHashes)
    (hledgerIds : r'.ledgerIds = r.ledgerIds) (hledgerHashes : r'.ledgerHashes = r.ledgerHashes) :
    r'.Intact where
  wellFormed := ⟨hlinks ▸ h.wellFormed.links, hids ▸ h.wellFormed.outbox,
    hledgerIds ▸ h.wellFormed.ledger, hlinks ▸ h.wellFormed.registry_links_item_unique⟩
  hashes := hhashes ▸ h.hashes
  apart := by
    rw [hhashes, hledgerHashes]
    exact h.apart

theorem Registry.Intact.claim (h : r.Intact) (dueIds : List ℕ) :
    (Registry.claim dueIds r).Intact := by
  obtain ⟨hids, hhashes⟩ := map_outbox r.contributionOutbox
    (OutboxRecord.claim_id dueIds) (OutboxRecord.claim_contentHash dueIds)
  exact h.of_eq rfl hids hhashes rfl rfl

/-- Claiming an intact store does not throw. -/
theorem Registry.Intact.claim_transaction (h : r.Intact) (dueIds : List ℕ) :
    r.registryTransaction (Registry.claim dueIds) = some (Registry.claim dueIds r) :=
  registryTransaction_of_wellFormed (h.claim dueIds).wellFormed

variable {dueIds : List ℕ}

/-- What is in delivery after the claim was claimed or in delivery before it. -/
theorem Registry.mem_claim (h : record ∈ (Registry.claim dueIds r).contributionOutbox) :
    record.id ∈ dueIds ∨ record ∈ r.contributionOutbox := by
  obtain ⟨before, hbefore, rfl⟩ := mem_map.mp h
  rw [OutboxRecord.claim]
  split
  · rename_i hdue
    exact .inl hdue
  · exact .inr hbefore

theorem Registry.Intact.reschedule (h : r.Intact) (now : ℤ) (random : ℕ → ℚ) (dueIds : List ℕ)
    (error : String) : (Registry.reschedule now random dueIds error r).Intact := by
  have hretry : ∀ record : OutboxRecord,
      (if record.id ∈ dueIds then record.retry now random error else record).id = record.id ∧
      (if record.id ∈ dueIds then record.retry now random error else record).contentHash =
        record.contentHash := by
    intro record
    split <;> exact ⟨rfl, rfl⟩
  obtain ⟨hids, hhashes⟩ := map_outbox r.contributionOutbox
    (fun record => (hretry record).1) (fun record => (hretry record).2)
  exact h.of_eq rfl hids hhashes rfl rfl

/-- Once the claimed records are rescheduled, none is in delivery. -/
theorem Registry.noneDelivering_reschedule
    (h : ∀ record ∈ r.contributionOutbox, record.state = .delivering → record.id ∈ dueIds) (now : ℤ)
    (random : ℕ → ℚ) (error : String) :
    (Registry.reschedule now random dueIds error r).NoneDelivering := by
  intro record hrecord hstate
  obtain ⟨before, hbefore, rfl⟩ := mem_map.mp hrecord
  split at hstate
  · cases hstate
  · rename_i hdue
    exact hdue (h before hbefore hstate)

theorem Registry.settle_outboxHashes (now : ℤ) (random : ℕ → ℚ) (dueIds : List ℕ)
    (results : List (String × String)) (r : Registry) :
    (Registry.settle now random dueIds results r).outboxHashes =
      (r.contributionOutbox.filter fun record => !settled dueIds results record).map
        (·.contentHash) := by
  refine (map_outbox _ ?_ ?_).2
  · intro record
    split <;> rfl
  · intro record
    split <;> rfl

/-- A list whose excess over a limit was dropped, and is below the limit, had no excess. -/
theorem drop_excess {α : Type} {l : List α} {limit : ℕ}
    (h : (l.drop (l.length - limit)).length < limit) : l.drop (l.length - limit) = l := by
  rw [length_drop] at h
  have hexcess : l.length - limit = 0 := by omega
  rw [hexcess, drop_zero]

theorem Registry.settle_contributionLedger (now : ℤ) (random : ℕ → ℚ) (dueIds : List ℕ)
    (results : List (String × String)) (r : Registry) :
    (Registry.settle now random dueIds results r).contributionLedger =
      (r.contributionLedger ++ r.deliveredRecords now dueIds results).drop
        ((r.contributionLedger ++ r.deliveredRecords now dueIds results).length -
          MAX_LEDGER_RECORDS) := rfl

theorem Registry.deliveredRecords_hashes (r : Registry) (now : ℤ) (dueIds : List ℕ)
    (results : List (String × String)) :
    (r.deliveredRecords now dueIds results).map (·.contentHash) =
      (r.contributionOutbox.filter (settled dueIds results)).map (·.contentHash) :=
  @map_zipIdx_eq_map _ _ _ (fun record id => OutboxRecord.deliver now results record id)
    OutboxRecord.contentHash LedgerRecord.contentHash (fun _ _ => rfl) _ _

variable {now : ℤ}
variable {random : ℕ → ℚ}
variable {results : List (String × String)}

/-- Where the ledger has room, it only grows, by the settled records. -/
theorem Registry.settle_ledgerHashes
    (hroom : (Registry.settle now random dueIds results r).contributionLedger.length <
      MAX_LEDGER_RECORDS) :
    (Registry.settle now random dueIds results r).ledgerHashes = r.ledgerHashes ++
      (r.contributionOutbox.filter (settled dueIds results)).map (·.contentHash) := by
  rw [settle_contributionLedger] at hroom
  -- the ledger is shorter than its limit, so nothing was dropped
  rw [ledgerHashes, settle_contributionLedger, drop_excess hroom, map_append,
    deliveredRecords_hashes, ledgerHashes]

/-- What the ledger holds after the answer it held before, or was settled. -/
theorem Registry.mem_settle_ledgerHashes {hash : String}
    (h : hash ∈ (Registry.settle now random dueIds results r).ledgerHashes) :
    hash ∈ r.ledgerHashes ∨
      hash ∈ (r.contributionOutbox.filter (settled dueIds results)).map (·.contentHash) := by
  rw [ledgerHashes, settle_contributionLedger] at h
  obtain ⟨record, hrecord, rfl⟩ := mem_map.mp h
  rcases mem_append.mp (mem_of_mem_drop hrecord) with hrecord | hrecord
  · exact .inl (mem_map_of_mem hrecord)
  · refine .inr ?_
    rw [← r.deliveredRecords_hashes now]
    exact mem_map_of_mem hrecord

/-- **Settling keeps the store intact.** A settled record is in the ledger only. -/
theorem Registry.Intact.settle (h : r.Intact)
    (hr : r.registryTransaction (Registry.settle now random dueIds results) = some r') :
    r'.Intact := by
  refine h.transaction hr ?_ ?_
  · rw [Registry.settle_outboxHashes]
    exact filter_sublist.map _
  · intro hash houtbox hledger
    rw [Registry.settle_outboxHashes] at houtbox
    obtain ⟨kept, hkept, rfl⟩ := mem_map.mp houtbox
    obtain ⟨hkept, hunsettled⟩ := mem_filter.mp hkept
    rcases Registry.mem_settle_ledgerHashes hledger with hledger | hledger
    · exact h.apart _ (Registry.mem_outboxHashes hkept) hledger
    · obtain ⟨record, hrecord, hhash⟩ := mem_map.mp hledger
      obtain ⟨hrecord, hsettled⟩ := mem_filter.mp hrecord
      obtain rfl := eq_of_key_eq h.hashes hrecord hkept hhash
      rw [hsettled] at hunsettled
      cases hunsettled

theorem Registry.noneDelivering_settle
    (h : ∀ record ∈ r.contributionOutbox, record.state = .delivering → record.id ∈ dueIds) (now : ℤ)
    (random : ℕ → ℚ) (results : List (String × String)) :
    (Registry.settle now random dueIds results r).NoneDelivering := by
  intro record hrecord hstate
  obtain ⟨before, hbefore, rfl⟩ := mem_map.mp hrecord
  split at hstate
  · cases hstate
  · rename_i hdue
    exact hdue (h before (mem_of_mem_filter hbefore) hstate)

theorem LedgerRecord.refresh_eq (statuses : List (String × String)) (record : LedgerRecord) :
    (record.refresh statuses).id = record.id ∧
      (record.refresh statuses).contentHash = record.contentHash := by
  rw [refresh]
  split <;> exact ⟨rfl, rfl⟩

theorem Registry.refreshStatuses_ledgerHashes (statuses : List (String × String)) (r : Registry) :
    (Registry.refreshStatuses statuses r).ledgerHashes = r.ledgerHashes := by
  rw [ledgerHashes, refreshStatuses, map_map]
  exact map_congr_left fun record _ => (record.refresh_eq statuses).2

theorem Registry.Intact.refreshStatuses (h : r.Intact) (statuses : List (String × String)) :
    (Registry.refreshStatuses statuses r).Intact := by
  refine h.of_eq rfl rfl rfl ?_ (Registry.refreshStatuses_ledgerHashes statuses r)
  rw [Registry.ledgerIds, Registry.refreshStatuses, map_map]
  exact map_congr_left fun record _ => (record.refresh_eq statuses).1

end HomelabInventory.Contributions
