import HomelabInventory.ContributionRuns

/-!
# No contribution is lost, duplicated or stuck

The run lemmas of the contributions, put together: what every reachable system
looks like, where a record may go, and that a delivery picks up what is due. Two
runs show what a discovery that writes late and a crash during a delivery do.
-/

namespace HomelabInventory.Contributions

open Option

/-! ## Every reachable system -/

/-- No id and no content twice, no item linked twice, and nothing stuck. -/
structure System.Orderly (s : System) : Prop where
  ids : s.store.outboxIds.Nodup
  hashes : s.store.outboxHashes.Nodup
  apart : ∀ hash ∈ s.store.outboxHashes, hash ∉ s.store.ledgerHashes
  links : (s.store.links.map (·.toItemRef)).Nodup
  idle : s.running = none → ∀ record ∈ s.store.contributionOutbox, record.state ≠ .delivering

theorem System.Sound.orderly {s : System} (h : s.Sound) : s.Orderly where
  ids := h.store.wellFormed.outbox.2
  hashes := h.store.hashes
  apart := h.store.apart
  links := h.store.wellFormed.registry_links_item_unique
  idle hidle := by
    have hrunning := h.running
    rw [hidle] at hrunning
    exact hrunning

section
variable {P : CatalogProtocol}

variable {s start : System}

theorem System.stepBelow_eq_some {update : Update} {s s' : System} :
    s.stepBelow P update = some s' ↔
      s.step P update = some s' ∧ s'.store.contributionLedger.length < MAX_LEDGER_RECORDS := by
  rw [System.stepBelow, filter_eq_some_iff, decide_eq_true_eq]

theorem Runs.sound (h : Runs P System.Unhindered start s) (hstart : start.Sound) : s.Sound :=
  h.invariant (fun _ hs => hs ▸ hstart) fun _ _ _ hsound hupdate hstep =>
    hsound.step hupdate (System.stepBelow_eq_some.mp hstep).1

/-- What was delivered once stays in the ledger. -/
theorem Runs.ledger (h : Runs P System.Unhindered start s) :
    start.store.ledgerHashes ⊆ s.store.ledgerHashes := by
  induction h with
  | start hs => exact hs ▸ List.Subset.refl _
  | step _ update hupdate hstep ih =>
    obtain ⟨hstep, hroom⟩ := System.stepBelow_eq_some.mp hstep
    exact List.Subset.trans ih (System.kept_step hupdate hstep hroom).ledger

/-- A discovery that writes at once is undisturbed. -/
theorem System.Sound.unhindered_of_digest {s' : System} (h : s.Sound) {external : ExternalHashes}
    (hstep : s.step P (.digest external) = some s') : s'.Unhindered .writeDiscovery := by
  intro now plan hplan
  simp only [System.step] at hstep
  split at hstep
  · split at hstep
    · rename_i read hread
      obtain rfl := some.inj hstep
      obtain ⟨-, rfl⟩ := DeliveryCall.discovering.inj (some.inj hplan)
      obtain ⟨hregistry, -, -⟩ := discoverContributionCandidates_sound hread h.store
      refine ⟨?_, ?_, ?_⟩ <;> rw [hregistry]
      · exact fun record hrecord => ⟨record, hrecord, rfl, rfl⟩
      · exact fun record hrecord => h.store.apart _ (List.mem_map_of_mem hrecord)
      · exact fun record hrecord hstate => ⟨record, hrecord, rfl, hstate⟩
    · obtain rfl := some.inj hstep
      cases hplan
  · cases hstep

/-- A claim picks up every record that is due, unless its batch is full. -/
theorem System.Sound.claims (h : s.Sound) {now : ℤ} (hcall : s.running = some (.discovered now))
    {record : OutboxRecord} (hrecord : record ∈ s.store.contributionOutbox)
    (hnow : record.nextAttemptAt ≤ now) :
    ∃ s' dueIds, s.step P .claim = some s' ∧ s'.running = some (.posting now dueIds) ∧
      (record.id ∈ dueIds ∨ dueIds.length = BATCH_SIZE) := by
  have hidle := h.running
  rw [hcall] at hidle
  have hdue : record ∈ s.store.contributionOutbox.filter (·.isDue now) := by
    rw [List.mem_filter, OutboxRecord.isDue, Bool.and_eq_true, decide_eq_true_eq, decide_eq_true_eq]
    exact ⟨hrecord, hidle record hrecord, hnow⟩
  -- the batch is the due records as far as it reaches
  have hbatch : record.id ∈ (s.store.due now).map (·.id) ∨
      ((s.store.due now).map (·.id)).length = BATCH_SIZE := by
    rw [List.length_map, Registry.due, List.length_take]
    by_cases hfits : (s.store.contributionOutbox.filter (·.isDue now)).length ≤ BATCH_SIZE
    · rw [List.take_of_length_le hfits]
      exact .inl (List.mem_map_of_mem hdue)
    · right
      omega
  have hne : (s.store.due now).map (·.id) ≠ [] := by
    intro hnil
    rcases hbatch with hmem | hlength
    · rw [hnil] at hmem
      cases hmem
    · rw [hnil] at hlength
      cases hlength
  refine ⟨{ s with
    store := Registry.claim ((s.store.due now).map (·.id)) s.store
    running := some (.posting now ((s.store.due now).map (·.id))) }, _, ?_, rfl, hbatch⟩
  simp only [System.step, hcall]
  rw [if_neg hne, h.store.claim_transaction]

end

/-- **No contribution is lost, duplicated or stuck**, in a run in which every
discovery writes undisturbed and no crash interrupts a delivery. -/
theorem contributions_kept (P : CatalogProtocol) {start s : System} (hstart : start.Quiet)
    (hrun : Runs P System.Unhindered start s) :
    s.Orderly ∧
      (∀ s', Runs P System.Unhindered s s' → ∀ hash ∈ s.store.ledgerHashes,
        hash ∈ s'.store.ledgerHashes ∧ hash ∉ s'.store.outboxHashes) ∧
      (∀ update s', s.Unhindered update → s.step P update = some s' →
        s'.store.contributionLedger.length < MAX_LEDGER_RECORDS →
        ∀ record ∈ s.store.contributionOutbox, record.Stays s'.store ∨
          record.contentHash ∈ s'.store.ledgerHashes ∨ s.Drops update record) ∧
      (∀ now, s.running = some (.discovered now) → ∀ record ∈ s.store.contributionOutbox,
        record.nextAttemptAt ≤ now → ∃ s' dueIds, s.step P .claim = some s' ∧
          s'.running = some (.posting now dueIds) ∧
          (record.id ∈ dueIds ∨ dueIds.length = BATCH_SIZE)) := by
  have hsound := hrun.sound hstart.sound
  refine ⟨hsound.orderly, ?_, ?_, ?_⟩
  · intro s' hrun' hash hhash
    have hledger := hrun'.ledger hhash
    exact ⟨hledger, fun houtbox => (hrun'.sound hsound).store.apart hash houtbox hledger⟩
  · intro update s' hupdate hstep hroom record hrecord
    exact (System.kept_step hupdate hstep hroom).outbox record hrecord
  · intro now hcall record hrecord hnow
    exact hsound.claims hcall hrecord hnow

/-! ## Runs that lose or strand one -/

/-- The system after a list of updates, while the ledger is below its limit. -/
def System.runs (P : CatalogProtocol) (s : System) (updates : List Update) : Option System :=
  updates.foldlM (·.stepBelow P ·) s

theorem Runs.of_runs {P : CatalogProtocol} {start s : System} {updates : List Update}
    (h : start.runs P updates = some s) : Runs P (fun _ _ => True) start s :=
  RunsTo.run (show Runs P _ start start from .start rfl)
    (fun update _ _ _ hstep => ⟨update, trivial, hstep⟩) h

/-- A protocol under which an item is eligible and a group of its own. -/
def plainProtocol : CatalogProtocol where
  projectLocalItemForCatalog item := ⟨item.type, none, none⟩
  projectCatalogItem item fingerprintVersion :=
    some ⟨item.detail, item.detail, fingerprintVersion, ""⟩
  reconcileCatalogProjections projections := projections.map fun projection =>
    { identityHash := projection.identityHash
      contentHash := projection.contentHash
      fingerprintVersion := projection.fingerprintVersion
      primary := projection.source }
  matchOemVariant _ _ := .none
  sha256Hex text := text

/-- An item whose contribution is queued. -/
def queuedItem : System where
  store := { contributionOutbox := [{
    itemType := "cpu", itemId := 1, id := 1, sources := [⟨"cpu", 1⟩], identityHash := "chip"
    contentHash := "chip", fingerprintVersion := some CANONICAL_UNITS_FINGERPRINT_VERSION }] }
  items := [⟨"cpu", 1, "chip"⟩]

theorem queuedItem_quiet : queuedItem.Quiet where
  running := rfl
  discoveries := rfl
  store := ⟨by decide +kernel, by decide, by decide⟩
  idle := by
    rw [Registry.NoneDelivering]
    decide

/-- The queued contribution is discovered anew and delivered: its record leaves the outbox and is
in the ledger. -/
theorem queuedItem_orderly : ∃ s, Runs plainProtocol System.Unhindered queuedItem s ∧
    s.store.outboxHashes = [] ∧ s.store.ledgerHashes = ["chip"] ∧ s.Orderly := by
  have hdelivered : ((queuedItem.runs plainProtocol [.trigger false 0, .digest [], .writeDiscovery,
      .claim, .answer (.results [("chip", "quarantined")]) fun _ => 0]).any fun s =>
      decide (s.store.outboxHashes = [] ∧ s.store.ledgerHashes = ["chip"])) = true := by
    decide +kernel
  obtain ⟨s, hs, hmoved⟩ := (any_eq_true _ _).mp hdelivered
  obtain ⟨houtbox, hledger⟩ := of_decide_eq_true hmoved
  obtain ⟨triggered, htriggered, hs⟩ := bind_eq_some_iff.mp hs
  obtain ⟨planned, hplanned, hs⟩ := bind_eq_some_iff.mp hs
  obtain ⟨written, hwritten, hs⟩ := bind_eq_some_iff.mp hs
  have hstarted : Runs plainProtocol System.Unhindered queuedItem triggered :=
    .step (.start rfl) (.trigger false 0) trivial htriggered
  have hundisturbed := (Runs.sound hstarted queuedItem_quiet.sound).unhindered_of_digest
    (System.stepBelow_eq_some.mp hplanned).1
  have hrun : Runs plainProtocol System.Unhindered queuedItem s :=
    RunsTo.run ((hstarted.step (.digest []) trivial hplanned).step _ hundisturbed hwritten)
      (fun update hupdate s _ hstep => ⟨update, by
        obtain rfl | rfl := List.mem_pair.mp hupdate <;> trivial, hstep⟩) hs
  exact ⟨s, hrun, houtbox, hledger, (contributions_kept plainProtocol queuedItem_quiet hrun).1⟩

/-- **A crash strands a record, and a late discovery brings one back.** After a
crash during a delivery the record is in delivery while no delivery runs; a
discovery of an activation that writes what it read before a delivery settled the
record puts it into the outbox again, where the ledger has it too. -/
theorem contributions_stranded_and_repeated :
    queuedItem.Quiet ∧ (∃ s, Runs plainProtocol (fun _ _ => True) queuedItem s ∧ s.running = none ∧
      ∃ record ∈ s.store.contributionOutbox, record.state = .delivering) ∧
    (∃ s, Runs plainProtocol (fun _ _ => True) queuedItem s ∧
      ∃ hash ∈ s.store.outboxHashes, hash ∈ s.store.ledgerHashes) := by
  refine ⟨queuedItem_quiet, ?_, ?_⟩
  · have hcrash : ((queuedItem.runs plainProtocol [.trigger false 0, .digest [], .writeDiscovery,
        .claim, .crash]).any fun s => decide (s.running = none ∧
          ∃ record ∈ s.store.contributionOutbox, record.state = .delivering)) = true := by
      decide +kernel
    obtain ⟨s, hs, hstranded⟩ := (any_eq_true _ _).mp hcrash
    exact ⟨s, .of_runs hs, of_decide_eq_true hstranded⟩
  · have hlate : ((queuedItem.runs plainProtocol [.discoverLinks 0 [], .trigger false 0,
        .digest [], .writeDiscovery, .claim, .answer (.results [("chip", "quarantined")]) fun _ => 0,
        .writeLinks 0]).any fun s =>
          decide (∃ hash ∈ s.store.outboxHashes, hash ∈ s.store.ledgerHashes)) = true := by
      decide +kernel
    obtain ⟨s, hs, hrepeated⟩ := (any_eq_true _ _).mp hlate
    exact ⟨s, .of_runs hs, of_decide_eq_true hrepeated⟩

end HomelabInventory.Contributions
