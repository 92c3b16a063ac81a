import HomelabInventory.InsertionMap
import HomelabInventory.RecordTable
import Mathlib.Data.Int.Notation

/-!
# The registry store of contributed items

What the store keeps of the contributions to the registry: the outbox of what is
still to be delivered, the ledger of what was delivered, and the links of local
items to published templates. `registryTransaction` changes a draft of it and
writes the draft when it has the shape of a registry store.
-/

namespace HomelabInventory.Contributions

/-! ## Fingerprint versions -/

def LEGACY_FINGERPRINT_VERSION : ℕ := 2
def FINGERPRINT_VERSION : ℕ := 3
def OEM_FINGERPRINT_VERSION : ℕ := 4
def WORKSTATION_FINGERPRINT_VERSION : ℕ := 5
def SERVER_FINGERPRINT_VERSION : ℕ := 6
def MOTHERBOARD_FINGERPRINT_VERSION : ℕ := 7
def RAM_FINGERPRINT_VERSION : ℕ := 8
def CANONICAL_UNITS_FINGERPRINT_VERSION : ℕ := 9
def NAS_FINGERPRINT_VERSION : ℕ := 10
def NETWORK_FINGERPRINT_VERSION : ℕ := 11

/-! ## Records -/

/-- An inventory item, by type and number: what `itemKey` spells. -/
structure ItemRef where
  itemType : String
  itemId : ℤ
deriving DecidableEq

inductive OutboxState
  | queued
  | delivering
  | retrying
deriving DecidableEq

/-- A contribution that is still to be delivered. Payload and evidence are JSON texts. -/
structure OutboxRecord extends ItemRef where
  id : ℕ
  sources : List ItemRef
  payload : String := ""
  identityHash : String
  contentHash : String
  fingerprintVersion : Option ℕ := none
  productFamily : Option String := none
  variantEvidence : Option String := none
  idempotencyKey : String := ""
  state : OutboxState := .queued
  attempts : ℕ := 0
  createdAt : ℤ := 0
  nextAttemptAt : ℤ := 0
  lastError : Option String := none
deriving DecidableEq

inductive LedgerState
  | delivered
  | accepted
  | rejected
  | suppressed
deriving DecidableEq

/-- A contribution that was delivered. -/
structure LedgerRecord extends ItemRef where
  id : ℕ
  sources : List ItemRef
  identityHash : String
  contentHash : String
  fingerprintVersion : Option ℕ := none
  idempotencyKey : String := ""
  state : LedgerState
  deliveredAt : ℤ
deriving DecidableEq

inductive LinkState
  | linked
  | updateAvailable
  | adoptionAvailable
  | detached
  | contributionPending
deriving DecidableEq

/-- Another identity of a published template. -/
structure IdentityAlias where
  identityHash : String
  fingerprintVersion : Option ℕ := none
deriving DecidableEq

/-- A link of a local item to a published template. -/
structure Link extends ItemRef where
  id : ℕ
  sourceId : ℕ
  templateKey : String
  importedRevision : ℕ
  importedContentHash : String
  importedFingerprintVersion : ℕ
  productFamily : Option String := none
  variantEvidence : Option String := none
  identityAliases : Option (List IdentityAlias) := none
  state : LinkState
  linkedAt : ℤ
  availableRevision : Option ℕ := none
  availableContentHash : Option String := none
  detachedAt : Option ℤ := none
deriving DecidableEq

inductive RegistryMode
  | disabled
  | offline
  | connected
deriving DecidableEq

/-- The registry store: settings, whether the installation identity is active,
the source of the active snapshot, and the collections. -/
structure Registry where
  mode : RegistryMode := .connected
  automaticContributions : Bool := true
  installationActive : Bool := true
  snapshotSourceId : Option ℕ := none
  links : List Link := []
  contributionOutbox : List OutboxRecord := []
  contributionLedger : List LedgerRecord := []
deriving DecidableEq

def Registry.outboxIds (r : Registry) : List ℕ := r.contributionOutbox.map (·.id)

def Registry.outboxHashes (r : Registry) : List String := r.contributionOutbox.map (·.contentHash)

def Registry.ledgerIds (r : Registry) : List ℕ := r.contributionLedger.map (·.id)

def Registry.ledgerHashes (r : Registry) : List String := r.contributionLedger.map (·.contentHash)

/-! ## Ids -/

/-- The id after the largest one. -/
def nextId (ids : List ℕ) : ℕ := ids.foldl max 0 + 1

/-- What `assertUniqueNumericIds` asks of the ids of a collection. -/
def UniqueNumericIds (ids : List ℕ) : Prop := (∀ i ∈ ids, 0 < i) ∧ ids.Nodup

instance (ids : List ℕ) : Decidable (UniqueNumericIds ids) :=
  inferInstanceAs (Decidable (_ ∧ _))

/-- Numbering the records of a list keeps what does not depend on the number. -/
theorem map_zipIdx_eq_map {α β κ : Type} (number : α → ℕ → β) {key : α → κ} {key' : β → κ}
    (h : ∀ a id, key' (number a id) = key a) (l : List α) (next : ℕ) :
    ((l.zipIdx next).map fun a => number a.1 a.2).map key' = l.map key := by
  induction l generalizing next with
  | nil => rfl
  | cons a rest ih =>
    rw [List.zipIdx_cons, List.map_cons, List.map_cons, ih, h, List.map_cons]

/-! ## Transactions -/

/-- What `assertRegistryStoreShape` asks of the ids, and the index of the links
over their items. -/
structure Registry.WellFormed (r : Registry) : Prop where
  links : UniqueNumericIds (r.links.map (·.id))
  outbox : UniqueNumericIds r.outboxIds
  ledger : UniqueNumericIds r.ledgerIds
  registry_links_item_unique : (r.links.map (·.toItemRef)).Nodup

instance (r : Registry) : Decidable r.WellFormed :=
  decidable_of_iff (UniqueNumericIds (r.links.map (·.id)) ∧ UniqueNumericIds r.outboxIds ∧
      UniqueNumericIds r.ledgerIds ∧ (r.links.map (·.toItemRef)).Nodup)
    ⟨fun ⟨links, outbox, ledger, index⟩ => ⟨links, outbox, ledger, index⟩,
      fun ⟨links, outbox, ledger, index⟩ => ⟨links, outbox, ledger, index⟩⟩

/-- Change a draft of the store and write it, or throw and change nothing. -/
def Registry.registryTransaction (r : Registry) (mutator : Registry → Registry) :
    Option Registry :=
  if (mutator r).WellFormed then some (mutator r) else none

theorem Registry.registryTransaction_eq_some {r r' : Registry} {mutator : Registry → Registry} :
    r.registryTransaction mutator = some r' ↔ (mutator r).WellFormed ∧ mutator r = r' := by
  rw [registryTransaction]
  split
  · rename_i h
    rw [Option.some_inj]
    exact ⟨fun heq => ⟨h, heq⟩, fun heq => heq.2⟩
  · rename_i h
    exact ⟨nofun, fun heq => absurd heq.1 h⟩

theorem Registry.registryTransaction_of_wellFormed {r : Registry} {mutator : Registry → Registry}
    (h : (mutator r).WellFormed) : r.registryTransaction mutator = some (mutator r) :=
  registryTransaction_eq_some.mpr ⟨h, rfl⟩

end HomelabInventory.Contributions
