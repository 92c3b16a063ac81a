import HomelabInventory.ContributionDiscovery
import Mathlib.Data.Rat.Floor

/-!
# Delivering contributions

`deliver` discovers, claims what is due, posts it and settles the records by the
answer. `trigger` runs one delivery at a time, but a catalog activation discovers
links whenever it likes. A call is what it is awaiting; a step is what runs
between two awaits, and a crash takes every call with it.
-/

namespace HomelabInventory.Contributions

open InsertionMap

def BATCH_SIZE : ℕ := 20
@[irreducible] def MAX_LEDGER_RECORDS : ℕ := 10000
def BASE_RETRY_MS : ℤ := 60000
def MAX_RETRY_MS : ℤ := 21600000

/-! ## Claiming and settling -/

/-- When a record is tried again. `random` is below one. -/
def retryAt (attempts : ℕ) (now : ℤ) (random : ℚ) : ℤ :=
  let exponential := min MAX_RETRY_MS (BASE_RETRY_MS * 2 ^ min attempts 8)
  now + exponential + ⌊random * min 30000 (exponential / 4 : ℚ)⌋

/-- The record may be claimed. -/
def OutboxRecord.isDue (now : ℤ) (record : OutboxRecord) : Bool :=
  record.state ≠ .delivering && decide (record.nextAttemptAt ≤ now)

/-- The records the next delivery claims. -/
def Registry.due (r : Registry) (now : ℤ) : List OutboxRecord :=
  (r.contributionOutbox.filter (·.isDue now)).take BATCH_SIZE

def OutboxRecord.claim (dueIds : List ℕ) (record : OutboxRecord) : OutboxRecord :=
  if record.id ∈ dueIds then { record with state := .delivering } else record

def Registry.claim (dueIds : List ℕ) (draft : Registry) : Registry :=
  { draft with contributionOutbox := draft.contributionOutbox.map (·.claim dueIds) }

/-- The record after an attempt that delivered nothing. `random` draws for each record. -/
def OutboxRecord.retry (now : ℤ) (random : ℕ → ℚ) (error : String) (record : OutboxRecord) :
    OutboxRecord :=
  { record with
    state := .retrying
    attempts := record.attempts + 1
    nextAttemptAt := retryAt (record.attempts + 1) now (random record.id)
    lastError := some error }

/-- The answer settles the record. -/
def settled (dueIds : List ℕ) (results : List (String × String)) (record : OutboxRecord) : Bool :=
  decide (record.id ∈ dueIds) &&
    decide (((get? results record.contentHash).getD "") ∈ ["quarantined", "duplicate", "suppressed"])

def OutboxRecord.deliver (now : ℤ) (results : List (String × String)) (record : OutboxRecord)
    (id : ℕ) : LedgerRecord where
  toItemRef := record.toItemRef
  id := id
  sources := record.sources
  identityHash := record.identityHash
  contentHash := record.contentHash
  fingerprintVersion := record.fingerprintVersion
  idempotencyKey := record.idempotencyKey
  state := if get? results record.contentHash = some "suppressed" then .suppressed else .delivered
  deliveredAt := now

/-- The settled records as the ledger takes them. -/
def Registry.deliveredRecords (r : Registry) (now : ℤ) (dueIds : List ℕ)
    (results : List (String × String)) : List LedgerRecord :=
  ((r.contributionOutbox.filter (settled dueIds results)).zipIdx (nextId r.ledgerIds)).map
    fun (record, id) => record.deliver now results id

/-- What the transaction on a complete answer does: settled records move to the
ledger, the others are tried again, and the ledger forgets its oldest records. -/
def Registry.settle (now : ℤ) (random : ℕ → ℚ) (dueIds : List ℕ) (results : List (String × String))
    (draft : Registry) : Registry :=
  let ledger := draft.contributionLedger ++ draft.deliveredRecords now dueIds results
  { draft with
    contributionOutbox :=
      (draft.contributionOutbox.filter fun record => !settled dueIds results record).map fun record =>
        if record.id ∈ dueIds then
          record.retry now random "Registry returned an incomplete contribution result."
        else record
    contributionLedger := ledger.drop (ledger.length - MAX_LEDGER_RECORDS) }

/-- What the transaction on a failure does: every claimed record is tried again. -/
def Registry.reschedule (now : ℤ) (random : ℕ → ℚ) (dueIds : List ℕ) (error : String)
    (draft : Registry) : Registry :=
  { draft with
    contributionOutbox := draft.contributionOutbox.map fun record =>
      if record.id ∈ dueIds then record.retry now random error else record }

/-- The hashes `refreshStatuses` asks about. -/
def Registry.unsettledHashes (r : Registry) : List String :=
  let delivered := (r.contributionLedger.filter (·.state = .delivered)).map (·.contentHash)
  delivered.drop (delivered.length - 100)

/-- What the registry said of a delivered contribution. -/
def LedgerRecord.refresh (statuses : List (String × String)) (record : LedgerRecord) :
    LedgerRecord :=
  match get? statuses record.contentHash with
  | some "accepted" => { record with state := .accepted }
  | some "published" => { record with state := .accepted }
  | some "rejected" => { record with state := .rejected }
  | some "suppressed" => { record with state := .suppressed }
  | _ => record

def Registry.refreshStatuses (statuses : List (String × String)) (draft : Registry) : Registry :=
  { draft with contributionLedger := draft.contributionLedger.map (·.refresh statuses) }

/-! ## Calls -/

/-- What a delivery is awaiting. -/
inductive DeliveryCall
  /-- The hashes known from outside. -/
  | digesting (explicit : Bool) (now : ℤ)
  /-- The projections and groups of its discovery, which has read the store. -/
  | discovering (now : ℤ) (plan : Plan)
  /-- The discovery, which has returned. -/
  | discovered (now : ℤ)
  /-- The answer to what it claimed. -/
  | posting (now : ℤ) (dueIds : List ℕ)
  /-- The statuses of what was delivered before. -/
  | refreshing (now : ℤ)
deriving DecidableEq

/-- The store with the inventory, the delivery that runs, and the discoveries of
activations that have read the store. -/
structure System where
  store : Registry
  items : List Item
  running : Option DeliveryCall := none
  discoveries : List Plan := []
deriving DecidableEq

/-- The answer to a posted batch: a state for each content hash, or a failure of
any kind. -/
inductive DeliveryAnswer
  | results (results : List (String × String))
  | failed (error : String)

inductive Update
  | trigger (explicit : Bool) (now : ℤ)
  | digest (external : ExternalHashes)
  | writeDiscovery
  | claim
  | answer (answer : DeliveryAnswer) (random : ℕ → ℚ)
  | refresh (statuses : Option (List (String × String)))
  /-- An await of the delivery rejects before it claims. -/
  | rejectDelivery
  | discoverLinks (now : ℤ) (external : ExternalHashes)
  | writeLinks (index : ℕ)
  | rejectLinks (index : ℕ)
  /-- Everything else that writes: item edits, settings, activations, updates. -/
  | edit (store : Registry) (items : List Item)
  | crash

/-- The settings let a delivery run. -/
def Registry.deliveryAllowed (r : Registry) (explicit : Bool) : Bool :=
  decide (r.mode = .connected) && r.installationActive && (explicit || r.automaticContributions)

/-- The delivery goes on to the statuses, which it only asks for when there are any. -/
def System.refreshing (s : System) (store : Registry) (now : ℤ) : System :=
  { s with store, running := if store.unsettledHashes = [] then none else some (.refreshing now) }

/-- The attempt failed: the claimed records are tried again, and the delivery ends. -/
def System.fail (s : System) (now : ℤ) (dueIds : List ℕ) (random : ℕ → ℚ) (error : String) :
    System :=
  { s with
    store := (s.store.registryTransaction
      (Registry.reschedule now random dueIds error)).getD s.store
    running := none }

/-- Settle the claimed records by the answer. A transaction that throws is a
failure like any other. -/
def System.receive (s : System) (now : ℤ) (dueIds : List ℕ) (random : ℕ → ℚ) :
    DeliveryAnswer → System
  | .results results =>
    match s.store.registryTransaction (Registry.settle now random dueIds (ofEntries results)) with
    | some store => s.refreshing store now
    | none => s.fail now dueIds random "The registry store could not be written."
  | .failed error => s.fail now dueIds random error

section
variable (P : CatalogProtocol)

/-- What runs between two awaits. -/
def System.step (s : System) : Update → Option System
  | .trigger explicit now =>
    if s.running.isNone && s.store.deliveryAllowed explicit then
      some { s with running := some (.digesting explicit now) }
    else some s
  | .digest external =>
    match s.running with
    | some (.digesting explicit now) =>
      match discoverContributionCandidates P s.store s.items now external { explicit } with
      | some plan => some { s with running := some (.discovering now plan) }
      | none => some { s with running := some (.discovered now) }
    | _ => none
  | .writeDiscovery =>
    match s.running with
    | some (.discovering now plan) =>
      match plan.commit s.store with
      | some store => some { s with store, running := some (.discovered now) }
      | none => some { s with running := none }
    | _ => none
  | .claim =>
    match s.running with
    | some (.discovered now) =>
      let dueIds := (s.store.due now).map (·.id)
      if dueIds = [] then some (s.refreshing s.store now)
      else
        match s.store.registryTransaction (Registry.claim dueIds) with
        | some store => some { s with store, running := some (.posting now dueIds) }
        | none => some { s with running := none }
    | _ => none
  | .answer answer random =>
    match s.running with
    | some (.posting now dueIds) => some (s.receive now dueIds random answer)
    | _ => none
  | .refresh statuses =>
    match s.running with
    | some (.refreshing _) =>
      match statuses with
      | some statuses => some { s with
          store := (s.store.registryTransaction
            (Registry.refreshStatuses (ofEntries statuses))).getD s.store
          running := none }
      | none => some { s with running := none }
    | _ => none
  | .rejectDelivery =>
    match s.running with
    | some (.digesting _ _) | some (.discovering _ _) => some { s with running := none }
    | _ => none
  | .discoverLinks now external =>
    match discoverContributionCandidates P s.store s.items now external { linkOnly := true } with
    | some plan => some { s with discoveries := s.discoveries ++ [plan] }
    | none => some s
  | .writeLinks index =>
    match s.discoveries[index]? with
    | some plan =>
      some { s with
        store := (plan.commit s.store).getD s.store
        discoveries := s.discoveries.eraseIdx index }
    | none => none
  | .rejectLinks index => some { s with discoveries := s.discoveries.eraseIdx index }
  | .edit store items =>
    if store.contributionOutbox = s.store.contributionOutbox ∧
        store.contributionLedger = s.store.contributionLedger then
      (s.store.registryTransaction fun _ => store).map fun store => { s with store, items }
    else none
  | .crash => some { s with running := none, discoveries := [] }

end

end HomelabInventory.Contributions
