import HomelabInventory.TelemetryEntities
import Mathlib.Data.Int.Notation
import Mathlib.Logic.Function.Basic

/-!
# The telemetry repository

The store of the heartbeats of the agents: the rows of the six entity families
with their revisions, the events in the lives of the entities, the metric
samples of the last minutes, and the step that records one envelope. The step
is a transaction, so an envelope that fails changes nothing.
-/

namespace HomelabInventory.Telemetry

/-! ## Stored data -/

/-- A row of a family, under the values of its key columns. -/
structure Row where
  lifecycleHash : Option String := none
  state : Entity
  deriving DecidableEq

inductive EventKind where
  | observed | changed | removed
  deriving DecidableEq

/-- A row of `component_events`. -/
structure ComponentEvent where
  family : EventFamily
  entityKey : String
  kind : EventKind
  observedAtMs : ℤ
  stateHash : Option String
  state : Option Entity
  deriving DecidableEq

/-- The rows of a family and its revision, zero when none is stored. -/
structure FamilyTable where
  rows : BTreeMap (List String) Row := ∅
  revision : ℕ := 0

structure CpuMetrics where
  percent : Option ℚ := none
  idlePercent : Option ℚ := none
  ioWaitPercent : Option ℚ := none
  stealPercent : Option ℚ := none
  systemPercent : Option ℚ := none
  userPercent : Option ℚ := none
  deriving DecidableEq

structure MemoryMetrics where
  usedBytes : Option ℚ := none
  usedPercent : Option ℚ := none
  deriving DecidableEq

/-- The metrics of a sample. -/
structure Metrics where
  cpu : CpuMetrics := {}
  memory : MemoryMetrics := {}
  deriving DecidableEq

/-- The system facts of a host, with its storage devices apart. -/
structure SystemFacts where
  facts : Entity := ∅
  storageDevices : Option (List Entity) := none
  deriving DecidableEq

/-- The runtime state of an envelope. -/
structure Runtime where
  uptimeSeconds : Option ℚ := none
  loadAverage : List (Option ℚ) := []
  memory : Entity := ∅
  deriving DecidableEq

/-- A row of `host_runtime_state`. -/
structure RuntimeState where
  uptimeSeconds : Option ℚ
  load1 : Option ℚ
  load5 : Option ℚ
  load15 : Option ℚ
  memory : Entity
  deriving DecidableEq

/-- The rows of a host. -/
structure HostTables where
  families : Family → FamilyTable := fun _ => {}
  events : List ComponentEvent := []
  samples : BTreeMap ℤ Metrics := ∅
  facts : Option SystemFacts := none
  devices : BTreeMap String Entity := ∅
  runtime : Option RuntimeState := none

inductive HostType where
  | server | nas | pcBuild
  deriving DecidableEq

/-- The receipt of a heartbeat, before it is stored. -/
structure Receipt where
  agentId : ℕ
  hostItemId : ℕ
  hostType : HostType
  hostId : ℕ
  sequence : ℕ
  collectedAtMs : ℤ
  receivedAtMs : ℤ
  droppedSamples : ℕ := 0
  agentVersion : String := ""
  monitoringRevision : ℕ := 0
  deriving DecidableEq

/-- A row of `heartbeat_receipts`. -/
structure StoredReceipt extends Receipt where
  id : ℕ
  deriving DecidableEq

/-- The telemetry database. -/
structure Database where
  receipts : List StoredReceipt := []
  /-- `capabilities_hash` of `agent_capabilities` -/
  capabilities : BTreeMap ℕ String := ∅
  hosts : ℕ → HostTables := fun _ => {}

/-! ## Envelopes -/

/-- The change of a family that an envelope carries. -/
structure Delta where
  revision : ℕ
  full : Bool
  changed : List Entity
  removed : List String
  deriving DecidableEq

/-- A normalized heartbeat. The deltas are the properties of an object, so each family has
one at most. -/
structure Envelope where
  receipt : Receipt
  metrics : Metrics := {}
  minuteBucketMs : ℤ
  system : Option SystemFacts := none
  runtime : Runtime := {}
  deltas : List (Family × Delta) := []
  /-- whether the agent sent its capabilities along -/
  capabilities : Bool := false
  capabilitiesHash : String := ""
  distinct : (deltas.map (·.1)).Nodup := by decide

/-! ## Patches for the live view -/

/-- The change of an entity. -/
structure EntityPatch where
  key : String
  set : Entity
  unset : List String
  deriving DecidableEq

/-- The live change of a family. -/
structure FamilyPatch where
  family : Family
  revision : ℕ
  changes : List EntityPatch
  removed : List String
  deriving DecidableEq

/-- The properties that every object inherits, which `in` finds in all of them. -/
def inheritedProperties : List String :=
  ["__proto__", "__defineGetter__", "__defineSetter__", "__lookupGetter__", "__lookupSetter__",
    "constructor", "hasOwnProperty", "isPrototypeOf", "propertyIsEnumerable", "toLocaleString",
    "toString", "valueOf"]

/-- The fields of `next` that are new or differ, and the fields of `previous` that are not
`in` it. -/
def topLevelPatch (previous : Option Entity) (next : Entity) : Entity × List String :=
  match previous with
  | none => (next, [])
  | some previous =>
    (next.filter fun field value => decide (previous[field]? ≠ some value),
      previous.keys.filter fun field => !(next.contains field || inheritedProperties.contains field))

def hasPatch (patch : Entity × List String) : Bool :=
  0 < patch.1.size || 0 < patch.2.length

/-! ## Families -/

section Families

-- the digest of a lifecycle state, which hashes its canonical JSON
variable (hash : List (String × Option Value) → String)

/-- The rows and the events that the changes of a family write. -/
structure FamilyWrites where
  rows : BTreeMap (List String) Row
  events : List ComponentEvent

/-- The event that the removal of a row leaves. -/
def removalEvent (name : Family) (rawKey : String) (observedAtMs : ℤ) (row : Row) :
    List ComponentEvent :=
  match name.eventFamily with
  | none => []
  | some family => [{
      family, observedAtMs
      entityKey := rawKey
      kind := .removed
      stateHash := row.lifecycleHash
      state := none }]

/-- Remove the row of a key, if there is one. The query fails when the key does not split
into as many values as there are key columns. -/
def removeState (name : Family) (rawKey : String) (observedAtMs : ℤ) (writes : FamilyWrites) :
    Except String (FamilyWrites × Bool) :=
  let parts := splitText keySeparator rawKey
  if parts.length ≠ name.keyColumns.length then
    .error "SQLite query expected another number of values"
  else
    match writes.rows[parts]? with
    | none => .ok (writes, false)
    | some row =>
      .ok ({
        rows := writes.rows.erase parts
        events := writes.events ++ removalEvent name rawKey observedAtMs row }, true)

/-- The state of the loop over the changed entities. -/
structure ChangeLoop where
  writes : FamilyWrites
  incoming : List String
  changes : List EntityPatch

/-- `hash(lifecycleState(config.family, value))`, for the families that have events. -/
def semanticHash (name : Family) (value : Entity) : Option String :=
  name.eventFamily.map fun family => hash (lifecycleState family value)

/-- The event that an entity leaves when it is new or its lifecycle state has changed. -/
def changeEvent (name : Family) (entityKey : String) (observedAtMs : ℤ) (current : Option Row)
    (value : Entity) : List ComponentEvent :=
  match name.eventFamily with
  | none => []
  | some family =>
    if current.any fun row => row.lifecycleHash = semanticHash hash name value then []
    else [{
      family, entityKey, observedAtMs
      kind := if current.isSome then .changed else .observed
      stateHash := semanticHash hash name value
      state := some value }]

/-- One turn of the loop over `delta.changed`. -/
def applyChange (name : Family) (observedAtMs : ℤ) (loop : ChangeLoop) (value : Entity) :
    Except String ChangeLoop := do
  let entityKey ← name.key value
  let parts ← tableKeyParts name value
  let current := loop.writes.rows[parts]?
  let patch := topLevelPatch (current.map (·.state)) value
  return {
    writes := {
      rows := loop.writes.rows.insert parts {
        lifecycleHash := semanticHash hash name value
        state := value }
      events := loop.writes.events ++ changeEvent hash name entityKey observedAtMs current value }
    incoming := loop.incoming ++ [entityKey]
    changes := loop.changes ++
      (if hasPatch patch then [{ key := entityKey, set := patch.1, unset := patch.2 }] else []) }

/-- The state of the loops over removed keys. -/
structure RemovalLoop where
  writes : FamilyWrites
  removedKeys : List String

/-- One turn of the loop over `delta.removed`. -/
def applyRemoval (name : Family) (observedAtMs : ℤ) (loop : RemovalLoop) (removed : String) :
    Except String RemovalLoop := do
  let (writes, found) ← removeState name removed observedAtMs loop.writes
  return { writes, removedKeys := if found then loop.removedKeys ++ [removed] else loop.removedKeys }

/-- One turn of the sweep over the rows after a full delta. -/
def sweepRow (name : Family) (observedAtMs : ℤ) (incoming : List String) (loop : RemovalLoop)
    (parts : List String) : Except String RemovalLoop :=
  let persistedKey := joinText keySeparator parts
  if incoming.contains persistedKey then .ok loop
  else applyRemoval name observedAtMs loop persistedKey

/-- After a full delta, the rows whose key did not come in are removed. -/
def sweep (name : Family) (full : Bool) (observedAtMs : ℤ) (incoming : List String)
    (loop : RemovalLoop) : Except String RemovalLoop :=
  if full then loop.writes.rows.keys.foldlM (sweepRow name observedAtMs incoming) loop
  else .ok loop

/-- What the application of a delta returns, besides the tables. -/
structure Applied where
  accepted : ℕ
  reconcile : Bool
  live : Option FamilyPatch

/-- Apply the delta of a family to the tables of a host. -/
def applyFamily (name : Family) (delta : Delta) (observedAtMs : ℤ) (host : HostTables) :
    Except String (HostTables × Applied) :=
  let previous := (host.families name).revision
  if delta.revision ≤ previous then
    .ok (host, { accepted := previous, reconcile := false, live := none })
  else if !delta.full && delta.revision != previous + 1 then
    .ok (host, { accepted := previous, reconcile := true, live := none })
  else do
    let changed ← delta.changed.foldlM (applyChange hash name observedAtMs) {
      writes := { rows := (host.families name).rows, events := host.events }
      incoming := []
      changes := [] }
    let removed ← delta.removed.foldlM (applyRemoval name observedAtMs) {
      writes := changed.writes
      removedKeys := [] }
    let swept ← sweep name delta.full observedAtMs changed.incoming removed
    return ({ host with
        families := Function.update host.families name {
          rows := swept.writes.rows
          revision := delta.revision }
        events := swept.writes.events }, {
        accepted := delta.revision
        reconcile := false
        live :=
          if changed.changes.isEmpty && swept.removedKeys.isEmpty then none
          else some {
            family := name
            revision := delta.revision
            changes := changed.changes
            removed := swept.removedKeys } })

/-- The state of the loop over the deltas of an envelope. -/
structure DeltaLoop where
  host : HostTables
  acceptedRevisions : List (Family × ℕ) := []
  reconcile : List Family := []
  families : List FamilyPatch := []

/-- One turn of the loop over the deltas. -/
def applyDelta (observedAtMs : ℤ) (loop : DeltaLoop) (entry : Family × Delta) :
    Except String DeltaLoop := do
  let (host, applied) ← applyFamily hash entry.1 entry.2 observedAtMs loop.host
  return {
    host
    acceptedRevisions := loop.acceptedRevisions ++ [(entry.1, applied.accepted)]
    reconcile := if applied.reconcile then loop.reconcile ++ [entry.1] else loop.reconcile
    families := loop.families ++ applied.live.toList }

end Families

/-! ## Envelopes of a host -/

/-- The slots that are kept of receipts and of samples. -/
def metricWindow : ℕ := 30

/-- The checks on the columns of a receipt. -/
def Receipt.checks (receipt : Receipt) : Bool :=
  0 < receipt.agentId && 0 < receipt.hostItemId && 0 < receipt.hostId && 0 < receipt.sequence &&
    0 ≤ receipt.collectedAtMs && 0 ≤ receipt.receivedAtMs

/-- A percentage, or nothing. -/
def isPercentage (value : Option ℚ) : Bool := value.all fun q => 0 ≤ q && q ≤ 100

/-- A whole number that is not negative, or nothing. -/
def isCount (value : Option ℚ) : Bool := value.all fun q => 0 ≤ q && q.den == 1

/-- The checks on the columns of a metric sample. -/
def Metrics.checks (metrics : Metrics) : Bool :=
  isPercentage metrics.cpu.percent && isPercentage metrics.cpu.idlePercent &&
    isPercentage metrics.cpu.ioWaitPercent && isPercentage metrics.cpu.stealPercent &&
    isPercentage metrics.cpu.systemPercent && isPercentage metrics.cpu.userPercent &&
    isCount metrics.memory.usedBytes && isPercentage metrics.memory.usedPercent

/-- A receipt that comes before another when the latest are first. -/
def StoredReceipt.isLater (first second : StoredReceipt) : Bool :=
  second.receivedAtMs < first.receivedAtMs ||
    (first.receivedAtMs == second.receivedAtMs && second.id < first.id)

/-- Keep the latest receipts of a host. -/
def trimReceipts (hostItemId : ℕ) (receipts : List StoredReceipt) : List StoredReceipt :=
  receipts.filter fun receipt => receipt.hostItemId != hostItemId ||
    (receipts.countP fun other => other.hostItemId == hostItemId && other.isLater receipt)
      < metricWindow

/-- Keep the samples of the last minutes. -/
def trimSamples (samples : BTreeMap ℤ Metrics) : BTreeMap ℤ Metrics :=
  samples.filter fun minute _ => (samples.keys.countP fun other => minute < other) < metricWindow

/-- The row number a new receipt takes. -/
def nextReceiptId (receipts : List StoredReceipt) : ℕ :=
  (receipts.map (·.id)).foldl max 0 + 1

/-- Store the system facts and the storage devices they list. -/
def recordSystem (host : HostTables) : Option SystemFacts → Except String HostTables
  | none => .ok host
  | some system => do
    let host := { host with facts := some system }
    match system.storageDevices with
    | none => return host
    | some devices =>
      let keyed ← devices.mapM fun device => do
        let key ← deviceKey device
        return (key, device)
      let keys := keyed.map (·.1)
      return { host with
        devices := (insertEntries host.devices keyed).filter fun key _ => keys.contains key }

/-- Store the runtime state. -/
def recordRuntime (host : HostTables) (runtime : Runtime) : Except String HostTables := do
  failIf (!isCount runtime.uptimeSeconds) "CHECK constraint failed: host_runtime_state"
  return { host with
    runtime := some {
      uptimeSeconds := runtime.uptimeSeconds
      load1 := (runtime.loadAverage[0]?).join
      load5 := (runtime.loadAverage[1]?).join
      load15 := (runtime.loadAverage[2]?).join
      memory := runtime.memory } }

/-! ## Recording -/

/-- A slot of the metric history. -/
structure MetricBucket where
  atMs : ℤ
  received : Bool
  metrics : Option Metrics
  deriving DecidableEq

/-- What a recorded envelope tells the clients that hold a view. -/
structure LiveDelta where
  sequence : ℕ
  receivedAtMs : ℤ
  collectedAtMs : ℤ
  agentVersion : String
  metricBucket : MetricBucket
  runtime : Runtime
  system : Option SystemFacts
  families : List FamilyPatch
  deriving DecidableEq

/-- The result of recording an envelope. -/
structure Recorded where
  duplicate : Bool
  acceptedRevisions : List (Family × ℕ) := []
  reconcile : List Family := []
  requestCapabilities : Bool
  liveDelta : Option LiveDelta := none

/-- Store what an envelope says about its host, besides the families. -/
def recordHost (host : HostTables) (envelope : Envelope) : Except String HostTables := do
  failIf (envelope.minuteBucketMs < 0 || !envelope.metrics.checks)
    "CHECK constraint failed: host_metric_samples"
  let host := { host with
    samples := trimSamples (host.samples.insert envelope.minuteBucketMs envelope.metrics) }
  failIf (envelope.capabilities && envelope.capabilitiesHash.length != 64)
    "CHECK constraint failed: agent_capabilities"
  let host ← recordSystem host envelope.system
  recordRuntime host envelope.runtime

/-- The body of the transaction that records an envelope. -/
def recordEnvelope (hash : List (String × Option Value) → String) (database : Database)
    (envelope : Envelope) : Except String (Database × Recorded) := do
  let receipt := envelope.receipt
  let requestCapabilities := !envelope.capabilities &&
    database.capabilities[receipt.agentId]? != some envelope.capabilitiesHash
  failIf (!receipt.checks) "CHECK constraint failed: heartbeat_receipts"
  if database.receipts.any fun stored =>
      stored.agentId == receipt.agentId && stored.sequence == receipt.sequence then
    return (database, { duplicate := true, requestCapabilities })
  else
    let stored : StoredReceipt := { receipt with id := nextReceiptId database.receipts }
    let host ← recordHost (database.hosts receipt.hostItemId) envelope
    let loop ← envelope.deltas.foldlM (applyDelta hash receipt.receivedAtMs) { host }
    return ({
        receipts := trimReceipts receipt.hostItemId (database.receipts ++ [stored])
        capabilities :=
          if envelope.capabilities then
            database.capabilities.insert receipt.agentId envelope.capabilitiesHash
          else database.capabilities
        hosts := Function.update database.hosts receipt.hostItemId loop.host }, {
        duplicate := false
        acceptedRevisions := loop.acceptedRevisions
        reconcile := loop.reconcile
        requestCapabilities
        liveDelta := some {
          sequence := receipt.sequence
          receivedAtMs := receipt.receivedAtMs
          collectedAtMs := receipt.collectedAtMs
          agentVersion := receipt.agentVersion
          metricBucket := {
            atMs := envelope.minuteBucketMs
            received := true
            metrics := some envelope.metrics }
          runtime := envelope.runtime
          system := envelope.system
          families := loop.families } })

/-- Record an envelope; a transaction that fails is rolled back. -/
def record (hash : List (String × Option Value) → String) (database : Database)
    (envelope : Envelope) : Database :=
  match recordEnvelope hash database envelope with
  | .ok (recorded, _) => recorded
  | .error _ => database

/-- Record envelopes in the order in which they arrive. -/
def recordAll (hash : List (String × Option Value) → String) (database : Database)
    (envelopes : List Envelope) : Database :=
  envelopes.foldl (record hash) database

end HomelabInventory.Telemetry
