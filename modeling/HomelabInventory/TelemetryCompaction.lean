import HomelabInventory.CrashRuns
import HomelabInventory.OrderedMap
import Mathlib.Data.Int.Notation

/-!
# Compaction of the telemetry database

Opening the telemetry database rewrites a database of an older schema into a new file and puts
that in its place, keeping the old one as a rollback file until the new one has been checked. A
start finds out from the files alone how far the last one got.

The files are the database, the new file and the rollback file. Of a database the model has its
schema version and the tables whose rows the compaction preserves.
-/

namespace HomelabInventory

/-! ## Databases -/

/-- The tables whose rows are kept. -/
inductive PreservedTable where
  | latestVirtualizationState
  | virtualizationEvents
  | manualInventoryReports
  | manualInventoryComponents
  | agentFieldSuggestions
  deriving DecidableEq

/-- The tables in the order in which they are copied. -/
def preservedTables : List PreservedTable :=
  [.latestVirtualizationState, .virtualizationEvents, .manualInventoryReports,
    .manualInventoryComponents, .agentFieldSuggestions]

/-- A row: the columns that a trigger looks at and the others. -/
structure TableRow where
  id : ℤ
  hostItemId : ℤ
  receivedAtMs : ℤ := 0
  complete : Bool := false
  columns : List String := []
  deriving DecidableEq

/-- Reports with the latest ones first. -/
def compareReports (first second : TableRow) : Ordering :=
  (compare second.receivedAtMs first.receivedAtMs).then (compare second.id first.id)

/-- `retain_five_complete_manual_inventory_reports` -/
def retainFiveCompleteManualInventoryReports (hostItemId : ℤ) (rows : List TableRow) :
    List TableRow :=
  let superseded := (sortBy compareReports
    (rows.filter fun row => row.hostItemId == hostItemId && row.complete)).drop 5
  rows.filter fun row => !(superseded.map (·.id)).contains row.id

/-- Insert a row, with the trigger of the table. -/
def insertRow (table : PreservedTable) (rows : List TableRow) (row : TableRow) : List TableRow :=
  if table = .manualInventoryReports ∧ row.complete = true then
    retainFiveCompleteManualInventoryReports row.hostItemId (rows ++ [row])
  else rows ++ [row]

/-- A database file: its schema version and the preserved tables that exist. -/
structure TelemetryFile where
  userVersion : ℕ := 0
  tables : PreservedTable → Option (List TableRow) := fun _ => none

/-- `TELEMETRY_SCHEMA_VERSION` -/
def telemetrySchemaVersion : ℕ := 3

/-- A step of the schema with the preserved tables that it creates. -/
structure TelemetryMigration where
  version : ℕ
  creates : List PreservedTable := []

/-- `TELEMETRY_MIGRATIONS` -/
def telemetryMigrations : List TelemetryMigration :=
  [{ version := 1 }, { version := 2, creates := preservedTables }, { version := 3 }]

/-! ## Opening -/

/-- The files of the telemetry database. -/
inductive TelemetryPath where
  | database
  | target
  | rollback
  deriving DecidableEq

abbrev TelemetryDisk : Type := Disk TelemetryPath TelemetryFile

namespace TelemetryCompaction

open Fragile

/-- Open a file for writing, which creates it when it is missing. -/
def openDatabase (path : TelemetryPath) : Fragile TelemetryDisk Unit :=
  write fun disk => Function.update disk path (some ((disk path).getD {}))

/-- Run one step of the schema; a table cannot be created twice. -/
def applyMigration (path : TelemetryPath) (migration : TelemetryMigration) :
    Fragile TelemetryDisk Unit := do
  match ← inspect fun disk => disk path with
  | none => fail
  | some file =>
    if migration.creates.any fun table => (file.tables table).isSome then fail
    else
      writeFile path
        { userVersion := migration.version
          tables := fun table => if table ∈ migration.creates then some [] else file.tables table }

/-- Bring a database to the supported schema. -/
def migrateTelemetrySchema (path : TelemetryPath) : Fragile TelemetryDisk Unit := do
  match ← inspect fun disk => disk path with
  | none => fail
  | some file =>
    if telemetrySchemaVersion < file.userVersion then fail
    else telemetryMigrations.forM fun migration =>
      if migration.version ≤ file.userVersion then pure () else applyMigration path migration

/-- Copy one table of the database, when it has it, to the new file. -/
def copyTable (table : PreservedTable) : Fragile TelemetryDisk Unit := do
  match ← inspect fun disk => (disk .database, disk .target) with
  | (some legacy, some target) =>
    match legacy.tables table with
    | none => pure ()
    | some rows =>
      match target.tables table with
      | none => fail
      | some present =>
        writeFile .target { target with
          tables := Function.update target.tables table
            (some (rows.foldl (insertRow table) present)) }
  | _ => fail

/-- Put the rollback file back when there is no database. -/
def restoreRollback : Fragile TelemetryDisk Unit := do
  if ← inspect fun disk => (disk .database).isNone && (disk .rollback).isSome then
    rename .rollback .database

/-- A file has the supported schema. -/
def checkSchema (path : TelemetryPath) : Fragile TelemetryDisk Unit := do
  attempt
  if (← inspect fun disk => ((disk path).map (·.userVersion))) ≠ some telemetrySchemaVersion then fail

/-- Write the preserved rows to the new file. -/
def prepareTarget : Fragile TelemetryDisk Unit := do
  openDatabase .target
  migrateTelemetrySchema .target
  preservedTables.forM copyTable
  checkSchema .target

/-- Put the new file in the place of the database. The manifest is written before and removed
after it; nothing reads it. -/
def activateTarget : Fragile TelemetryDisk Unit := do
  attempt
  remove .rollback
  rename .database .rollback
  rename .target .database
  checkSchema .database
  remove .rollback
  attempt

/-- `compactTelemetryDatabaseIfNeeded` -/
def compactTelemetryDatabaseIfNeeded : Fragile TelemetryDisk Unit := do
  restoreRollback
  match ← inspect fun disk => disk .database with
  | none => pure ()
  | some source =>
    attempt
    if telemetrySchemaVersion ≤ source.userVersion then
      remove .target
      remove .rollback
      attempt
    else
      attempt
      remove .target
      tryCatch (prepareTarget >>= fun _ => activateTarget)
        (restoreRollback >>= fun _ => remove .target >>= fun _ => fail)

/-- `openTelemetryDatabase` -/
def openTelemetryDatabase : Fragile TelemetryDisk Unit := do
  attempt
  compactTelemetryDatabaseIfNeeded
  openDatabase .database
  attempt
  migrateTelemetrySchema .database
  attempt

/-! ## The start of the server -/

/-- `sqliteVersion` -/
def sqliteVersion (path : TelemetryPath) : Fragile TelemetryDisk ℕ := do
  openDatabase path
  attempt
  inspect fun disk => ((disk path).map (·.userVersion)).getD 0

/-- The number of core migrations. -/
def coreSchemaVersion : ℕ := 37

/-- `CATALOG_INDEX_SCHEMA_VERSION` -/
def catalogIndexSchemaVersion : ℕ := 4

/-- What a start finds out about the other databases and the marker. -/
structure OtherDatabases where
  core : ℕ
  catalog : ℕ
  markerMatches : Bool

/-- Bring the databases of an active marker to the supported schemas. What happens to the other
databases, the backups and the lock can fail but leaves the telemetry files alone. -/
def upgradeActivatedDatabases (others : OtherDatabases) : Fragile TelemetryDisk Unit := do
  attempt
  let telemetry ← sqliteVersion .database
  attempt
  if coreSchemaVersion < others.core ∨ telemetrySchemaVersion < telemetry ∨
      catalogIndexSchemaVersion < others.catalog then fail
  else if others.core = coreSchemaVersion ∧ telemetry = telemetrySchemaVersion ∧
      others.catalog = catalogIndexSchemaVersion then
    if others.markerMatches then
      let _ ← sqliteVersion .database
      checkSchema .database
    else attempt
  else
    tryCatch
      (do
        attempt
        openDatabase .database
        attempt
        openTelemetryDatabase
        attempt
        let _ ← sqliteVersion .database
        checkSchema .database
        attempt)
      (attempt >>= fun _ => fail)

/-- The ways to start. -/
inductive Entry where
  | openTelemetry
  | ensurePersistence (others : OtherDatabases)

/-- What a start runs. -/
def Entry.program : Entry → Fragile TelemetryDisk Unit
  | .openTelemetry => openTelemetryDatabase
  | .ensurePersistence others => upgradeActivatedDatabases others

end TelemetryCompaction

end HomelabInventory
