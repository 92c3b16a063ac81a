import Mathlib.Data.List.Basic
import Mathlib.Tactic.Basic

/-!
# Committed migrations

`server/persistence/sqlite/migrator.ts`: a database is brought to the schema of the
application by a sequence of migrations, each in a transaction of its own that also records
it. What SQL does to the data is a parameter, and so is what goes wrong on the way.
-/

namespace HomelabInventory.Migrations

/-! ## The database -/

/-- A row of `schema_migrations`, as far as it is read. -/
structure AppliedMigration where
  migrationId : String
  checksum : String
  verificationStatus : String
deriving DecidableEq

/-- `foreign_keys` and `legacy_alter_table` of a connection. -/
structure Pragmas where
  foreignKeys : Bool
  legacyAlterTable : Bool
deriving DecidableEq

/-- A database: its data, the table of migrations when there is one, and `user_version`. -/
structure Database (D : Type) where
  data : D
  schemaMigrations : Option (List AppliedMigration)
  userVersion : ℕ

/-- A connection to a database. -/
structure ManagedDatabase (D : Type) where
  closed : Bool
  readonly : Bool
  database : Database D
  pragmas : Pragmas

/-- What the database and the runtime do. -/
structure Runtime (D : Type) where
  /-- `createHash('sha256')` with its digest in hexadecimal digits -/
  sha256 : String → String
  localeCompare : String → String → Ordering
  /-- `database.exec` of a text without white space at its ends -/
  exec : Pragmas → String → D → Option D
  /-- the number of rows of `PRAGMA foreign_key_check` -/
  foreignKeyViolations : D → ℕ
  /-- `PRAGMA quick_check` -/
  quickCheck : D → Bool

/-- A migration of the application. The hook may fail, and change the data. -/
structure CommittedMigration (D : Type) where
  id : String
  sql : String
  sha256 : String
  verify : Option (D → Option D)

variable {D : Type} (runtime : Runtime D)

/-! ## The sequence -/

/-- `SHA256_PATTERN` -/
def isSha256 (text : String) : Bool :=
  text.toList.length == 64 && text.toList.all fun c => c.isDigit || ('a' ≤ c && c ≤ 'f')

/-- What `assertMigrationSequence` asks of a migration, after those before it. -/
def acceptsMigration (identifiers : List String) (previous : Option String)
    (migration : CommittedMigration D) : Bool :=
  migration.id != "" && !identifiers.contains migration.id &&
    previous.all (fun previous => runtime.localeCompare migration.id previous == .gt) &&
    isSha256 migration.sha256 && runtime.sha256 migration.sql == migration.sha256

/-- `assertMigrationSequence`, from some migration on. -/
def assertMigrationsFrom (identifiers : List String) (previous : Option String) :
    List (CommittedMigration D) → Bool
  | [] => true
  | migration :: rest =>
    acceptsMigration runtime identifiers previous migration &&
      assertMigrationsFrom (migration.id :: identifiers) (some migration.id) rest

/-- `assertMigrationSequence` -/
def assertMigrationSequence (migrations : List (CommittedMigration D)) : Bool :=
  assertMigrationsFrom runtime [] none migrations

/-! ## One migration -/

/-- What becomes of an operation on the database: it is done, it fails, or the process ends
before it. -/
inductive Fate where
  | done
  | fails
  | crashes
deriving DecidableEq

/-- How a call ends. -/
inductive Outcome where
  | returned (applied currentVersion : ℕ)
  | threw
  | crashed
deriving DecidableEq

/-- `TABLE_REBUILD_DIRECTIVE` -/
def tableRebuildDirective : String := "-- homelab:transactional-table-rebuild"

/-- `requiresTableRebuild` -/
def requiresTableRebuild (migration : CommittedMigration D) : Bool :=
  tableRebuildDirective.toList.isPrefixOf migration.sql.toList

/-- The pragmas under which a migration runs. -/
def migrationPragmas (pragmas : Pragmas) (migration : CommittedMigration D) : Pragmas :=
  if requiresTableRebuild migration then ⟨false, true⟩ else pragmas

/-- What the SQL of a migration and its hook do to the data, when the result is consistent. -/
def migrateData (pragmas : Pragmas) (migration : CommittedMigration D) (data : D) : Option D := do
  let data ← runtime.exec (migrationPragmas pragmas migration) migration.sql data
  let data ← (migration.verify.getD some) data
  if runtime.foreignKeyViolations data > 0 then none
  else if !runtime.quickCheck data then none
  else some data

/-- The row that records a migration. -/
def CommittedMigration.row (migration : CommittedMigration D) : AppliedMigration :=
  ⟨migration.id, migration.sha256, "verified"⟩

/-- The transaction of a migration. -/
def migrate (pragmas : Pragmas) (index : ℕ) (migration : CommittedMigration D)
    (database : Database D) : Option (Database D) := do
  let data ← migrateData runtime pragmas migration database.data
  let rows ← database.schemaMigrations
  -- `migration_id` is unique
  if rows.any fun row => row.migrationId == migration.id then none
  else some ⟨data, some (rows ++ [migration.row]), index + 1⟩

/-- A migration is applied: the pragmas are set, and put back whatever becomes of the
transaction. -/
def applyMigration (fate : Fate) (index : ℕ) (migration : CommittedMigration D)
    (handle : ManagedDatabase D) : ManagedDatabase D × Option Outcome :=
  let rebuilds := requiresTableRebuild migration
  let previous := handle.pragmas
  let changed := { handle with pragmas := migrationPragmas previous migration }
  let restore := fun handle : ManagedDatabase D =>
    if rebuilds then { handle with pragmas := previous } else handle
  match fate with
  | .crashes => (changed, some .crashed)
  | .fails => (restore changed, some .threw)
  | .done =>
    match migrate runtime previous index migration handle.database with
    | none => (restore changed, some .threw)
    | some database =>
      let restored := restore { changed with database }
      if rebuilds && restored.pragmas.foreignKeys != previous.foreignKeys then
        (restored, some .threw)
      else (restored, none)

/-! ## All migrations -/

/-- What goes wrong in a call. -/
structure Weather where
  createLedger : Fate
  migration : ℕ → Fate
  integrity : Fate

/-- The last check of a call. -/
def finish (weather : Weather) (applied : ℕ) (handle : ManagedDatabase D) :
    ManagedDatabase D × Outcome :=
  match weather.integrity with
  | .crashes => (handle, .crashed)
  | .fails => (handle, .threw)
  | .done =>
    if runtime.quickCheck handle.database.data then
      (handle, .returned applied handle.database.userVersion)
    else (handle, .threw)

/-- The loop over the migrations, from an index on. -/
def applyFrom (weather : Weather) (rows : List AppliedMigration) (currentVersion : ℕ) :
    ℕ → ℕ → List (CommittedMigration D) → ManagedDatabase D → ManagedDatabase D × Outcome
  | _, applied, [], handle => finish runtime weather applied handle
  | index, applied, migration :: rest, handle =>
    match rows.find? fun row => row.migrationId == migration.id with
    | some recorded =>
      if recorded.checksum ≠ migration.sha256 ∨ recorded.verificationStatus ≠ "verified" then
        (handle, .threw)
      else applyFrom weather rows currentVersion (index + 1) applied rest handle
    | none =>
      if index < currentVersion then (handle, .threw)
      else
        match applyMigration runtime (weather.migration index) index migration handle with
        | (handle, some outcome) => (handle, outcome)
        | (handle, none) =>
          applyFrom weather rows currentVersion (index + 1) (applied + 1) rest handle

/-- The rows that are recorded are those of the first migrations. -/
def matchesLedger : List AppliedMigration → List (CommittedMigration D) → Bool
  | [], _ => true
  | _ :: _, [] => false
  | recorded :: rows, committed :: migrations =>
    recorded.migrationId == committed.id && recorded.checksum == committed.sha256 &&
      recorded.verificationStatus == "verified" && matchesLedger rows migrations

/-- `createMigrationLedger` -/
def createMigrationLedger (database : Database D) : Database D :=
  { database with schemaMigrations := some (database.schemaMigrations.getD []) }

/-- `applyCommittedMigrations` -/
def applyCommittedMigrations (weather : Weather) (handle : ManagedDatabase D)
    (migrations : List (CommittedMigration D)) : ManagedDatabase D × Outcome :=
  if handle.closed || handle.readonly then (handle, .threw)
  else if !assertMigrationSequence runtime migrations then (handle, .threw)
  else
    match weather.createLedger with
    | .crashes => (handle, .crashed)
    | .fails => (handle, .threw)
    | .done =>
      let handle := { handle with database := createMigrationLedger handle.database }
      let currentVersion := handle.database.userVersion
      let appliedRows := handle.database.schemaMigrations.getD []
      if currentVersion > migrations.length then (handle, .threw)
      else if appliedRows.length ≠ currentVersion then (handle, .threw)
      else if !matchesLedger appliedRows migrations then (handle, .threw)
      else applyFrom runtime weather appliedRows currentVersion 0 0 migrations handle

/-! ## Runs -/

/-- The empty database. -/
def Database.empty (data : D) : Database D := ⟨data, none, 0⟩

/-- A connection is open, with the pragmas that all connections are opened with. -/
def openManagedDatabase (pragmas : Pragmas) (database : Database D) : ManagedDatabase D :=
  ⟨false, false, database, pragmas⟩

/-- A call with migrations of its own, on the connection of the call before. After a crash
the database is opened again. -/
def callOn (pragmas : Pragmas) (handle : ManagedDatabase D)
    (call : Weather × List (CommittedMigration D)) : ManagedDatabase D :=
  match applyCommittedMigrations runtime call.1 handle call.2 with
  | (handle, .crashed) => openManagedDatabase pragmas handle.database
  | (handle, _) => handle

/-- The connection after some calls, from an empty database on. -/
def runCalls (pragmas : Pragmas) (data : D)
    (calls : List (Weather × List (CommittedMigration D))) : ManagedDatabase D :=
  calls.foldl (callOn runtime pragmas) (openManagedDatabase pragmas (Database.empty data))

/-- The data after some migrations in one go. -/
def foldData (pragmas : Pragmas) (migrations : List (CommittedMigration D)) (data : D) :
    Option D :=
  migrations.foldlM (fun data migration => migrateData runtime pragmas migration data) data

end HomelabInventory.Migrations
