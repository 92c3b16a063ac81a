import HomelabInventory.TelemetryCompaction
import Mathlib.Tactic.Linarith

/-!
# The rows that compaction preserves

A start that is interrupted at any point leaves all preserved rows in the database, or in the
rollback file while there is no database, and the next start goes on from there. One start does
not: the one that looks at the schema of the database before it has been restored from the
rollback file creates an empty one, and the rollback file is removed later on.
-/

namespace HomelabInventory

open Option

/-! ## Inserting rows -/

section Rows

variable {rows : List TableRow} {hostItemId : ℤ}

/-- The complete reports of a host. -/
def completeReports (rows : List TableRow) (hostItemId : ℤ) : List TableRow :=
  rows.filter fun row => row.hostItemId == hostItemId && row.complete

/-- No host has more than five complete reports. -/
def Retained (rows : List TableRow) : Prop := ∀ hostItemId, (completeReports rows hostItemId).length ≤ 5

theorem completeReports_append (rows rows' : List TableRow) (hostItemId : ℤ) :
    completeReports (rows ++ rows') hostItemId =
      completeReports rows hostItemId ++ completeReports rows' hostItemId :=
  List.filter_append ..

theorem Retained.of_sublist {rows' : List TableRow} (h : Retained rows)
    (hsublist : rows'.Sublist rows) : Retained rows' :=
  fun hostItemId => ((hsublist.filter _).length_le).trans (h hostItemId)

/-- Dropping the ids of all but the first few elements leaves no more than these. -/
theorem length_filter_not_mem_drop (l : List TableRow) (n : ℕ) :
    (l.filter fun row => !((l.drop n).map (·.id)).contains row.id).length ≤ n := by
  have hdropped : (l.drop n).filter (fun row => !((l.drop n).map (·.id)).contains row.id) = [] := by
    rw [List.filter_eq_nil_iff]
    intro row hrow
    have hid : row.id ∈ (l.drop n).map (·.id) := List.mem_map_of_mem hrow
    simpa using hid
  have hsplit := congrArg
    (List.filter fun row => !((l.drop n).map (·.id)).contains row.id) (List.take_append_drop n l)
  rw [List.filter_append, hdropped, List.append_nil] at hsplit
  rw [← hsplit]
  exact (List.length_filter_le _ _).trans (List.length_take_le _ _)

/-- The trigger leaves at most five complete reports of the host. -/
theorem length_completeReports_retainFive : (completeReports
    (retainFiveCompleteManualInventoryReports hostItemId rows) hostItemId).length ≤ 5 := by
  have hkept : completeReports (retainFiveCompleteManualInventoryReports hostItemId rows) hostItemId =
      (completeReports rows hostItemId).filter fun row =>
        !(((sortBy compareReports (completeReports rows hostItemId)).drop 5).map (·.id)).contains
          row.id := by
    rw [completeReports, retainFiveCompleteManualInventoryReports, List.filter_filter,
      completeReports, List.filter_filter]
    exact List.filter_congr fun row _ => Bool.and_comm _ _
  have hsorted := perm_sortBy compareReports (completeReports rows hostItemId)
  rw [hkept, ← (hsorted.filter _).length_eq]
  exact length_filter_not_mem_drop _ 5

/-- Inserting a report keeps at most five complete ones of every host. -/
theorem Retained.insertRow (h : Retained rows) (row : TableRow) :
    Retained (HomelabInventory.insertRow .manualInventoryReports rows row) := by
  have hothers : ∀ hostItemId, (row.hostItemId == hostItemId && row.complete) = false →
      completeReports (rows ++ [row]) hostItemId = completeReports rows hostItemId := by
    intro hostItemId hrow
    rw [completeReports_append, completeReports, completeReports, List.filter_singleton, hrow]
    exact List.append_nil _
  intro hostItemId
  rw [HomelabInventory.insertRow]
  split
  · by_cases hhost : row.hostItemId = hostItemId
    · rw [hhost]
      exact length_completeReports_retainFive
    · have hsublist : (retainFiveCompleteManualInventoryReports row.hostItemId (rows ++ [row])).Sublist
          (rows ++ [row]) := List.filter_sublist
      refine (hsublist.filter _).length_le.trans ?_
      have hrow := hothers hostItemId (by simp [hhost])
      rw [completeReports] at hrow
      rw [hrow]
      exact h hostItemId
  · rename_i hrow
    rw [hothers hostItemId]
    · exact h hostItemId
    · have hincomplete : row.complete = false := by simpa using hrow
      rw [hincomplete, Bool.and_false]

/-- The contents of a table of reports: rows have been inserted, with the trigger of the table,
and deleted. -/
inductive RecordedReports : List TableRow → Prop
  | empty : RecordedReports []
  | insert {rows : List TableRow} (h : RecordedReports rows) (row : TableRow) :
    RecordedReports (insertRow .manualInventoryReports rows row)
  | delete {rows : List TableRow} (h : RecordedReports rows) (keep : TableRow → Bool) :
    RecordedReports (rows.filter keep)

/-- A table of reports never has more than five complete ones of a host. -/
theorem RecordedReports.retained (h : RecordedReports rows) : Retained rows := by
  induction h with
  | empty => exact fun _ => Nat.zero_le _
  | insert _ row ih => exact ih.insertRow row
  | delete _ keep ih => exact ih.of_sublist List.filter_sublist

/-- The trigger removes nothing from a table that has few complete reports of every host. -/
theorem insertRow_of_retained {table : PreservedTable} {row : TableRow}
    (h : table = .manualInventoryReports → Retained (rows ++ [row])) :
    insertRow table rows row = rows ++ [row] := by
  rw [insertRow]
  split
  · rename_i htable
    have hfew : (sortBy compareReports
        (completeReports (rows ++ [row]) row.hostItemId)).drop 5 = [] := by
      rw [List.drop_eq_nil_iff, length_sortBy]
      exact h htable.1 row.hostItemId
    rw [completeReports] at hfew
    rw [retainFiveCompleteManualInventoryReports, hfew]
    simp
  · rfl

/-- Copying the rows of a table into an empty one copies all of them. -/
theorem foldl_insertRow {table : PreservedTable} {copied : List TableRow}
    (h : table = .manualInventoryReports → Retained (copied ++ rows)) :
    rows.foldl (insertRow table) copied = copied ++ rows := by
  induction rows generalizing copied with
  | nil => rw [List.foldl_nil, List.append_nil]
  | cons row rows ih =>
    have hrow : table = .manualInventoryReports → Retained (copied ++ [row]) := by
      intro htable
      refine (h htable).of_sublist ?_
      exact List.Sublist.append_left (List.singleton_sublist.mpr List.mem_cons_self) _
    rw [List.foldl_cons, insertRow_of_retained hrow, ih]
    · rw [List.append_assoc, List.singleton_append]
    · rw [List.append_assoc, List.singleton_append]
      exact h

end Rows

namespace TelemetryCompaction

open Fragile List

/-! ## Where the rows are -/

/-- A file has the rows of all preserved tables of the original database. -/
def Holds (original file : TelemetryFile) : Prop :=
  ∀ table rows, original.tables table = some rows → file.tables table = some rows

/-- The database has the rows, and a property. -/
def Active (original : TelemetryFile) (p : TelemetryFile → Prop) (disk : TelemetryDisk) : Prop :=
  ∃ file, disk .database = some file ∧ Holds original file ∧ p file

/-- The database has the rows, or there is none and the rollback file has them. -/
def Safe (original : TelemetryFile) (disk : TelemetryDisk) : Prop :=
  match disk .database with
  | some file => Holds original file
  | none => ∃ file, disk .rollback = some file ∧ Holds original file

section Preservation

variable {original : TelemetryFile} {p : TelemetryFile → Prop}

variable {disk : TelemetryDisk}

theorem Active.safe (h : Active original p disk) : Safe original disk := by
  obtain ⟨file, hfile, hholds, -⟩ := h
  rw [Safe, hfile]
  exact hholds

/-- The other files do not matter while the database has the rows. -/
theorem Active.update (h : Active original p disk) {path : TelemetryPath} (hpath : path ≠ .database)
    (content : Option TelemetryFile) : Active original p (Function.update disk path content) := by
  obtain ⟨file, hfile, hrest⟩ := h
  exact ⟨file, by rw [Function.update_of_ne hpath.symm, hfile], hrest⟩

variable {q : TelemetryFile → Prop}

theorem Active.imp (h : Active original p disk) (hpq : ∀ file, p file → q file) :
    Active original q disk := by
  obtain ⟨file, hfile, hholds, hp⟩ := h
  exact ⟨file, hfile, hholds, hpq file hp⟩

/-! ## Steps that leave the rows where they are -/

theorem attempt_active : Triple (Active original p) attempt (fun _ => Active original p)
    (Safe original) (Safe original) :=
  .attempt (fun _ h => h.safe) fun _ h => h.safe

theorem remove_active {path : TelemetryPath} (hpath : path ≠ .database) :
    Triple (Active original p) (remove path) (fun _ => Active original p)
      (Safe original) (Safe original) :=
  .write (fun _ h => h.update hpath none) (fun _ h => h.safe) fun _ h => h.safe

theorem openDatabase_active : Triple (Active original p) (openDatabase .database)
    (fun _ => Active original p) (Safe original) (Safe original) := by
  refine .write ?_ (fun _ h => h.safe) fun _ h => h.safe
  rintro disk ⟨file, hfile, hrest⟩
  exact ⟨file, by rw [Function.update_self, hfile]; rfl, hrest⟩

theorem checkSchema_active : Triple (Active original p) (checkSchema .database)
    (fun _ => Active original fun file => p file ∧ file.userVersion = telemetrySchemaVersion)
    (Safe original) (Safe original) := by
  refine attempt_active.bind fun _ => ?_
  refine Triple.bind (R := fun version disk => Active original p disk ∧
    version = (disk .database).map (·.userVersion)) (.inspect fun disk h => ⟨h, rfl⟩) ?_
  intro version
  split
  · exact .fail fun _ h => h.1.safe
  · rename_i hversion
    refine .pure ?_
    rintro disk ⟨⟨file, hfile, hholds, hp⟩, rfl⟩
    rw [not_not, hfile, map_some, some.injEq] at hversion
    exact ⟨file, hfile, hholds, hp, hversion⟩

/-- After a rollback file has been restored the database has the rows. -/
theorem restoreRollback_safe : Triple (Safe original) restoreRollback
    (fun _ => Active original fun _ => True) (Safe original) (Safe original) := by
  refine Triple.bind (R := fun missing disk => Safe original disk ∧
    missing = ((disk .database).isNone && (disk .rollback).isSome)) (.inspect fun _ h => ⟨h, rfl⟩) ?_
  intro missing
  cases missing with
  | true =>
    refine .rename ?_ (fun _ h => h.1) fun _ h => h.1
    rintro disk content ⟨hsafe, hmissing⟩ hcontent
    have hnone : disk .database = none := by
      rw [← isNone_iff_eq_none]
      exact (Bool.and_eq_true_iff.mp hmissing.symm).1
    rw [Safe, hnone] at hsafe
    obtain ⟨file, hfile, hholds⟩ := hsafe
    obtain rfl := some.inj (hcontent.symm.trans hfile)
    exact ⟨content, by simp, hholds, trivial⟩
  | false =>
    refine .pure ?_
    rintro disk ⟨hsafe, hmissing⟩
    rw [Safe] at hsafe
    cases hdatabase : disk .database with
    | some file =>
      rw [hdatabase] at hsafe
      exact ⟨file, hdatabase, hsafe, trivial⟩
    | none =>
      rw [hdatabase] at hsafe
      obtain ⟨file, hfile, -⟩ := hsafe
      rw [hdatabase, hfile] at hmissing
      cases hmissing

/-! ## The new file -/

/-- The database has the rows, and the new file has some contents. -/
def Preparing (original : TelemetryFile) (q : TelemetryFile → Prop) (disk : TelemetryDisk) : Prop :=
  (Active original fun _ => True) disk ∧ ∃ file, disk .target = some file ∧ q file

theorem Preparing.safe (h : Preparing original q disk) : Safe original disk := h.1.safe

/-- Writing the new file. -/
theorem writeTarget_preparing {P : TelemetryDisk → Prop} {file : TelemetryFile}
    (hP : ∀ disk, P disk → (Active original fun _ => True) disk) (hfile : q file) :
    Triple P (writeFile .target file) (fun _ => Preparing original q)
      (Safe original) (Safe original) := by
  refine .write ?_ (fun disk h => (hP disk h).safe) fun disk h => (hP disk h).safe
  intro disk h
  exact ⟨(hP disk h).update (by decide) _, file, Function.update_self .., hfile⟩

/-- A step of the schema of the new file. -/
theorem applyMigration_preparing {migration : TelemetryMigration} {file : TelemetryFile} :
    Triple (Preparing original (· = file)) (applyMigration .target migration)
      (fun _ => Preparing original (· =
        { userVersion := migration.version
          tables := fun table => if table ∈ migration.creates then some [] else file.tables table }))
      (Safe original) (Safe original) := by
  refine Triple.bind (R := fun target disk => Preparing original (· = file) disk ∧
    target = disk .target) (.inspect fun _ h => ⟨h, rfl⟩) ?_
  rintro (_ | target)
  · exact .fail fun _ h => h.1.safe
  dsimp only
  split
  · exact .fail fun _ h => h.1.safe
  · refine .of_forall ?_
    rintro disk ⟨hpreparing, htarget⟩
    obtain ⟨hactive, target', htarget', rfl⟩ := hpreparing
    obtain rfl := some.inj (htarget.trans htarget')
    refine writeTarget_preparing ?_ rfl
    rintro disk' rfl
    exact hactive

/-- The new file gets the supported schema and has no rows. -/
theorem migrateTarget_preparing :
    Triple (Preparing original (· = {})) (migrateTelemetrySchema .target)
      (fun _ => Preparing original fun file => file.userVersion = telemetrySchemaVersion ∧
        ∀ table, file.tables table = some [])
      (Safe original) (Safe original) := by
  refine Triple.bind (R := fun target disk => Preparing original (· = {}) disk ∧
    target = disk .target) (.inspect fun _ h => ⟨h, rfl⟩) ?_
  rintro (_ | target)
  · exact .fail fun _ h => h.1.safe
  refine .of_forall ?_
  rintro disk ⟨hpreparing, htarget⟩
  obtain ⟨hactive, target', htarget', rfl⟩ := hpreparing
  obtain rfl := some.inj (htarget.trans htarget')
  -- an empty file takes all steps of the schema
  have hstart : ∀ disk', disk' = disk → Preparing original (· = {}) disk' := by
    rintro disk' rfl
    exact ⟨hactive, _, htarget', rfl⟩
  refine Triple.imp (P := Preparing original (· = {})) (Q := fun _ => Preparing original (· =
    { userVersion := 3, tables := fun _ => some [] })) ?_ hstart ?_ (fun _ h => h) fun _ h => h
  · refine applyMigration_preparing.bind fun _ => ?_
    refine applyMigration_preparing.bind fun _ => ?_
    refine applyMigration_preparing.bind fun _ => .pure ?_
    rintro disk' ⟨hactive', file, hfile, rfl⟩
    refine ⟨hactive', _, hfile, ?_⟩
    refine congrArg (TelemetryFile.mk 3) (funext fun table => ?_)
    cases table <;> rfl
  · rintro _ disk' ⟨hactive', file, hfile, rfl⟩
    exact ⟨hactive', _, hfile, rfl, fun _ => rfl⟩

/-- The new file after some tables have been copied. -/
def Copied (original : TelemetryFile) (copied : List PreservedTable) (file : TelemetryFile) : Prop :=
  file.userVersion = telemetrySchemaVersion ∧
    (∀ table ∈ copied, ∀ rows, original.tables table = some rows → file.tables table = some rows) ∧
    ∀ table, table ∉ copied → file.tables table = some []

/-- The reports of the original file are few enough for their trigger. -/
def RetainsReports (original : TelemetryFile) : Prop :=
  ∀ rows, original.tables .manualInventoryReports = some rows → Retained rows

/-- Copying a table copies its rows. -/
theorem copyTable_preparing (hretained : RetainsReports original)
    {copied : List PreservedTable} {table : PreservedTable} (hnew : table ∉ copied) :
    Triple (Preparing original (Copied original copied)) (copyTable table)
      (fun _ => Preparing original (Copied original (copied ++ [table])))
      (Safe original) (Safe original) := by
  refine Triple.bind (R := fun files disk => Preparing original (Copied original copied) disk ∧
    files = (disk .database, disk .target)) (.inspect fun _ h => ⟨h, rfl⟩) ?_
  intro files
  refine .of_forall ?_
  rintro disk ⟨⟨⟨legacy, hlegacy, hholds, -⟩, target, htarget, hversion, hdone, hrest⟩, rfl⟩
  have hactive : ∀ disk', disk' = disk → Active original (fun _ => True) disk' := by
    rintro disk' rfl
    exact ⟨legacy, hlegacy, hholds, trivial⟩
  rw [hlegacy, htarget]
  dsimp only
  cases hrows : legacy.tables table with
  | none =>
    -- the original database does not have the table either
    refine .pure ?_
    rintro disk' rfl
    refine ⟨hactive _ rfl, target, htarget, hversion, ?_, ?_⟩
    · intro other hother rows horiginal
      obtain hother | hother := mem_append.mp hother
      · exact hdone other hother rows horiginal
      · obtain rfl := mem_singleton.mp hother
        rw [hholds _ rows horiginal] at hrows
        cases hrows
    · exact fun other hother => hrest other fun h => hother (mem_append_left _ h)
  | some rows =>
    rw [hrest table hnew]
    refine writeTarget_preparing hactive ⟨hversion, ?_, ?_⟩
    · intro other hother rows' horiginal
      obtain hmem | hmem := mem_append.mp hother
      · have hne : other ≠ table := fun h => hnew (h ▸ hmem)
        dsimp only
        rw [Function.update_of_ne hne]
        exact hdone other hmem rows' horiginal
      · obtain rfl := mem_singleton.mp hmem
        obtain rfl := some.inj (hrows.symm.trans (hholds _ rows' horiginal))
        dsimp only
        rw [Function.update_self, foldl_insertRow, nil_append]
        rintro rfl
        exact hretained rows horiginal
    · intro other hother
      have hne : other ≠ table := by
        rintro rfl
        exact hother (mem_append_right _ (mem_singleton_self _))
      dsimp only
      rw [Function.update_of_ne hne]
      exact hrest other fun h => hother (mem_append_left _ h)

/-- The new file has the rows when it is finished. -/
theorem prepareTarget_active (hretained : RetainsReports original) :
    Triple (fun disk => Active original (fun _ => True) disk ∧ disk .target = none) prepareTarget
      (fun _ => Preparing original fun file => Holds original file ∧
        file.userVersion = telemetrySchemaVersion) (Safe original) (Safe original) := by
  refine Triple.bind (R := fun _ => Preparing original (· = {})) (.write ?_ (fun _ h => h.1.safe)
    fun _ h => h.1.safe) fun _ => ?_
  · rintro disk ⟨hactive, htarget⟩
    refine ⟨hactive.update (by decide) _, {}, ?_, rfl⟩
    rw [Function.update_self, htarget]
    rfl
  refine migrateTarget_preparing.bind fun _ => ?_
  have hcopy : Triple (Preparing original (Copied original [])) (preservedTables.forM copyTable)
      (fun _ => Preparing original (Copied original preservedTables)) (Safe original)
      (Safe original) := by
    refine Triple.forM (I := fun copied => Preparing original (Copied original copied)) ?_
    intro copied table rest hsplit
    refine copyTable_preparing hretained ?_
    have hnodup : preservedTables.Nodup := by decide
    rw [hsplit] at hnodup
    exact fun hmem => (nodup_append.mp hnodup).2.2 table hmem table List.mem_cons_self rfl
  refine Triple.bind (R := fun _ => Preparing original (Copied original preservedTables))
    (hcopy.imp ?_ (fun _ _ h => h) (fun _ h => h) fun _ h => h) fun _ => ?_
  · rintro disk ⟨hactive, file, hfile, hversion, htables⟩
    exact ⟨hactive, file, hfile, hversion, by simp, fun table _ => htables table⟩
  -- all preserved tables have been copied
  have hall : ∀ table, table ∈ preservedTables := by
    intro table
    cases table <;> decide
  have hdone : ∀ disk, Preparing original (Copied original preservedTables) disk →
      Preparing original (fun file => Holds original file ∧
        file.userVersion = telemetrySchemaVersion) disk := by
    rintro disk ⟨hactive, file, hfile, hversion, hcopied, -⟩
    exact ⟨hactive, file, hfile, fun table rows => hcopied table (hall table) rows, hversion⟩
  refine Triple.bind (R := fun _ => Preparing original (Copied original preservedTables))
    (.attempt (fun _ h => h.safe) fun _ h => h.safe) fun _ => ?_
  refine Triple.bind (R := fun _ => Preparing original (Copied original preservedTables))
    (.inspect fun _ h => h) fun version => ?_
  split
  · exact .fail fun _ h => h.safe
  · exact .pure hdone

/-! ## Opening the database -/

/-- Putting the new file in place keeps the rows at every moment. -/
theorem activateTarget_active : Triple
    (Preparing original fun file => Holds original file ∧ file.userVersion = telemetrySchemaVersion)
    activateTarget (fun _ => Active original fun file => file.userVersion = telemetrySchemaVersion)
    (Safe original) (Safe original) := by
  let finished := Preparing original fun file =>
    Holds original file ∧ file.userVersion = telemetrySchemaVersion
  refine Triple.bind (R := fun _ => finished) (.attempt (fun _ h => h.safe) fun _ h => h.safe)
    fun _ => ?_
  refine Triple.bind (R := fun _ => finished) (.write ?_ (fun _ h => h.safe) fun _ h => h.safe)
    fun _ => ?_
  · rintro disk ⟨hactive, file, hfile, hrest⟩
    exact ⟨hactive.update (by decide) _, file, by rw [Function.update_of_ne (by decide), hfile], hrest⟩
  -- between the two renames the rollback file has the rows
  refine Triple.bind (R := fun _ disk => disk .database = none ∧
    (∃ file, disk .rollback = some file ∧ Holds original file) ∧
    ∃ file, disk .target = some file ∧ Holds original file ∧
      file.userVersion = telemetrySchemaVersion) (.rename ?_ (fun _ h => h.safe) fun _ h => h.safe)
    fun _ => ?_
  · rintro disk content ⟨⟨source, hsource, hholds, -⟩, file, hfile, hrest⟩ hcontent
    obtain rfl := some.inj (hcontent.symm.trans hsource)
    exact ⟨by simp, ⟨content, by simp, hholds⟩, file, by simpa using hfile, hrest⟩
  have hsafe : ∀ disk : TelemetryDisk, (disk .database = none ∧
      (∃ file, disk .rollback = some file ∧ Holds original file) ∧
      ∃ file, disk .target = some file ∧ Holds original file ∧
        file.userVersion = telemetrySchemaVersion) → Safe original disk := by
    rintro disk ⟨hnone, hrollback, -⟩
    rw [Safe, hnone]
    exact hrollback
  refine Triple.bind (R := fun _ => Active original fun file =>
    file.userVersion = telemetrySchemaVersion) (.rename ?_ hsafe hsafe) fun _ => ?_
  · rintro disk content ⟨-, -, file, hfile, hrest⟩ hcontent
    obtain rfl := some.inj (hcontent.symm.trans hfile)
    exact ⟨content, by simp, hrest⟩
  refine checkSchema_active.bind fun _ => ?_
  refine (remove_active (by decide)).bind fun _ => ?_
  exact attempt_active.imp (fun _ h => h.imp fun _ h => h.1) (fun _ _ h => h) (fun _ h => h)
    fun _ h => h

/-- The compaction ends with a database that has the rows in the supported schema, or in a newer
one. -/
theorem compact_active (hretained : RetainsReports original) :
    Triple (Safe original) compactTelemetryDatabaseIfNeeded
      (fun _ => Active original fun file => telemetrySchemaVersion ≤ file.userVersion)
      (Safe original) (Safe original) := by
  refine restoreRollback_safe.bind fun _ => ?_
  refine Triple.bind (R := fun source disk => Active original (fun _ => True) disk ∧
    source = disk .database) (.inspect fun _ h => ⟨h, rfl⟩) fun source => ?_
  cases source with
  | none =>
    refine .pure ?_
    rintro disk ⟨⟨file, hfile, -⟩, hnone⟩
    rw [hfile] at hnone
    cases hnone
  | some source =>
    have hstart : ∀ disk, (Active original (fun _ => True) disk ∧ some source = disk .database) →
        Active original (· = source) disk := by
      rintro disk ⟨⟨file, hfile, hholds, -⟩, hsource⟩
      exact ⟨file, hfile, hholds, some.inj (hfile.symm.trans hsource.symm)⟩
    refine Triple.imp (P := Active original (· = source)) ?_ hstart (fun _ _ h => h) (fun _ h => h)
      fun _ h => h
    refine attempt_active.bind fun _ => ?_
    split
    · rename_i hversion
      refine (remove_active (by decide)).bind fun _ => ?_
      refine (remove_active (by decide)).bind fun _ => ?_
      refine attempt_active.imp (fun _ h => h) ?_ (fun _ h => h) fun _ h => h
      rintro _ disk h
      refine h.imp ?_
      rintro file rfl
      exact hversion
    · refine attempt_active.bind fun _ => ?_
      refine Triple.bind (R := fun _ disk => Active original (fun _ => True) disk ∧
        disk .target = none) (.write ?_ (fun _ h => h.safe) fun _ h => h.safe) fun _ => ?_
      · intro disk h
        exact ⟨(h.imp fun _ _ => trivial).update (by decide) _, Function.update_self ..⟩
      -- a failure puts the old database back
      refine Triple.tryCatch (F := Safe original) ?_ ?_
      · refine (prepareTarget_active hretained).bind fun _ => ?_
        exact activateTarget_active.imp (fun _ h => h)
          (fun _ _ h => h.imp fun _ hversion => hversion.ge) (fun _ h => h) fun _ h => h
      · refine restoreRollback_safe.bind fun _ => ?_
        refine (remove_active (by decide)).bind fun _ => ?_
        exact .fail fun _ h => h.safe

/-- A database that is not older than the supported schema is left alone. -/
theorem migrateDatabase_active :
    Triple (Active original fun file => telemetrySchemaVersion ≤ file.userVersion)
      (migrateTelemetrySchema .database)
      (fun _ => Active original fun file => file.userVersion = telemetrySchemaVersion)
      (Safe original) (Safe original) := by
  refine Triple.bind (R := fun file disk =>
    Active original (fun file => telemetrySchemaVersion ≤ file.userVersion) disk ∧
      file = disk .database) (.inspect fun _ h => ⟨h, rfl⟩) ?_
  rintro (_ | file)
  · exact .fail fun _ h => h.1.safe
  dsimp only
  split
  · exact .fail fun _ h => h.1.safe
  rename_i hnewer
  have hstart : ∀ disk, (Active original (fun file => telemetrySchemaVersion ≤ file.userVersion) disk ∧
      some file = disk .database) →
      Active original (fun file => file.userVersion = telemetrySchemaVersion) disk ∧
        file.userVersion = telemetrySchemaVersion := by
    rintro disk ⟨⟨file', hfile, hholds, hversion⟩, hsame⟩
    obtain rfl := some.inj (hfile.symm.trans hsame.symm)
    have heq := Nat.le_antisymm (not_lt.mp hnewer) hversion
    exact ⟨⟨_, hfile, hholds, heq⟩, heq⟩
  refine .of_forall fun disk h => ?_
  obtain ⟨hactive, hversion⟩ := hstart disk h
  have hskip : ∀ migration ∈ telemetryMigrations, migration.version ≤ file.userVersion := by
    rw [hversion]
    decide
  refine Triple.imp (P := Active original fun file => file.userVersion = telemetrySchemaVersion)
    (Triple.forM (I := fun _ => Active original fun file =>
      file.userVersion = telemetrySchemaVersion) ?_) ?_ (fun _ _ h => h) (fun _ h => h) fun _ h => h
  · intro done migration rest hsplit
    have hmem : migration ∈ telemetryMigrations := by
      rw [hsplit]
      exact mem_append_right _ List.mem_cons_self
    rw [if_pos (hskip migration hmem)]
    exact .pure fun _ h => h
  · rintro disk' rfl
    exact hactive

/-- Opening the database ends with the supported schema and the rows. -/
theorem openTelemetryDatabase_active (hretained : RetainsReports original) :
    Triple (Safe original) openTelemetryDatabase
      (fun _ => Active original fun file => file.userVersion = telemetrySchemaVersion)
      (Safe original) (Safe original) := by
  refine Triple.bind (.attempt (fun _ h => h) fun _ h => h) fun _ => ?_
  refine (compact_active hretained).bind fun _ => ?_
  refine openDatabase_active.bind fun _ => ?_
  refine attempt_active.bind fun _ => ?_
  exact migrateDatabase_active.bind fun _ => attempt_active

/-! ## Starting the server -/

/-- Looking at the schema of the database, which exists. -/
theorem sqliteVersion_active : Triple (Active original p) (sqliteVersion .database)
    (fun version => Active original fun file => p file ∧ file.userVersion = version)
    (Safe original) (Safe original) := by
  refine openDatabase_active.bind fun _ => ?_
  refine attempt_active.bind fun _ => .inspect ?_
  rintro disk ⟨file, hfile, hholds, hp⟩
  refine ⟨file, hfile, hholds, hp, ?_⟩
  rw [hfile]
  rfl

/-- A start that finds the database ends with the supported schema and the rows. -/
theorem upgradeActivatedDatabases_active (hretained : RetainsReports original)
    (others : OtherDatabases) :
    Triple (Active original fun _ => True) (upgradeActivatedDatabases others)
      (fun _ => Active original fun file => file.userVersion = telemetrySchemaVersion)
      (Safe original) (Safe original) := by
  refine attempt_active.bind fun _ => ?_
  refine sqliteVersion_active.bind fun version => ?_
  refine attempt_active.bind fun _ => ?_
  split
  · exact .fail fun _ h => h.safe
  split
  · rename_i hcurrent
    split
    · refine sqliteVersion_active.bind fun _ => ?_
      exact checkSchema_active.imp (fun _ h => h) (fun _ _ h => h.imp fun _ h => h.2) (fun _ h => h)
        fun _ h => h
    · refine attempt_active.imp (fun _ h => h) ?_ (fun _ h => h) fun _ h => h
      exact fun _ _ h => h.imp fun _ h => h.2.trans hcurrent.2.1
  · refine Triple.tryCatch (F := Safe original) ?_ ?_
    · refine attempt_active.bind fun _ => ?_
      refine openDatabase_active.bind fun _ => ?_
      refine attempt_active.bind fun _ => ?_
      refine Triple.bind ((openTelemetryDatabase_active hretained).imp (fun _ h => h.safe)
        (fun _ _ h => h) (fun _ h => h) fun _ h => h) fun _ => ?_
      refine attempt_active.bind fun _ => ?_
      refine sqliteVersion_active.bind fun _ => ?_
      refine checkSchema_active.bind fun _ => ?_
      exact attempt_active.imp (fun _ h => h.imp fun _ h => h.2) (fun _ _ h => h) (fun _ h => h)
        fun _ h => h
    · exact Triple.bind (.attempt (fun _ h => h) fun _ h => h) fun _ => .fail fun _ h => h

end Preservation

/-! ## Runs -/

/-- A start with a marker does not find the rollback file without a database: it would look at the
version of the schema first, and create an empty database by that. -/
def Entry.Allowed (entry : Entry) (disk : TelemetryDisk) : Prop :=
  match entry with
  | .openTelemetry => True
  | .ensurePersistence _ => disk .database = none → disk .rollback = none

/-- Every start that is allowed keeps the rows, and ends with the supported schema. -/
theorem entry_active {original : TelemetryFile} (hretained : RetainsReports original) (entry : Entry) :
    Triple (fun disk => Safe original disk ∧ entry.Allowed disk) entry.program
      (fun _ => Active original fun file => file.userVersion = telemetrySchemaVersion)
      (Safe original) (Safe original) := by
  cases entry with
  | openTelemetry =>
    exact (openTelemetryDatabase_active hretained).imp (fun _ h => h.1) (fun _ _ h => h)
      (fun _ h => h) fun _ h => h
  | ensurePersistence others =>
    refine (upgradeActivatedDatabases_active hretained others).imp ?_ (fun _ _ h => h)
      (fun _ h => h) fun _ h => h
    rintro disk ⟨hsafe, hallowed⟩
    rw [Safe] at hsafe
    cases hdatabase : disk .database with
    | some file =>
      rw [hdatabase] at hsafe
      exact ⟨file, hdatabase, hsafe, trivial⟩
    | none =>
      rw [hdatabase] at hsafe
      obtain ⟨file, hfile, -⟩ := hsafe
      rw [hallowed hdatabase] at hfile
      cases hfile

/-- **Compaction survives crashes.** While no start that looks at the schemas first finds the
rollback file without a database, whatever crashes and fails, and however often the server is
restarted, the database has the rows, or the rollback file has them while there is no database; and
a start that completes ends with the rows in the supported schema. -/
theorem rows_survive (original : TelemetryFile)
    (hreports : ∀ rows, original.tables .manualInventoryReports = some rows → RecordedReports rows) :
    ∀ disk, Restarts Entry.program Entry.Allowed (fun disk => disk .database = some original) disk →
      Safe original disk ∧
        ∀ entry : Entry, entry.Allowed disk → ∀ final, (.returned (), final) ∈ entry.program disk →
          ∃ file, final .database = some file ∧ Holds original file ∧
            file.userVersion = telemetrySchemaVersion := by
  have hretained : RetainsReports original :=
    fun rows hrows => (hreports rows hrows).retained
  intro disk h
  have hsafe : Safe original disk := by
    refine Restarts.invariant ?_ ?_ h
    · intro start hstart
      rw [Safe, hstart]
      exact fun _ _ h => h
    · intro entry
      exact (entry_active hretained entry).imp (fun _ h => h) (fun _ _ h => h.safe) (fun _ h => h)
        fun _ h => h
  refine ⟨hsafe, ?_⟩
  intro entry hallowed final hfinal
  exact entry_active hretained entry disk ⟨hsafe, hallowed⟩ _ final hfinal

/-- A database of the older schema with one report. -/
def olderDatabase : TelemetryFile where
  userVersion := 2
  tables table :=
    if table = .manualInventoryReports then some [{ id := 1, hostItemId := 1, complete := true }]
    else some []

/-- The files before the first start. -/
def olderDisk : TelemetryDisk := Function.update (fun _ => none) .database (some olderDatabase)

theorem recordedReports_olderDatabase : ∀ rows,
    olderDatabase.tables .manualInventoryReports = some rows → RecordedReports rows := by
  rintro rows h
  obtain rfl := some.inj h
  exact .insert .empty { id := 1, hostItemId := 1, complete := true }

/-- The files after a start that crashed between the two renames. -/
def interruptedDisk : TelemetryDisk :=
  (((openTelemetryDatabase olderDisk)[60]?).getD (.failed, olderDisk)).2

theorem restarts_interruptedDisk (allowed : Entry → TelemetryDisk → Prop)
    (hallowed : allowed .openTelemetry olderDisk) :
    Restarts Entry.program allowed (fun disk => disk .database = some olderDatabase)
      interruptedDisk := by
  have hcrashed : (.crashed, interruptedDisk) ∈ Entry.openTelemetry.program olderDisk :=
    mem_of_getElem? (i := 60) rfl
  exact .run (.start (Function.update_self ..)) hallowed hcrashed

/-- The files after the next start, one that opens the database. -/
def reopenedDisk : TelemetryDisk :=
  (((openTelemetryDatabase interruptedDisk)[86]?).getD (.failed, olderDisk)).2

/-- A start crashes between the two renames: there is no database and the rollback file has the
report. The next start opens the database and completes with the report in the supported schema. -/
theorem rows_survive_olderDatabase :
    interruptedDisk .database = none ∧ Safe olderDatabase interruptedDisk ∧
      (.returned (), reopenedDisk) ∈ Entry.openTelemetry.program interruptedDisk ∧
      ∃ file, reopenedDisk .database = some file ∧ Holds olderDatabase file ∧
        file.userVersion = telemetrySchemaVersion := by
  have hreopened : (.returned (), reopenedDisk) ∈ Entry.openTelemetry.program interruptedDisk :=
    mem_of_getElem? (i := 86) rfl
  obtain ⟨hsafe, hcompleted⟩ := rows_survive olderDatabase recordedReports_olderDatabase
    interruptedDisk
    (restarts_interruptedDisk Entry.Allowed trivial)
  exact ⟨rfl, hsafe, hreopened, hcompleted .openTelemetry trivial reopenedDisk hreopened⟩

/-- The files after the next start, one that looks at the schemas first. -/
def emptiedDisk : TelemetryDisk :=
  (((upgradeActivatedDatabases { core := 37, catalog := 4, markerMatches := true }
    interruptedDisk)[168]?).getD (.failed, olderDisk)).2

/-- A start crashes between the two renames, and the next one looks at the schemas first: it
completes with an empty database and without a rollback file. -/
theorem rows_lost :
    Restarts Entry.program (fun _ _ => True) (fun disk => disk .database = some olderDatabase)
        emptiedDisk ∧
      (emptiedDisk .database).bind (fun file => file.tables .manualInventoryReports) = some [] ∧
      emptiedDisk .rollback = none ∧ ¬Safe olderDatabase emptiedDisk := by
  have hcompleted : (.returned (), emptiedDisk) ∈ (Entry.ensurePersistence
      { core := 37, catalog := 4, markerMatches := true }).program interruptedDisk :=
    mem_of_getElem? (i := 168) rfl
  have htables : (emptiedDisk .database).bind
      (fun file => file.tables .manualInventoryReports) = some [] := rfl
  refine ⟨.run (restarts_interruptedDisk _ trivial) trivial hcompleted,
    htables, rfl, ?_⟩
  intro hsafe
  obtain ⟨file, hfile, hempty⟩ := bind_eq_some_iff.mp htables
  rw [Safe, hfile] at hsafe
  have hrows := hsafe .manualInventoryReports _ rfl
  rw [hempty] at hrows
  cases hrows

end TelemetryCompaction

end HomelabInventory
