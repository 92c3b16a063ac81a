import HomelabInventory.Migrations
import Mathlib.Data.List.Induction
import Mathlib.Data.List.Nodup

/-!
# Interrupted migrations

After every call, the version, the table of migrations and the data of the database tell of
the same first migrations, whatever went wrong in this call and in those before it.
-/

namespace HomelabInventory.Migrations

open List

variable {D : Type} {runtime : Runtime D}

/-! ## Valid sequences -/

theorem assertMigrationsFrom_append {identifiers : List String} {previous : Option String}
    {done rest : List (CommittedMigration D)}
    (h : assertMigrationsFrom runtime identifiers previous (done ++ rest) = true) :
    assertMigrationsFrom runtime identifiers previous done = true := by
  induction done generalizing identifiers previous with
  | nil => rfl
  | cons migration done ih =>
    rw [cons_append, assertMigrationsFrom, Bool.and_eq_true] at h
    rw [assertMigrationsFrom, Bool.and_eq_true]
    exact ⟨h.1, ih h.2⟩

variable {migrations others : List (CommittedMigration D)}

/-- The first migrations of a valid sequence are one. -/
theorem assertMigrationSequence_take (h : assertMigrationSequence runtime migrations = true)
    (n : ℕ) : assertMigrationSequence runtime (migrations.take n) = true := by
  rw [← take_append_drop n migrations] at h
  exact assertMigrationsFrom_append h

theorem nodup_of_assertMigrationsFrom {identifiers : List String} {previous : Option String}
    (hidentifiers : identifiers.Nodup)
    (h : assertMigrationsFrom runtime identifiers previous migrations = true) :
    (migrations.map (·.id)).Nodup ∧ ∀ migration ∈ migrations, migration.id ∉ identifiers := by
  induction migrations generalizing identifiers previous with
  | nil => simp
  | cons migration rest ih =>
    simp only [assertMigrationsFrom, acceptsMigration, Bool.and_eq_true, Bool.not_eq_true',
      contains_eq_mem, decide_eq_false_iff_not] at h
    obtain ⟨⟨⟨⟨⟨-, hnew⟩, -⟩, -⟩, -⟩, hrest⟩ := h
    obtain ⟨hnodup, hother⟩ := ih (nodup_cons.mpr ⟨hnew, hidentifiers⟩) hrest
    simp only [mem_cons, not_or] at hother
    refine ⟨?_, ?_⟩
    · rw [map_cons, nodup_cons]
      refine ⟨fun hmem => ?_, hnodup⟩
      obtain ⟨other, hmem, heq⟩ := mem_map.mp hmem
      exact (hother other hmem).1 heq
    · intro other hmem
      rcases mem_cons.mp hmem with rfl | hmem
      · exact hnew
      · exact (hother other hmem).2

/-- The migrations of a valid sequence have different identifiers. -/
theorem nodup_ids (h : assertMigrationSequence runtime migrations = true) :
    (migrations.map (·.id)).Nodup :=
  (nodup_of_assertMigrationsFrom nodup_nil h).1

/-! ## What is recorded -/

/-- **The three records agree**: the database has had exactly the first `k` migrations. -/
structure Recorded (runtime : Runtime D) (pragmas : Pragmas) (data : D)
    (migrations : List (CommittedMigration D)) (k : ℕ) (database : Database D) : Prop where
  le : k ≤ migrations.length
  version : database.userVersion = k
  rows : database.schemaMigrations.getD [] = (migrations.take k).map CommittedMigration.row
  data : foldData runtime pragmas (migrations.take k) data = some database.data

variable {pragmas : Pragmas} {data : D} {migrations : List (CommittedMigration D)} {k : ℕ}

theorem Recorded.empty : Recorded runtime pragmas data migrations 0 (Database.empty data) :=
  ⟨Nat.zero_le _, rfl, rfl, rfl⟩

/-- It does not matter which migrations come after those recorded. -/
theorem Recorded.congr {database : Database D}
    (h : Recorded runtime pragmas data migrations k database) (hle : k ≤ others.length)
    (htake : others.take k = migrations.take k) : Recorded runtime pragmas data others k database :=
  ⟨hle, h.version, by rw [h.rows, htake], by rw [htake, h.data]⟩

theorem Recorded.createMigrationLedger {database : Database D}
    (h : Recorded runtime pragmas data migrations k database) :
    Recorded runtime pragmas data migrations k (createMigrationLedger database) :=
  ⟨h.le, h.version, h.rows, h.data⟩

/-- The rows of the first migrations are those of the sequence. -/
theorem matchesLedger_take (migrations : List (CommittedMigration D)) (k : ℕ) :
    matchesLedger ((migrations.take k).map CommittedMigration.row) migrations = true := by
  induction migrations generalizing k with
  | nil => simp [matchesLedger]
  | cons migration rest ih =>
    cases k with
    | zero => rfl
    | succ k => simpa [matchesLedger, CommittedMigration.row] using ih k

/-! ## One migration -/

theorem restore_eq (migration : CommittedMigration D) (handle : ManagedDatabase D) :
    (if requiresTableRebuild migration then
      { { handle with pragmas := migrationPragmas handle.pragmas migration } with
        pragmas := handle.pragmas }
    else { handle with pragmas := migrationPragmas handle.pragmas migration }) = handle := by
  cases hrebuilds : requiresTableRebuild migration with
  | true => rfl
  | false => simp [migrationPragmas, hrebuilds]

/-- **What applying a migration does**: the transaction is committed, or nothing is changed, or
the connection is lost. -/
theorem applyMigration_cases (fate : Fate) (index : ℕ) (migration : CommittedMigration D)
    (handle : ManagedDatabase D) :
    (∃ database, migrate runtime handle.pragmas index migration handle.database = some database ∧
      applyMigration runtime fate index migration handle = ({ handle with database }, none)) ∨
    applyMigration runtime fate index migration handle = (handle, some .threw) ∨
    ∃ changed, applyMigration runtime fate index migration handle = (changed, some .crashed) ∧
      changed.database = handle.database := by
  have hrestore := restore_eq migration handle
  cases fate with
  | crashes => exact Or.inr (Or.inr ⟨_, rfl, rfl⟩)
  | fails =>
    refine Or.inr (Or.inl ?_)
    simp only [applyMigration, hrestore]
  | done =>
    cases hmigrate : migrate runtime handle.pragmas index migration handle.database with
    | none =>
      refine Or.inr (Or.inl ?_)
      simp only [applyMigration, hmigrate, hrestore]
    | some database =>
      refine Or.inl ⟨database, rfl, ?_⟩
      have hrestored := restore_eq migration { handle with database }
      dsimp only at hrestored
      simp only [applyMigration, hmigrate, hrestored]
      simp

/-- **A committed transaction records one migration more.** -/
theorem Recorded.migrate {database next : Database D}
    (h : Recorded runtime pragmas data migrations k database)
    (hcreated : database.schemaMigrations.isSome) {migration : CommittedMigration D}
    (hmigration : migrations[k]? = some migration)
    (hmigrate : migrate runtime pragmas k migration database = some next) :
    Recorded runtime pragmas data migrations (k + 1) next ∧ next.schemaMigrations.isSome := by
  obtain ⟨rows, hrows⟩ := Option.isSome_iff_exists.mp hcreated
  have hold := h.rows
  rw [hrows, Option.getD_some] at hold
  simp only [Migrations.migrate, hrows, Option.bind_eq_bind, Option.bind_some] at hmigrate
  obtain ⟨result, hdata, hcommit⟩ := Option.bind_eq_some_iff.mp hmigrate
  split at hcommit
  · cases hcommit
  · cases hcommit
    have htake : migrations.take (k + 1) = migrations.take k ++ [migration] := by
      rw [take_add_one, hmigration, Option.toList_some]
    refine ⟨⟨?_, rfl, ?_, ?_⟩, rfl⟩
    · exact (List.getElem?_eq_some_iff.mp hmigration).1
    · rw [Option.getD_some, htake, hold, List.map_append, List.map_cons, List.map_nil]
    · have hsofar := h.data
      unfold foldData at hsofar ⊢
      rw [htake, foldlM_append, hsofar]
      simp [hdata]

/-! ## All migrations -/

/-- What is to hold of the end of a call. -/
structure Ends (runtime : Runtime D) (pragmas : Pragmas) (data : D)
    (migrations : List (CommittedMigration D)) (k : ℕ)
    (result : ManagedDatabase D × Outcome) : Prop where
  recorded : ∃ k', k ≤ k' ∧ Recorded runtime pragmas data migrations k' result.1.database ∧
    ∀ applied version, result.2 = .returned applied version →
      k' = migrations.length ∧ version = k'
  connection : result.2 ≠ .crashed →
    result.1.pragmas = pragmas ∧ result.1.closed = false ∧ result.1.readonly = false

variable {handle : ManagedDatabase D}

theorem ends_finish (weather : Weather) (applied : ℕ)
    (h : Recorded runtime pragmas data migrations migrations.length handle.database)
    (hconnection : handle.pragmas = pragmas ∧ handle.closed = false ∧ handle.readonly = false) :
    Ends runtime pragmas data migrations migrations.length (finish runtime weather applied handle) := by
  unfold finish
  split
  · exact ⟨⟨_, Nat.le_refl _, h, fun _ _ heq => by cases heq⟩, fun _ => hconnection⟩
  · exact ⟨⟨_, Nat.le_refl _, h, fun _ _ heq => by cases heq⟩, fun _ => hconnection⟩
  · split
    · refine ⟨⟨_, Nat.le_refl _, h, fun applied' version heq => ?_⟩, fun _ => hconnection⟩
      cases heq
      exact ⟨rfl, h.version⟩
    · exact ⟨⟨_, Nat.le_refl _, h, fun _ _ heq => by cases heq⟩, fun _ => hconnection⟩

/-- Progress is kept when the start is moved back. -/
theorem Ends.of_le {result : ManagedDatabase D × Outcome} {k' : ℕ}
    (h : Ends runtime pragmas data migrations k' result) (hle : k ≤ k') :
    Ends runtime pragmas data migrations k result := by
  obtain ⟨last, hlast, hrecorded, hreturned⟩ := h.recorded
  exact ⟨⟨last, Nat.le_trans hle hlast, hrecorded, hreturned⟩, h.connection⟩

/-- **The loop records the migrations one after the other.** `done` are the migrations that the
loop has passed, and `k` those recorded before the call. -/
theorem ends_applyFrom (weather : Weather) {done rest : List (CommittedMigration D)}
    {applied : ℕ} {handle : ManagedDatabase D}
    (hnodup : ((done ++ rest).map (·.id)).Nodup) (hk : k ≤ (done ++ rest).length)
    (h : Recorded runtime pragmas data (done ++ rest) (max k done.length) handle.database)
    (hcreated : handle.database.schemaMigrations.isSome)
    (hconnection : handle.pragmas = pragmas ∧ handle.closed = false ∧ handle.readonly = false) :
    Ends runtime pragmas data (done ++ rest) (max k done.length)
      (applyFrom runtime weather (((done ++ rest).take k).map CommittedMigration.row) k
        done.length applied rest handle) := by
  induction rest generalizing done applied handle with
  | nil =>
    have hmax : max k done.length = (done ++ []).length := by
      simp only [append_nil] at hk ⊢
      omega
    rw [hmax] at h ⊢
    exact ends_finish weather applied h hconnection
  | cons migration rest ih =>
    have hget : (done ++ migration :: rest)[done.length]? = some migration := by simp
    have hassoc : done ++ migration :: rest = (done ++ [migration]) ++ rest := by simp
    have hlength : (done ++ [migration]).length = done.length + 1 := by simp
    -- a row of this migration is recorded when its index is below `k`
    have hrow : ∀ recorded ∈ ((done ++ migration :: rest).take k).map CommittedMigration.row,
        recorded.migrationId = migration.id → recorded = migration.row ∧ done.length < k := by
      intro recorded hrecorded hid
      obtain ⟨other, hother, rfl⟩ := mem_map.mp hrecorded
      obtain ⟨i, hi⟩ := mem_iff_getElem?.mp hother
      rw [getElem?_take] at hi
      split at hi
      · next hlt =>
        have hbound : i < ((done ++ migration :: rest).map (·.id)).length := by
          rw [length_map]
          exact (List.getElem?_eq_some_iff.mp hi).1
        have hsame : i = done.length := by
          refine (List.getElem?_inj hbound hnodup).mp ?_
          rw [getElem?_map, getElem?_map, hi, hget]
          exact congrArg some hid
        subst hsame
        rw [hget] at hi
        cases hi
        exact ⟨rfl, hlt⟩
      · cases hi
    unfold applyFrom
    cases hfind : (((done ++ migration :: rest).take k).map CommittedMigration.row).find? fun row =>
        row.migrationId == migration.id with
    | some recorded =>
      obtain ⟨rfl, hlt⟩ := hrow recorded (mem_of_find?_eq_some hfind)
        (by simpa using find?_some hfind)
      have hmax : max k done.length = max k (done ++ [migration]).length := by
        rw [hlength]
        omega
      simp only [CommittedMigration.row, ne_eq, not_true_eq_false, or_self, if_false]
      rw [hassoc] at hnodup hk h ⊢
      rw [hmax] at h ⊢
      rw [← hlength]
      exact ih hnodup hk h hcreated hconnection
    | none =>
      have hle : k ≤ done.length := by
        by_contra hlt
        rw [Nat.not_le] at hlt
        have hmem : migration.row ∈
            ((done ++ migration :: rest).take k).map CommittedMigration.row :=
          mem_map_of_mem (mem_of_getElem? (by rw [getElem?_take, if_pos hlt, hget]))
        have hnone := find?_eq_none.mp hfind _ hmem
        simp [CommittedMigration.row] at hnone
      have hmax : max k done.length = done.length := Nat.max_eq_right hle
      rw [hmax] at h ⊢
      simp only
      rw [if_neg (Nat.not_lt.mpr hle)]
      rcases applyMigration_cases (weather.migration done.length) done.length migration handle with
        ⟨database, hmigrate, heq⟩ | heq | ⟨changed, heq, hdatabase⟩
      · rw [heq]
        rw [hconnection.1] at hmigrate
        obtain ⟨hnext, hnextCreated⟩ := h.migrate hcreated hget hmigrate
        have hnextMax : max k (done ++ [migration]).length = done.length + 1 := by
          rw [hlength]
          omega
        rw [hassoc] at hnodup hk hnext ⊢
        have hend := @ih (done ++ [migration]) (applied + 1) { handle with database } hnodup hk
          (hnextMax ▸ hnext) hnextCreated hconnection
        rw [hnextMax, hlength] at hend
        exact hend.of_le (Nat.le_succ _)
      · rw [heq]
        exact ⟨⟨_, Nat.le_refl _, h, fun _ _ hreturned => by cases hreturned⟩, fun _ => hconnection⟩
      · rw [heq]
        refine ⟨⟨_, Nat.le_refl _, by rw [hdatabase]; exact h, fun _ _ hreturned => by cases hreturned⟩,
          fun hcrashed => absurd rfl hcrashed⟩

/-! ## Calls -/

/-- A connection to write to, with its pragmas. -/
def Connected (pragmas : Pragmas) (handle : ManagedDatabase D) : Prop :=
  handle.pragmas = pragmas ∧ handle.closed = false ∧ handle.readonly = false

/-- **A call with the same migrations goes on where the last one ended.** -/
theorem ends_applyCommittedMigrations (weather : Weather)
    (h : Recorded runtime pragmas data migrations k handle.database)
    (hconnection : Connected pragmas handle)
    (hvalid : assertMigrationSequence runtime migrations = true) :
    Ends runtime pragmas data migrations k
      (applyCommittedMigrations runtime weather handle migrations) := by
  have hopened : (handle.closed || handle.readonly) = false := by
    rw [hconnection.2.1, hconnection.2.2]
    rfl
  unfold applyCommittedMigrations
  rw [if_neg (by simp [hopened]), if_neg (by simp [hvalid])]
  split
  · exact ⟨⟨k, Nat.le_refl _, h, fun _ _ heq => by cases heq⟩, fun _ => hconnection⟩
  · exact ⟨⟨k, Nat.le_refl _, h, fun _ _ heq => by cases heq⟩, fun _ => hconnection⟩
  · have hrecorded := h.createMigrationLedger
    have hversion := hrecorded.version
    have hrows := hrecorded.rows
    dsimp only
    rw [hversion, hrows, if_neg (Nat.not_lt.mpr h.le), if_neg (by simp [h.le]),
      if_neg (by rw [matchesLedger_take]; decide)]
    have hends := @ends_applyFrom D runtime pragmas data k weather [] migrations 0
      { handle with database := createMigrationLedger handle.database }
      (nodup_ids hvalid) h.le ((Nat.max_eq_left (Nat.zero_le k)).symm ▸ hrecorded) rfl hconnection
    rw [nil_append, length_nil, Nat.max_eq_left (Nat.zero_le k)] at hends
    exact hends

/-- What the table of migrations tells of a migration. -/
def CommittedMigration.mark (migration : CommittedMigration D) : String × String :=
  (migration.id, migration.sha256)

/-- A sequence that the table agrees with starts with the migrations that are recorded. -/
theorem prefix_of_matchesLedger {recorded others : List (CommittedMigration D)}
    (h : matchesLedger (recorded.map CommittedMigration.row) others = true) :
    recorded.map CommittedMigration.mark <+: others.map CommittedMigration.mark := by
  induction recorded generalizing others with
  | nil => exact nil_prefix
  | cons migration recorded ih =>
    cases others with
    | nil => cases h
    | cons other others =>
      simp only [map_cons, matchesLedger, Bool.and_eq_true, beq_iff_eq] at h
      obtain ⟨⟨⟨hid, hchecksum⟩, -⟩, hrest⟩ := h
      rw [map_cons, map_cons, prefix_cons_iff]
      refine Or.inr ⟨_, ?_, ih hrest⟩
      rw [CommittedMigration.mark, CommittedMigration.mark]
      change migration.id = other.id at hid
      change migration.sha256 = other.sha256 at hchecksum
      rw [hid, hchecksum]

/-- A call that fails and changes nothing but the table of migrations, which it may create. -/
structure Refused (pragmas : Pragmas) (handle : ManagedDatabase D)
    (result : ManagedDatabase D × Outcome) : Prop where
  failed : result.2 = .threw ∨ result.2 = .crashed
  connected : Connected pragmas result.1
  database : result.1.database = handle.database ∨
    result.1.database = createMigrationLedger handle.database

/-- **Any other sequence is refused**, and at most the table of migrations is created. -/
theorem applyCommittedMigrations_refused (weather : Weather)
    (h : Recorded runtime pragmas data migrations k handle.database)
    (hconnection : Connected pragmas handle)
    (hothers : ¬ (assertMigrationSequence runtime others = true ∧
      (migrations.take k).map CommittedMigration.mark <+: others.map CommittedMigration.mark)) :
    Refused pragmas handle (applyCommittedMigrations runtime weather handle others) := by
  have hopened : (handle.closed || handle.readonly) = false := by
    rw [hconnection.2.1, hconnection.2.2]
    rfl
  unfold applyCommittedMigrations
  rw [if_neg (by simp [hopened])]
  split
  · exact ⟨Or.inl rfl, hconnection, Or.inl rfl⟩
  · next hvalid =>
    have hmatches : matchesLedger ((migrations.take k).map CommittedMigration.row) others = false := by
      rw [Bool.eq_false_iff]
      exact fun hmatches => hothers ⟨by simpa using hvalid, prefix_of_matchesLedger hmatches⟩
    split
    · exact ⟨Or.inr rfl, hconnection, Or.inl rfl⟩
    · exact ⟨Or.inl rfl, hconnection, Or.inl rfl⟩
    · have hrows := h.createMigrationLedger.rows
      dsimp only
      split
      · exact ⟨Or.inl rfl, hconnection, Or.inr rfl⟩
      · split
        · exact ⟨Or.inl rfl, hconnection, Or.inr rfl⟩
        · rw [hrows, if_pos (by rw [hmatches]; rfl)]
          exact ⟨Or.inl rfl, hconnection, Or.inr rfl⟩

theorem Refused.recorded {result : ManagedDatabase D × Outcome} (h : Refused pragmas handle result)
    (hrecorded : Recorded runtime pragmas data migrations k handle.database) :
    Recorded runtime pragmas data migrations k result.1.database := by
  rcases h.database with heq | heq
  · rw [heq]
    exact hrecorded
  · rw [heq]
    exact hrecorded.createMigrationLedger

/-- **A call with the first `n` migrations**: the records agree after it, and tell of the first
`n` migrations when it returns. -/
structure CallKeeps (runtime : Runtime D) (pragmas : Pragmas) (data : D)
    (migrations : List (CommittedMigration D)) (k n : ℕ)
    (result : ManagedDatabase D × Outcome) : Prop where
  recorded : ∃ k', k ≤ k' ∧ Recorded runtime pragmas data migrations k' result.1.database ∧
    ∀ applied version, result.2 = .returned applied version →
      k' = min n migrations.length ∧ version = k'
  connected : result.2 ≠ .crashed → Connected pragmas result.1

theorem callKeeps_take (hvalid : assertMigrationSequence runtime migrations = true)
    (weather : Weather) (n : ℕ) (h : Recorded runtime pragmas data migrations k handle.database)
    (hconnection : Connected pragmas handle) :
    CallKeeps runtime pragmas data migrations k n
      (applyCommittedMigrations runtime weather handle (migrations.take n)) := by
  by_cases hle : k ≤ (migrations.take n).length
  · have htake : ∀ k' ≤ (migrations.take n).length,
        (migrations.take n).take k' = migrations.take k' := by
      intro k' hk'
      rw [length_take] at hk'
      rw [take_take, Nat.min_eq_left (by omega)]
    have hends := ends_applyCommittedMigrations weather (h.congr hle (htake k hle)) hconnection
      (assertMigrationSequence_take hvalid n)
    obtain ⟨k', hk', hrecorded, hreturned⟩ := hends.recorded
    have hbound : k' ≤ migrations.length :=
      Nat.le_trans hrecorded.le (length_take_le' n migrations)
    refine ⟨⟨k', hk', hrecorded.congr hbound (htake k' hrecorded.le).symm, ?_⟩, hends.connection⟩
    intro applied version heq
    obtain ⟨hlast, hversion⟩ := hreturned applied version heq
    rw [length_take] at hlast
    exact ⟨hlast, hversion⟩
  · -- the table tells of more migrations than there are
    have hshort : ¬ (assertMigrationSequence runtime (migrations.take n) = true ∧
        (migrations.take k).map CommittedMigration.mark <+:
          (migrations.take n).map CommittedMigration.mark) := by
      rintro ⟨-, hprefix⟩
      have hlength := hprefix.length_le
      rw [length_map, length_map, length_take, Nat.min_eq_left h.le] at hlength
      exact hle hlength
    have hrefused := applyCommittedMigrations_refused weather h hconnection hshort
    refine ⟨⟨k, Nat.le_refl k, hrefused.recorded h, fun applied version heq => ?_⟩,
      fun _ => hrefused.connected⟩
    rcases hrefused.failed with hfailed | hfailed
    · rw [heq] at hfailed
      cases hfailed
    · rw [heq] at hfailed
      cases hfailed

variable (pragmas data) in
/-- The records agree after any calls with first migrations of the sequence. -/
theorem recorded_runCalls (hvalid : assertMigrationSequence runtime migrations = true)
    (calls : List (Weather × ℕ)) :
    ∃ k, Recorded runtime pragmas data migrations k (runCalls runtime pragmas data
        (calls.map fun call => (call.1, migrations.take call.2))).database ∧
      Connected pragmas (runCalls runtime pragmas data
        (calls.map fun call => (call.1, migrations.take call.2))) := by
  induction calls using reverseRecOn with
  | nil => exact ⟨0, Recorded.empty, rfl, rfl, rfl⟩
  | append_singleton calls call ih =>
    obtain ⟨k, hrecorded, hconnection⟩ := ih
    have hkeeps := callKeeps_take hvalid call.1 call.2 hrecorded hconnection
    obtain ⟨k', -, hnext, -⟩ := hkeeps.recorded
    refine ⟨k', ?_⟩
    unfold runCalls at hnext hkeeps ⊢
    rw [map_append, foldl_append, map_cons, map_nil, foldl_cons,
      foldl_nil, callOn]
    split
    · next heq =>
      rw [heq] at hnext
      exact ⟨hnext, rfl, rfl, rfl⟩
    · next last outcome hother heq =>
      rw [heq] at hnext hkeeps
      exact ⟨hnext, hkeeps.connected fun hcrashed => hother hcrashed⟩

/-- **Interrupted migrations are one uninterrupted run.** After any calls with first migrations
of a valid sequence, with whatever failures and crashes, the version, the table and the data
tell of exactly the first `k` migrations; a further call with first migrations keeps that and
gets as far as its own migrations when it returns; a call with any other sequence fails and
changes nothing. -/
theorem interrupted_eq_uninterrupted (runtime : Runtime D) (pragmas : Pragmas) (data : D)
    (migrations : List (CommittedMigration D))
    (hvalid : assertMigrationSequence runtime migrations = true) (calls : List (Weather × ℕ)) :
    ∃ k, Recorded runtime pragmas data migrations k (runCalls runtime pragmas data
        (calls.map fun call => (call.1, migrations.take call.2))).database ∧
      Connected pragmas (runCalls runtime pragmas data
        (calls.map fun call => (call.1, migrations.take call.2))) ∧
      (∀ weather n, CallKeeps runtime pragmas data migrations k n
        (applyCommittedMigrations runtime weather (runCalls runtime pragmas data
          (calls.map fun call => (call.1, migrations.take call.2))) (migrations.take n))) ∧
      ∀ weather others, ¬ (assertMigrationSequence runtime others = true ∧
          (migrations.take k).map CommittedMigration.mark <+: others.map CommittedMigration.mark) →
        Refused pragmas (runCalls runtime pragmas data
            (calls.map fun call => (call.1, migrations.take call.2)))
          (applyCommittedMigrations runtime weather (runCalls runtime pragmas data
            (calls.map fun call => (call.1, migrations.take call.2))) others) := by
  obtain ⟨k, hrecorded, hconnection⟩ := recorded_runCalls pragmas data hvalid calls
  exact ⟨k, hrecorded, hconnection,
    fun weather n => callKeeps_take hvalid weather n hrecorded hconnection,
    fun weather others hothers =>
      applyCommittedMigrations_refused weather hrecorded hconnection hothers⟩

/-- A database as the list of the statements that it has run. -/
def statements : Runtime (List String) where
  sha256 sql :=
    if sql = "CREATE TABLE racks (id INTEGER PRIMARY KEY) STRICT;" then
      "7894354fb9ccbccc89a6ea12ef8f9054d0d2ba5164f54df751152a624b7b7705"
    else if sql = "CREATE TABLE shelves (id INTEGER PRIMARY KEY) STRICT;" then
      "cc709350d84c68590b169b5d330ee12a1d1ddfbf943f0e98bdffa426204e81e7"
    else ""
  localeCompare := compare
  exec _ sql data := some (data ++ [sql])
  foreignKeyViolations _ := 0
  quickCheck _ := true

/-- A migration that creates a table. -/
def createRacks : CommittedMigration (List String) where
  id := "0001-racks"
  sql := "CREATE TABLE racks (id INTEGER PRIMARY KEY) STRICT;"
  sha256 := "7894354fb9ccbccc89a6ea12ef8f9054d0d2ba5164f54df751152a624b7b7705"
  verify := none

/-- Another migration that creates a table. -/
def createShelves : CommittedMigration (List String) where
  id := "0002-shelves"
  sql := "CREATE TABLE shelves (id INTEGER PRIMARY KEY) STRICT;"
  sha256 := "cc709350d84c68590b169b5d330ee12a1d1ddfbf943f0e98bdffa426204e81e7"
  verify := none

/-- A call whose transactions end like these. -/
def callEnding (first second : Fate) : Weather :=
  ⟨.done, fun n => if n = 0 then first else second, .done⟩

/-- A call fails in the first transaction, one crashes in the second, and one is done with the
migration that is left: both are recorded, and each table is created once. -/
theorem interrupted_createRacks :
    Recorded statements ⟨true, false⟩ [] [createRacks, createShelves] 2
      (runCalls statements ⟨true, false⟩ []
        [(callEnding .fails .done, [createRacks, createShelves]),
          (callEnding .done .crashes, [createRacks, createShelves]),
          (callEnding .done .done, [createRacks, createShelves])]).database := by
  obtain ⟨k, hrecorded, -⟩ := interrupted_eq_uninterrupted statements ⟨true, false⟩ []
    [createRacks, createShelves] (by decide +kernel)
    [(callEnding .fails .done, 2), (callEnding .done .crashes, 2), (callEnding .done .done, 2)]
  have htwo : (runCalls statements ⟨true, false⟩ []
      ([(callEnding .fails .done, 2), (callEnding .done .crashes, 2),
        (callEnding .done .done, 2)].map fun call =>
          (call.1, [createRacks, createShelves].take call.2))).database.userVersion = 2 := by
    decide +kernel
  obtain rfl : k = 2 := hrecorded.version.symm.trans htwo
  exact hrecorded

end HomelabInventory.Migrations
