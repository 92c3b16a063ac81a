import HomelabInventory.CatalogGenerations

/-!
# What every step keeps of the catalog

A call in flight relies on its temporary directory, on the generation it found
or moved into place, and on the store not going back. A step of another call
keeps all that unless it moves that generation out of the way or shares the
temporary directory.
-/

namespace HomelabInventory.Catalog

open InsertionMap

/-! ## Directories -/

/-- The generation of the snapshot is there, with every file it asks for. -/
def World.Holds (w : World) (snapshot : Snapshot) : Prop :=
  ∃ directory, get? w.generations snapshot = some directory ∧
    ∀ file, directory.passes snapshot file = true

/-- What `activate` writes is a whole generation. -/
theorem Artifact.directory_passes (artifact : Artifact) (file : GenerationFile) :
    artifact.directory.passes artifact.snapshot file = true := by
  have hagrees := artifact.agrees
  rw [directory, files]
  cases hfacets : artifact.facets with
  | none => cases file <;> simp [Directory.write, Directory.passes]
  | some index =>
    have hindex := hagrees index (by simp [hfacets])
    cases file <;> simp [Directory.write, Directory.passes, hfacets, hindex]

variable {snapshot : Snapshot}

/-- Recording a file makes it pass, and leaves the others. -/
theorem Directory.record_passes {directory : Directory}
    {written file : GenerationFile} (h : directory.passes snapshot file = true ∨
      (written = file ∧ file ∈ [GenerationFile.metadata, .receipt])) :
    (directory.record snapshot written).passes snapshot file = true := by
  rcases h with h | ⟨rfl, hmem⟩
  · cases written <;> cases file <;> first | exact h | simp [record, passes]
  · rcases List.mem_cons.mp hmem with rfl | hmem
    · simp [record, passes]
    · obtain rfl := List.mem_singleton.mp hmem
      simp [record, passes]

/-! ## Validations -/

/-- What a validation of a directory that is there has found so far. -/
def Validation.Sound (w : World) (snapshot : Snapshot) : Validation → Prop
  | .checking rest => ∃ directory, get? w.generations snapshot = some directory ∧
      ∀ file ∈ [GenerationFile.snapshot, .digests, .facets],
        file ∈ rest ∨ directory.passes snapshot file = true
  | .recording rest => ∃ directory, get? w.generations snapshot = some directory ∧
      ∀ file, (file ∈ rest ∧ file ∈ [GenerationFile.metadata, .receipt]) ∨
        directory.passes snapshot file = true

variable {w : World}

theorem Validation.sound_begin {directory : Directory}
    (h : get? w.generations snapshot = some directory) :
    (Validation.begin false).Sound w snapshot := by
  refine ⟨directory, h, ?_⟩
  intro file hfile
  exact .inl (List.mem_cons_of_mem _ hfile)

/-- A step of a validation keeps what it has found, and a validation that passes
has found a whole generation. -/
theorem Validation.Sound.step {validation : Validation} (h : validation.Sound w snapshot) :
    match validation.step w snapshot with
    | .continued w' validation' => validation'.Sound w' snapshot
    | .passed => w.Holds snapshot
    | .failed => True := by
  match validation with
  | .checking [] =>
    obtain ⟨directory, hdirectory, hfiles⟩ := h
    refine ⟨directory, hdirectory, ?_⟩
    intro file
    cases file with
    | snapshot => exact .inr ((hfiles .snapshot (by simp)).resolve_left (by simp))
    | digests => exact .inr ((hfiles .digests (by simp)).resolve_left (by simp))
    | facets => exact .inr ((hfiles .facets (by simp)).resolve_left (by simp))
    | metadata => exact .inl ⟨by simp, by simp⟩
    | receipt => exact .inl ⟨by simp, by simp⟩
  | .checking (checked :: rest) =>
    obtain ⟨directory, hdirectory, hfiles⟩ := h
    simp only [Validation.step, hdirectory]
    by_cases hpasses : directory.passes snapshot checked = true
    · rw [if_pos hpasses]
      refine ⟨directory, hdirectory, ?_⟩
      intro file hfile
      rcases hfiles file hfile with hmem | hpass
      · rcases List.mem_cons.mp hmem with rfl | hmem
        · exact .inr hpasses
        · exact .inl hmem
      · exact .inr hpass
    · rw [if_neg hpasses]
      trivial
  | .recording [] =>
    obtain ⟨directory, hdirectory, hfiles⟩ := h
    refine ⟨directory, hdirectory, ?_⟩
    intro file
    exact (hfiles file).resolve_left (by simp)
  | .recording (written :: rest) =>
    obtain ⟨directory, hdirectory, hfiles⟩ := h
    simp only [Validation.step, hdirectory]
    refine ⟨directory.record snapshot written, ?_, ?_⟩
    · rw [World.setGeneration, get?_set, if_pos rfl]
    · intro file
      rcases hfiles file with ⟨hmem, hwritten⟩ | hpass
      · rcases List.mem_cons.mp hmem with rfl | hmem
        · exact .inr (Directory.record_passes (.inr ⟨rfl, hwritten⟩))
        · exact .inl ⟨hmem, hwritten⟩
      · exact .inr (Directory.record_passes (.inl hpass))

/-- Validating a whole generation does not fail. -/
theorem Validation.step_ne_failed (h : w.Holds snapshot) (validation : Validation) :
    validation.step w snapshot ≠ .failed := by
  obtain ⟨directory, hdirectory, hpasses⟩ := h
  match validation with
  | .checking [] => exact ValidationResult.noConfusion
  | .checking (file :: rest) =>
    simp only [Validation.step, hdirectory, hpasses file, if_true]
    exact ValidationResult.noConfusion
  | .recording [] => exact ValidationResult.noConfusion
  | .recording (file :: rest) =>
    simp only [Validation.step, hdirectory]
    exact ValidationResult.noConfusion

/-! ## The store -/

/-- The store names the snapshot, or a newer revision. -/
def Behind (store : Option Snapshot) (snapshot : Snapshot) : Prop :=
  ∃ active, store = some active ∧ (snapshot.revision < active.revision ∨ snapshot = active)

theorem Behind.self (snapshot : Snapshot) : Behind (some snapshot) snapshot :=
  ⟨snapshot, rfl, .inr rfl⟩

/-- What is acceptable keeps everything behind the store that was behind it. -/
theorem Behind.of_acceptable {store : Option Snapshot} {next snapshot : Snapshot}
    (h : Behind store snapshot) (hacceptable : acceptable store next = true) :
    Behind (some next) snapshot := by
  obtain ⟨active, rfl, hbehind⟩ := h
  refine ⟨next, rfl, ?_⟩
  rw [acceptable, Bool.and_eq_true, decide_eq_true_eq, Bool.or_eq_true, decide_eq_true_eq,
    decide_eq_true_eq] at hacceptable
  obtain ⟨hle, hsame⟩ := hacceptable
  rcases hbehind with hlt | rfl
  · exact .inl (Nat.lt_of_lt_of_le hlt hle)
  · rcases hsame with hne | hdigest
    · exact .inl (Nat.lt_of_le_of_ne hle hne)
    · rcases Nat.lt_or_eq_of_le hle with hlt | hrevision
      · exact .inl hlt
      · right
        obtain ⟨revision, digest⟩ := snapshot
        obtain ⟨revision', digest'⟩ := next
        simp only at hrevision hdigest
        rw [hrevision, hdigest]

/-! ## Calls -/

/-- The temporary directory of a call. -/
def Call.temporary : Call → Option (Snapshot × ℕ)
  | .activating artifact (.creating nonce) | .activating artifact (.writing nonce _)
  | .activating artifact (.looking nonce) | .activating artifact (.validating nonce _)
  | .activating artifact (.comparing nonce) | .activating artifact (.discarding nonce)
  | .activating artifact (.evicting nonce) | .activating artifact (.installing nonce)
  | .activating artifact (.cleaning nonce) => some (artifact.snapshot, nonce)
  | _ => none

/-- The generation a call has found or moved into place, and is going to name. -/
def Call.relies : Call → Option Snapshot
  | .activating artifact (.validating _ _) | .activating artifact (.comparing _)
  | .activating artifact (.discarding _) | .activating artifact .removing
  | .activating artifact .committing => some artifact.snapshot
  | _ => none

/-- The generation a step of a call moves out of the way. -/
def Call.evicts : Call → Option Snapshot
  | .activating artifact (.evicting _) => some artifact.snapshot
  | _ => none

def Call.isActivating : Call → Bool
  | .activating _ _ => true
  | _ => false

/-- What holds of an activation where it stands. -/
def ActivateStage.Sound (w : World) (artifact : Artifact) : ActivateStage → Prop
  | .preparing | .creating _ | .cleaning _ => True
  | .writing nonce rest => ∃ directory,
      get? w.temporary (artifact.snapshot, nonce) = some directory ∧
        rest.foldl (Directory.write artifact) directory = artifact.directory
  | .looking nonce | .evicting nonce | .installing nonce =>
      get? w.temporary (artifact.snapshot, nonce) = some artifact.directory
  | .validating nonce validation =>
      get? w.temporary (artifact.snapshot, nonce) = some artifact.directory ∧
        validation.Sound w artifact.snapshot
  | .comparing nonce =>
      get? w.temporary (artifact.snapshot, nonce) = some artifact.directory ∧
        w.Holds artifact.snapshot
  | .discarding _ | .removing | .committing => w.Holds artifact.snapshot
  | .flushing | .readingPointer | .writingPointer | .settling => Behind w.store artifact.snapshot

/-- What holds of a call where it stands. The start of the server and its
recovery are about the snapshot the store names; a recovery that warms the
catalog has written the pointer. -/
def Call.Sound (w : World) : Call → Prop
  | .activating artifact stage => stage.Sound w artifact
  | .resolving snapshot purpose stage => Behind w.store snapshot ∧
      (purpose ≠ .request → w.store = some snapshot ∧ stage ≠ .legacy) ∧
      (purpose = .recovery → w.pointer = some snapshot)
  | .recovering snapshot _ => w.store = some snapshot

/-- The call is still going to write the pointer to this snapshot, when the store
names it: an activation of another snapshot does so when it resolves the paths at
its end. -/
def Call.WillPoint (snapshot : Snapshot) : Call → Prop
  | .activating artifact stage =>
      stage ∈ [ActivateStage.flushing, .readingPointer, .writingPointer] ∨
        stage = .settling ∧ artifact.snapshot ≠ snapshot
  | .resolving resolved _ stage => resolved = snapshot ∧ stage ≠ .settling ∧ stage ≠ .legacy
  | .recovering recovered _ => recovered = snapshot

/-- The call is still going to set the resolved paths to this snapshot, when the
store names it. -/
def Call.WillSettle (snapshot : Snapshot) : Call → Prop
  | .activating _ stage =>
      stage ∈ [ActivateStage.flushing, .readingPointer, .writingPointer, .settling]
  | .resolving resolved _ stage => resolved = snapshot ∧ stage ≠ .legacy
  | .recovering recovered _ => recovered = snapshot

/-! ## Frames -/

/-- What a step may change, as far as other calls rely on it: one temporary
directory, and one generation. Directories that stay only come to pass more. -/
structure World.Frame (key : Option (Snapshot × ℕ)) (evicted : Option Snapshot) (w w' : World) :
    Prop where
  temporary : ∀ other, key ≠ some other → get? w'.temporary other = get? w.temporary other
  generations : ∀ snapshot, evicted ≠ some snapshot → ∀ directory,
    get? w.generations snapshot = some directory → ∃ directory',
      get? w'.generations snapshot = some directory' ∧
        ∀ file, directory.passes snapshot file = true → directory'.passes snapshot file = true
  store : ∀ snapshot, Behind w.store snapshot → Behind w'.store snapshot

theorem World.Frame.of_eq {w w' : World} {key : Option (Snapshot × ℕ)} {evicted : Option Snapshot}
    (htemporary : ∀ other, key ≠ some other → get? w'.temporary other = get? w.temporary other)
    (hgenerations : w'.generations = w.generations) (hstore : w'.store = w.store) :
    World.Frame key evicted w w' where
  temporary := htemporary
  generations _ _ directory hdirectory :=
    ⟨directory, hgenerations ▸ hdirectory, fun _ hfile => hfile⟩
  store _ hbehind := hstore ▸ hbehind

theorem World.Frame.refl (w : World) (key : Option (Snapshot × ℕ)) (evicted : Option Snapshot) :
    World.Frame key evicted w w := .of_eq (fun _ _ => rfl) rfl rfl

section
variable {w w' : World} {key : Option (Snapshot × ℕ)} {evicted : Option Snapshot}

variable (h : World.Frame key evicted w w')
include h

theorem World.Frame.holds {snapshot : Snapshot} (hevicted : evicted ≠ some snapshot)
    (hholds : w.Holds snapshot) : w'.Holds snapshot := by
  obtain ⟨directory, hdirectory, hpasses⟩ := hholds
  obtain ⟨directory', hdirectory', hkept⟩ := h.generations snapshot hevicted directory hdirectory
  exact ⟨directory', hdirectory', fun file => hkept file (hpasses file)⟩

theorem World.Frame.validation {snapshot : Snapshot} (hevicted : evicted ≠ some snapshot)
    {validation : Validation} (hvalidation : validation.Sound w snapshot) :
    validation.Sound w' snapshot := by
  cases validation with
  | checking rest =>
    obtain ⟨directory, hdirectory, hfiles⟩ := hvalidation
    obtain ⟨directory', hdirectory', hkept⟩ := h.generations snapshot hevicted directory hdirectory
    exact ⟨directory', hdirectory', fun file hfile => (hfiles file hfile).imp_right (hkept file)⟩
  | recording rest =>
    obtain ⟨directory, hdirectory, hfiles⟩ := hvalidation
    obtain ⟨directory', hdirectory', hkept⟩ := h.generations snapshot hevicted directory hdirectory
    exact ⟨directory', hdirectory', fun file => (hfiles file).imp_right (hkept file)⟩

/-- A call that relies on none of what a step changes stays sound. -/
theorem World.Frame.call {call : Call} (hcall : call.Sound w)
    (htemporary : ∀ other, call.temporary = some other → key ≠ some other)
    (hrelies : ∀ snapshot, call.relies = some snapshot → evicted ≠ some snapshot)
    (hstore : call.isStartup = true → w'.store = w.store)
    (hpointer : call.isStartup = true → w'.pointer = w.pointer ∨ w'.pointer = w.store) :
    call.Sound w' := by
  cases call with
  | activating artifact stage =>
    cases stage with
    | preparing => trivial
    | creating nonce => trivial
    | cleaning nonce => trivial
    | writing nonce rest =>
      obtain ⟨directory, hdirectory, hrest⟩ := hcall
      exact ⟨directory, (h.temporary _ (htemporary _ rfl)).trans hdirectory, hrest⟩
    | looking nonce => exact (h.temporary _ (htemporary _ rfl)).trans hcall
    | evicting nonce => exact (h.temporary _ (htemporary _ rfl)).trans hcall
    | installing nonce => exact (h.temporary _ (htemporary _ rfl)).trans hcall
    | validating nonce validation =>
      exact ⟨(h.temporary _ (htemporary _ rfl)).trans hcall.1, h.validation (hrelies _ rfl) hcall.2⟩
    | comparing nonce =>
      exact ⟨(h.temporary _ (htemporary _ rfl)).trans hcall.1, h.holds (hrelies _ rfl) hcall.2⟩
    | discarding nonce => exact h.holds (hrelies _ rfl) hcall
    | removing => exact h.holds (hrelies _ rfl) hcall
    | committing => exact h.holds (hrelies _ rfl) hcall
    | flushing => exact h.store _ hcall
    | readingPointer => exact h.store _ hcall
    | writingPointer => exact h.store _ hcall
    | settling => exact h.store _ hcall
  | resolving snapshot purpose stage =>
    obtain ⟨hbehind, hstartup, hrecovery⟩ := hcall
    refine ⟨h.store _ hbehind, ?_, ?_⟩
    · intro hpurpose
      obtain ⟨hnames, hstage⟩ := hstartup hpurpose
      exact ⟨(hstore (by simpa [Call.isStartup] using hpurpose)).trans hnames, hstage⟩
    · rintro rfl
      rcases hpointer rfl with hpointer | hpointer
      · exact hpointer.trans (hrecovery rfl)
      · exact hpointer.trans (hstartup (by decide)).1
  | recovering snapshot stage => exact (hstore rfl).trans hcall

end

end HomelabInventory.Catalog
