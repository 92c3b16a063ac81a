import HomelabInventory.CatalogInvariants

/-!
# The steps of the catalog calls

What one step of a call does to the files, to the store, pointer and resolved
paths, and to the call itself, when the step is unhindered: the check of
`activate` still holds at its commit, no generation is moved away that something
relies on, no temporary directory is shared, and pointer and paths are written
for the snapshot the store names.
-/

namespace HomelabInventory.Catalog

open InsertionMap List Option

def Outcome.world : Outcome → World
  | .running w _ | .returned w | .rejected w => w

/-- What is left of the call. -/
def Outcome.calls : Outcome → List Call
  | .running _ call => [call]
  | .returned _ | .rejected _ => []

/-- The step of a call finds the store and the other calls as it takes them to be. -/
def Call.Unhindered (w : World) (others : List Call) (clock : ℕ) : Call → Prop
  | .activating artifact .preparing =>
      ∀ other ∈ others, other.temporary ≠ some (artifact.snapshot, clock)
  | .activating artifact (.evicting _) => w.store ≠ some artifact.snapshot ∧
      ∀ other ∈ others, other.relies ≠ some artifact.snapshot
  | .activating artifact .committing => acceptable w.store artifact.snapshot = true
  | .resolving snapshot _ .legacy | .resolving snapshot _ .writingPointer
  | .resolving snapshot _ .settling => w.store = some snapshot
  | _ => True

/-- An unhindered step moves nothing away that another call relies on. -/
theorem Call.Unhindered.relies {w : World} {others : List Call} {clock : ℕ} {call other : Call}
    {snapshot : Snapshot} (h : call.Unhindered w others clock)
    (hevicts : call.evicts = some snapshot) (hother : other ∈ others) :
    other.relies ≠ some snapshot := by
  unfold evicts at hevicts
  split at hevicts
  · obtain rfl := some.inj hevicts
    exact h.2 other hother
  · cases hevicts

/-! ## Files -/

section
variable {w : World} {key : Option (Snapshot × ℕ)} {evicted : Option Snapshot}

theorem World.frame_setTemporary (snapshot : Snapshot) (nonce : ℕ) (directory : Directory) :
    World.Frame (some (snapshot, nonce)) evicted w (w.setTemporary snapshot nonce directory) := by
  refine .of_eq ?_ rfl rfl
  intro other hother
  rw [World.setTemporary, get?_set, if_neg]
  rintro rfl
  exact hother rfl

theorem World.frame_removeTemporary (snapshot : Snapshot) (nonce : ℕ) :
    World.Frame (some (snapshot, nonce)) evicted w (w.removeTemporary snapshot nonce) := by
  refine .of_eq ?_ rfl rfl
  intro other hother
  rw [World.removeTemporary, get?_delete_of_ne]
  rintro rfl
  exact hother rfl

variable {snapshot : Snapshot}

/-- A generation may be written where it is not there, or comes to pass more. -/
theorem World.frame_setGeneration {directory : Directory}
    (h : ∀ before, get? w.generations snapshot = some before →
      ∀ file, before.passes snapshot file = true → directory.passes snapshot file = true) :
    World.Frame key evicted w (w.setGeneration snapshot directory) where
  temporary _ _ := rfl
  generations other _ before hbefore := by
    by_cases hother : other = snapshot
    · subst hother
      refine ⟨directory, ?_, h before hbefore⟩
      rw [World.setGeneration, get?_set, if_pos rfl]
    · refine ⟨before, ?_, fun _ hfile => hfile⟩
      rw [World.setGeneration, get?_set, if_neg hother]
      exact hbefore
  store _ hbehind := hbehind

variable {w' : World}

theorem World.frame_evict (h : w.evict snapshot = some w') :
    World.Frame key (some snapshot) w w' := by
  obtain ⟨directory, -, rfl⟩ := map_eq_some_iff.mp h
  refine ⟨fun _ _ => rfl, ?_, fun _ hbehind => hbehind⟩
  intro other hother before hbefore
  refine ⟨before, ?_, fun _ hfile => hfile⟩
  rw [get?_delete_of_ne]
  · exact hbefore
  · rintro rfl
    exact hother rfl

/-- What `install` did when it did not fail. -/
theorem World.install_eq_some {nonce : ℕ} (h : w.install snapshot nonce = some w') :
    ∃ directory, get? w.temporary (snapshot, nonce) = some directory ∧
      get? w.generations snapshot = none ∧
      w' = (w.removeTemporary snapshot nonce).setGeneration snapshot directory := by
  rw [install] at h
  split at h
  · rename_i directory htemporary hgeneration
    exact ⟨directory, htemporary, hgeneration, (some.inj h).symm⟩
  · cases h

theorem World.frame_install {nonce : ℕ} (h : w.install snapshot nonce = some w') :
    World.Frame (some (snapshot, nonce)) evicted w w' := by
  obtain ⟨directory, -, hnone, rfl⟩ := World.install_eq_some h
  have hremoved : World.Frame (some (snapshot, nonce)) evicted w _ :=
    World.frame_removeTemporary snapshot nonce
  refine ⟨hremoved.temporary, ?_, fun _ hbehind => hbehind⟩
  -- nothing was there, so no directory is replaced
  suffices hset : World.Frame none evicted (w.removeTemporary snapshot nonce)
      ((w.removeTemporary snapshot nonce).setGeneration snapshot directory) from hset.generations
  apply World.frame_setGeneration
  intro before hbefore
  rw [World.removeTemporary, hnone] at hbefore
  cases hbefore

/-- What a validation writes is a generation that passes more. -/
theorem Validation.step_continued {validation validation' : Validation}
    (h : validation.step w snapshot = .continued w' validation') :
    World.Frame key evicted w w' ∧ w'.temporary = w.temporary ∧ w'.store = w.store ∧
      w'.pointer = w.pointer ∧ w'.resolvedPaths = w.resolvedPaths := by
  match validation with
  | .checking [] =>
    cases h
    exact ⟨.refl _ _ _, rfl, rfl, rfl, rfl⟩
  | .checking (file :: rest) =>
    simp only [Validation.step] at h
    split at h
    · split at h
      · cases h
        exact ⟨.refl _ _ _, rfl, rfl, rfl, rfl⟩
      · cases h
    · cases h
  | .recording [] => cases h
  | .recording (file :: rest) =>
    simp only [Validation.step] at h
    split at h
    · rename_i directory hdirectory
      cases h
      refine ⟨World.frame_setGeneration ?_, rfl, rfl, rfl, rfl⟩
      intro before hbefore other hpasses
      rw [hdirectory] at hbefore
      cases hbefore
      exact Directory.record_passes (.inl hpasses)
    · cases h

end

/-! ## The effect of a step -/

/-- What an unhindered step of a call does. -/
structure Call.Effect (w : World) (others : List Call) (call : Call) (outcome : Outcome) : Prop where
  frame : World.Frame call.temporary call.evicts w outcome.world
  own : ∀ next ∈ outcome.calls, next.Sound outcome.world
  temporary : ∀ next ∈ outcome.calls, ∀ key, next.temporary = some key →
    call.temporary = some key ∨ ∀ other ∈ others, other.temporary ≠ some key
  startup : ∀ next ∈ outcome.calls, next.isStartup = true → call.isStartup = true
  activating : ∀ next ∈ outcome.calls, next.isActivating = true → call.isActivating = true
  store : call.isActivating = false → outcome.world.store = w.store
  holds : ∀ snapshot, outcome.world.store = some snapshot → outcome.world.Holds snapshot
  pointer : call.isActivating = true ∨
    outcome.world.pointer = w.pointer ∨ outcome.world.pointer = w.store
  pointed : ∀ snapshot, outcome.world.store = some snapshot →
    (w.store = some snapshot → w.pointer = some snapshot ∨ call.WillPoint snapshot) →
    outcome.world.pointer = some snapshot ∨ ∃ next ∈ outcome.calls, next.WillPoint snapshot
  settled : ∀ snapshot, outcome.world.store = some snapshot →
    (w.store = some snapshot → w.resolvedPaths = some snapshot ∨ call.WillSettle snapshot) →
    outcome.world.resolvedPaths = some snapshot ∨
      ∃ next ∈ outcome.calls, next.WillSettle snapshot

section
variable {w w' : World} {others : List Call} {call next : Call}

variable {outcome : Outcome}

/-- A step that does not write the store. -/
theorem Call.Effect.of_store (hholds : ∀ snapshot, w.store = some snapshot → w.Holds snapshot)
    (hframe : World.Frame call.temporary call.evicts w outcome.world)
    (hevicts : ∀ snapshot, w.store = some snapshot → call.evicts ≠ some snapshot)
    (hstore : outcome.world.store = w.store)
    (hown : ∀ next ∈ outcome.calls, next.Sound outcome.world ∧
      (∀ key, next.temporary = some key → call.temporary = some key ∨
        ∀ other ∈ others, other.temporary ≠ some key) ∧
      (next.isStartup = true → call.isStartup = true) ∧
      (next.isActivating = true → call.isActivating = true))
    (hpointer : call.isActivating = true ∨
      outcome.world.pointer = w.pointer ∨ outcome.world.pointer = w.store)
    (hpoint : ∀ snapshot, w.store = some snapshot →
      (w.pointer = some snapshot ∨ call.WillPoint snapshot) →
      outcome.world.pointer = some snapshot ∨ ∃ next ∈ outcome.calls, next.WillPoint snapshot)
    (hsettle : ∀ snapshot, w.store = some snapshot →
      (w.resolvedPaths = some snapshot ∨ call.WillSettle snapshot) →
      outcome.world.resolvedPaths = some snapshot ∨
        ∃ next ∈ outcome.calls, next.WillSettle snapshot) :
    call.Effect w others outcome where
  frame := hframe
  own next hnext := (hown next hnext).1
  temporary next hnext := (hown next hnext).2.1
  startup next hnext := (hown next hnext).2.2.1
  activating next hnext := (hown next hnext).2.2.2
  store _ := hstore
  holds snapshot hsnapshot := by
    have hbefore : w.store = some snapshot := hstore ▸ hsnapshot
    exact hframe.holds (hevicts snapshot hbefore) (hholds snapshot hbefore)
  pointer := hpointer
  pointed snapshot hsnapshot hbefore := by
    have hnamed : w.store = some snapshot := hstore ▸ hsnapshot
    exact hpoint snapshot hnamed (hbefore hnamed)
  settled snapshot hsnapshot hbefore := by
    have hnamed : w.store = some snapshot := hstore ▸ hsnapshot
    exact hsettle snapshot hnamed (hbefore hnamed)

/-- A step that writes neither the store nor the pointer nor the paths, and leaves
a call that is going to write them if this one was. -/
theorem Call.Effect.running (hholds : ∀ snapshot, w.store = some snapshot → w.Holds snapshot)
    (hframe : World.Frame call.temporary call.evicts w w')
    (hevicts : ∀ snapshot, w.store = some snapshot → call.evicts ≠ some snapshot)
    (hnames : w'.store = w.store ∧ w'.pointer = w.pointer ∧ w'.resolvedPaths = w.resolvedPaths)
    (hown : next.Sound w')
    (htemporary : ∀ key, next.temporary = some key →
      call.temporary = some key ∨ ∀ other ∈ others, other.temporary ≠ some key)
    (hkind : next.isStartup = call.isStartup ∧ next.isActivating = call.isActivating)
    (hpoint : ∀ snapshot, w.store = some snapshot → call.WillPoint snapshot →
      w.pointer = some snapshot ∨ next.WillPoint snapshot)
    (hsettle : ∀ snapshot, w.store = some snapshot → call.WillSettle snapshot →
      next.WillSettle snapshot) :
    call.Effect w others (.running w' next) := by
  obtain ⟨hstore, hpointer, hpaths⟩ := hnames
  refine .of_store hholds hframe hevicts hstore ?_ (.inr (.inl hpointer)) ?_ ?_
  · intro other hother
    obtain rfl := mem_singleton.mp hother
    exact ⟨hown, htemporary, fun h => hkind.1 ▸ h, fun h => hkind.2 ▸ h⟩
  · intro snapshot hsnapshot hbefore
    rcases hbefore with hpointed | hpending
    · exact .inl (hpointer.trans hpointed)
    · rcases hpoint snapshot hsnapshot hpending with hpointed | hpending
      · exact .inl (hpointer.trans hpointed)
      · exact .inr ⟨next, mem_singleton_self _, hpending⟩
  · intro snapshot hsnapshot hbefore
    rcases hbefore with hsettled | hpending
    · exact .inl (hpaths.trans hsettled)
    · exact .inr ⟨next, mem_singleton_self _, hsettle snapshot hsnapshot hpending⟩

/-- A step that ends a call, and leaves nothing of it to be written. -/
theorem Call.Effect.ended (hcalls : outcome.calls = [])
    (hholds : ∀ snapshot, w.store = some snapshot → w.Holds snapshot)
    (hframe : World.Frame call.temporary call.evicts w outcome.world)
    (hevicts : ∀ snapshot, w.store = some snapshot → call.evicts ≠ some snapshot)
    (hstore : outcome.world.store = w.store) (hpointer : outcome.world.pointer = w.pointer)
    (hpoint : ∀ snapshot, w.store = some snapshot → call.WillPoint snapshot →
      w.pointer = some snapshot)
    (hsettled : ∀ snapshot, w.store = some snapshot →
      (w.resolvedPaths = some snapshot ∨ call.WillSettle snapshot) →
      outcome.world.resolvedPaths = some snapshot) :
    call.Effect w others outcome := by
  refine .of_store hholds hframe hevicts hstore ?_ (.inr (.inl hpointer)) ?_ ?_
  · simp [hcalls]
  · rintro snapshot hsnapshot (hpointed | hpending)
    · exact .inl (hpointer.trans hpointed)
    · exact .inl (hpointer.trans (hpoint snapshot hsnapshot hpending))
  · exact fun snapshot hsnapshot hbefore => .inl (hsettled snapshot hsnapshot hbefore)

/-- A step that writes the pointer to what the store names. -/
theorem Call.Effect.points {snapshot : Snapshot}
    (hholds : ∀ snapshot, w.store = some snapshot → w.Holds snapshot)
    (hevicts : call.evicts = none) (hstore : w.store = some snapshot)
    (hworld : outcome.world = { w with pointer := some snapshot })
    (hown : ∀ next ∈ outcome.calls, next.Sound outcome.world ∧ next.temporary = none ∧
      next.isStartup = call.isStartup ∧ (next.isActivating = true → call.isActivating = true))
    (hsettle : call.WillSettle snapshot → w.resolvedPaths = some snapshot ∨
      ∃ next ∈ outcome.calls, next.WillSettle snapshot) :
    call.Effect w others outcome := by
  have hnamed : ∀ other, w.store = some other → snapshot = other := by
    intro other hother
    rw [hstore] at hother
    exact some.inj hother
  refine .of_store hholds ?_ (by simp [hevicts]) (by rw [hworld]) ?_ ?_ ?_ ?_
  · rw [hworld]
    exact .of_eq (fun _ _ => rfl) rfl rfl
  · intro next hnext
    obtain ⟨hsound, htemporary, hstartup, hactivating⟩ := hown next hnext
    refine ⟨hsound, ?_, fun h => hstartup ▸ h, hactivating⟩
    intro key hkey
    rw [htemporary] at hkey
    cases hkey
  · rw [hworld, hstore]
    exact .inr (.inr rfl)
  · intro other hother _
    obtain rfl := hnamed other hother
    rw [hworld]
    exact .inl rfl
  · intro other hother hbefore
    obtain rfl := hnamed other hother
    rcases hbefore with hresolved | hpending
    · rw [hworld]
      exact .inl hresolved
    · rcases hsettle hpending with hresolved | hnext
      · rw [hworld]
        exact .inl hresolved
      · exact .inr hnext

theorem Call.Effect.prepared {artifact : Artifact} {stage stage' : ActivateStage}
    (hholds : ∀ snapshot, w.store = some snapshot → w.Holds snapshot)
    (hframe : World.Frame (Call.activating artifact stage).temporary
      (Call.activating artifact stage).evicts w w')
    (hnames : w'.store = w.store ∧ w'.pointer = w.pointer ∧ w'.resolvedPaths = w.resolvedPaths)
    (hown : stage'.Sound w' artifact)
    (hbefore : stage ∉ [ActivateStage.flushing, .readingPointer, .writingPointer, .settling])
    (htemporary : ∀ key, (Call.activating artifact stage').temporary = some key →
      (Call.activating artifact stage).temporary = some key ∨
        ∀ other ∈ others, other.temporary ≠ some key)
    (hevicts : ∀ snapshot, w.store = some snapshot →
      (Call.activating artifact stage).evicts ≠ some snapshot) :
    (Call.activating artifact stage).Effect w others (.running w' (.activating artifact stage')) := by
  refine .running hholds hframe hevicts hnames hown htemporary ⟨rfl, rfl⟩ ?_ ?_
  · rintro snapshot - (hstage | ⟨rfl, -⟩)
    · refine absurd ?_ hbefore
      exact mem_append_left [.settling] hstage
    · exact absurd (by simp) hbefore
  · exact fun snapshot _ hstage => absurd hstage hbefore

/-- A step of an activation that changes nothing and keeps its temporary directory. -/
theorem Call.Effect.advanced {artifact : Artifact} {stage stage' : ActivateStage}
    (hholds : ∀ snapshot, w.store = some snapshot → w.Holds snapshot)
    (hown : stage'.Sound w artifact)
    (hbefore : stage ∉ [ActivateStage.flushing, .readingPointer, .writingPointer, .settling])
    (hkept : (Call.activating artifact stage').temporary =
      (Call.activating artifact stage).temporary)
    (hevicts : (Call.activating artifact stage).evicts = none) :
    (Call.activating artifact stage).Effect w others (.running w (.activating artifact stage')) :=
  .prepared hholds (.refl _ _ _) ⟨rfl, rfl, rfl⟩ hown hbefore
    (fun key hkey => .inl (hkept ▸ hkey)) (by simp [hevicts])

end

section
variable {w : World} {others : List Call}

/-- Beginning to resolve the paths changes nothing, and resolves what the store names. -/
theorem beginResolve_cases (w : World) (purpose : Purpose) :
    (beginResolve w purpose = .returned w ∧
      ∀ snapshot, w.store = some snapshot → w.resolvedPaths = some snapshot) ∨
    ∃ snapshot, w.store = some snapshot ∧
      beginResolve w purpose = .running w (.resolving snapshot purpose .looking) := by
  rw [beginResolve]
  split
  · rename_i hstore
    refine .inl ⟨rfl, ?_⟩
    intro snapshot hsnapshot
    rw [hstore] at hsnapshot
    cases hsnapshot
  · rename_i active hstore
    split
    · rename_i hresolved
      refine .inl ⟨rfl, ?_⟩
      intro snapshot hsnapshot
      rw [hstore] at hsnapshot
      cases hsnapshot
      exact hresolved
    · exact .inr ⟨active, hstore, rfl⟩

variable {clock : ℕ}

variable (hholds : ∀ snapshot, w.store = some snapshot → w.Holds snapshot)
include hholds

/-- **What a step of `activate` does.** -/
theorem activateStep_effect {artifact : Artifact} {stage : ActivateStage}
    (hsound : stage.Sound w artifact)
    (hstep : (Call.activating artifact stage).Unhindered w others clock) :
    (Call.activating artifact stage).Effect w others (activateStep w artifact clock stage) := by
  cases stage with
  | preparing =>
    refine .prepared hholds (.refl _ _ _) ⟨rfl, rfl, rfl⟩ trivial (by simp) ?_ (by simp [Call.evicts])
    rintro key hkey
    obtain rfl := some.inj hkey
    exact .inr hstep
  | creating nonce =>
    simp only [activateStep]
    split
    · exact .advanced hholds trivial (by simp) rfl rfl
    · refine .prepared hholds (World.frame_setTemporary _ _ _) ⟨rfl, rfl, rfl⟩ ?_ (by simp)
        (fun key hkey => .inl hkey) (by simp [Call.evicts])
      refine ⟨{}, ?_, rfl⟩
      rw [World.setTemporary, get?_set, if_pos rfl]
  | writing nonce rest =>
    obtain ⟨directory, hdirectory, hrest⟩ := hsound
    cases rest with
    | nil =>
      obtain rfl : directory = artifact.directory := hrest
      exact .advanced hholds hdirectory (by simp) rfl rfl
    | cons file rest =>
      simp only [activateStep, hdirectory]
      refine .prepared hholds (World.frame_setTemporary _ _ _) ⟨rfl, rfl, rfl⟩ ?_ (by simp)
        (fun key hkey => .inl hkey) (by simp [Call.evicts])
      refine ⟨directory.write artifact file, ?_, hrest⟩
      rw [World.setTemporary, get?_set, if_pos rfl]
  | looking nonce =>
    simp only [activateStep]
    split
    · rename_i directory hdirectory
      exact .advanced hholds ⟨hsound, Validation.sound_begin hdirectory⟩ (by simp) rfl rfl
    · exact .advanced hholds hsound (by simp) rfl rfl
  | validating nonce validation =>
    obtain ⟨htemporary, hvalidation⟩ := hsound
    have hnext := hvalidation.step
    simp only [activateStep]
    split
    · rename_i w' validation' hresult
      obtain ⟨hframe, hkept, hnames⟩ := Validation.step_continued hresult
      rw [hresult] at hnext
      refine .prepared hholds hframe hnames ⟨?_, hnext⟩ (by simp) (fun key hkey => .inl hkey)
        (by simp [Call.evicts])
      rw [hkept]
      exact htemporary
    · rename_i hresult
      rw [hresult] at hnext
      split
      · exact .advanced hholds ⟨htemporary, hnext⟩ (by simp) rfl rfl
      · exact .advanced hholds hnext (by simp) rfl rfl
    · exact .advanced hholds htemporary (by simp) rfl rfl
  | comparing nonce =>
    simp only [activateStep]
    split
    · exact .advanced hholds hsound.2 (by simp) rfl rfl
    · exact .advanced hholds hsound.1 (by simp) rfl rfl
  | discarding nonce =>
    exact .prepared hholds (World.frame_removeTemporary _ _) ⟨rfl, rfl, rfl⟩ hsound (by simp)
      (by rintro _ ⟨⟩) (by simp [Call.evicts])
  | evicting nonce =>
    obtain ⟨hstore, hothers⟩ := hstep
    have hevicts : ∀ snapshot, w.store = some snapshot →
        (Call.activating artifact (.evicting nonce)).evicts ≠ some snapshot := by
      rintro snapshot hsnapshot hevicts
      exact hstore (hsnapshot.trans hevicts.symm)
    simp only [activateStep]
    split
    · rename_i w' hevict
      have hframe : World.Frame (some (artifact.snapshot, nonce)) _ w w' := World.frame_evict hevict
      obtain ⟨directory, -, rfl⟩ := map_eq_some_iff.mp hevict
      exact .prepared hholds hframe ⟨rfl, rfl, rfl⟩ hsound (by simp) (fun key hkey => .inl hkey)
        hevicts
    · exact .prepared hholds (.refl _ _ _) ⟨rfl, rfl, rfl⟩ trivial (by simp)
        (fun key hkey => .inl hkey) hevicts
  | installing nonce =>
    simp only [activateStep]
    split
    · rename_i w' hinstall
      have hframe : World.Frame _ none w w' := World.frame_install hinstall
      obtain ⟨directory, hdirectory, -, rfl⟩ := World.install_eq_some hinstall
      refine .prepared hholds hframe ⟨rfl, rfl, rfl⟩ ?_ (by simp) (by rintro _ ⟨⟩) (by simp [Call.evicts])
      -- what was moved into place is what was written
      rw [ActivateStage.Sound] at hsound
      rw [hsound] at hdirectory
      obtain rfl := some.inj hdirectory
      refine ⟨artifact.directory, ?_, artifact.directory_passes⟩
      rw [World.setGeneration, get?_set, if_pos rfl]
    · exact .advanced hholds trivial (by simp) rfl rfl
  | removing =>
    exact .prepared hholds (.refl _ _ _) ⟨rfl, rfl, rfl⟩ hsound (by simp)
      (by rintro _ ⟨⟩) (by simp [Call.evicts])
  | committing =>
    have hbehind := Behind.self artifact.snapshot
    refine ⟨⟨fun _ _ => rfl, ?_, ?_⟩, ?_, ?_, ?_, ?_, ?_, ?_, .inl rfl, ?_, ?_⟩
    · exact (World.Frame.refl w none none).generations
    · exact fun snapshot hsnapshot => hsnapshot.of_acceptable hstep
    · intro next hnext
      exact mem_singleton.mp hnext ▸ hbehind
    · intro next hnext key hkey
      rw [mem_singleton.mp hnext] at hkey
      cases hkey
    · intro next hnext hstartup
      rw [mem_singleton.mp hnext] at hstartup
      cases hstartup
    · exact fun _ _ _ => rfl
    · intro hactivating
      cases hactivating
    · intro snapshot hsnapshot
      obtain rfl := some.inj hsnapshot
      exact hsound
    · exact fun snapshot _ _ => .inr ⟨_, mem_singleton_self _, .inl (by simp)⟩
    · intro snapshot _ _
      refine .inr ⟨_, mem_singleton_self _, ?_⟩
      simp [Call.WillSettle]
  | cleaning nonce =>
    refine .ended rfl hholds (World.frame_removeTemporary _ _) (by simp [Call.evicts]) rfl rfl ?_ ?_
    · rintro snapshot - hpoint
      simp [Call.WillPoint] at hpoint
    · rintro snapshot - (hresolved | hsettle)
      · exact hresolved
      · simp [Call.WillSettle] at hsettle
  | flushing =>
    exact .running hholds (.refl _ _ _) (by simp [Call.evicts]) ⟨rfl, rfl, rfl⟩ hsound
      (by rintro _ ⟨⟩) ⟨rfl, rfl⟩ (fun _ _ _ => .inr (.inl (by simp)))
      (fun _ _ _ => by simp [Call.WillSettle])
  | readingPointer =>
    simp only [activateStep]
    split
    · rename_i hpointer
      refine .running hholds (.refl _ _ _) (by simp [Call.evicts]) ⟨rfl, rfl, rfl⟩ hsound
        (by rintro _ ⟨⟩) ⟨rfl, rfl⟩ ?_ (fun _ _ _ => by simp [Call.WillSettle])
      intro snapshot _ _
      by_cases hsnapshot : artifact.snapshot = snapshot
      · exact .inl (hsnapshot ▸ hpointer)
      · exact .inr (.inr ⟨rfl, hsnapshot⟩)
    · exact .running hholds (.refl _ _ _) (by simp [Call.evicts]) ⟨rfl, rfl, rfl⟩ hsound
        (by rintro _ ⟨⟩) ⟨rfl, rfl⟩ (fun _ _ _ => .inr (.inl (by simp)))
        (fun _ _ _ => by simp [Call.WillSettle])
  | writingPointer =>
    refine .of_store hholds (.of_eq (fun _ _ => rfl) rfl rfl) (by simp [Call.evicts]) rfl ?_
      (.inl rfl) ?_ ?_
    · intro next hnext
      obtain rfl := mem_singleton.mp hnext
      exact ⟨hsound, (by rintro _ ⟨⟩), (by rintro ⟨⟩), fun _ => rfl⟩
    · intro snapshot _ _
      by_cases hsnapshot : artifact.snapshot = snapshot
      · exact .inl (hsnapshot ▸ rfl)
      · exact .inr ⟨_, mem_singleton_self _, .inr ⟨rfl, hsnapshot⟩⟩
    · intro snapshot _ _
      refine .inr ⟨_, mem_singleton_self _, ?_⟩
      simp [Call.WillSettle]
  | settling =>
    simp only [activateStep]
    rcases beginResolve_cases { w with resolvedPaths := some artifact.snapshot } .request with
      ⟨heq, hresolved⟩ | ⟨active, hactive, heq⟩
    · rw [heq]
      refine .ended rfl hholds (.of_eq (fun _ _ => rfl) rfl rfl) (by simp [Call.evicts]) rfl rfl
        ?_ fun snapshot hsnapshot _ => hresolved snapshot hsnapshot
      rintro snapshot hsnapshot (hstage | ⟨-, hne⟩)
      · simp at hstage
      · exact absurd (some.inj (hresolved snapshot hsnapshot)) hne
    · -- the store names another snapshot, whose paths are resolved next
      rw [heq]
      have hnamed : ∀ snapshot, w.store = some snapshot → active = snapshot := by
        intro snapshot hsnapshot
        exact some.inj (hactive.symm.trans hsnapshot)
      refine .of_store hholds (.of_eq (fun _ _ => rfl) rfl rfl) (by simp [Call.evicts]) rfl ?_
        (.inl rfl) ?_ ?_
      · intro next hnext
        obtain rfl := mem_singleton.mp hnext
        exact ⟨⟨⟨active, hactive, .inr rfl⟩, fun hpurpose => absurd rfl hpurpose, (by rintro ⟨⟩)⟩,
          (by rintro _ ⟨⟩), (by rintro ⟨⟩), fun _ => rfl⟩
      · exact fun snapshot hsnapshot _ => .inr ⟨_, mem_singleton_self _,
          hnamed snapshot hsnapshot, (by rintro ⟨⟩), (by rintro ⟨⟩)⟩
      · exact fun snapshot hsnapshot _ => .inr ⟨_, mem_singleton_self _,
          hnamed snapshot hsnapshot, (by rintro ⟨⟩)⟩

variable {snapshot : Snapshot}
variable {purpose : Purpose}

/-- A step of resolving the paths that stays with the call. -/
theorem Call.Effect.resolving {w' : World} {stage stage' : ResolveStage}
    (hframe : World.Frame none none w w')
    (hnames : w'.store = w.store ∧ w'.pointer = w.pointer ∧ w'.resolvedPaths = w.resolvedPaths)
    (hsound : (Call.resolving snapshot purpose stage).Sound w)
    (hlegacy : stage' = .legacy → purpose = .request ∧ w.store ≠ some snapshot)
    (hsettling : stage' = .settling → w.pointer = some snapshot) :
    (Call.resolving snapshot purpose stage).Effect w others
      (.running w' (.resolving snapshot purpose stage')) := by
  obtain ⟨hbehind, hstartup, hrecovery⟩ := hsound
  refine .running hholds hframe (by simp [Call.evicts]) hnames ⟨?_, ?_, ?_⟩
    nofun ⟨rfl, rfl⟩ ?_ ?_
  · exact hnames.1 ▸ hbehind
  · intro hpurpose
    exact ⟨hnames.1.trans (hstartup hpurpose).1, fun hstage => hpurpose (hlegacy hstage).1⟩
  · intro hpurpose
    exact hnames.2.1.trans (hrecovery hpurpose)
  · rintro other hother ⟨rfl, -, -⟩
    by_cases hstage : stage' = .settling
    · exact .inl (hsettling hstage)
    · exact .inr ⟨rfl, hstage, fun hstage => (hlegacy hstage).2 hother⟩
  · rintro other hother ⟨rfl, -⟩
    exact ⟨rfl, fun hstage => (hlegacy hstage).2 hother⟩

variable {stage : ResolveStage}

variable (hsound : (Call.resolving snapshot purpose stage).Sound w)
include hsound

/-- An error while the paths are resolved ends a request, and leads the start of
the server to its recovery. -/
theorem throwResolve_effect (hthrow : w.store = some snapshot → purpose = .startup) :
    (Call.resolving snapshot purpose stage).Effect w others (throwResolve w snapshot purpose) := by
  obtain ⟨hbehind, hstartup, -⟩ := hsound
  cases purpose with
  | recovery => cases hthrow (hstartup (by decide)).1
  | request =>
    refine .ended rfl hholds (.refl _ _ _) (by simp [Call.evicts]) rfl rfl ?_ ?_
    · rintro other hother ⟨rfl, -⟩
      cases hthrow hother
    · rintro other hother (hresolved | ⟨rfl, -⟩)
      · exact hresolved
      · cases hthrow hother
  | startup =>
    have hstore : w.store = some snapshot := (hstartup (by decide)).1
    have hnamed : ∀ other, w.store = some other → snapshot = other := by
      intro other hother
      rw [hstore] at hother
      exact some.inj hother
    refine .of_store hholds (.of_eq (fun _ _ => rfl) rfl rfl) (by simp [Call.evicts]) rfl ?_
      (.inr (.inl rfl)) ?_ ?_
    · intro next hnext
      obtain rfl := mem_singleton.mp hnext
      exact ⟨hstore, nofun, fun _ => rfl, nofun⟩
    · intro other hother _
      exact .inr ⟨_, mem_singleton_self _, hnamed other hother⟩
    · intro other hother _
      exact .inr ⟨_, mem_singleton_self _, hnamed other hother⟩

theorem recoverResolve_effect (hpurpose : purpose ≠ .recovery) :
    (Call.resolving snapshot purpose stage).Effect w others
      (recoverResolve w snapshot purpose) := by
  cases purpose with
  | recovery => exact absurd rfl hpurpose
  | request => exact .resolving hholds (.refl _ _ _) ⟨rfl, rfl, rfl⟩ hsound nofun nofun
  | startup => exact throwResolve_effect hholds hsound fun _ => rfl

/-- **What a step of `resolveActivePaths` does.** Where the store names the snapshot,
its generation is whole, so that the recovery at the start cannot fail. -/
theorem resolveStep_effect
    (hstep : (Call.resolving snapshot purpose stage).Unhindered w others clock) :
    (Call.resolving snapshot purpose stage).Effect w others
      (resolveStep w snapshot purpose stage) := by
  have hwhole : purpose ≠ .request → w.Holds snapshot := fun hpurpose =>
    hholds snapshot (hsound.2.1 hpurpose).1
  cases stage with
  | looking =>
    simp only [resolveStep]
    split
    · exact .resolving hholds (.refl _ _ _) ⟨rfl, rfl, rfl⟩ hsound (by rintro ⟨⟩) (by rintro ⟨⟩)
    · rename_i hnone
      have hmissing : w.store ≠ some snapshot := by
        intro hstore
        obtain ⟨directory, hdirectory, -⟩ := hholds snapshot hstore
        rw [hnone] at hdirectory
        cases hdirectory
      refine .resolving hholds (.refl _ _ _) ⟨rfl, rfl, rfl⟩ hsound ?_ (by rintro ⟨⟩)
      refine fun _ => ⟨?_, hmissing⟩
      by_contra hpurpose
      exact hmissing (hsound.2.1 hpurpose).1
  | legacy =>
    have hrequest : purpose = .request := by
      by_contra hpurpose
      exact (hsound.2.1 hpurpose).2 rfl
    subst hrequest
    simp only [resolveStep]
    split
    · refine .ended rfl hholds (.of_eq (fun _ _ => rfl) rfl rfl) (by simp [Call.evicts]) rfl rfl
        ?_ ?_
      · exact fun other _ hpoint => absurd rfl hpoint.2.2
      · exact fun other hother _ => hstep.symm.trans hother
    · refine .ended rfl hholds (.refl _ _ _) (by simp [Call.evicts]) rfl rfl ?_ ?_
      · exact fun other _ hpoint => absurd rfl hpoint.2.2
      · rintro other - (hresolved | ⟨-, hlegacy⟩)
        · exact hresolved
        · exact absurd rfl hlegacy
  | readingMetadata =>
    simp only [resolveStep]
    split
    · exact .resolving hholds (.refl _ _ _) ⟨rfl, rfl, rfl⟩ hsound (by rintro ⟨⟩) (by rintro ⟨⟩)
    · rename_i hnone
      refine throwResolve_effect hholds hsound ?_
      intro hstore
      obtain ⟨directory, hdirectory, hpasses⟩ := hholds snapshot hstore
      have hmetadata := hpasses .metadata
      rw [Directory.passes, decide_eq_true_eq] at hmetadata
      rw [hdirectory, bind_some, hmetadata] at hnone
      cases hnone
  | lookingPointer =>
    exact .resolving hholds (.refl _ _ _) ⟨rfl, rfl, rfl⟩ hsound (by rintro ⟨⟩) (by rintro ⟨⟩)
  | lookingReceipt pointerExists =>
    simp only [resolveStep]
    split
    · exact .resolving hholds (.refl _ _ _) ⟨rfl, rfl, rfl⟩ hsound (by rintro ⟨⟩) (by rintro ⟨⟩)
    · split <;> exact .resolving hholds (.refl _ _ _) ⟨rfl, rfl, rfl⟩ hsound (by rintro ⟨⟩) (by rintro ⟨⟩)
  | verifyingPointer =>
    simp only [resolveStep]
    split
    · exact .resolving hholds (.refl _ _ _) ⟨rfl, rfl, rfl⟩ hsound (by rintro ⟨⟩) (by rintro ⟨⟩)
    · rename_i hpointer
      refine recoverResolve_effect hholds hsound ?_
      rintro rfl
      exact hpointer (hsound.2.2 rfl)
  | verifyingStored =>
    have hfails : purpose ≠ .request → ∃ directory, get? w.generations snapshot = some directory ∧
        (directory.passes snapshot .metadata && directory.passes snapshot .receipt) = true := by
      intro hpurpose
      obtain ⟨directory, hdirectory, hpasses⟩ := hwhole hpurpose
      exact ⟨directory, hdirectory, by rw [hpasses, hpasses]; rfl⟩
    simp only [resolveStep]
    split
    · rename_i directory hdirectory
      split
      · exact .resolving hholds (.refl _ _ _) ⟨rfl, rfl, rfl⟩ hsound (by rintro ⟨⟩) (by rintro ⟨⟩)
      · rename_i hnot
        refine recoverResolve_effect hholds hsound ?_
        rintro rfl
        obtain ⟨found, hfound, hpasses⟩ := hfails (by decide)
        rw [hdirectory] at hfound
        cases hfound
        exact hnot hpasses
    · rename_i hnone
      refine recoverResolve_effect hholds hsound ?_
      rintro rfl
      obtain ⟨found, hfound, -⟩ := hfails (by decide)
      rw [hnone] at hfound
      cases hfound
  | validating validation =>
    simp only [resolveStep]
    split
    · rename_i w' validation' hresult
      obtain ⟨hframe, -, hnames⟩ := Validation.step_continued hresult
      exact .resolving hholds hframe hnames hsound (by rintro ⟨⟩) (by rintro ⟨⟩)
    · exact .resolving hholds (.refl _ _ _) ⟨rfl, rfl, rfl⟩ hsound (by rintro ⟨⟩) (by rintro ⟨⟩)
    · rename_i hfailed
      refine throwResolve_effect hholds hsound ?_
      exact fun hstore => absurd hfailed
        (Validation.step_ne_failed (hholds snapshot hstore) validation)
  | readingPointer =>
    simp only [resolveStep]
    split
    · rename_i hpointer
      exact .resolving hholds (.refl _ _ _) ⟨rfl, rfl, rfl⟩ hsound (by rintro ⟨⟩) fun _ => hpointer
    · exact .resolving hholds (.refl _ _ _) ⟨rfl, rfl, rfl⟩ hsound (by rintro ⟨⟩) (by rintro ⟨⟩)
  | writingPointer =>
    refine .points hholds rfl hstep rfl ?_ ?_
    · intro next hnext
      obtain rfl := mem_singleton.mp hnext
      refine ⟨⟨hsound.1, ?_, fun _ => rfl⟩, rfl, rfl, (by rintro ⟨⟩)⟩
      exact fun hpurpose => ⟨(hsound.2.1 hpurpose).1, (by rintro ⟨⟩)⟩
    · exact fun hsettle => .inr ⟨_, mem_singleton_self _, hsettle.1, (by rintro ⟨⟩)⟩
  | settling =>
    refine .ended rfl hholds (.of_eq (fun _ _ => rfl) rfl rfl) (by simp [Call.evicts]) rfl rfl ?_ ?_
    · exact fun other _ hpoint => absurd rfl hpoint.2.1
    · exact fun other hother _ => hstep.symm.trans hother

omit hsound in
/-- **What a step of `recover` does.** It is about the snapshot the store names, so
it does not fail. -/
theorem recoverStep_effect {stage : RecoverStage}
    (hsound : (Call.recovering snapshot stage).Sound w) :
    (Call.recovering snapshot stage).Effect w others (recoverStep w snapshot stage) := by
  have hstore : w.store = some snapshot := hsound
  cases stage with
  | validating validation =>
    simp only [recoverStep]
    split
    · rename_i w' validation' hresult
      obtain ⟨hframe, -, hnames⟩ := Validation.step_continued hresult
      exact .running hholds hframe (by simp [Call.evicts]) hnames (hnames.1.trans hstore)
        nofun ⟨rfl, rfl⟩ (fun _ _ hpoint => .inr hpoint) (fun _ _ hsettle => hsettle)
    · exact .running hholds (.refl _ _ _) (by simp [Call.evicts]) ⟨rfl, rfl, rfl⟩ hstore
        nofun ⟨rfl, rfl⟩ (fun _ _ hpoint => .inr hpoint) (fun _ _ hsettle => hsettle)
    · rename_i hfailed
      exact absurd hfailed (Validation.step_ne_failed (hholds snapshot hstore) validation)
  | readingPointer =>
    simp only [recoverStep]
    split
    · rename_i hpointer
      rcases beginResolve_cases w .recovery with ⟨heq, hresolved⟩ | ⟨active, hactive, heq⟩
      · rw [heq]
        exact .ended rfl hholds (.refl _ _ _) (by simp [Call.evicts]) rfl rfl
          (fun _ _ hpoint => hpoint ▸ hpointer) (fun other hother _ => hresolved other hother)
      · rw [heq]
        rw [hstore] at hactive
        cases hactive
        refine .running hholds (.refl _ _ _) (by simp [Call.evicts]) ⟨rfl, rfl, rfl⟩
          ⟨hstore ▸ Behind.self _, fun _ => ⟨hstore, nofun⟩, fun _ => hpointer⟩
          nofun ⟨rfl, rfl⟩ ?_ ?_
        · exact fun _ _ hpoint => .inl (hpoint ▸ hpointer)
        · exact fun _ _ hsettle => ⟨hsettle, nofun⟩
    · exact .running hholds (.refl _ _ _) (by simp [Call.evicts]) ⟨rfl, rfl, rfl⟩ hstore
        nofun ⟨rfl, rfl⟩ (fun _ _ hpoint => .inr hpoint) (fun _ _ hsettle => hsettle)
  | writingPointer =>
    simp only [recoverStep]
    rcases beginResolve_cases { w with pointer := some snapshot } .recovery with
      ⟨heq, hresolved⟩ | ⟨active, hactive, heq⟩
    · rw [heq]
      exact .points hholds rfl hstore rfl (by simp [Outcome.calls])
        fun _ => .inl (hresolved snapshot hstore)
    · rw [heq]
      have hnamed : some snapshot = some active := hstore.symm.trans hactive
      cases hnamed
      refine .points hholds rfl hstore rfl ?_
        fun _ => .inr ⟨_, mem_singleton_self _, rfl, nofun⟩
      intro next hnext
      obtain rfl := mem_singleton.mp hnext
      refine ⟨⟨?_, fun _ => ⟨hstore, nofun⟩, fun _ => rfl⟩, rfl, rfl, nofun⟩
      exact ⟨snapshot, hstore, .inr rfl⟩

omit hsound in
/-- **What an unhindered step of a call does.** -/
theorem Call.step_effect {call : Call} (hsound : call.Sound w)
    (hstep : call.Unhindered w others clock) : call.Effect w others (call.step w clock) := by
  cases call with
  | activating artifact stage => exact activateStep_effect hholds hsound hstep
  | resolving snapshot purpose stage => exact resolveStep_effect hholds hsound hstep
  | recovering snapshot stage => exact recoverStep_effect hholds hsound

end

end HomelabInventory.Catalog
