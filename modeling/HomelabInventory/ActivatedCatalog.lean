import HomelabInventory.CatalogSteps
import HomelabInventory.GuardedRuns
import Mathlib.Data.List.Perm.Basic

/-!
# Catalog activation moves forward

Over any interleaving of activations, requests and crashes whose steps are
unhindered, the revision of the store only grows, the generation it names is
whole, and pointer and resolved paths name it once nothing is in flight. Three
runs show what activations that overlap do otherwise.
-/

namespace HomelabInventory.Catalog

open InsertionMap List Option

/-! ## Runs -/

/-- The next step of the service is unhindered. -/
def System.Unhindered (s : System) : Update → Prop
  | .advance index clock => ∀ call, s.calls[index]? = some call →
      call.Unhindered s.world (s.calls.eraseIdx index) clock
  | _ => True

instance (w : World) (others : List Call) (clock : ℕ) (call : Call) :
    Decidable (call.Unhindered w others clock) := by
  unfold Call.Unhindered
  split <;> infer_instance

instance (s : System) : (update : Update) → Decidable (s.Unhindered update)
  | .advance index clock => inferInstanceAs (Decidable (∀ call ∈ s.calls[index]?,
      call.Unhindered s.world (s.calls.eraseIdx index) clock))
  | .activate _ | .resolve | .crash => .isTrue trivial

/-- The steps that lead from one system to another, all under a condition. -/
abbrev Runs (condition : System → Update → Prop) (start : System) : System → Prop :=
  RunsTo System.step condition (· = start)

/-- Nothing is in flight, and what the store names is whole, pointed at and resolved. -/
structure System.Settled (s : System) : Prop where
  calls : s.calls = []
  holds : ∀ snapshot, s.world.store = some snapshot → s.world.Holds snapshot
  pointer : ∀ snapshot, s.world.store = some snapshot → s.world.pointer = some snapshot
  paths : ∀ snapshot, s.world.store = some snapshot → s.world.resolvedPaths = some snapshot

/-! ## What holds of the calls in flight -/

/-- The calls in flight find what they rely on, and together they are going to
write what pointer and paths lack. -/
structure Sound (w : World) (calls : List Call) : Prop where
  holds : ∀ snapshot, w.store = some snapshot → w.Holds snapshot
  each : ∀ call ∈ calls, call.Sound w
  apart : (calls.filterMap Call.temporary).Nodup
  alone : ∀ call ∈ calls, call.isStartup = true → ∀ other ∈ calls, other.isActivating = false
  pointer : ∀ snapshot, w.store = some snapshot →
    w.pointer = some snapshot ∨ ∃ call ∈ calls, call.WillPoint snapshot
  paths : ∀ snapshot, w.store = some snapshot →
    w.resolvedPaths = some snapshot ∨ ∃ call ∈ calls, call.WillSettle snapshot

variable {w w' : World}

/-- The order of the calls does not matter. -/
theorem Sound.perm {calls calls' : List Call} (h : Sound w calls) (hperm : calls.Perm calls') :
    Sound w calls' where
  holds := h.holds
  each call hcall := h.each call (hperm.mem_iff.mpr hcall)
  apart := (hperm.filterMap _).nodup_iff.mp h.apart
  alone call hcall hstartup other hother :=
    h.alone call (hperm.mem_iff.mpr hcall) hstartup other (hperm.mem_iff.mpr hother)
  pointer snapshot hsnapshot := (h.pointer snapshot hsnapshot).imp_right
    fun ⟨call, hcall, hpoint⟩ => ⟨call, hperm.mem_iff.mp hcall, hpoint⟩
  paths snapshot hsnapshot := (h.paths snapshot hsnapshot).imp_right
    fun ⟨call, hcall, hsettle⟩ => ⟨call, hperm.mem_iff.mp hcall, hsettle⟩

variable {s s' start : System}

theorem System.Settled.sound (h : s.Settled) : Sound s.world s.calls where
  holds := h.holds
  each := by simp [h.calls]
  apart := by simp [h.calls]
  alone := by simp [h.calls]
  pointer snapshot hsnapshot := .inl (h.pointer snapshot hsnapshot)
  paths snapshot hsnapshot := .inl (h.paths snapshot hsnapshot)

variable {call : Call}

/-- What is written, or pending with one of the calls, still is after the step of
one of them: another call that is going to write it is left as it was. -/
theorem pending_advance {named written written' : Prop} {pending : Call → Prop}
    {others left : List Call} (h : named → written ∨ ∃ other ∈ call :: others, pending other)
    (hstep : (named → written ∨ pending call) → written' ∨ ∃ next ∈ left, pending next) :
    written' ∨ ∃ next ∈ left ++ others, pending next := by
  by_cases hothers : ∃ other ∈ others, pending other
  · obtain ⟨other, hother, hpending⟩ := hothers
    exact .inr ⟨other, mem_append_right _ hother, hpending⟩
  · have hcall : named → written ∨ pending call := by
      intro hnamed
      rcases h hnamed with hwritten | ⟨other, hother, hpending⟩
      · exact .inl hwritten
      · rcases mem_cons.mp hother with rfl | hother
        · exact .inr hpending
        · exact absurd ⟨other, hother, hpending⟩ hothers
    rcases hstep hcall with hwritten | ⟨next, hnext, hpending⟩
    · exact .inl hwritten
    · exact .inr ⟨next, mem_append_left _ hnext, hpending⟩

variable {calls others : List Call}

/-- **The step of one call keeps all of them sound.** -/
theorem Sound.advance {clock : ℕ} (h : Sound w (call :: others))
    (hstep : call.Unhindered w others clock) :
    Sound (call.step w clock).world ((call.step w clock).calls ++ others) := by
  have heffect : call.Effect w others (call.step w clock) :=
    Call.step_effect h.holds (h.each call mem_cons_self) hstep
  have hothers : ∀ other ∈ others, other ∈ call :: others := fun other hother =>
    mem_cons_of_mem _ hother
  -- at most one call is left of the one that stepped
  have hleft : ∀ next ∈ (call.step w clock).calls, (call.step w clock).calls = [next] := by
    intro next hnext
    cases houtcome : call.step w clock with
    | running w' left =>
      rw [houtcome] at hnext
      rw [mem_singleton.mp hnext]
      rfl
    | returned w' =>
      rw [houtcome] at hnext
      cases hnext
    | rejected w' =>
      rw [houtcome] at hnext
      cases hnext
  refine ⟨heffect.holds, ?_, ?_, ?_, ?_, ?_⟩
  · intro other hother
    rcases mem_append.mp hother with hother | hother
    · exact heffect.own other hother
    · refine heffect.frame.call (h.each other (hothers other hother)) ?_ ?_ ?_ ?_
      · intro key hkey hcall
        -- two calls in flight share no temporary directory
        have hapart := h.apart
        rw [filterMap_cons_some hcall, nodup_cons] at hapart
        exact hapart.1 (mem_filterMap.mpr ⟨other, hother, hkey⟩)
      · exact fun snapshot hrelies hevicts => hstep.relies hevicts hother hrelies
      · intro hstartup
        exact heffect.store (h.alone other (hothers other hother) hstartup call mem_cons_self)
      · intro hstartup
        refine heffect.pointer.resolve_left ?_
        rw [h.alone other (hothers other hother) hstartup call mem_cons_self]
        decide
  · have hrest : (others.filterMap Call.temporary).Nodup :=
      h.apart.sublist ((sublist_cons_self call others).filterMap _)
    rw [filterMap_append]
    cases hnext : (call.step w clock).calls with
    | nil => exact hrest
    | cons next rest =>
      have hmem : next ∈ (call.step w clock).calls := hnext ▸ mem_cons_self
      have hsingle := hleft next hmem
      rw [hnext] at hsingle
      rw [hsingle]
      cases htemporary : next.temporary with
      | none => simpa [htemporary] using hrest
      | some key =>
        have hfresh : key ∉ others.filterMap Call.temporary := by
          intro hkey
          obtain ⟨other, hother, hotherKey⟩ := mem_filterMap.mp hkey
          rcases heffect.temporary next hmem key htemporary with hcall | hnew
          · have hapart := h.apart
            rw [filterMap_cons_some hcall, nodup_cons] at hapart
            exact hapart.1 hkey
          · exact hnew other hother hotherKey
        simpa [htemporary] using ⟨fun other hother hkey =>
          hfresh (mem_filterMap.mpr ⟨other, hother, hkey⟩), hrest⟩
  · intro other hother hstartup active hactive
    have hbefore : ∃ before ∈ call :: others, before.isStartup = true := by
      rcases mem_append.mp hother with hother | hother
      · exact ⟨call, mem_cons_self, heffect.startup other hother hstartup⟩
      · exact ⟨other, hothers other hother, hstartup⟩
    obtain ⟨before, hmem, hbeforeStartup⟩ := hbefore
    have hnone := h.alone before hmem hbeforeStartup
    rcases mem_append.mp hactive with hactive | hactive
    · by_contra hactivating
      rw [Bool.not_eq_false] at hactivating
      have hcall := heffect.activating active hactive hactivating
      rw [hnone call mem_cons_self] at hcall
      cases hcall
    · exact hnone active (hothers active hactive)
  · intro snapshot hsnapshot
    exact pending_advance (h.pointer snapshot) (heffect.pointed snapshot hsnapshot)
  · intro snapshot hsnapshot
    exact pending_advance (h.paths snapshot) (heffect.settled snapshot hsnapshot)

/-- A call that has just begun, and relies on nothing yet. -/
theorem Sound.begin (h : Sound w calls) (hcall : call.Sound w) (htemporary : call.temporary = none)
    (hstartup : call.isStartup = false)
    (halone : call.isActivating = true → ∀ other ∈ calls, other.isStartup = false) :
    Sound w (calls ++ [call]) where
  holds := h.holds
  each other hother := by
    rcases mem_append.mp hother with hother | hother
    · exact h.each other hother
    · exact mem_singleton.mp hother ▸ hcall
  apart := by
    rw [filterMap_append, filterMap_cons_none htemporary, filterMap_nil,
      append_nil]
    exact h.apart
  alone other hother hotherStartup active hactive := by
    rcases mem_append.mp hother with hother | hother
    · rcases mem_append.mp hactive with hactive | hactive
      · exact h.alone other hother hotherStartup active hactive
      · by_contra hactivating
        rw [Bool.not_eq_false, mem_singleton.mp hactive] at hactivating
        rw [halone hactivating other hother] at hotherStartup
        cases hotherStartup
    · rw [mem_singleton.mp hother, hstartup] at hotherStartup
      cases hotherStartup
  pointer snapshot hsnapshot := (h.pointer snapshot hsnapshot).imp_right
    fun ⟨other, hother, hpoint⟩ => ⟨other, mem_append_left _ hother, hpoint⟩
  paths snapshot hsnapshot := (h.paths snapshot hsnapshot).imp_right
    fun ⟨other, hother, hsettle⟩ => ⟨other, mem_append_left _ hother, hsettle⟩

/-- The calls after the step of one of them, in another order. -/
theorem System.follow_perm {index : ℕ} (hindex : index < s.calls.length) (outcome : Outcome) :
    (s.follow index outcome).world = outcome.world ∧
      (outcome.calls ++ s.calls.eraseIdx index).Perm (s.follow index outcome).calls := by
  cases outcome with
  | running w call => exact ⟨rfl, (set_perm_cons_eraseIdx hindex call).symm⟩
  | returned w => exact ⟨rfl, .refl _⟩
  | rejected w => exact ⟨rfl, .refl _⟩

/-- The service after a crash: only the store and the files are left, and the
start of the server resolves the paths. -/
theorem Sound.crash (h : Sound w calls) :
    Sound (System.begin { world := { w with resolvedPaths := none } }
        (beginResolve { w with resolvedPaths := none } .startup)).world
      (System.begin { world := { w with resolvedPaths := none } }
        (beginResolve { w with resolvedPaths := none } .startup)).calls := by
  rcases beginResolve_cases { w with resolvedPaths := none } .startup with
    ⟨heq, hresolved⟩ | ⟨active, hactive, heq⟩
  · rw [heq]
    have hnone : ∀ snapshot, w.store ≠ some snapshot := by
      intro snapshot hsnapshot
      cases hresolved snapshot hsnapshot
    refine ⟨fun snapshot hsnapshot => absurd hsnapshot (hnone snapshot), ?_, nodup_nil, ?_,
      fun snapshot hsnapshot => absurd hsnapshot (hnone snapshot),
      fun snapshot hsnapshot => absurd hsnapshot (hnone snapshot)⟩
    · exact fun call hcall => by cases hcall
    · exact fun call hcall => by cases hcall
  · rw [heq]
    have hnamed : ∀ snapshot, w.store = some snapshot → active = snapshot := by
      intro snapshot hsnapshot
      exact some.inj (hactive.symm.trans hsnapshot)
    refine ⟨h.holds, ?_, nodup_nil, ?_, ?_, ?_⟩
    · intro call hcall
      obtain rfl := mem_singleton.mp hcall
      exact ⟨⟨active, hactive, .inr rfl⟩, fun _ => ⟨hactive, nofun⟩, nofun⟩
    · intro call hcall _ other hother
      obtain rfl := mem_singleton.mp hother
      rfl
    · intro snapshot hsnapshot
      exact .inr ⟨_, mem_singleton_self _, hnamed snapshot hsnapshot, nofun, nofun⟩
    · intro snapshot hsnapshot
      exact .inr ⟨_, mem_singleton_self _, hnamed snapshot hsnapshot, nofun⟩

/-- **Every unhindered step keeps the service sound**, and never takes the store back. -/
theorem Sound.step {update : Update} (h : Sound s.world s.calls) (hupdate : s.Unhindered update)
    (hstep : s.step update = some s') :
    Sound s'.world s'.calls ∧
      ∀ snapshot, Behind s.world.store snapshot → Behind s'.world.store snapshot := by
  cases update with
  | activate artifact =>
    simp only [System.step] at hstep
    split at hstep
    · cases hstep
    · rename_i hquiet
      split at hstep
      · obtain rfl := some.inj hstep
        refine ⟨h.begin trivial rfl rfl ?_, fun _ hbehind => hbehind⟩
        intro _ other hother
        by_contra hstartup
        rw [Bool.not_eq_false] at hstartup
        exact hquiet (any_eq_true.mpr ⟨other, hother, hstartup⟩)
      · obtain rfl := some.inj hstep
        exact ⟨h, fun _ hbehind => hbehind⟩
  | resolve =>
    obtain rfl := some.inj hstep
    rcases beginResolve_cases s.world .request with ⟨heq, -⟩ | ⟨active, hactive, heq⟩
    · rw [heq]
      exact ⟨h, fun _ hbehind => hbehind⟩
    · rw [heq]
      refine ⟨h.begin ⟨⟨active, hactive, .inr rfl⟩, ?_, nofun⟩ rfl rfl nofun,
        fun _ hbehind => hbehind⟩
      exact fun hpurpose => absurd rfl hpurpose
  | advance index clock =>
    obtain ⟨call, hcall, rfl⟩ := map_eq_some_iff.mp hstep
    obtain ⟨hindex, rfl⟩ := List.getElem?_eq_some_iff.mp hcall
    have hunhindered := hupdate _ hcall
    have hbefore := h.perm (getElem_cons_eraseIdx_perm hindex).symm
    obtain ⟨hworld, hperm⟩ := System.follow_perm hindex ((s.calls[index]).step s.world clock)
    have heffect := Call.step_effect hbefore.holds (hbefore.each _ mem_cons_self) hunhindered
    rw [hworld]
    exact ⟨(hbefore.advance hunhindered).perm hperm, heffect.frame.store⟩
  | crash =>
    obtain rfl := some.inj hstep
    refine ⟨h.crash, ?_⟩
    intro snapshot hbehind
    rcases beginResolve_cases { s.world with resolvedPaths := none } .startup with
      ⟨heq, -⟩ | ⟨active, -, heq⟩
    · rw [heq]
      exact hbehind
    · rw [heq]
      exact hbehind

theorem Runs.sound (h : Runs System.Unhindered start s) (hstart : Sound start.world start.calls) :
    Sound s.world s.calls :=
  h.invariant (fun _ hs => hs ▸ hstart) fun _ _ _ ih hupdate hstep => (ih.step hupdate hstep).1

variable {snapshot : Snapshot}

/-- The store never goes back. -/
theorem Runs.behind (h : Runs System.Unhindered start s) (hstart : Sound start.world start.calls)
    (hbehind : Behind start.world.store snapshot) : Behind s.world.store snapshot := by
  induction h with
  | start hs => exact hs ▸ hbehind
  | step hrun update hupdate hstep ih =>
    exact ((Runs.sound hrun hstart).step hupdate hstep).2 _ ih

/-! ## Rejections -/

/-- The step rejects a call: at its first check, or where it stands. -/
def System.Rejects (s : System) : Update → Prop
  | .activate artifact => acceptable s.world.store artifact.snapshot = false
  | .advance index clock => ∃ call w, s.calls[index]? = some call ∧
      call.step s.world clock = .rejected w
  | _ => False

/-- The store, the pointer and the resolved paths. -/
def World.names (w : World) : Option Snapshot × Option Snapshot × Option Snapshot :=
  (w.store, w.pointer, w.resolvedPaths)

variable {purpose : Purpose}

theorem throwResolve_rejected (h : throwResolve w snapshot purpose = .rejected w') :
    w'.names = w.names := by
  cases purpose <;> cases h <;> rfl

theorem recoverResolve_rejected (h : recoverResolve w snapshot purpose = .rejected w') :
    w'.names = w.names := by
  cases purpose with
  | request => cases h
  | startup => cases h
  | recovery =>
    cases h
    rfl

theorem beginResolve_ne_rejected : beginResolve w purpose ≠ .rejected w' := by
  rcases beginResolve_cases w purpose with ⟨heq, -⟩ | ⟨active, -, heq⟩
  · rw [heq]
    exact Outcome.noConfusion
  · rw [heq]
    exact Outcome.noConfusion

theorem activateStep_rejected {artifact : Artifact} {clock : ℕ} {stage : ActivateStage}
    (h : activateStep w artifact clock stage = .rejected w') : w'.names = w.names := by
  cases stage with
  | cleaning nonce =>
    cases h
    rfl
  | settling => exact absurd h beginResolve_ne_rejected
  | writing nonce rest =>
    cases rest with
    | nil => cases h
    | cons file rest =>
      simp only [activateStep] at h
      split at h <;> cases h
  | validating nonce validation =>
    simp only [activateStep] at h
    split at h
    · cases h
    · split at h <;> cases h
    · cases h
  | preparing | discarding nonce | removing | committing | flushing | writingPointer => cases h
  | creating nonce | looking nonce | comparing nonce | evicting nonce | installing nonce
  | readingPointer =>
    simp only [activateStep] at h
    split at h <;> cases h

theorem resolveStep_rejected {stage : ResolveStage}
    (h : resolveStep w snapshot purpose stage = .rejected w') : w'.names = w.names := by
  cases stage with
  | lookingPointer | writingPointer | settling => cases h
  | looking | readingPointer =>
    simp only [resolveStep] at h
    split at h <;> cases h
  | legacy | readingMetadata =>
    simp only [resolveStep] at h
    split at h
    · cases h
    · exact throwResolve_rejected h
  | lookingReceipt pointerExists =>
    simp only [resolveStep] at h
    split at h
    · cases h
    · split at h <;> cases h
  | verifyingPointer =>
    simp only [resolveStep] at h
    split at h
    · cases h
    · exact recoverResolve_rejected h
  | verifyingStored =>
    simp only [resolveStep] at h
    split at h
    · split at h
      · cases h
      · exact recoverResolve_rejected h
    · exact recoverResolve_rejected h
  | validating validation =>
    simp only [resolveStep] at h
    split at h
    · cases h
    · cases h
    · exact throwResolve_rejected h

theorem recoverStep_rejected {stage : RecoverStage}
    (h : recoverStep w snapshot stage = .rejected w') : w'.names = w.names := by
  cases stage with
  | validating validation =>
    simp only [recoverStep] at h
    split at h
    · cases h
    · cases h
    · cases h
      rfl
  | readingPointer =>
    simp only [recoverStep] at h
    split at h
    · exact absurd h beginResolve_ne_rejected
    · cases h
  | writingPointer => exact absurd h beginResolve_ne_rejected

/-- **A step that rejects a call writes neither the store nor the pointer nor the paths.** -/
theorem System.rejects_names {update : Update} (hrejects : s.Rejects update)
    (hstep : s.step update = some s') : s'.world.names = s.world.names := by
  cases update with
  | activate artifact =>
    rw [Rejects] at hrejects
    simp only [System.step, hrejects, Bool.false_eq_true, if_false] at hstep
    split at hstep
    · cases hstep
    · obtain rfl := some.inj hstep
      rfl
  | resolve => exact absurd hrejects id
  | advance index clock =>
    obtain ⟨call, w, hcall, hrejected⟩ := hrejects
    simp only [System.step, hcall, map_some, hrejected] at hstep
    obtain rfl := some.inj hstep
    cases call with
    | activating artifact stage => exact activateStep_rejected hrejected
    | resolving snapshot purpose stage => exact resolveStep_rejected hrejected
    | recovering snapshot stage => exact recoverStep_rejected hrejected
  | crash => exact absurd hrejects id

/-! ## Activations that do not hinder each other -/

/-- **Catalog activation only moves forward**, in a run in which every commit finds
its check still true, no generation is moved away that the store or a call relies
on, calls in flight share no temporary directory, and what resolves the paths
writes them while the store still names its snapshot. -/
theorem activation_moves_forward {start s : System} (hstart : start.Settled)
    (hrun : Runs System.Unhindered start s) :
    (∀ snapshot, s.world.store = some snapshot → s.world.Holds snapshot) ∧
      (s.calls = [] → s.Settled) ∧
      (∀ s', Runs System.Unhindered s s' → ∀ snapshot, s.world.store = some snapshot →
        ∃ later, s'.world.store = some later ∧ snapshot.revision ≤ later.revision ∧
          (snapshot.revision = later.revision → snapshot.digest = later.digest)) ∧
      (∀ update s', s.Rejects update → s.step update = some s' →
        s'.world.names = s.world.names) := by
  have hsound := hrun.sound hstart.sound
  refine ⟨hsound.holds, ?_, ?_, fun update s' => s.rejects_names⟩
  · intro hcalls
    refine ⟨hcalls, hsound.holds, ?_, ?_⟩
    · intro snapshot hsnapshot
      refine (hsound.pointer snapshot hsnapshot).resolve_right ?_
      rintro ⟨call, hcall, -⟩
      rw [hcalls] at hcall
      cases hcall
    · intro snapshot hsnapshot
      refine (hsound.paths snapshot hsnapshot).resolve_right ?_
      rintro ⟨call, hcall, -⟩
      rw [hcalls] at hcall
      cases hcall
  · intro s' hrun' snapshot hsnapshot
    obtain ⟨later, hlater, hbehind⟩ := hrun'.behind hsound ⟨snapshot, hsnapshot, .inr rfl⟩
    refine ⟨later, hlater, ?_⟩
    rcases hbehind with hlt | rfl
    · exact ⟨Nat.le_of_lt hlt, fun heq => absurd heq (Nat.ne_of_lt hlt)⟩
    · exact ⟨Nat.le_refl _, fun _ => rfl⟩

/-- A service without a catalog is settled, and an activation may begin there. -/
theorem empty_settled : System.Settled {} := ⟨rfl, nofun, nofun, nofun⟩

/-! ## Activations that overlap -/

/-- The service after a list of updates. -/
def System.runs (s : System) (updates : List Update) : Option System := updates.foldlM step s

theorem Runs.of_runs {updates : List Update} (h : s.runs updates = some s') :
    Runs (fun _ _ => True) s s' :=
  RunsTo.run (show Runs _ s s from .start rfl)
    (fun update _ _ _ hstep => ⟨update, trivial, hstep⟩) h

/-- An artifact without a facet index. -/
def plainArtifact (revision : ℕ) (digest : String) : Artifact where
  snapshot := ⟨revision, digest⟩

/-- An artifact of the first revision with a facet index. -/
def facetedArtifact : Artifact where
  snapshot := ⟨1, "a"⟩
  facets := some ⟨1, "facets"⟩

/-- The next steps of the call of an index. -/
def steps (index count : ℕ) : List Update := List.replicate count (.advance index index)

/-- Two revisions are activated one after the other: each ends where store, pointer and resolved
paths name it. -/
theorem first_activation_moves_forward : ∃ s s', Runs System.Unhindered {} s ∧
    Runs System.Unhindered s s' ∧ s.world.names = (some ⟨1, "a"⟩, some ⟨1, "a"⟩, some ⟨1, "a"⟩) ∧
    s'.world.names = (some ⟨2, "b"⟩, some ⟨2, "b"⟩, some ⟨2, "b"⟩) ∧ s.Settled ∧ s'.Settled := by
  obtain ⟨s, hs, hcalls, hnames, s', hs', hcalls', hnames'⟩ : ∃ s,
      (.activate (plainArtifact 1 "a") :: steps 0 15).foldlM (guarded System.step System.Unhindered)
        {} = some s ∧
      s.calls = [] ∧ s.world.names = (some ⟨1, "a"⟩, some ⟨1, "a"⟩, some ⟨1, "a"⟩) ∧
      ∃ s', (.activate (plainArtifact 2 "b") :: steps 0 15).foldlM
        (guarded System.step System.Unhindered) s = some s' ∧
      s'.calls = [] ∧ s'.world.names = (some ⟨2, "b"⟩, some ⟨2, "b"⟩, some ⟨2, "b"⟩) :=
    ⟨_, rfl, rfl, rfl, _, rfl, rfl, rfl⟩
  have hrun : Runs System.Unhindered {} s := RunsTo.checked (.start rfl) hs
  have hrun' : Runs System.Unhindered s s' := RunsTo.checked (.start rfl) hs'
  have hsettled := (activation_moves_forward empty_settled hrun).2.1 hcalls
  exact ⟨s, s', hrun, hrun', hnames, hnames', hsettled,
    (activation_moves_forward hsettled hrun').2.1 hcalls'⟩

/-- **Activations that overlap take the catalog back.** One that made its checks
before another committed takes the store back to its own revision; one that brings
another facet index moves the generation away that the store names; and what
resolves the paths for a snapshot that is not active any more writes them last. -/
theorem overlapping_activations :
    (∃ s s', Runs (fun _ _ => True) {} s ∧ Runs (fun _ _ => True) s s' ∧
      s.world.store = some ⟨2, "b"⟩ ∧ s'.world.store = some ⟨1, "a"⟩) ∧
    (∃ s, Runs (fun _ _ => True) {} s ∧ s.world.store = some ⟨1, "a"⟩ ∧
      get? s.world.generations ⟨1, "a"⟩ = none) ∧
    (∃ s, Runs (fun _ _ => True) {} s ∧ s.calls.length = 0 ∧ s.world.store = some ⟨3, "c"⟩ ∧
      s.world.pointer = some ⟨2, "b"⟩ ∧ s.world.resolvedPaths = some ⟨2, "b"⟩) := by
  refine ⟨?_, ?_, ?_⟩
  · have hback : ((System.runs {} ([.activate (plainArtifact 1 "a"),
        .activate (plainArtifact 2 "b")] ++ steps 1 15)).any fun s =>
        (s.runs (steps 0 11)).any fun s' => decide (s.world.store = some ⟨2, "b"⟩ ∧
          s'.world.store = some ⟨1, "a"⟩)) = true := by decide +kernel
    obtain ⟨s, hs, hback⟩ := (any_eq_true _ _).mp hback
    obtain ⟨s', hs', hback⟩ := (any_eq_true _ _).mp hback
    exact ⟨s, s', .of_runs hs, .of_runs hs', of_decide_eq_true hback⟩
  · have hmissing : ((System.runs {} ([.activate (plainArtifact 1 "a")] ++ steps 0 15 ++
        [.activate facetedArtifact] ++ steps 0 19)).any fun s =>
        decide (s.world.store = some ⟨1, "a"⟩ ∧
          get? s.world.generations ⟨1, "a"⟩ = none)) = true := by decide +kernel
    obtain ⟨s, hs, hmissing⟩ := (any_eq_true _ _).mp hmissing
    exact ⟨s, .of_runs hs, of_decide_eq_true hmissing⟩
  · have hstale : ((System.runs {} ([.activate (plainArtifact 1 "a"),
        .activate (plainArtifact 2 "b"), .activate (plainArtifact 3 "c")] ++ steps 0 11 ++
        steps 1 15 ++ steps 0 4 ++ steps 1 15 ++ steps 0 16)).any fun s =>
        decide (s.calls.length = 0 ∧ s.world.store = some ⟨3, "c"⟩ ∧
          s.world.pointer = some ⟨2, "b"⟩ ∧ s.world.resolvedPaths = some ⟨2, "b"⟩)) = true := by
      decide +kernel
    obtain ⟨s, hs, hstale⟩ := (any_eq_true _ _).mp hstale
    exact ⟨s, .of_runs hs, of_decide_eq_true hstale⟩

end HomelabInventory.Catalog
