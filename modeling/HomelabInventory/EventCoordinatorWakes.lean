import HomelabInventory.EventCoordinatorRuns

/-!
# A coordinator that never sleeps

The coordinator never sleeps while it has work as long as no wake finds a run that will
not set the timer: one whose signal was aborted, or one that returned already.
-/

namespace HomelabInventory.EventCoordinator

namespace Coordinator

/-! ## What is to hold -/

/-- There is a stream to keep open. -/
def Eligible (s : Coordinator) : Prop :=
  s.stopped = false ∧ s.repository.hasWork = true ∧ s.installationEvents = true

/-- No run is in progress, there is work and `wake` was called since: then a timer is set. -/
def NeverSleeps (s : Coordinator) : Prop :=
  s.woken = true → s.runs = [] → s.Eligible → s.reconnectTimer = true

/-- A run that sets the timer when it ends: it has not returned, and its signal is not
aborted, or only by the watchdog. -/
def KeepsOn (s : Coordinator) (run : Run) : Prop :=
  run.point ≠ .settled ∧ (run.aborted = true → s.watchdogTimedOut = true)

/-- A timer is set, or a run is in progress that sets it. -/
def Awake (s : Coordinator) : Prop := s.reconnectTimer = true ∨ ∃ run ∈ s.runs, s.KeepsOn run

/-- The repository with which a step calls `wake`. -/
def wakesWith (s : Coordinator) : Action → Option Repository
  | .start repository => if s.effectiveEnabled && s.stopped then some repository else none
  | .wake repository | .holdClaim repository | .releaseClaimInterest repository
  | .claimTimer repository | .resume _ (.applied repository)
  | .resume _ (.handled repository) => if s.stopped then none else some repository
  | _ => none

/-- **A wake is timely.** With work to do and no timer set it finds no run that ends without setting
the timer, such as one that was aborted; and the capability comes on only when the coordinator is
awake or a wake is still due. -/
def Timely (s : Coordinator) (action : Action) : Prop :=
  (∀ repository ∈ s.wakesWith action, repository.hasWork = true → s.reconnectTimer = false →
    ∀ run ∈ s.runs, s.KeepsOn run) ∧
  (action = .capabilitiesChanged true → s.woken = true → s.stopped = false →
    s.repository.hasWork = true → s.Awake)

/-- Any step is possible. -/
abbrev anyStep : Coordinator → Action → Prop := fun _ _ => True

variable {s : Coordinator}

/-! ## Awake while there is work -/

/-- With a stream to keep open and `wake` called since, the coordinator is awake. -/
def Guarded (s : Coordinator) : Prop := s.woken = true → s.Eligible → s.Awake

/-- A wake with work to do leaves the coordinator awake, unless it finds a run that will not
set the timer. -/
theorem Guarded.wake (h : s.Single) {repository : Repository}
    (htimely : s.stopped = false → repository.hasWork = true → s.reconnectTimer = false →
      ∀ run ∈ s.runs, s.KeepsOn run) : (s.wake repository).Guarded := by
  rintro - ⟨hstopped, hwork, -⟩
  rcases wake_cases s repository with ⟨hoff, heq⟩ | ⟨-, hidle, heq⟩ | ⟨hon, hbusy, hrunning, heq⟩ |
    ⟨-, -, -, -, heq⟩
  · rw [heq] at hstopped
    change s.stopped = false at hstopped
    rcases hoff with hoff | hoff
    · rw [hoff] at hstopped
      cases hstopped
    · rw [h.enabled hstopped] at hoff
      cases hoff
  · rw [heq] at hwork
    exact absurd (hidle.symm.trans hwork) (by decide)
  · rw [heq]
    cases htimer : s.reconnectTimer with
    | true => exact Or.inl rfl
    | false =>
      rw [htimer] at hrunning
      rcases h.runs with ⟨-, hnone⟩ | ⟨run, hone, -⟩
      · rw [hnone] at hrunning
        simp at hrunning
      · refine Or.inr ⟨run, ?_, htimely hon hbusy htimer run ?_⟩
        · change run ∈ s.runs
          rw [hone]
          exact List.mem_cons_self
        · rw [hone]
          exact List.mem_cons_self
  · rw [heq]
    exact Or.inl rfl

variable {t : Coordinator}
variable {run : Run}

/-- A run that waits again is as good as before. -/
theorem Awake.moves (h : s.Awake) {point : Point} (hpoint : point ≠ .settled)
    (hmoves : Moves s t run point s.reconnectTimer) : t.Awake := by
  rcases h with htimer | ⟨other, hother, hkeeps⟩
  · exact Or.inl (hmoves.timer.trans htimer)
  · obtain ⟨opened, htruns⟩ := hmoves.runs
    refine Or.inr ⟨if other.id = run.id then { other with point, opened := opened other } else other,
      ?_, ?_⟩
    · rw [htruns]
      exact List.mem_map.mpr ⟨other, hother, rfl⟩
    · split
      · exact ⟨hpoint, fun haborted => hmoves.watchdogTimedOut.trans (hkeeps.2 haborted)⟩
      · exact ⟨hkeeps.1, fun haborted => hmoves.watchdogTimedOut.trans (hkeeps.2 haborted)⟩

theorem Guarded.moves (h : s.Guarded) {point : Point} (hpoint : point ≠ .settled)
    (hmoves : Moves s t run point s.reconnectTimer) : t.Guarded := by
  rintro hwoken ⟨hstopped, hwork, hevents⟩
  rw [hmoves.woken] at hwoken
  rw [hmoves.stopped] at hstopped
  rw [hmoves.repository] at hwork
  rw [hmoves.installationEvents] at hevents
  exact (h hwoken ⟨hstopped, hwork, hevents⟩).moves hpoint hmoves

/-- A wake with work to do changes no run and no flag of a run. -/
theorem wake_keeps {repository : Repository} (hwork : repository.hasWork = true) :
    (s.wake repository).runs = s.runs ∧
      (s.wake repository).watchdogTimedOut = s.watchdogTimedOut ∧
      (s.wake repository).stopped = s.stopped := by
  rcases wake_cases s repository with ⟨-, heq⟩ | ⟨-, hidle, -⟩ | ⟨-, -, -, heq⟩ | ⟨-, -, -, -, heq⟩
  · rw [heq]
    exact ⟨rfl, rfl, rfl⟩
  · rw [hidle] at hwork
    cases hwork
  · rw [heq]
    exact ⟨rfl, rfl, rfl⟩
  · rw [heq]
    exact ⟨rfl, rfl, rfl⟩

/-- **A run that goes on keeps the coordinator awake**, unless it is a wake that comes too
late. -/
theorem Guarded.resume (h : s.Guarded) (hsingle : s.Single) {outcome : Outcome}
    (hruns : s.runs = [run]) (hresume : s.resume run outcome = some t)
    (htimely : ∀ repository, outcome = .applied repository ∨ outcome = .handled repository →
      s.stopped = false → repository.hasWork = true → s.reconnectTimer = false →
      ∀ run ∈ s.runs, s.KeepsOn run) : t.Guarded := by
  rcases resumes_of_resume hresume with heq | ⟨point, hpoint, -, hmoves⟩ | ⟨hmoves, hwhy⟩ |
    hmoves | ⟨repository, houtcome, -, heq⟩ | ⟨repository, claim, houtcome, -, heq⟩
  · rw [heq]
    exact h
  · exact h.moves hpoint hmoves
  · rintro hwoken ⟨hstopped, hwork, hevents⟩
    rw [hmoves.woken] at hwoken
    rw [hmoves.stopped] at hstopped
    rw [hmoves.repository] at hwork
    rw [hmoves.installationEvents] at hevents
    rcases h hwoken ⟨hstopped, hwork, hevents⟩ with htimer | ⟨other, hother, hkeeps⟩
    · exact Or.inl (hmoves.timer.trans htimer)
    · -- none of the reasons to give up holds of a run that keeps on
      rw [hruns] at hother
      obtain rfl := List.mem_singleton.mp hother
      rcases hwhy with hstop | ⟨haborted, htimedOut⟩ | hinterest
      · exact absurd (hstop.symm.trans hstopped) (by decide)
      · exact absurd (htimedOut.symm.trans (hkeeps.2 haborted)) (by decide)
      · rw [Repository.hasWork, hinterest, Bool.and_false] at hwork
        cases hwork
  · rintro - ⟨hstopped, hwork, -⟩
    rw [hmoves.stopped] at hstopped
    rw [hmoves.repository] at hwork
    refine Or.inl (hmoves.timer.trans ?_)
    rw [hstopped, hwork]
    rfl
  · rw [heq]
    exact Guarded.wake
      (hsingle.of_eq (t := { s with repository, woken := false }) rfl rfl id hsingle.enabled)
      (htimely repository (Or.inl houtcome))
  · have hwake : ∀ u : Coordinator, u.Single → (u.stopped = false → repository.hasWork = true →
        u.reconnectTimer = false → ∀ run ∈ u.runs, u.KeepsOn run) →
        ((u.wake repository).move run.id .reading).Guarded := fun u hu htimely =>
      (Guarded.wake hu htimely).moves (by decide) (moves_move run .reading rfl rfl)
    have htimely := htimely repository (Or.inr houtcome)
    rw [heq]
    cases claim with
    | false => exact hwake s hsingle htimely
    | true =>
      refine hwake _ (hsingle.releaseClaimInterest repository) fun hstopped hwork htimer => ?_
      have hkept := wake_keeps (s := { s with repository, woken := false, claimTimer := false }) hwork
      have hbefore : s.reconnectTimer = false := by
        cases hset : s.reconnectTimer with
        | false => rfl
        | true =>
          rcases wake_cases { s with repository, woken := false, claimTimer := false } repository with
            ⟨-, hwakes⟩ | ⟨-, hidle, -⟩ | ⟨-, -, -, hwakes⟩ | ⟨-, -, -, hnone, -⟩
          · rw [Coordinator.releaseClaimInterest, hwakes] at htimer
            exact hset.symm.trans htimer
          · exact absurd (hidle.symm.trans hwork) (by decide)
          · rw [Coordinator.releaseClaimInterest, hwakes] at htimer
            exact hset.symm.trans htimer
          · exact absurd (hset.symm.trans hnone) (by decide)
      intro other hother
      have hold : other ∈ s.runs := by
        rw [← hkept.1]
        exact hother
      have hkeeps := htimely (hkept.2.2.symm.trans hstopped) hwork hbefore other hold
      exact ⟨hkeeps.1, fun haborted => hkept.2.1.trans (hkeeps.2 haborted)⟩

/-- **A timely step keeps the coordinator awake.** -/
theorem Guarded.step (h : s.Guarded) (hsingle : s.Single) {action : Action}
    (htimely : s.Timely action) (hstep : s.step action = some t) : t.Guarded := by
  have hwakes := htimely.1
  cases action with
  | start repository =>
    cases hstep
    unfold Coordinator.start
    split
    · exact h
    · next hstart =>
      simp only [Bool.or_eq_true, Bool.not_eq_true', not_or, Bool.not_eq_false] at hstart
      have hstarts : s.wakesWith (.start repository) = some repository := by
        rw [wakesWith, if_pos (by rw [hstart.1, hstart.2]; rfl)]
      refine Guarded.wake (s := { s with stopped := false })
        (hsingle.of_eq rfl rfl id fun _ => hstart.1) fun _ hwork htimer => ?_
      exact hwakes repository (by rw [hstarts]; rfl) hwork htimer
  | stop =>
    cases hstep
    rintro - ⟨hstopped, -, -⟩
    cases hstopped
  | wake repository =>
    cases hstep
    refine Guarded.wake hsingle fun hstopped hwork htimer => ?_
    exact hwakes repository (by rw [wakesWith, hstopped]; rfl) hwork htimer
  | holdClaim repository =>
    cases hstep
    refine Guarded.wake (s := { s with repository, woken := false, claimTimer := true })
      (hsingle.of_eq rfl rfl id hsingle.enabled) fun hstopped hwork htimer => ?_
    have hon : s.stopped = false := hstopped
    exact hwakes repository (by rw [wakesWith, hon]; rfl) hwork htimer
  | releaseClaimInterest repository =>
    cases hstep
    refine Guarded.wake (s := { s with repository, woken := false, claimTimer := false })
      (hsingle.of_eq rfl rfl id hsingle.enabled) fun hstopped hwork htimer => ?_
    have hon : s.stopped = false := hstopped
    exact hwakes repository (by rw [wakesWith, hon]; rfl) hwork htimer
  | repositoryChanged repository =>
    cases hstep
    intro hwoken
    cases hwoken
  | capabilitiesChanged installationEvents =>
    cases hstep
    rintro hwoken ⟨hstopped, hwork, hevents⟩
    change installationEvents = true at hevents
    subst hevents
    exact htimely.2 rfl hwoken hstopped hwork
  | reconnectTimer =>
    unfold Coordinator.step at hstep
    dsimp only at hstep
    split at hstep
    · next hfires =>
      simp only [Bool.and_eq_true, isDrained, List.all_eq_true, decide_eq_true_eq] at hfires
      have hnil : s.runs = [] := by
        rcases hsingle.runs with ⟨hnil, -⟩ | ⟨run, hone, -⟩
        · exact hnil
        · have hmem : run ∈ s.runs := by rw [hone]; exact List.mem_cons_self
          exact absurd (hsingle.timer hfires.1 run hmem) (hfires.2 run hmem)
      have hnone : s.running = none := by
        rcases hsingle.runs with ⟨-, hnone⟩ | ⟨run, hone, -⟩
        · exact hnone
        · rw [hnil] at hone
          cases hone
      cases hstep
      rintro - ⟨hstopped, hwork, hevents⟩
      unfold Coordinator.connect at hstopped hwork hevents ⊢
      rw [if_neg (by rw [hnone]; decide)] at hstopped hwork hevents ⊢
      change s.stopped = false at hstopped
      change s.repository.hasWork = true at hwork
      change s.installationEvents = true at hevents
      have hreturns : { s with reconnectTimer := false }.returnsAtOnce = false := by
        simp only [returnsAtOnce, hstopped, hwork, hevents, hsingle.enabled hstopped]
        rfl
      refine Or.inr ⟨⟨s.nextRun, .activating, false, false⟩, ?_, (fun heq => by cases heq),
        fun haborted => by cases haborted⟩
      dsimp only
      rw [hreturns]
      exact List.mem_append_right _ List.mem_cons_self
    · cases hstep
  | renewalTimer =>
    unfold Coordinator.step at hstep
    dsimp only at hstep
    split at hstep
    · split at hstep
      · next hinterest =>
        cases hstep
        rintro - ⟨-, hwork, -⟩
        change s.repository.hasWork = true at hwork
        simp only [Bool.not_eq_true'] at hinterest
        rw [Repository.hasWork, hinterest, Bool.and_false] at hwork
        cases hwork
      · split at hstep
        · cases hstep
          exact fun _ _ => Or.inl rfl
        · cases hstep
          exact h
    · cases hstep
  | watchdogTimer =>
    unfold Coordinator.step at hstep
    dsimp only at hstep
    split at hstep
    · cases hstep
      rintro hwoken ⟨hstopped, hwork, hevents⟩
      rcases h hwoken ⟨hstopped, hwork, hevents⟩ with htimer | ⟨run, hrun, hkeeps⟩
      · exact Or.inl htimer
      · refine Or.inr ⟨_, List.mem_map.mpr ⟨run, hrun, rfl⟩, ?_, fun _ => rfl⟩
        split
        · exact hkeeps.1
        · exact hkeeps.1
    · cases hstep
  | claimTimer repository =>
    unfold Coordinator.step at hstep
    dsimp only at hstep
    split at hstep
    · cases hstep
      refine Guarded.wake (s := { s with repository, woken := false, claimTimer := false })
        (hsingle.of_eq rfl rfl id hsingle.enabled) fun hstopped hwork htimer => ?_
      have hon : s.stopped = false := hstopped
      exact hwakes repository (by rw [wakesWith, hon]; rfl) hwork htimer
    · cases hstep
  | resume id outcome =>
    unfold Coordinator.step at hstep
    dsimp only at hstep
    split at hstep
    · next run hfind =>
      obtain ⟨hruns, -⟩ := hsingle.eq_of_find? hfind
      refine h.resume hsingle hruns hstep fun repository houtcome hstopped hwork htimer => ?_
      refine hwakes repository ?_ hwork htimer
      rcases houtcome with rfl | rfl
      · rw [wakesWith, hstopped]
        rfl
      · rw [wakesWith, hstopped]
        rfl
    · cases hstep
  | finalize id =>
    unfold Coordinator.step at hstep
    dsimp only at hstep
    split at hstep
    · next run hfind =>
      split at hstep
      · next hsettled =>
        cases hstep
        rintro hwoken ⟨hstopped, hwork, hevents⟩
        rcases h hwoken ⟨hstopped, hwork, hevents⟩ with htimer | ⟨other, hother, hkeeps⟩
        · exact Or.inl htimer
        · rw [(hsingle.eq_of_find? hfind).1] at hother
          obtain rfl := List.mem_singleton.mp hother
          exact absurd hsettled hkeeps.1
      · cases hstep
    · cases hstep

/-! ## Over whole runs -/

theorem Reachable.guarded (h : Reachable Timely s) : s.Guarded := by
  induction h with
  | start h =>
    obtain ⟨effectiveEnabled, repository, installationEvents, rfl⟩ := h
    intro hwoken
    cases hwoken
  | step hreach action htimely hstep ih => exact ih.step (Reachable.single hreach) htimely hstep

/-- **At most one run is in progress, and the coordinator never sleeps while it has work**,
in every run of timely steps. -/
theorem neverSleeps (s : Coordinator) :
    (Reachable anyStep s → s.runs.length ≤ 1) ∧ (Reachable Timely s → s.NeverSleeps) := by
  constructor
  · intro h
    rcases h.single.runs with ⟨hnil, -⟩ | ⟨run, hone, -⟩
    · rw [hnil]
      exact Nat.zero_le _
    · rw [hone]
      exact Nat.le_refl 1
  · intro h hwoken hnil heligible
    rcases h.guarded hwoken heligible with htimer | ⟨run, hrun, -⟩
    · exact htimer
    · rw [hnil] at hrun
      cases hrun

/-! ## A wake that comes too late -/

/-- A repository with a share to keep up. -/
def atWork : Repository := ⟨true, true, true, false, false, false⟩

/-- The same repository without interest. -/
def atRest : Repository := { atWork with interest := false }

instance (s : Coordinator) (run : Run) : Decidable (s.KeepsOn run) :=
  inferInstanceAs (Decidable (_ ∧ _))

instance (s : Coordinator) : Decidable s.Awake := inferInstanceAs (Decidable (_ ∨ _))

instance (s : Coordinator) (action : Action) : Decidable (s.Timely action) :=
  inferInstanceAs (Decidable (_ ∧ _))

/-- The coordinator connects, is woken on the way, loses its interest while it reads, lets its
run unwind, and is awake again once there is interest. -/
theorem neverSleeps_reawakened : ∃ s, Reachable Timely s ∧ s.nextRun = 1 ∧ s.runs = [] ∧
    s.reconnectTimer = true := by
  have hrun : (([Action.start atWork, .reconnectTimer, .wake atWork, .resume 0 (.activated true),
      .resume 0 .opened, .repositoryChanged atRest, .wake atRest, .resume 0 (.failed false),
      .finalize 0, .repositoryChanged atWork, .wake atWork].foldlM
        (fun s action => if Timely s action then s.step action else none)
        (create true atWork true)).any fun s => decide (s.nextRun = 1 ∧ s.runs = [] ∧
          s.woken = true ∧ s.stopped = false ∧ s.repository.hasWork = true ∧
            s.installationEvents = true)) = true := by decide
  obtain ⟨s, hs, hawake⟩ := (Option.any_eq_true _ _).mp hrun
  obtain ⟨hone, hruns, hwoken, heligible⟩ := of_decide_eq_true hawake
  have hreach : Reachable Timely s := RunsTo.checked (.start ⟨true, atWork, true, rfl⟩) hs
  exact ⟨s, hreach, hone, hruns, (neverSleeps s).2 hreach hwoken hruns heligible⟩

/-- **Interest that is back before an aborted run has ended is lost**: the wake leaves it to
the run, which returns without setting the timer. -/
theorem sleeps_after_abort : ∃ s, Reachable anyStep s ∧ ¬s.NeverSleeps := by
  have hrun : ([Action.start atWork, .reconnectTimer, .repositoryChanged atRest, .wake atRest,
      .repositoryChanged atWork, .wake atWork, .resume 0 (.failed false),
      .finalize 0].foldlM step (create true atWork true)).isSome = true := by decide
  obtain ⟨s, hs⟩ := Option.isSome_iff_exists.mp hrun
  refine ⟨s, RunsTo.run (.start ⟨true, atWork, true, rfl⟩)
    (fun action _ _ _ hstep => ⟨action, trivial, hstep⟩) hs, ?_⟩
  cases hs
  intro h
  have htimer := h rfl rfl ⟨rfl, rfl, rfl⟩
  cases htimer

end Coordinator

end HomelabInventory.EventCoordinator
