import HomelabInventory.EventCoordinator

/-!
# One connection at a time

There is one run of `connectInternal` at a time, whatever the order of calls, timers and
awaits: `running` names it, and the timer for the next one is set when it returns.
-/

namespace HomelabInventory.EventCoordinator

namespace Coordinator

/-! ## One run at a time -/

/-- There is no run, or the one that `running` names; with a timer it has returned. Only an
enabled coordinator is started. -/
structure Single (s : Coordinator) : Prop where
  runs : (s.runs = [] ∧ s.running = none) ∨ ∃ run, s.runs = [run] ∧ s.running = some run.id
  timer : s.reconnectTimer = true → ∀ run ∈ s.runs, run.point = .settled
  enabled : s.stopped = false → s.effectiveEnabled = true

variable {s : Coordinator}

variable {t : Coordinator}

variable (h : s.Single)
include h

/-- The runs may change in place. -/
theorem Single.of_map (f : Run → Run) (hid : ∀ run, (f run).id = run.id)
    (hruns : t.runs = s.runs.map f) (hrunning : t.running = s.running)
    (htimer : t.reconnectTimer = true → ∀ run ∈ s.runs, (f run).point = .settled)
    (henabled : t.stopped = false → t.effectiveEnabled = true) : t.Single := by
  refine ⟨?_, fun hset run hrun => ?_, henabled⟩
  · rcases h.runs with ⟨hnil, hnone⟩ | ⟨run, hone, hsome⟩
    · exact Or.inl ⟨by rw [hruns, hnil]; rfl, by rw [hrunning, hnone]⟩
    · exact Or.inr ⟨f run, by rw [hruns, hone]; rfl, by rw [hrunning, hsome, hid]⟩
  · rw [hruns] at hrun
    obtain ⟨old, hold, rfl⟩ := List.mem_map.mp hrun
    exact htimer hset old hold

theorem Single.of_eq (hruns : t.runs = s.runs) (hrunning : t.running = s.running)
    (htimer : t.reconnectTimer = true → s.reconnectTimer = true)
    (henabled : t.stopped = false → t.effectiveEnabled = true) : t.Single :=
  h.of_map id (fun _ => rfl) (by rw [hruns, List.map_id]) hrunning
    (fun hset run hrun => h.timer (htimer hset) run hrun) henabled

theorem Single.nil_of_running (hrunning : s.running = none) : s.runs = [] := by
  rcases h.runs with ⟨hnil, -⟩ | ⟨run, -, hsome⟩
  · exact hnil
  · rw [hrunning] at hsome
    cases hsome

theorem Single.abort (hruns : t.runs = s.abort.runs) (hrunning : t.running = s.running)
    (htimer : t.reconnectTimer = true → s.reconnectTimer = true)
    (henabled : t.stopped = false → t.effectiveEnabled = true) : t.Single := by
  refine h.of_map (fun run =>
    if s.connectionController = some run.id then { run with aborted := true } else run)
    (fun run => ?_) hruns hrunning (fun hset run hrun => ?_) henabled
  · split <;> rfl
  · have hpoint := h.timer (htimer hset) run hrun
    split
    · exact hpoint
    · exact hpoint

omit h in
/-- **What a wake does**: nothing, go dormant, leave it to a run or a timer, or set one. -/
theorem wake_cases (s : Coordinator) (repository : Repository) :
    ((s.stopped = true ∨ s.effectiveEnabled = false) ∧
      s.wake repository = { s with woken := true }) ∨
    (s.stopped = false ∧ repository.hasWork = false ∧ s.wake repository =
      { s with repository, woken := true, claimTimer := repository.claimExpires }.enterDormant) ∨
    (s.stopped = false ∧ repository.hasWork = true ∧
      (s.running.isSome = true ∨ s.reconnectTimer = true) ∧ s.wake repository =
      { s with
        repository, woken := true, claimTimer := repository.claimExpires
        dormant := some false }) ∨
    (s.stopped = false ∧ repository.hasWork = true ∧ s.running = none ∧
      s.reconnectTimer = false ∧ s.wake repository =
      { s with
        repository, woken := true, claimTimer := repository.claimExpires
        dormant := some false, reconnectTimer := true }) := by
  by_cases hoff : (s.stopped || !s.effectiveEnabled) = true
  · refine Or.inl ⟨by simpa using hoff, ?_⟩
    rw [Coordinator.wake, if_pos hoff]
  · have hstopped : s.stopped = false := by
      simp only [Bool.or_eq_true, not_or, Bool.not_eq_true] at hoff
      exact hoff.1
    rw [Coordinator.wake, if_neg hoff]
    dsimp only
    cases hwork : repository.hasWork with
    | false => exact Or.inr (Or.inl ⟨hstopped, rfl, if_pos rfl⟩)
    | true =>
      rw [if_neg (by decide)]
      by_cases hbusy : (s.running.isSome || s.reconnectTimer) = true
      · rw [if_pos hbusy]
        exact Or.inr (Or.inr (Or.inl ⟨hstopped, rfl, by simpa using hbusy, rfl⟩))
      · rw [if_neg hbusy]
        simp only [Bool.or_eq_true, Option.isSome_iff_ne_none, not_or, not_not,
          Bool.not_eq_true] at hbusy
        exact Or.inr (Or.inr (Or.inr ⟨hstopped, rfl, hbusy.1, hbusy.2, rfl⟩))

theorem Single.wake (repository : Repository) : (s.wake repository).Single := by
  rcases wake_cases s repository with ⟨-, heq⟩ | ⟨-, -, heq⟩ | ⟨-, -, -, heq⟩ |
    ⟨-, -, hrunning, -, heq⟩
  · rw [heq]
    exact h.of_eq rfl rfl id h.enabled
  · rw [heq]
    exact h.abort rfl rfl (fun hset => by cases hset) h.enabled
  · rw [heq]
    exact h.of_eq rfl rfl id h.enabled
  · have hnil := h.nil_of_running hrunning
    rw [heq]
    refine ⟨Or.inl ⟨hnil, hrunning⟩, fun _ run hrun => ?_, h.enabled⟩
    change run ∈ s.runs at hrun
    rw [hnil] at hrun
    cases hrun

theorem Single.connect (htimer : s.reconnectTimer = false) : s.connect.Single := by
  unfold Coordinator.connect
  split
  · exact h
  · next hnone =>
    have hnil := h.nil_of_running (by simpa using hnone)
    refine ⟨Or.inr ⟨⟨s.nextRun, if s.returnsAtOnce then .settled else .activating, false, false⟩,
      ?_, rfl⟩, fun hset => ?_, h.enabled⟩
    · change s.runs ++ _ = _
      rw [hnil]
      rfl
    · exact absurd (htimer.symm.trans hset) (by decide)

/-! ## What a run does when it goes on -/

/-- The state after a run went on from a point to another one, with the timer as given. -/
structure Moves (s t : Coordinator) (run : Run) (point : Point) (timer : Bool) : Prop where
  runs : ∃ opened : Run → Bool, t.runs = s.runs.map fun other =>
    if other.id = run.id then { other with point, opened := opened other } else other
  timer : t.reconnectTimer = timer
  running : t.running = s.running
  stopped : t.stopped = s.stopped
  repository : t.repository = s.repository
  installationEvents : t.installationEvents = s.installationEvents
  woken : t.woken = s.woken
  watchdogTimedOut : t.watchdogTimedOut = s.watchdogTimedOut
  effectiveEnabled : t.effectiveEnabled = s.effectiveEnabled

/-- What a run does that goes on: it waits as before, waits for something else, returns
without a timer, or comes to its end; or an event is a wake. -/
inductive Resumes (s : Coordinator) (run : Run) (outcome : Outcome) (t : Coordinator) : Prop where
  | stays (h : t = { s with watchdogTimer := true })
  | waits (point : Point) (hpoint : point ≠ .settled) (hrun : run.point ≠ .settled)
    (h : Moves s t run point s.reconnectTimer)
  | givesUp (h : Moves s t run .settled s.reconnectTimer)
    (hwhy : s.stopped = true ∨ (run.aborted = true ∧ s.watchdogTimedOut = false) ∨
      s.repository.interest = false)
  | concludes (h : Moves s t run .settled
      (if !s.stopped && s.repository.hasWork then true else s.reconnectTimer))
  | applied (repository : Repository) (houtcome : outcome = .applied repository)
    (hrun : run.point = .reading)
    (h : t = { s with repository, woken := false }.wake repository)
  | handled (repository : Repository) (claim : Bool) (houtcome : outcome = .handled repository)
    (hrun : run.point = .handling claim)
    (h : t = ((if claim then s.releaseClaimInterest repository else s).wake repository).move
      run.id .reading)

omit h in
/-- A run that goes on in a state where only the other timers and flags changed. -/
theorem moves_move (run : Run) (point : Point) (hruns : t.runs = s.runs)
    (h : (t.reconnectTimer, t.running, t.stopped, t.repository, t.installationEvents, t.woken,
        t.watchdogTimedOut, t.effectiveEnabled) =
      (s.reconnectTimer, s.running, s.stopped, s.repository, s.installationEvents, s.woken,
        s.watchdogTimedOut, s.effectiveEnabled)) :
    Moves s (t.move run.id point) run point s.reconnectTimer := by
  simp only [Prod.mk.injEq] at h
  obtain ⟨htimer, hrunning, hstopped, hrepository, hevents, hwoken, htimedOut, henabled⟩ := h
  refine ⟨⟨Run.opened, ?_⟩, htimer, hrunning, hstopped, hrepository, hevents, hwoken, htimedOut,
    henabled⟩
  change t.runs.map _ = _
  rw [hruns]

omit h in
theorem moves_giveUp (run : Run) : Moves s (s.giveUp run) run .settled s.reconnectTimer :=
  moves_move run .settled rfl rfl

omit h in
theorem moves_conclude (run : Run) : Moves s (s.conclude run) run .settled
    (if !s.stopped && s.repository.hasWork then true else s.reconnectTimer) := by
  unfold conclude
  dsimp only
  have hstopped : (s.unwind run).stopped = s.stopped := rfl
  have hrepository : (s.unwind run).repository = s.repository := rfl
  rw [hstopped, hrepository]
  split
  · exact ⟨⟨Run.opened, rfl⟩, rfl, rfl, rfl, rfl, rfl, rfl, rfl, rfl⟩
  · exact ⟨⟨Run.opened, rfl⟩, rfl, rfl, rfl, rfl, rfl, rfl, rfl, rfl⟩

variable {run : Run}

omit h in
/-- **What a run does that goes on.** -/
theorem resumes_of_resume {outcome : Outcome} (h : s.resume run outcome = some t) :
    Resumes s run outcome t := by
  cases outcome with
  | failed unsupportedVersion =>
    have hfail : run.point ≠ .settled → t = s.fail run unsupportedVersion →
        Resumes s run (.failed unsupportedVersion) t := by
      rintro hrun rfl
      unfold fail
      split
      · next hlost =>
        simp only [Bool.or_eq_true, Bool.and_eq_true, Bool.not_eq_true'] at hlost
        exact .givesUp (moves_giveUp run) (hlost.imp_right Or.inl)
      · split
        · exact .waits .probing (by decide) hrun (moves_move run .probing rfl rfl)
        · exact .concludes (moves_conclude run)
    unfold resume at h
    dsimp only at h
    split at h
    · cases h
    · cases h
      exact .concludes (moves_conclude run)
    · next hsettled _ => exact hfail hsettled (Option.some.inj h).symm
  | activated tokenExpires =>
    unfold resume at h
    dsimp only at h
    split at h
    · next hpoint =>
      have hrun : run.point ≠ .settled := by rw [hpoint]; decide
      split at h
      · next hinterest =>
        cases h
        exact .givesUp (moves_giveUp run) (Or.inr (Or.inr (by simpa using hinterest)))
      · split at h
        · cases h
          exact .waits .reconciling (by decide) hrun (moves_move run _ rfl rfl)
        · cases h
          exact .waits .fetching (by decide) hrun (moves_move run _ rfl rfl)
    · cases h
  | answered =>
    unfold resume at h
    dsimp only at h
    split at h
    · next hpoint =>
      split at h
      · next hinterest =>
        cases h
        exact .givesUp (moves_giveUp run) (Or.inr (Or.inr (by simpa using hinterest)))
      · cases h
        exact .waits .fetching (by decide) (by rw [hpoint]; decide) (moves_move run _ rfl rfl)
    · cases h
      exact .concludes (moves_conclude run)
    · cases h
  | opened =>
    unfold resume at h
    dsimp only at h
    split at h
    · next hpoint =>
      cases h
      exact .waits .reading (by decide) (by rw [hpoint]; decide)
        ⟨⟨fun _ => true, rfl⟩, rfl, rfl, rfl, rfl, rfl, rfl, rfl, rfl⟩
    · cases h
  | activity =>
    unfold resume at h
    dsimp only at h
    split at h
    · exact .stays (Option.some.inj h).symm
    · cases h
  | applied repository =>
    unfold resume at h
    dsimp only at h
    split at h
    · next hpoint => exact .applied repository rfl hpoint (Option.some.inj h).symm
    · cases h
  | accountEvent claim =>
    unfold resume at h
    dsimp only at h
    split at h
    · next hpoint =>
      cases h
      exact .waits (.handling claim) (fun heq => by cases heq) (by rw [hpoint]; decide)
        (moves_move run _ rfl rfl)
    · cases h
  | handled repository =>
    unfold resume at h
    dsimp only at h
    split at h
    · next claim hpoint => exact .handled repository claim rfl hpoint (Option.some.inj h).symm
    · cases h
  | ended =>
    unfold resume at h
    dsimp only at h
    split at h
    · cases h
      exact .concludes (moves_conclude run)
    · cases h

/-! ## One run at a time, through every step -/

/-- A run that is found is the run that `running` names. -/
theorem Single.eq_of_find? {id : ℕ} (hfind : s.runs.find? (fun run => run.id == id) = some run) :
    s.runs = [run] ∧ s.running = some run.id := by
  have hmem := List.mem_of_find?_eq_some hfind
  rcases h.runs with ⟨hnil, -⟩ | ⟨only, hone, hsome⟩
  · rw [hnil] at hmem
    cases hmem
  · rw [hone] at hmem
    obtain rfl := List.mem_singleton.mp hmem
    exact ⟨hone, hsome⟩

theorem Single.moves {point : Point} {timer : Bool} (hruns : s.runs = [run])
    (hmoves : Moves s t run point timer) (htimer : timer = true → point = .settled) : t.Single := by
  obtain ⟨opened, htruns⟩ := hmoves.runs
  refine h.of_map _ (fun other => ?_) htruns hmoves.running (fun hset other hother => ?_) ?_
  · split <;> rfl
  · rw [hruns] at hother
    obtain rfl := List.mem_singleton.mp hother
    rw [if_pos rfl]
    exact htimer (hmoves.timer.symm.trans hset)
  · rw [hmoves.stopped, hmoves.effectiveEnabled]
    exact h.enabled

theorem Single.releaseClaimInterest (repository : Repository) :
    (s.releaseClaimInterest repository).Single :=
  (h.of_eq (t := { s with repository, woken := false, claimTimer := false }) rfl rfl id
    h.enabled).wake repository

omit h in
/-- A wake sets no timer while a run is in progress. -/
theorem wake_running (repository : Repository) (hrunning : s.running.isSome = true)
    (htimer : s.reconnectTimer = false) :
    (s.wake repository).reconnectTimer = false ∧
      (s.wake repository).running.isSome = true := by
  rcases wake_cases s repository with ⟨-, heq⟩ | ⟨-, -, heq⟩ | ⟨-, -, -, heq⟩ |
    ⟨-, -, hnone, -, heq⟩
  · rw [heq]
    exact ⟨htimer, hrunning⟩
  · rw [heq]
    exact ⟨rfl, hrunning⟩
  · rw [heq]
    exact ⟨htimer, hrunning⟩
  · rw [hnone] at hrunning
    cases hrunning

/-- A run that is moved while no timer is set. -/
theorem Single.move (id : ℕ) (point : Point) (htimer : s.reconnectTimer = false) :
    (s.move id point).Single := by
  refine h.of_map _ (fun run => ?_) rfl rfl (fun hset => ?_) h.enabled
  · split <;> rfl
  · exact absurd (htimer.symm.trans hset) (by decide)

theorem Single.resume {outcome : Outcome} (hruns : s.runs = [run])
    (hrunning : s.running = some run.id) (hresume : s.resume run outcome = some t) : t.Single := by
  have hwaits : run.point ≠ .settled → s.reconnectTimer = false := by
    intro hrun
    cases htimer : s.reconnectTimer with
    | false => rfl
    | true => exact absurd (h.timer htimer run (by rw [hruns]; exact List.mem_cons_self)) hrun
  rcases resumes_of_resume hresume with heq | ⟨point, hpoint, hrun, hmoves⟩ | ⟨hmoves, -⟩ |
    hmoves | ⟨repository, -, -, heq⟩ | ⟨repository, claim, -, hrun, heq⟩
  · rw [heq]
    exact h.of_eq rfl rfl id h.enabled
  · refine h.moves hruns hmoves fun hset => ?_
    rw [hwaits hrun] at hset
    cases hset
  · exact h.moves hruns hmoves fun _ => rfl
  · exact h.moves hruns hmoves fun _ => rfl
  · rw [heq]
    exact (h.of_eq (t := { s with repository, woken := false }) rfl rfl id h.enabled).wake
      repository
  · -- the claim is released first, which is a wake of its own
    have htimer := hwaits (by rw [hrun]; exact fun heq => by cases heq)
    have hsome : s.running.isSome = true := by rw [hrunning]; rfl
    rw [heq]
    cases claim with
    | false =>
      exact (h.wake repository).move _ _ (wake_running repository hsome htimer).1
    | true =>
      have hfirst := wake_running (s := { s with repository, woken := false, claimTimer := false })
        repository hsome htimer
      exact ((h.releaseClaimInterest repository).wake repository).move _ _
        (wake_running repository hfirst.2 hfirst.1).1

/-- **There is one run at a time** after every step. -/
theorem Single.step {action : Action} (hstep : s.step action = some t) : t.Single := by
  cases action with
  | start repository =>
    cases hstep
    unfold Coordinator.start
    split
    · exact h
    · next hstart =>
      simp only [Bool.or_eq_true, Bool.not_eq_true', not_or, Bool.not_eq_false] at hstart
      exact (h.of_eq (t := { s with stopped := false }) rfl rfl id fun _ => hstart.1).wake
        repository
  | stop =>
    cases hstep
    exact h.abort rfl rfl (fun hset => by cases hset) fun hstopped => by cases hstopped
  | wake repository =>
    cases hstep
    exact h.wake repository
  | holdClaim repository =>
    cases hstep
    exact (h.of_eq (t := { s with repository, woken := false, claimTimer := true }) rfl rfl id
      h.enabled).wake repository
  | releaseClaimInterest repository =>
    cases hstep
    exact h.releaseClaimInterest repository
  | repositoryChanged repository =>
    cases hstep
    exact h.of_eq rfl rfl id h.enabled
  | capabilitiesChanged installationEvents =>
    cases hstep
    exact h.of_eq rfl rfl id h.enabled
  | reconnectTimer =>
    unfold Coordinator.step at hstep
    dsimp only at hstep
    split at hstep
    · cases hstep
      exact (h.of_eq (t := { s with reconnectTimer := false }) rfl rfl
        (fun hset => by cases hset) h.enabled).connect rfl
    · cases hstep
  | renewalTimer =>
    unfold Coordinator.step at hstep
    dsimp only at hstep
    split at hstep
    · split at hstep
      · cases hstep
        exact h.abort rfl rfl (fun hset => by cases hset) h.enabled
      · split at hstep
        · next hidle =>
          cases hstep
          simp only [Bool.and_eq_true, Option.isNone_iff_eq_none] at hidle
          have hnil := h.nil_of_running hidle.2
          refine ⟨Or.inl ⟨hnil, hidle.2⟩, fun _ run hrun => ?_, h.enabled⟩
          change run ∈ s.runs at hrun
          rw [hnil] at hrun
          cases hrun
        · cases hstep
          exact h.of_eq rfl rfl id h.enabled
    · cases hstep
  | watchdogTimer =>
    unfold Coordinator.step at hstep
    dsimp only at hstep
    split at hstep
    · cases hstep
      exact h.abort rfl rfl id h.enabled
    · cases hstep
  | claimTimer repository =>
    unfold Coordinator.step at hstep
    dsimp only at hstep
    split at hstep
    · cases hstep
      exact (h.of_eq (t := { s with repository, woken := false, claimTimer := false }) rfl rfl id
        h.enabled).wake repository
    · cases hstep
  | resume id outcome =>
    unfold Coordinator.step at hstep
    dsimp only at hstep
    split at hstep
    · next run hfind =>
      obtain ⟨hruns, hrunning⟩ := h.eq_of_find? hfind
      exact h.resume hruns hrunning hstep
    · cases hstep
  | finalize id =>
    unfold Coordinator.step at hstep
    dsimp only at hstep
    split at hstep
    · next run hfind =>
      split at hstep
      · cases hstep
        obtain ⟨hruns, hrunning⟩ := h.eq_of_find? hfind
        have hid : run.id = id := by simpa using List.find?_some hfind
        refine ⟨Or.inl ⟨?_, ?_⟩, fun hset other hother => ?_, h.enabled⟩
        · change s.runs.filter _ = []
          rw [hruns]
          simp [hid]
        · change (if s.running = some id then none else s.running) = none
          rw [hrunning, hid, if_pos rfl]
        · exact h.timer hset other (List.mem_of_mem_filter hother)
      · cases hstep
    · cases hstep

/-! ## Over whole runs -/

omit h in
theorem Reachable.single {condition : Coordinator → Action → Prop}
    (h : Reachable condition s) : s.Single := by
  refine RunsTo.invariant h ?_ fun _ _ _ hs _ hstep => hs.step hstep
  rintro s ⟨effectiveEnabled, repository, installationEvents, rfl⟩
  exact ⟨Or.inl ⟨rfl, rfl⟩, (fun hset => by cases hset), fun hstopped => by cases hstopped⟩

end Coordinator

end HomelabInventory.EventCoordinator
