import HomelabInventory.ScheduleTimes

/-!
# When backups run

Daily schedules always have a next run. Weekly ones have one unless clocks skip the time of the
week and the next week is out of reach, and a time that clocks go back over comes twice on its date.
There is a next run after every run, with all of them on different dates, exactly when neither
happens.
-/

namespace HomelabInventory.BackupSchedule

/-! ## Next runs -/

/-- The first minute after a start whose local time is the one of a schedule. -/
structure IsNextRun (zone : Zone) (schedule : Schedule) (start minute : ℤ) : Prop where
  later : start < minute * 60000
  isRun : isRun zone schedule minute = true
  earliest : ∀ t, start < t * 60000 → BackupSchedule.isRun zone schedule t = true → minute ≤ t

/-- The next run, if there is one. -/
def nextRun? (runtime : Runtime) (schedule : Schedule) (start : ℤ) : Option ℤ :=
  match nextBackupRun runtime schedule start with
  | .ok run => run
  | .error _ => none

/-- The runs that follow each other. -/
def runs (runtime : Runtime) (schedule : Schedule) (start : ℤ) : ℕ → Option ℤ
  | 0 => nextRun? runtime schedule start
  | n + 1 => (runs runtime schedule start n).bind (nextRun? runtime schedule)

/-- **What a schedule is for**: from the start and from every run there is a next run, the first one
there can be, and no two runs are on one date. -/
structure RunsOncePerDate (runtime : Runtime) (zone : Zone) (schedule : Schedule) (start : ℤ) :
    Prop where
  next : ∀ previous, (previous = start ∨ ∃ n, runs runtime schedule start n = some previous) →
    ∃ minute, nextBackupRun runtime schedule previous = .ok (some (minute * 60000)) ∧
      IsNextRun zone schedule previous minute
  distinct : ∀ n n' run run', n < n' → runs runtime schedule start n = some run →
    runs runtime schedule start n' = some run' → zone.date (run / 60000) ≠ zone.date (run' / 60000)

/-! ## When it holds -/

/-- **Clock changes do not disturb the runs** from a start on. -/
structure Undisturbed (zone : Zone) (schedule : Schedule) (start : ℤ) : Prop where
  /-- The first weekly time after the start and after each run is not skipped, or the one a week
  later is reached within eight days. -/
  reached : schedule.frequency = "weekly" → ∀ u,
    (u = start / 60000 ∨ start < u * 60000 ∧ isRun zone schedule u = true) →
      (∃ t, u < t ∧ zone.local t = firstLocal schedule (zone.local (u + 1))) ∨
        firstLocal schedule (zone.local (u + 1)) + 7 * 1440 ≤ zone.local (u + 8 * 1440)
  /-- No local time of the schedule comes twice. -/
  once : ∀ t u, start < t * 60000 → t < u → isRun zone schedule t = true →
    zone.local t ≠ zone.local u

/-! ## The search -/

/-- What is found is the first minute with the property. -/
theorem searchFrom_eq_some {found : ℤ → Bool} {cursor minute : ℤ} {limit : ℕ}
    (h : searchFrom found cursor limit = some minute) :
    cursor ≤ minute ∧ found minute = true ∧ ∀ t, cursor ≤ t → found t = true → minute ≤ t := by
  induction limit generalizing cursor with
  | zero => exact nomatch h
  | succ limit ih =>
    rw [searchFrom] at h
    by_cases hcursor : found cursor = true
    · rw [if_pos hcursor, Option.some.injEq] at h
      subst h
      exact ⟨Int.le_refl _, hcursor, fun t ht _ => ht⟩
    · rw [if_neg hcursor] at h
      obtain ⟨hle, hfound, hfirst⟩ := ih h
      refine ⟨by omega, hfound, fun t ht hfoundT => ?_⟩
      by_cases heq : t = cursor
      · exact absurd (heq ▸ hfoundT) hcursor
      · exact hfirst t (by omega) hfoundT

/-- Something is found when there is something within the limit. -/
theorem searchFrom_isSome_iff {found : ℤ → Bool} {cursor : ℤ} {limit : ℕ} :
    (searchFrom found cursor limit).isSome = true ↔
      ∃ t, cursor ≤ t ∧ t < cursor + limit ∧ found t = true := by
  induction limit generalizing cursor with
  | zero =>
    constructor
    · exact fun h => nomatch h
    · rintro ⟨t, hle, hlt, -⟩
      omega
  | succ limit ih =>
    rw [searchFrom]
    by_cases hcursor : found cursor = true
    · rw [if_pos hcursor]
      exact ⟨fun _ => ⟨cursor, Int.le_refl _, by omega, hcursor⟩, fun _ => rfl⟩
    · rw [if_neg hcursor, ih]
      constructor
      · rintro ⟨t, hle, hlt, hfound⟩
        exact ⟨t, by omega, by omega, hfound⟩
      · rintro ⟨t, hle, hlt, hfound⟩
        have hne : t ≠ cursor := fun heq => hcursor (heq ▸ hfound)
        exact ⟨t, by omega, by omega, hfound⟩

/-! ## From run to run -/

section Runs

variable {runtime : Runtime} {zone : Zone} {schedule : Schedule} {start : ℤ}

/-- **An enabled schedule in a known zone**, as it is stored. -/
structure Stored (runtime : Runtime) (zone : Zone) (schedule : Schedule) : Prop where
  enabled : schedule.enabled = true
  valid : assertBackupSchedule runtime schedule = .ok ()
  zoned : runtime.zoneOf (schedule.timezone.getD "UTC") = some zone

variable (h : Stored runtime zone schedule)
include h

/-- What is searched for the next run. -/
theorem Stored.nextBackupRun (start : ℤ) :
    BackupSchedule.nextBackupRun runtime schedule start =
      match searchFrom (isRun zone schedule) (start / 60000 + 1) (searchLimit schedule) with
      | some minute => .ok (some (minute * 60000))
      | none => .error "Unable to calculate the next backup run in the configured timezone." := by
  rw [BackupSchedule.nextBackupRun, h.enabled, h.valid]
  simp only [h.zoned]
  rfl

/-- **What a next run is**, when there is one. -/
theorem Stored.isNextRun {start run : ℤ}
    (hrun : BackupSchedule.nextBackupRun runtime schedule start = .ok (some run)) :
    ∃ minute, run = minute * 60000 ∧ IsNextRun zone schedule start minute := by
  rw [h.nextBackupRun] at hrun
  cases hsearch : searchFrom (isRun zone schedule) (start / 60000 + 1) (searchLimit schedule) with
  | none =>
    rw [hsearch] at hrun
    exact nomatch hrun
  | some minute =>
    rw [hsearch] at hrun
    obtain ⟨hle, hfound, hfirst⟩ := searchFrom_eq_some hsearch
    refine ⟨minute, (Option.some.inj (Except.ok.inj hrun)).symm, by omega, hfound, ?_⟩
    exact fun t ht hrunT => hfirst t (by omega) hrunT

/-- **When there is a next run**: for daily schedules always, for weekly ones when a time of the
week is reached in eight days. -/
theorem Stored.exists_iff (start : ℤ) :
    (∃ run, BackupSchedule.nextBackupRun runtime schedule start = .ok (some run)) ↔
      (schedule.frequency = "weekly" →
        (∃ t, start / 60000 < t ∧
            zone.local t = firstLocal schedule (zone.local (start / 60000 + 1))) ∨
          firstLocal schedule (zone.local (start / 60000 + 1)) + 7 * 1440 ≤
            zone.local (start / 60000 + 8 * 1440)) := by
  have hvalid := valid_of_assert h.valid
  have hsearch : (∃ run, BackupSchedule.nextBackupRun runtime schedule start = .ok (some run)) ↔
      ∃ t, start / 60000 + 1 ≤ t ∧ t < start / 60000 + 1 + searchLimit schedule ∧
        isRun zone schedule t = true := by
    rw [h.nextBackupRun, ← searchFrom_isSome_iff]
    cases searchFrom (isRun zone schedule) (start / 60000 + 1) (searchLimit schedule) with
    | none => exact ⟨(fun ⟨_, hrun⟩ => nomatch hrun), fun hsome => nomatch hsome⟩
    | some minute => exact ⟨fun _ => rfl, fun _ => ⟨_, rfl⟩⟩
  rw [hsearch]
  by_cases hweekly : schedule.frequency = "weekly"
  · have hlimit : searchLimit schedule = 8 * 24 * 60 := by
      rw [searchLimit, if_pos (by rw [hweekly]; rfl)]
    rw [hlimit, ← exists_weekly_iff hvalid hweekly]
    constructor
    · rintro ⟨t, hle, hlt, hrun⟩ -
      exact ⟨t, by omega, by omega, hrun⟩
    · intro hexists
      obtain ⟨t, hlt, hle, hrun⟩ := hexists hweekly
      exact ⟨t, by omega, by omega, hrun⟩
  · have hlimit : searchLimit schedule = 2 * 24 * 60 := by
      rw [searchLimit, if_neg (by simpa using hweekly)]
    obtain ⟨t, hlt, hle, hrun⟩ := exists_daily zone hvalid hweekly (start / 60000)
    rw [hlimit]
    exact ⟨fun _ hnot => absurd hnot hweekly, fun _ => ⟨t, by omega, by omega, hrun⟩⟩

omit h in
theorem runs_succ (n : ℕ) : runs runtime schedule start (n + 1) =
    (runs runtime schedule start n).bind (nextRun? runtime schedule) := rfl

omit h in
theorem nextRun?_eq_some_iff {previous run : ℤ} :
    nextRun? runtime schedule previous = some run ↔
      BackupSchedule.nextBackupRun runtime schedule previous = .ok (some run) := by
  rw [nextRun?]
  cases BackupSchedule.nextBackupRun runtime schedule previous with
  | error message => simp
  | ok found => simp

/-- Each run is a minute of the schedule after the start. -/
theorem Stored.isRun_of_runs {n : ℕ} {run : ℤ} (hrun : runs runtime schedule start n = some run) :
    ∃ minute, run = minute * 60000 ∧ start < run ∧ isRun zone schedule minute = true := by
  induction n generalizing run with
  | zero =>
    obtain ⟨minute, rfl, hnext⟩ := h.isNextRun (nextRun?_eq_some_iff.mp hrun)
    exact ⟨minute, rfl, hnext.later, hnext.isRun⟩
  | succ n ih =>
    rw [runs_succ, Option.bind_eq_some_iff] at hrun
    obtain ⟨previous, hprevious, hrun⟩ := hrun
    obtain ⟨minute, rfl, hnext⟩ := h.isNextRun (nextRun?_eq_some_iff.mp hrun)
    obtain ⟨-, -, hlater, -⟩ := ih hprevious
    have := hnext.later
    exact ⟨minute, rfl, by omega, hnext.isRun⟩

/-- Runs come one after the other. -/
theorem Stored.runs_lt {n n' : ℕ} {run run' : ℤ} (hlt : n < n')
    (hrun : runs runtime schedule start n = some run)
    (hrun' : runs runtime schedule start n' = some run') : run < run' := by
  induction n' generalizing run' with
  | zero => exact absurd hlt (Nat.not_lt_zero n)
  | succ n' ih =>
    rw [runs_succ, Option.bind_eq_some_iff] at hrun'
    obtain ⟨previous, hprevious, hrun'⟩ := hrun'
    obtain ⟨minute, rfl, hnext⟩ := h.isNextRun (nextRun?_eq_some_iff.mp hrun')
    have hlater := hnext.later
    rcases Nat.lt_succ_iff_lt_or_eq.mp hlt with hlt | rfl
    · have := ih hlt hprevious
      omega
    · rw [hrun, Option.some.injEq] at hprevious
      omega

/-- **Every minute of the schedule is a run**, when there is a next run after each one. -/
theorem Stored.exists_runs
    (hnext : ∀ previous, (previous = start ∨ ∃ n, runs runtime schedule start n = some previous) →
      ∃ run, BackupSchedule.nextBackupRun runtime schedule previous = .ok (some run))
    {t : ℤ} (hlater : start < t * 60000) (hrun : isRun zone schedule t = true) :
    ∃ n, runs runtime schedule start n = some (t * 60000) := by
  -- the runs go on, and none of them passes the minute
  have hprogress : ∀ n : ℕ, (∃ k, runs runtime schedule start k = some (t * 60000)) ∨
      ∃ run, runs runtime schedule start n = some run ∧ start + n < run ∧ run < t * 60000 := by
    intro n
    induction n with
    | zero =>
      obtain ⟨run, hfound⟩ := hnext start (Or.inl rfl)
      obtain ⟨minute, rfl, hminute⟩ := h.isNextRun hfound
      have hle := hminute.earliest t hlater hrun
      have hfirst : runs runtime schedule start 0 = some (minute * 60000) :=
        nextRun?_eq_some_iff.mpr hfound
      by_cases heq : minute = t
      · exact Or.inl ⟨0, heq ▸ hfirst⟩
      · exact Or.inr ⟨_, hfirst, by have := hminute.later; omega, by omega⟩
    | succ n ih =>
      rcases ih with hfound | ⟨previous, hprevious, hfar, hbefore⟩
      · exact Or.inl hfound
      · obtain ⟨run, hfound⟩ := hnext previous (Or.inr ⟨n, hprevious⟩)
        obtain ⟨minute, rfl, hminute⟩ := h.isNextRun hfound
        have hle := hminute.earliest t hbefore hrun
        have hsucc : runs runtime schedule start (n + 1) = some (minute * 60000) := by
          rw [runs_succ, hprevious, Option.bind_some]
          exact nextRun?_eq_some_iff.mpr hfound
        by_cases heq : minute = t
        · exact Or.inl ⟨n + 1, heq ▸ hsucc⟩
        · exact Or.inr ⟨_, hsucc, by have := hminute.later; omega, by omega⟩
  rcases hprogress (t * 60000 - start).toNat with hfound | ⟨run, -, hfar, hbefore⟩
  · exact hfound
  · omega

omit h in
/-- Minutes of a schedule are on one date when their local time is the same. -/
theorem Valid.date_eq_iff (h : Valid schedule) {t u : ℤ} (ht : isRun zone schedule t = true)
    (hu : isRun zone schedule u = true) :
    zone.date t = zone.date u ↔ zone.local t = zone.local u := by
  rw [h.isRun_iff] at ht hu
  rw [Zone.date, Zone.date]
  rcases period_cases schedule with hperiod | hperiod
  · rw [hperiod] at ht hu
    omega
  · rw [hperiod] at ht hu
    omega

omit h in
/-- **A schedule runs once per date exactly when clock changes do not disturb it**: they skip no
time of the week that is not reached a week later in time, and pass over no time twice. -/
theorem runsOncePerDate_iff_undisturbed (runtime : Runtime) (zone : Zone) (schedule : Schedule)
    (start : ℤ) (h : Stored runtime zone schedule) :
    RunsOncePerDate runtime zone schedule start ↔ Undisturbed zone schedule start := by
  have hvalid := valid_of_assert h.valid
  constructor
  · rintro ⟨hnext, hdistinct⟩
    have hexists : ∀ previous,
        (previous = start ∨ ∃ n, runs runtime schedule start n = some previous) →
          ∃ run, BackupSchedule.nextBackupRun runtime schedule previous = .ok (some run) := by
      intro previous hprevious
      obtain ⟨minute, hrun, -⟩ := hnext previous hprevious
      exact ⟨_, hrun⟩
    constructor
    · intro hweekly u hu
      rcases hu with rfl | ⟨hlater, hrun⟩
      · exact (h.exists_iff start).mp (hexists start (Or.inl rfl)) hweekly
      · obtain ⟨n, hn⟩ := h.exists_runs hexists hlater hrun
        have := (h.exists_iff (u * 60000)).mp (hexists _ (Or.inr ⟨n, hn⟩)) hweekly
        rw [show u * 60000 / 60000 = u by omega] at this
        exact this
    · intro t u hlater hlt hrun heq
      have hrunU : isRun zone schedule u = true := by
        rw [hvalid.isRun_iff, ← heq, ← hvalid.isRun_iff]
        exact hrun
      obtain ⟨n, hn⟩ := h.exists_runs hexists hlater hrun
      obtain ⟨n', hn'⟩ := h.exists_runs hexists (t := u) (by omega) hrunU
      have hdate : zone.date (t * 60000 / 60000) = zone.date (u * 60000 / 60000) := by
        rw [show t * 60000 / 60000 = t by omega, show u * 60000 / 60000 = u by omega,
          hvalid.date_eq_iff hrun hrunU]
        exact heq
      rcases Nat.lt_trichotomy n n' with hlt' | rfl | hlt'
      · exact hdistinct n n' _ _ hlt' hn hn' hdate
      · rw [hn, Option.some.injEq] at hn'
        omega
      · have := h.runs_lt hlt' hn' hn
        omega
  · rintro ⟨hreached, honce⟩
    constructor
    · intro previous hprevious
      have hreached' : schedule.frequency = "weekly" →
          (∃ t, previous / 60000 < t ∧
              zone.local t = firstLocal schedule (zone.local (previous / 60000 + 1))) ∨
            firstLocal schedule (zone.local (previous / 60000 + 1)) + 7 * 1440 ≤
              zone.local (previous / 60000 + 8 * 1440) := by
        intro hweekly
        refine hreached hweekly _ ?_
        rcases hprevious with rfl | ⟨n, hn⟩
        · exact Or.inl rfl
        · obtain ⟨minute, rfl, hlater, hrun⟩ := h.isRun_of_runs hn
          rw [show minute * 60000 / 60000 = minute by omega]
          exact Or.inr ⟨hlater, hrun⟩
      obtain ⟨run, hrun⟩ := (h.exists_iff previous).mpr hreached'
      obtain ⟨minute, rfl, hnext⟩ := h.isNextRun hrun
      exact ⟨minute, hrun, hnext⟩
    · intro n n' run run' hlt hn hn' hdate
      have hbefore := h.runs_lt hlt hn hn'
      obtain ⟨t, rfl, hlater, hrun⟩ := h.isRun_of_runs hn
      obtain ⟨u, rfl, -, hrunU⟩ := h.isRun_of_runs hn'
      rw [show t * 60000 / 60000 = t by omega, show u * 60000 / 60000 = u by omega,
        hvalid.date_eq_iff hrun hrunU] at hdate
      exact honce t u hlater (by omega) hrun hdate

end Runs

/-! ## A zone with summer time -/

/-- The offsets of Paris in 2026: summer time is from 29 March to 25 October, from and to 01:00
UTC. -/
def paris : Zone where
  offset t := if t < 29579100 then 60 else if t < 29881500 then 120 else 60
  hour t := by
    split_ifs <;> omega
  rare t u hlt ht hu := by
    split_ifs at ht hu <;> omega

/-- The zone without an offset. -/
def utc : Zone where
  offset _ := 0
  hour _ := by omega
  rare _ _ _ ht _ := absurd rfl ht

/-- A runtime that knows the two zones. -/
def knownZones : Runtime where
  zoneOf name :=
    if name = "UTC" then some utc else if name = "Europe/Paris" then some paris else none
  isTimestamp _ := true
  knows_utc := by decide +kernel

/-- A schedule at half past two in Paris. -/
def atHalfPastTwo (frequency : String) : Schedule where
  enabled := true
  frequency := frequency
  time := "02:30"
  weekday := 0
  timezone := some "Europe/Paris"
  retention := 7
  nextRunAt := none
  lastRunAt := none
  lastResult := none
  updatedAt := none

/-- A schedule in Paris is stored with one of the two frequencies. -/
theorem stored_atHalfPastTwo {frequency : String} (h : frequency = "daily" ∨ frequency = "weekly") :
    Stored knownZones paris (atHalfPastTwo frequency) where
  enabled := rfl
  valid := by
    rcases h with rfl | rfl
    · decide +kernel
    · decide +kernel
  zoned := by
    change (if "Europe/Paris" = "UTC" then some utc
      else if "Europe/Paris" = "Europe/Paris" then some paris else none) = some paris
    rw [if_neg (by decide +kernel), if_pos rfl]

/-- The daily schedule in Paris runs once per date exactly when clock changes do not disturb it. -/
theorem runsOncePerDate_iff_undisturbed_paris :
    Stored knownZones paris (atHalfPastTwo "daily") ∧
      (RunsOncePerDate knownZones paris (atHalfPastTwo "daily") 0 ↔
        Undisturbed paris (atHalfPastTwo "daily") 0) :=
  ⟨stored_atHalfPastTwo (Or.inl rfl),
    runsOncePerDate_iff_undisturbed _ _ _ _ (stored_atHalfPastTwo (Or.inl rfl))⟩

/-- **Clock changes disturb both schedules in Paris.** On 25 October, half past two comes twice and
the daily schedule runs twice; on 29 March it does not come, and after the Sunday before the weekly
schedule has no next run. -/
theorem not_runsOncePerDate_paris :
    ¬ RunsOncePerDate knownZones paris (atHalfPastTwo "daily") (29881440 * 60000) ∧
      ¬ RunsOncePerDate knownZones paris (atHalfPastTwo "weekly") (29569050 * 60000) := by
  constructor
  · intro h
    have hfirst : runs knownZones (atHalfPastTwo "daily") (29881440 * 60000) 0 =
        some (29881470 * 60000) := by decide +kernel
    have hsecond : runs knownZones (atHalfPastTwo "daily") (29881440 * 60000) 1 =
        some (29881530 * 60000) := by decide +kernel
    exact h.distinct 0 1 _ _ Nat.one_pos hfirst hsecond (by decide +kernel)
  · intro h
    obtain ⟨minute, hrun, -⟩ := h.next _ (Or.inl rfl)
    -- eight days end before the Sunday after the one whose half past two is skipped
    rcases ((stored_atHalfPastTwo (Or.inr rfl)).exists_iff _).mp ⟨_, hrun⟩ rfl with
      ⟨t, hlater, hlocal⟩ | hlate
    · have hfirst : firstLocal (atHalfPastTwo "weekly")
          (paris.local (29569050 * 60000 / 60000 + 1)) = 29579190 := by decide +kernel
      rw [hfirst, Zone.local, paris] at hlocal
      dsimp only at hlocal
      split_ifs at hlocal <;> omega
    · revert hlate
      decide +kernel

end HomelabInventory.BackupSchedule
