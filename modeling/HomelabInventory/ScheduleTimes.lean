import HomelabInventory.BackupSchedule
import Mathlib.Order.Basic

/-!
# The local times of a schedule

A schedule has one local time a day or a week. Clocks are changed once in 14 days at most, so that a
daily schedule finds its time within two days; a weekly one finds it within eight days unless the
clocks skip it and the one a week later is out of reach.
-/

namespace HomelabInventory.BackupSchedule

/-! ## The times of a schedule -/

/-- The value of a digit. -/
def digitValue (c : Char) : ℕ := c.toNat - 48

/-- The minute of the day that `HH:MM` is. -/
def minuteOf (time : String) : ℤ :=
  match time.toList with
  | [tens, hours, _, sixths, minutes] =>
    (digitValue tens * 10 + digitValue hours) * 60 + (digitValue sixths * 10 + digitValue minutes)
  | _ => 0

/-- The minutes between two local times of a schedule. -/
def period (schedule : Schedule) : ℤ :=
  if schedule.frequency = "weekly" then 7 * 1440 else 1440

/-- The local times of a schedule, up to the period. -/
def phase (schedule : Schedule) : ℤ :=
  if schedule.frequency = "weekly" then
    (schedule.weekday + 3) % 7 * 1440 + minuteOf schedule.time
  else minuteOf schedule.time

/-- The first local time of a schedule, from some local time on. -/
def firstLocal (schedule : Schedule) (minute : ℤ) : ℤ :=
  minute + (phase schedule - minute) % period schedule

/-! ## Local time -/

section Zones

variable (zone : Zone)

/-- In 14 days clocks are changed once at most. -/
theorem Zone.window (a : ℤ) (n : ℕ) (hn : n ≤ 14 * 24 * 60) :
    (∀ t, a ≤ t → t ≤ a + n → zone.offset t = zone.offset a) ∨
      ∃ c, a ≤ c ∧ c < a + n ∧ (∀ t, a ≤ t → t ≤ c → zone.offset t = zone.offset a) ∧
        zone.offset (c + 1) ≠ zone.offset a ∧
        ∀ t, c < t → t ≤ a + n → zone.offset t = zone.offset (c + 1) := by
  induction n with
  | zero =>
    refine Or.inl fun t hle hge => ?_
    rw [show t = a by omega]
  | succ n ih =>
    have hnew : ∀ t, t ≤ a + (n + 1 : ℕ) → t ≤ a + n ∨ t = a + n + 1 := fun t ht => by omega
    rcases ih (by omega) with hsame | ⟨c, hac, hcn, hbefore, hchange, hafter⟩
    · by_cases hstep : zone.offset (a + n + 1) = zone.offset a
      · refine Or.inl fun t hle hge => ?_
        rcases hnew t hge with hge | rfl
        · exact hsame t hle hge
        · exact hstep
      · refine Or.inr ⟨a + n, by omega, by omega, hsame, hstep, fun t hlt hge => ?_⟩
        rw [show t = a + n + 1 by omega]
    · -- a second change would be too close to the first one
      refine Or.inr ⟨c, hac, by omega, hbefore, hchange, fun t hlt hge => ?_⟩
      rcases hnew t hge with hge | rfl
      · exact hafter t hlt hge
      · by_contra hstep
        have hlast := hafter (a + n) (by omega) (by omega)
        have hrare := zone.rare c (a + n) (by omega)
          (by rw [hbefore c hac (by omega)]; exact hchange) (by rw [hlast]; exact hstep)
        omega

/-- Local time may go back by an hour. -/
theorem Zone.local_near {u t : ℤ} (hle : u ≤ t) (hnear : t ≤ u + 14 * 24 * 60) :
    zone.local u + (t - u) - 60 ≤ zone.local t := by
  obtain ⟨n, rfl⟩ := Int.le.dest hle
  rw [Zone.local, Zone.local]
  rcases zone.window u n (by omega) with hsame | ⟨c, huc, hcn, hbefore, -, hafter⟩
  · have := hsame (u + n) (by omega) (by omega)
    omega
  · have hlast := hafter (u + n) (by omega) (by omega)
    have hfirst := hbefore c huc (by omega)
    have hhour := zone.hour c
    omega

/-- Local time never goes back by more than that. -/
theorem Zone.local_far {u t : ℤ} (hle : u ≤ t) : zone.local u - 60 ≤ zone.local t := by
  obtain ⟨n, rfl⟩ := Int.le.dest hle
  induction n using Nat.strongRecOn generalizing u with
  | _ n ih =>
    by_cases hnear : n ≤ 14 * 24 * 60
    · have := zone.local_near (u := u) (t := u + n) (by omega) (by omega)
      omega
    · have hfirst := zone.local_near (u := u) (t := u + 14 * 24 * 60) (by omega) (by omega)
      have hrest := ih (n - 14 * 24 * 60) (by omega) (u := u + 14 * 24 * 60) (by omega)
      rw [show u + 14 * 24 * 60 + ((n - 14 * 24 * 60 : ℕ) : ℤ) = u + n by omega] at hrest
      omega

end Zones

/-! ## Times of the day -/

theorem digit_inj {n k : ℕ} (hn : n < 10) (hk : k < 10) (h : digit n = digit k) : n = k := by
  have hall : ∀ n < 10, ∀ k < 10, digit n = digit k → n = k := by decide +kernel
  exact hall n hn k hk h

/-- A character between two digits is a digit. -/
theorem eq_digit_of_range {c : Char} (low high : ℕ) (hhigh : high < 10)
    (hc : digit low ≤ c ∧ c ≤ digit high) (hlow : low ≤ high) :
    low ≤ digitValue c ∧ digitValue c ≤ high ∧ c = digit (digitValue c) := by
  have hnat : ∀ n < 10, (digit n).toNat = 48 + n := by decide +kernel
  have hle : (digit low).toNat ≤ c.toNat := UInt32.le_iff_toNat_le.mp (Char.le_def.mp hc.1)
  have hge : c.toNat ≤ (digit high).toNat := UInt32.le_iff_toNat_le.mp (Char.le_def.mp hc.2)
  rw [hnat low (by omega)] at hle
  rw [hnat high hhigh] at hge
  refine ⟨by rw [digitValue]; omega, by rw [digitValue]; omega, ?_⟩
  rw [digit, digitValue, show 48 + (c.toNat - 48) = c.toNat by omega, Char.ofNat_toNat]

/-- A valid time is a minute of the day. -/
theorem timeText_iff {time : String} (h : isTime time = true) :
    0 ≤ minuteOf time ∧ minuteOf time < 1440 ∧
      ∀ minute : ℕ, minute < 1440 → (timeText minute = time ↔ (minute : ℤ) = minuteOf time) := by
  rw [isTime] at h
  match hlist : time.toList with
  | [tens, hours, colon, sixths, minutes] =>
    rw [hlist] at h
    simp only [Bool.and_eq_true, Bool.or_eq_true, beq_iff_eq, decide_eq_true_eq, Char.isDigit] at h
    obtain ⟨⟨⟨hhours, rfl⟩, hsixths⟩, hminutes⟩ := h
    obtain ⟨-, hsixthsLe, hsixthsEq⟩ := eq_digit_of_range 0 5 (by omega) hsixths (by omega)
    obtain ⟨-, hminutesLe, hminutesEq⟩ := eq_digit_of_range 0 9 (by omega) hminutes (by omega)
    have htens : digitValue tens ≤ 2 ∧ tens = digit (digitValue tens) ∧ digitValue hours ≤ 9 ∧
        hours = digit (digitValue hours) ∧ (digitValue tens = 2 → digitValue hours ≤ 3) := by
      rcases hhours with ⟨htens, hhours⟩ | ⟨rfl, hhours⟩
      · obtain ⟨-, hle, heq⟩ := eq_digit_of_range 0 9 (by omega) hhours (by omega)
        rcases htens with rfl | rfl
        · exact ⟨by decide, by decide, hle, heq, fun h => absurd h (by decide)⟩
        · exact ⟨by decide, by decide, hle, heq, fun h => absurd h (by decide)⟩
      · obtain ⟨-, hle, heq⟩ := eq_digit_of_range 0 3 (by omega) hhours (by omega)
        exact ⟨by decide, by decide, by omega, heq, fun _ => hle⟩
    obtain ⟨htensLe, htensEq, hhoursLe, hhoursEq, hlate⟩ := htens
    have hvalue : minuteOf time = (digitValue tens * 10 + digitValue hours) * 60 +
        (digitValue sixths * 10 + digitValue minutes) := by
      rw [minuteOf, hlist]
    rw [hvalue]
    refine ⟨by omega, by omega, fun minute hminute => ?_⟩
    have htime : time = String.ofList [digit (digitValue tens), digit (digitValue hours), ':',
        digit (digitValue sixths), digit (digitValue minutes)] := by
      rw [← htensEq, ← hhoursEq, ← hsixthsEq, ← hminutesEq, ← hlist, String.ofList_toList]
    rw [htime, timeText, String.ofList_inj]
    constructor
    · intro heq
      obtain ⟨h₁, h₂, -, h₃, h₄, -⟩ := by simpa only [List.cons.injEq] using heq
      have h₁ := digit_inj (by omega) (by omega) h₁
      have h₂ := digit_inj (by omega) (by omega) h₂
      have h₃ := digit_inj (by omega) (by omega) h₃
      have h₄ := digit_inj (by omega) (by omega) h₄
      omega
    · intro heq
      rw [show minute / 60 / 10 = digitValue tens by omega,
        show minute / 60 % 10 = digitValue hours by omega,
        show minute % 60 / 10 = digitValue sixths by omega,
        show minute % 60 % 10 = digitValue minutes by omega]
  | [] => rw [hlist] at h; exact absurd h (by simp)
  | [_] => rw [hlist] at h; exact absurd h (by simp)
  | [_, _] => rw [hlist] at h; exact absurd h (by simp)
  | [_, _, _] => rw [hlist] at h; exact absurd h (by simp)
  | [_, _, _, _] => rw [hlist] at h; exact absurd h (by simp)
  | _ :: _ :: _ :: _ :: _ :: _ :: _ => rw [hlist] at h; exact absurd h (by simp)

/-! ## Valid schedules -/

/-- **What is checked of a schedule**, as far as runs depend on it. -/
structure Valid (schedule : Schedule) : Prop where
  frequency : schedule.frequency = "daily" ∨ schedule.frequency = "weekly"
  time : isTime schedule.time = true
  weekday : 0 ≤ schedule.weekday ∧ schedule.weekday ≤ 6

theorem valid_of_assert {runtime : Runtime} {schedule : Schedule}
    (h : assertBackupSchedule runtime schedule = .ok ()) : Valid schedule := by
  have hfrequency : (schedule.frequency != "daily" && schedule.frequency != "weekly") = false := by
    cases hcheck : schedule.frequency != "daily" && schedule.frequency != "weekly" with
    | false => rfl
    | true =>
      rw [assertBackupSchedule, if_pos hcheck] at h
      exact nomatch h
  have htime : isTime schedule.time = true := by
    cases hcheck : isTime schedule.time with
    | true => rfl
    | false =>
      rw [assertBackupSchedule, if_neg (by rw [hfrequency]; simp),
        if_pos (by rw [hcheck]; rfl)] at h
      exact nomatch h
  refine ⟨?_, htime, ?_⟩
  · rw [Bool.and_eq_false_iff, bne_eq_false_iff_eq, bne_eq_false_iff_eq] at hfrequency
    exact hfrequency
  · by_contra hweekday
    rw [assertBackupSchedule, if_neg (by rw [hfrequency]; simp), if_neg (by rw [htime]; simp),
      if_pos (by omega)] at h
    exact nomatch h

section Schedules

variable {zone : Zone} {schedule : Schedule}

/-- The period is a week or a day. -/
theorem period_cases (schedule : Schedule) :
    period schedule = 7 * 1440 ∨ period schedule = 1440 := by
  rw [period]
  by_cases hweekly : schedule.frequency = "weekly"
  · exact Or.inl (if_pos hweekly)
  · exact Or.inr (if_neg hweekly)

variable (h : Valid schedule)
include h

/-- A schedule has a time in each period. -/
theorem Valid.phase :
    0 ≤ BackupSchedule.phase schedule ∧ BackupSchedule.phase schedule < period schedule := by
  obtain ⟨hle, hlt, -⟩ := timeText_iff h.time
  rw [BackupSchedule.phase, period]
  by_cases hweekly : schedule.frequency = "weekly"
  · rw [if_pos hweekly, if_pos hweekly]
    omega
  · rw [if_neg hweekly, if_neg hweekly]
    omega

/-- **The minutes of a schedule**: those whose local time is a time of the schedule. -/
theorem Valid.isRun_iff (t : ℤ) :
    isRun zone schedule t = true ↔
      zone.local t % period schedule = BackupSchedule.phase schedule := by
  obtain ⟨hle, hlt, htext⟩ := timeText_iff h.time
  have hday : (localParts zone t).time = schedule.time ↔
      zone.local t % 1440 = minuteOf schedule.time := by
    rw [localParts, htext _ (by omega)]
    omega
  have hweekday := h.weekday
  rw [isRun, Bool.and_eq_true, beq_iff_eq, hday, BackupSchedule.phase, period]
  rcases h.frequency with hfrequency | hfrequency
  · have hdaily : schedule.frequency ≠ "weekly" := by
      rw [hfrequency]
      decide +kernel
    rw [if_neg hdaily, if_neg hdaily, hfrequency]
    simp
  · have hnot : (schedule.frequency == "daily") = false := by
      rw [hfrequency]
      decide +kernel
    rw [if_pos hfrequency, if_pos hfrequency, hnot, Bool.false_or, beq_iff_eq]
    change zone.local t % 1440 = _ ∧ (zone.local t / 1440 + 4) % 7 = _ ↔ _
    omega

/-- The first local time is the only one within a period. -/
theorem Valid.firstLocal (minute : ℤ) :
    minute ≤ firstLocal schedule minute ∧
      firstLocal schedule minute < minute + period schedule ∧
      firstLocal schedule minute % period schedule = BackupSchedule.phase schedule := by
  obtain ⟨hle, hlt⟩ := h.phase
  rw [BackupSchedule.firstLocal]
  rcases period_cases schedule with hperiod | hperiod
  · rw [hperiod] at hlt ⊢
    omega
  · rw [hperiod] at hlt ⊢
    omega

variable (zone) in
/-- **Daily schedules have a run in two days**: what a clock change skips on one day is there on the
other. -/
theorem exists_daily (hdaily : schedule.frequency ≠ "weekly") (u : ℤ) :
    ∃ t, u < t ∧ t ≤ u + 2 * 24 * 60 ∧ isRun zone schedule t = true := by
  have hperiod : period schedule = 1440 := if_neg hdaily
  obtain ⟨hge, hlt, hphase⟩ := h.firstLocal (zone.local (u + 1))
  rw [hperiod] at hlt hphase
  simp only [h.isRun_iff, hperiod]
  generalize BackupSchedule.firstLocal schedule (zone.local (u + 1)) = first at hge hlt hphase
  rw [Zone.local] at hge hlt
  rcases zone.window (u + 1) 2879 (by omega) with hsame | ⟨c, huc, hcn, hbefore, -, hafter⟩
  · -- the clocks are not changed
    refine ⟨first - zone.offset (u + 1), by omega, by omega, ?_⟩
    rw [Zone.local, hsame (first - zone.offset (u + 1)) (by omega) (by omega)]
    omega
  · by_cases hreached : first - zone.offset (u + 1) ≤ c
    · refine ⟨first - zone.offset (u + 1), by omega, by omega, ?_⟩
      rw [Zone.local, hbefore (first - zone.offset (u + 1)) (by omega) hreached]
      omega
    · -- the clocks are changed first, and the next day has the time
      obtain ⟨hge', hlt', hphase'⟩ := h.firstLocal (zone.local (c + 1))
      rw [hperiod] at hlt' hphase'
      generalize BackupSchedule.firstLocal schedule (zone.local (c + 1)) = second
        at hge' hlt' hphase'
      rw [Zone.local] at hge' hlt'
      refine ⟨second - zone.offset (c + 1), by omega, by omega, ?_⟩
      rw [Zone.local, hafter (second - zone.offset (c + 1)) (by omega) (by omega)]
      omega

/-- **Weekly schedules have a run in eight days** exactly when the first time is reached, or the one
a week later is. -/
theorem exists_weekly_iff (hweekly : schedule.frequency = "weekly") (u : ℤ) :
    (∃ t, u < t ∧ t ≤ u + 8 * 24 * 60 ∧ isRun zone schedule t = true) ↔
      (∃ t, u < t ∧ zone.local t = firstLocal schedule (zone.local (u + 1))) ∨
        firstLocal schedule (zone.local (u + 1)) + 7 * 1440 ≤ zone.local (u + 8 * 1440) := by
  have hperiod : period schedule = 7 * 1440 := if_pos hweekly
  obtain ⟨hge, hlt, hphase⟩ := h.firstLocal (zone.local (u + 1))
  rw [hperiod] at hlt hphase
  simp only [h.isRun_iff, hperiod]
  generalize BackupSchedule.firstLocal schedule (zone.local (u + 1)) = first at hge hlt hphase
  have hwindow := zone.window (u + 1) 11519 (by omega)
  constructor
  · rintro ⟨t, hut, htu, hrun⟩
    -- the first time is reached where the clocks are not changed before it
    have hreached : ∀ s, u < s → zone.offset s = first - s → ∃ t, u < t ∧ zone.local t = first :=
      fun s hus hoffset => ⟨s, hus, by rw [Zone.local]; omega⟩
    rcases hwindow with hsame | ⟨c, huc, hcn, hbefore, -, hafter⟩
    · refine Or.inl (hreached (first - zone.offset (u + 1)) ?_ ?_)
      · rw [Zone.local] at hge
        omega
      · rw [hsame (first - zone.offset (u + 1)) (by rw [Zone.local] at hge; omega)
          (by rw [Zone.local] at hlt; omega)]
        omega
    · by_cases hearly : first - zone.offset (u + 1) ≤ c
      · refine Or.inl (hreached (first - zone.offset (u + 1)) ?_ ?_)
        · rw [Zone.local] at hge
          omega
        · rw [hbefore (first - zone.offset (u + 1)) (by rw [Zone.local] at hge; omega) hearly]
          omega
      · by_cases hlate : c < first - zone.offset (c + 1)
        · have hhour := zone.hour c
          have hfirst := hbefore c huc (by omega)
          refine Or.inl (hreached (first - zone.offset (c + 1)) (by omega) ?_)
          rw [hafter (first - zone.offset (c + 1)) hlate (by rw [Zone.local] at hlt; omega)]
          omega
        · -- the clocks skip the first time, so that the run is a week later
          refine Or.inr ?_
          have hhour := zone.hour c
          have hfirst := hbefore c huc (by omega)
          have hend := hafter (u + 8 * 1440) (by omega) (by omega)
          rw [Zone.local] at hrun hge hlt ⊢
          rw [hend]
          by_cases htc : t ≤ c
          · rw [hbefore t (by omega) htc] at hrun
            omega
          · rw [hafter t (by omega) (by omega)] at hrun
            omega
  · rintro (⟨t, hut, hfirst⟩ | hnext)
    · refine ⟨t, hut, ?_, by rw [hfirst]; exact hphase⟩
      -- far from the start, local time is far from it too
      by_contra hfar
      have hend := zone.local_near (u := u + 1) (t := u + 8 * 24 * 60) (by omega) (by omega)
      have := zone.local_far (u := u + 8 * 24 * 60) (t := t) (by omega)
      omega
    · -- the time a week later is reached after the clocks are changed
      rcases hwindow with hsame | ⟨c, huc, hcn, hbefore, -, hafter⟩
      · have hend := hsame (u + 8 * 1440) (by omega) (by omega)
        rw [Zone.local] at hge hlt hnext
        refine ⟨first - zone.offset (u + 1), by omega, by omega, ?_⟩
        rw [Zone.local, hsame (first - zone.offset (u + 1)) (by omega) (by omega)]
        omega
      · have hend := hafter (u + 8 * 1440) (by omega) (by omega)
        have hhour := zone.hour c
        have hfirst := hbefore c huc (by omega)
        rw [Zone.local] at hge hlt hnext
        by_cases hearly : first - zone.offset (u + 1) ≤ c
        · refine ⟨first - zone.offset (u + 1), by omega, by omega, ?_⟩
          rw [Zone.local, hbefore (first - zone.offset (u + 1)) (by omega) hearly]
          omega
        · by_cases hnextEarly : first + 7 * 1440 - zone.offset (c + 1) ≤ c
          · refine ⟨first - zone.offset (c + 1), by omega, by omega, ?_⟩
            rw [Zone.local, hafter (first - zone.offset (c + 1)) (by omega) (by omega)]
            omega
          · refine ⟨first + 7 * 1440 - zone.offset (c + 1), by omega, by omega, ?_⟩
            rw [Zone.local, hafter (first + 7 * 1440 - zone.offset (c + 1)) (by omega) (by omega)]
            omega

end Schedules

end HomelabInventory.BackupSchedule
