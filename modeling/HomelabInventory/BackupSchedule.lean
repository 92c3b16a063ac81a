import Mathlib.Data.Int.Order.Basic
import Mathlib.Tactic.Basic

/-!
# The backup schedule

`nextBackupRun` of `server/backup/backup-scheduler.mjs`: minute after minute is tried, for two days
or for eight, until the local time of the configured zone is the one of the schedule.
-/

namespace HomelabInventory.BackupSchedule

/-! ## Zones -/

/-- **A time zone**: from the minutes of UTC to the minutes that local time is ahead. Clocks are
changed by an hour at most, and at most once in 14 days. -/
structure Zone where
  offset : ℤ → ℤ
  hour : ∀ t, offset (t + 1) - offset t ≤ 60 ∧ offset t - offset (t + 1) ≤ 60
  rare : ∀ t u, t < u → offset (t + 1) ≠ offset t → offset (u + 1) ≠ offset u →
    t + 14 * 24 * 60 ≤ u

/-- The minutes of local time since the start of 1970. -/
def Zone.local (zone : Zone) (t : ℤ) : ℤ := t + zone.offset t

/-- The local date, in days. -/
def Zone.date (zone : Zone) (t : ℤ) : ℤ := zone.local t / 1440

/-- A digit. -/
def digit (n : ℕ) : Char := Char.ofNat (48 + n)

/-- A time of day as `HH:MM`. -/
def timeText (minute : ℕ) : String :=
  String.ofList [digit (minute / 60 / 10), digit (minute / 60 % 10), ':',
    digit (minute % 60 / 10), digit (minute % 60 % 10)]

/-- The local weekday and time. -/
structure LocalParts where
  weekday : ℤ
  time : String
deriving DecidableEq

/-- `localParts`. The year 1970 starts on a Thursday. -/
def localParts (zone : Zone) (t : ℤ) : LocalParts where
  weekday := (zone.date t + 4) % 7
  time := timeText (zone.local t % 1440).toNat

/-! ## Schedules -/

/-- A schedule. -/
structure Schedule where
  enabled : Bool
  frequency : String
  time : String
  weekday : ℤ
  timezone : Option String
  retention : ℤ
  nextRunAt : Option String
  lastRunAt : Option String
  lastResult : Option String
  updatedAt : Option String

/-- The runtime: the time zones it knows, and the texts that are times. -/
structure Runtime where
  zoneOf : String → Option Zone
  isTimestamp : String → Bool
  knows_utc : (zoneOf "UTC").isSome = true

/-- `/^(?:[01]\d|2[0-3]):[0-5]\d$/` -/
def isTime (time : String) : Bool :=
  match time.toList with
  | [tens, hours, colon, sixths, minutes] =>
    ((tens == '0' || tens == '1') && hours.isDigit ||
        tens == '2' && ('0' ≤ hours && hours ≤ '3')) &&
      colon == ':' && ('0' ≤ sixths && sixths ≤ '5') && minutes.isDigit
  | _ => false

/-- `assertNullableIso` -/
def assertNullableIso (runtime : Runtime) (value : Option String) (path : String) :
    Except String Unit :=
  if value.all runtime.isTimestamp then .ok ()
  else .error s!"{path} must be an ISO timestamp or null."

/-- `assertBackupSchedule` -/
def assertBackupSchedule (runtime : Runtime) (schedule : Schedule) : Except String Unit := do
  let path := "backupManagement.schedule"
  if schedule.frequency != "daily" && schedule.frequency != "weekly" then
    throw s!"{path}.frequency is unsupported."
  if !isTime schedule.time then
    throw s!"{path}.time must use HH:MM."
  if schedule.weekday < 0 ∨ 6 < schedule.weekday then
    throw s!"{path}.weekday must be between 0 and 6."
  match schedule.timezone with
  | none => pure ()
  | some timezone =>
    if timezone.length = 0 ∨ 100 < timezone.length then
      throw s!"{path}.timezone must be a non-empty bounded string."
    if (runtime.zoneOf timezone).isNone then
      throw s!"{path}.timezone is invalid."
  if schedule.retention < 1 ∨ 365 < schedule.retention then
    throw s!"{path}.retention must be between 1 and 365."
  assertNullableIso runtime schedule.nextRunAt s!"{path}.nextRunAt"
  assertNullableIso runtime schedule.lastRunAt s!"{path}.lastRunAt"
  assertNullableIso runtime schedule.updatedAt s!"{path}.updatedAt"
  match schedule.lastResult with
  | none => pure ()
  | some result =>
    if result != "success" && result != "failed" then
      throw s!"{path}.lastResult is unsupported."

/-! ## The next run -/

/-- The local time of a minute is the one of the schedule. -/
def isRun (zone : Zone) (schedule : Schedule) (t : ℤ) : Bool :=
  let parts := localParts zone t
  parts.time == schedule.time &&
    (schedule.frequency == "daily" || parts.weekday == schedule.weekday)

/-- The first of some minutes that has a property. -/
def searchFrom (found : ℤ → Bool) (cursor : ℤ) : ℕ → Option ℤ
  | 0 => none
  | limit + 1 => if found cursor then some cursor else searchFrom found (cursor + 1) limit

/-- The number of minutes that are tried. -/
def searchLimit (schedule : Schedule) : ℕ :=
  if schedule.frequency == "weekly" then 8 * 24 * 60 else 2 * 24 * 60

/-- `nextBackupRun`, from and to milliseconds. -/
def nextBackupRun (runtime : Runtime) (schedule : Schedule) (start : ℤ) :
    Except String (Option ℤ) :=
  if !schedule.enabled then .ok none
  else
    match assertBackupSchedule runtime schedule with
    | .error message => .error message
    | .ok () =>
      let timezone := schedule.timezone.getD "UTC"
      match runtime.zoneOf timezone with
      | none => .error s!"Invalid time zone specified: {timezone}"
      | some zone =>
        match searchFrom (isRun zone schedule) (start / 60000 + 1) (searchLimit schedule) with
        | some minute => .ok (some (minute * 60000))
        | none => .error "Unable to calculate the next backup run in the configured timezone."

end HomelabInventory.BackupSchedule
