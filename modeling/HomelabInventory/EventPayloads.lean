import HomelabInventory.ExceptLoop
import HomelabInventory.MergedObjects

/-!
# The payloads of the events

`installation-event-coordinator.mjs`: `validatePayload` checks what an event of the
installation carries by the kind of the event. The members of a payload are exactly those of
its kind, and each is checked.
-/

namespace HomelabInventory.EventStream

open CatalogProtocol (Value)

/-- An error with its code, which is empty for the errors of the language. -/
structure Failure where
  message : String
  code : String
deriving DecidableEq

def payloadInvalid : Failure := ⟨"lab.gd event payload is invalid.", "sharing-events-invalid"⟩

/-- What the payloads of one kind fail with. -/
def payloadOfKindInvalid (kind : String) : Failure :=
  ⟨"lab.gd " ++ kind ++ " event payload is invalid.", "sharing-events-invalid"⟩

def versionUnsupported : Failure :=
  ⟨"lab.gd event version is unsupported.", "sharing-event-version-unsupported"⟩

/-- What `Object.keys` fails with. -/
def noObject : Failure := ⟨"Cannot convert undefined or null to object", ""⟩

/-- `SHARE_EVENT_KINDS` -/
def shareEventKinds : List String :=
  ["publication", "replacement", "unpublish", "deletion", "expiration", "grace-period"]

/-- `Number.MAX_SAFE_INTEGER` -/
def maxSafeInteger : ℕ := 2 ^ 53 - 1

/-! ## Timestamps -/

/-- The number that a text of so many digits is. -/
def number? (length : ℕ) (text : List Char) : Option ℕ :=
  if text.length = length ∧ text.all Char.isDigit then
    some (text.foldl (fun n c => n * 10 + (c.toNat - '0'.toNat)) 0)
  else none

def daysInMonth (year : ℤ) (month : ℕ) : ℕ :=
  if month = 2 then if year % 4 = 0 ∧ (year % 100 ≠ 0 ∨ year % 400 = 0) then 29 else 28
  else if month ∈ [4, 6, 9, 11] then 30
  else 31

/-- The year of a text as `toISOString` writes it, of four digits or of six with a sign, and
what follows it. -/
def yearOf : List Char → Option ℤ × List Char
  | '+' :: text => (((number? 6 (text.take 6)).filter (9999 < ·)).map (↑·), text.drop 6)
  | '-' :: text => (((number? 6 (text.take 6)).filter (0 < ·)).map (-↑·), text.drop 6)
  | text => ((number? 4 (text.take 4)).map (↑·), text.drop 4)

/-- The text is what `toISOString` writes for some date: after the year come the month, the
day and the time of the day, and the date is within the range of the language. -/
def canonicalTimestamp (text : String) : Bool :=
  let (year, rest) := yearOf text.toList
  let field (start length : ℕ) := number? length ((rest.drop start).take length)
  match year, field 1 2, field 4 2, field 7 2, field 10 2, field 13 2, field 16 3 with
  | some year, some month, some day, some hour, some minute, some second, some millisecond =>
    let date : List ℤ := [year, month, day, hour, minute, second, millisecond]
    rest.length = 20 ∧ [0, 3, 6, 9, 12, 15, 19].filterMap (rest[·]?) = "--T::.Z".toList ∧
      1 ≤ month ∧ month ≤ 12 ∧ 1 ≤ day ∧ day ≤ daysInMonth year month ∧
      hour < 24 ∧ minute < 60 ∧ second < 60 ∧
      [-271821, 4, 20] ≤ date ∧ date ≤ [275760, 9, 13, 0, 0, 0, 0]
  | _, _, _, _, _, _, _ => false

/-! ## Checks -/

/-- The members of an object are those expected. A text, an array or a number has none of
them. -/
def exactKeys (expected : List String) : Value → Except Failure Unit
  | .undefined | .null => .error noObject
  | .object members => failIf (members.length ≠ expected.length ∨
      ∃ key ∈ expected, InsertionMap.get? members key = none) payloadInvalid
  | _ => .error payloadInvalid

/-- The value as a safe integer: `Number.isSafeInteger(value)`. -/
def safeInteger : Value → Option ℤ
  | .number .negativeZero => some 0
  | .number (.finite q) => if q.den = 1 ∧ q.num.natAbs ≤ maxSafeInteger then some q.num else none
  | _ => none

/-- The value is a text that passes a check. -/
def isText (check : String → Bool) : Value → Bool
  | .string text => check text
  | _ => false

/-- `/^[A-Za-z0-9_-]{1,128}$/` -/
def isIdentifier (text : String) : Bool :=
  text ≠ "" ∧ text.length ≤ 128 ∧ text.toList.all fun c => c.isAlphanum || c = '_' || c = '-'

/-- The counts of what an unlinking affected: every share counts for its disposition. -/
def affectedCounts (disposition : Value) (affected : Value) : Bool :=
  match ["shares", "keptOnline", "unpublished", "deleted"].map fun key =>
      safeInteger (affected.get key) with
  | [some shares, some keptOnline, some unpublished, some deleted] =>
    let expected :=
      if isText (· = "keep") disposition then [shares, 0, 0]
      else if isText (· = "unpublish") disposition then [0, shares, 0]
      else [0, 0, shares]
    [shares, keptOnline, unpublished, deleted].all (0 ≤ ·) ∧
      [keptOnline, unpublished, deleted] = expected
  | _ => false

/-- Check the payload of a kind of events. -/
def validatePayload (kind : String) (payload : Value) : Except Failure Unit := do
  failIf (safeInteger (payload.get "eventVersion") ≠ some 1) versionUnsupported
  failIf (¬isText canonicalTimestamp (payload.get "occurredAt")) payloadInvalid
  if kind ∈ shareEventKinds then
    exactKeys ["eventVersion", "sharePublicId", "revision", "state", "occurredAt"] payload
    failIf (¬isText isIdentifier (payload.get "sharePublicId") ∨
      (safeInteger (payload.get "revision")).all (· ≤ 0) ∨
      ¬isText (· ∈ ["staged", "active", "unpublished", "deleted", "expired"])
        (payload.get "state")) (payloadOfKindInvalid "share")
  else if kind = "account-claim" then
    exactKeys ["eventVersion", "claimId", "state", "occurredAt"] payload
    failIf (¬isText isIdentifier (payload.get "claimId") ∨
      ¬isText (· = "completed") (payload.get "state")) (payloadOfKindInvalid "claim")
  else if kind = "account-unlink" then
    exactKeys ["eventVersion", "bindingRevision", "disposition", "operationId", "affected",
      "occurredAt"] payload
    failIf ((safeInteger (payload.get "bindingRevision")).all (· < 0) ∨
      (safeInteger (payload.get "operationId")).all (· ≤ 0) ∨
      ¬isText (· ∈ ["keep", "unpublish", "delete"]) (payload.get "disposition"))
      (payloadOfKindInvalid "account unlink")
    -- what is affected may be no object, and then the language throws
    exactKeys ["shares", "keptOnline", "unpublished", "deleted"] (payload.get "affected")
    failIf (¬affectedCounts (payload.get "disposition") (payload.get "affected"))
      (payloadOfKindInvalid "account unlink")
  else
    exactKeys ["eventVersion", "state", "occurredAt"] payload
    failIf (¬isText (· ∈ ["active", "recovery-pending", "revoked"]) (payload.get "state"))
      (payloadOfKindInvalid "recovery")

end HomelabInventory.EventStream
