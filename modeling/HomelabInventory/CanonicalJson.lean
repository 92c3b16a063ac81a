import HomelabInventory.CatalogText
import HomelabInventory.OrderedMap

/-!
# Canonical JSON

`packages/catalog-protocol/src/canonicalize.ts`: the canonical form of a value that
fingerprints and signatures are computed from, and its text. An object is the list of its
members in the order of its properties.
-/

namespace HomelabInventory.CatalogProtocol

/-! ## Values -/

/-- A number, with the ones that JSON cannot write. -/
inductive Number where
  | finite (value : ℚ)
  | negativeZero
  | notFinite
deriving DecidableEq

/-- A value of the language as far as JSON goes. -/
inductive Value where
  | undefined
  | null
  | bool (value : Bool)
  | number (value : Number)
  | string (value : String)
  | array (entries : List Value)
  | object (members : List (String × Value))

/-! ## Property order -/

/-- The UTF-16 code units of a character. -/
def codeUnitsOf (c : Char) : List ℕ :=
  if c.toNat < 0x10000 then [c.toNat]
  else [0xD800 + (c.toNat - 0x10000) / 0x400, 0xDC00 + (c.toNat - 0x10000) % 0x400]

/-- The UTF-16 code units of a text, which texts are ordered by. -/
def codeUnits (text : String) : List ℕ := text.toList.flatMap codeUnitsOf

/-- The order of `Array.prototype.sort` on texts. -/
def compareCodeUnits (left right : String) : Ordering := compare (codeUnits left) (codeUnits right)

/-- The number of a key that is an array index. -/
def arrayIndex (key : String) : Option ℕ :=
  let number := key.toList.foldl (fun n c => n * 10 + (c.toNat - '0'.toNat)) 0
  if key ≠ "" ∧ key.toList.all Char.isDigit ∧ (key = "0" ∨ key.toList.head? ≠ some '0') ∧
      number < 2 ^ 32 - 1 then some number
  else none

/-- The order of members by their array indices. -/
def compareIndices {α : Type} (left right : String × α) : Ordering :=
  compare (arrayIndex left.1) (arrayIndex right.1)

/-- Properties in the order of the language: array indices in their order, then the others as
they were set. -/
def propertyOrder {α : Type} (members : List (String × α)) : List (String × α) :=
  sortBy compareIndices (members.filter fun member => (arrayIndex member.1).isSome) ++
    members.filter fun member => (arrayIndex member.1).isNone

/-! ## Text -/

/-- A hexadecimal digit. -/
def hexDigit (n : ℕ) : Char := Nat.digitChar n

/-- A character inside a text of JSON. -/
def escapeCharacter (c : Char) : List Char :=
  let n := c.toNat
  if n = 0x22 then [Char.ofNat 0x5C, Char.ofNat 0x22]
  else if n = 0x5C then [Char.ofNat 0x5C, Char.ofNat 0x5C]
  else if n = 0x08 then [Char.ofNat 0x5C, 'b']
  else if n = 0x09 then [Char.ofNat 0x5C, 't']
  else if n = 0x0A then [Char.ofNat 0x5C, 'n']
  else if n = 0x0C then [Char.ofNat 0x5C, 'f']
  else if n = 0x0D then [Char.ofNat 0x5C, 'r']
  else if n < 0x20 then [Char.ofNat 0x5C, 'u', '0', '0', hexDigit (n / 16), hexDigit (n % 16)]
  else [c]

/-- A text in JSON. -/
def quote (text : String) : List Char :=
  Char.ofNat 0x22 :: (text.toList.flatMap escapeCharacter ++ [Char.ofNat 0x22])

/-- A member of an object in JSON. -/
def memberText (key : String) (text : List Char) : List Char := quote key ++ ':' :: text

/-- An array in JSON, of the texts of its entries. -/
def arrayText (texts : List (List Char)) : List Char :=
  '[' :: ([','].intercalate texts ++ [']'])

/-- An object in JSON, of the texts of its members. -/
def objectText (texts : List (String × List Char)) : List Char :=
  Char.ofNat 0x7B :: ([','].intercalate (texts.map fun member => memberText member.1 member.2) ++
    [Char.ofNat 0x7D])

mutual

/-- `JSON.stringify` -/
def stringify (rules : TextRules) : Value → List Char
  | .undefined | .null | .number .notFinite => "null".toList
  | .bool value => if value then "true".toList else "false".toList
  | .number .negativeZero => (rules.numberText 0).toList
  | .number (.finite value) => (rules.numberText value).toList
  | .string value => quote value
  | .array entries => arrayText (stringifyEntries rules entries)
  | .object members => objectText (stringifyMembers rules members)

/-- The texts of the entries of an array. -/
def stringifyEntries (rules : TextRules) : List Value → List (List Char)
  | [] => []
  | entry :: rest => stringify rules entry :: stringifyEntries rules rest

/-- The texts of the members of an object, without the undefined ones. -/
def stringifyMembers (rules : TextRules) : List (String × Value) → List (String × List Char)
  | [] => []
  | (_, .undefined) :: rest => stringifyMembers rules rest
  | (key, value) :: rest => (key, stringify rules value) :: stringifyMembers rules rest

end

/-! ## The canonical form -/

/-- `compareCanonical` -/
def compareCanonical (rules : TextRules) (left right : Value) : Ordering :=
  rules.localeCompare (String.ofList (stringify rules left)) (String.ofList (stringify rules right))

/-- The keys whose texts are names of manufacturers. -/
def isManufacturerKey (key : Option String) : Bool :=
  key == some "manufacturer" || key == some "secondaryManufacturer"

/-- The normal form of the text of a key. -/
def normalizeValueText (rules : TextRules) (key : Option String) (value : String) : String :=
  if isManufacturerKey key then normalizeManufacturer rules value else normalizeUnitText rules value

/-- The order of members by their keys. -/
def compareKeys {α : Type} (left right : String × α) : Ordering :=
  compareCodeUnits left.1 right.1

/-- The members of the result: those given, in the order of their keys, set under the normal
forms of these. Setting `__proto__` sets no property. -/
def canonicalMembers {α : Type} (rules : TextRules) (members : List (String × α)) :
    List (String × α) :=
  propertyOrder (InsertionMap.ofEntries
    (((sortBy compareKeys members).map fun member =>
      (normalizeFingerprintText rules member.1, member.2)).filter fun member =>
        member.1 ≠ "__proto__"))

mutual

/-- `canonicalizeValue`, with nothing for `OMIT`. The members of an object are canonicalized
first and then sorted by their keys. -/
def canonicalizeValue (rules : TextRules) : Value → Option String → Option Value
  | .undefined, _ | .null, _ | .number .notFinite, _ => none
  | .bool value, _ => some (.bool value)
  | .number .negativeZero, _ => some (.number (.finite 0))
  | .number (.finite value), _ => some (.number (.finite value))
  | .string value, key =>
    if value = "" ∨ normalizeValueText rules key value = "" then none
    else some (.string (normalizeValueText rules key value))
  | .array entries, _ =>
    match canonicalizeEntries rules entries with
    | [] => none
    | entry :: rest => some (.array (sortBy (compareCanonical rules) (entry :: rest)))
  | .object members, _ =>
    match canonicalMembers rules (canonicalizeMembers rules members) with
    | [] => none
    | member :: rest => some (.object (member :: rest))

/-- The entries of an array that are not omitted. -/
def canonicalizeEntries (rules : TextRules) : List Value → List Value
  | [] => []
  | entry :: rest =>
    match canonicalizeValue rules entry none with
    | none => canonicalizeEntries rules rest
    | some canonical => canonical :: canonicalizeEntries rules rest

/-- The members of an object that are not omitted, under their own keys. -/
def canonicalizeMembers (rules : TextRules) : List (String × Value) → List (String × Value)
  | [] => []
  | (key, value) :: rest =>
    match canonicalizeValue rules value (some key) with
    | none => canonicalizeMembers rules rest
    | some canonical => (key, canonical) :: canonicalizeMembers rules rest

end

/-- `canonicalize` -/
def canonicalize (rules : TextRules) (value : Value) : Value :=
  (canonicalizeValue rules value none).getD .null

/-- `canonicalJson` -/
def canonicalJson (rules : TextRules) (value : Value) : String :=
  String.ofList (stringify rules (canonicalize rules value))

end HomelabInventory.CatalogProtocol
