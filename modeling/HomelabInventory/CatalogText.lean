import HomelabInventory.Compatibility
import HomelabInventory.JoinedText
import Mathlib.Data.List.DropRight
import Mathlib.Data.List.SplitBy

/-!
# Text in fingerprints

`packages/catalog-protocol/src/normalization.ts`: the normal forms that texts of the
catalog are compared and hashed in. What depends on the Unicode tables of the runtime is
a parameter.
-/

namespace HomelabInventory.CatalogProtocol

open Compatibility (isSpace)

/-- The operations on text of the runtime. -/
structure TextRules where
  /-- `String.prototype.normalize('NFKC')` -/
  nfkc : String → String
  /-- `String.prototype.toLocaleLowerCase('en-US')` -/
  toLocaleLowerCase : String → String
  /-- `String.prototype.localeCompare` in `en-US` -/
  localeCompare : String → String → Ordering
  /-- `Number.prototype.toString` -/
  numberText : ℚ → String
  /-- collation is a consistent order -/
  consistent : Std.TransCmp localeCompare

/-- The operations on texts of ASCII characters. -/
def asciiRules : TextRules where
  nfkc := id
  toLocaleLowerCase text := String.ofList (text.toList.map Char.toLower)
  localeCompare := compare
  numberText value := toString value
  consistent := inferInstance

/-- `DASH_PATTERN`, `SINGLE_QUOTE_PATTERN` and `DOUBLE_QUOTE_PATTERN` with what they are
replaced by. -/
def plainCharacter (c : Char) : Char :=
  let n := c.toNat
  if (0x2010 ≤ n ∧ n ≤ 0x2015) ∨ n = 0x2212 then '-'
  else if n = 0x2018 ∨ n = 0x2019 ∨ n = 0x2032 then Char.ofNat 0x27
  else if n = 0x201C ∨ n = 0x201D ∨ n = 0x2033 then Char.ofNat 0x22
  else c

/-- Runs of white space become one blank, and go at both ends. -/
def collapseSpaces (text : List Char) : List Char :=
  [' '].intercalate ((text.splitOnP isSpace).filter fun word => !word.isEmpty)

/-- `normalizeText` -/
def normalizeText (rules : TextRules) (value : String) : String :=
  String.ofList (collapseSpaces ((rules.nfkc value).toList.map plainCharacter))

/-- `normalizeFingerprintText` -/
def normalizeFingerprintText (rules : TextRules) (value : String) : String :=
  rules.toLocaleLowerCase (normalizeText rules value)

/-- `MANUFACTURER_ALIASES` -/
def manufacturerAliases : List (String × String) :=
  [("hewlett packard", "hp"), ("hewlett-packard", "hp"), ("hp inc", "hp"), ("hp inc.", "hp"),
    ("intel corporation", "intel"), ("intel corp", "intel"),
    ("advanced micro devices", "amd"), ("advanced micro devices inc", "amd"),
    ("micro-star international", "msi"), ("micro star international", "msi"),
    ("asustek computer", "asus"), ("asustek computer inc", "asus")]

/-- `normalizeManufacturer` -/
def normalizeManufacturer (rules : TextRules) (value : String) : String :=
  let normalized := String.ofList
    ((normalizeFingerprintText rules value).toList.rdropWhile fun c => c = '.' ∨ c = ',')
  (InsertionMap.get? manufacturerAliases normalized).getD normalized

/-- `\w` -/
def isWordCharacter (c : Char) : Bool := c.isAlphanum || c == '_'

/-- The units that are written without a blank before them. -/
def units : List String :=
  ["gbps", "mbps", "ghz", "mhz", "khz", "tb", "gb", "mb", "kb", "watt", "watts", "w"]

/-- The text starts with a unit that is a whole word from there on. -/
def startsWithUnit (text : List Char) : Bool :=
  units.contains (String.ofList (text.takeWhile isWordCharacter))

/-- White space before a unit goes: the first replacement of `normalizeUnitText`. -/
def joinUnits : List Char → List Char
  | [] => []
  | c :: rest =>
    if isSpace c && startsWithUnit (rest.dropWhile isSpace) then joinUnits rest
    else c :: joinUnits rest

/-- The words `watt` and `watts` become `w`: the second replacement of `normalizeUnitText`. -/
def shortenWatts (text : List Char) : List Char :=
  (text.splitBy fun c d => isWordCharacter c == isWordCharacter d).flatMap fun run =>
    if run = "watt".toList ∨ run = "watts".toList then ['w'] else run

/-- `normalizeUnitText` -/
def normalizeUnitText (rules : TextRules) (value : String) : String :=
  String.ofList (shortenWatts (joinUnits (normalizeFingerprintText rules value).toList))

end HomelabInventory.CatalogProtocol
