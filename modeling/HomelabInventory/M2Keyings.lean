import HomelabInventory.CatalogText

/-!
# Keys of M.2 modules and sockets

`m2-ae-compatibility.ts` and `m2-physical.ts` of `packages/catalog-protocol`: each of the two reads
the keyings of M.2 modules and sockets and the generations of USB in its own way. They judge alike
exactly when the texts are spelled in ways that both read.
-/

namespace HomelabInventory.M2Keyings

open Compatibility (isSpace)
open CatalogProtocol (collapseSpaces)

/-! ## Texts -/

/-- The operations on text that depend on the Unicode tables of the runtime. -/
structure TextRules where
  /-- `String.prototype.normalize('NFKC')` -/
  nfkc : List Char → List Char
  /-- What `String.prototype.toUpperCase` makes of a character. -/
  toUpperCase : Char → List Char
  /-- `String.prototype.toLowerCase` -/
  toLowerCase : List Char → List Char

/-- The characters that combined keyings are spelled with. -/
def keyCharacters : List Char := ['A', 'E', '+', '-', '&', '/']

/-- **What is documented of the runtime.** ASCII texts are their own normal form, up to which white
space there is, and have ASCII capitals; nothing else has the capitals of a key. -/
structure TextRules.Documented (rules : TextRules) : Prop where
  nfkc_plain : ∀ text, (∀ c ∈ text, c.toNat < 128 ∨ isSpace c = true) →
    ∃ space : Char → Char, (∀ c, isSpace c = true → isSpace (space c) = true) ∧
      rules.nfkc text = text.map fun c => if isSpace c then space c else c
  upper_ascii : ∀ c, c.toNat < 128 → rules.toUpperCase c = [c.toUpper]
  upper_space : ∀ c, isSpace c = true → rules.toUpperCase c = [c]
  only_letters : ∀ c, (∀ d ∈ rules.toUpperCase c, isSpace d = true ∨ d ∈ keyCharacters) →
    isSpace c = true ∨ c ∈ 'a' :: 'e' :: keyCharacters
  lower_ascii : ∀ text, (∀ c ∈ text, c.toNat < 128) →
    rules.toLowerCase text = text.map Char.toLower

/-- `String.prototype.trim` -/
def trim (text : List Char) : List Char := (text.dropWhile isSpace).rdropWhile isSpace

/-- `String.prototype.toUpperCase` -/
def upperCase (rules : TextRules) (text : List Char) : List Char :=
  text.flatMap rules.toUpperCase

/-- The keys of a module or a socket. -/
inductive ModuleKey where
  | a
  | e
  | combined
deriving DecidableEq

/-- `USB_GENERATIONS_V12` -/
inductive UsbGeneration where
  | usb11
  | usb20
  | usb32Gen1
  | usb32Gen2
  | usb32Gen2x2
  | usb4At20
  | usb4At40
  | usb4At80
deriving DecidableEq

/-- How a generation is written. -/
def UsbGeneration.text : UsbGeneration → String
  | .usb11 => "USB 1.1"
  | .usb20 => "USB 2.0"
  | .usb32Gen1 => "USB 3.2 Gen 1"
  | .usb32Gen2 => "USB 3.2 Gen 2"
  | .usb32Gen2x2 => "USB 3.2 Gen 2x2"
  | .usb4At20 => "USB4 20Gbps"
  | .usb4At40 => "USB4 40Gbps"
  | .usb4At80 => "USB4 80Gbps"

/-! ## The compatibility module -/

namespace Compatible

/-- A keying in capitals without white space. -/
def compact (rules : TextRules) (value : List Char) : List Char :=
  (upperCase rules (trim value)).filter fun c => !isSpace c

/-- `/^(?:A[+\-&/]E|E[+\-&/]A)$/` -/
def combinedSpellings : List (List Char) :=
  ["A+E".toList, "A-E".toList, "A&E".toList, "A/E".toList,
    "E+A".toList, "E-A".toList, "E&A".toList, "E/A".toList]

/-- `canonicalModuleKey` -/
def canonicalModuleKey (rules : TextRules) (value : Option String) : Option ModuleKey :=
  match value with
  | none => none
  | some value =>
    let normalized := compact rules value.toList
    if normalized = ['A'] then some .a
    else if normalized = ['E'] then some .e
    else if normalized ∈ combinedSpellings then some .combined
    else none

/-- `moduleKeyFitsSocket` -/
def moduleKeyFitsSocket (rules : TextRules) (moduleKey socketKey : Option String) : Bool :=
  let module' := canonicalModuleKey rules moduleKey
  let socket := canonicalModuleKey rules socketKey
  if module' = none ∨ socket = none ∨ socket = some .combined then
    module' != none && module' == socket
  else module' == socket || module' == some .combined

/-- `USB_GENERATION_ALIASES` -/
def usbGenerationAliases : List (List Char × UsbGeneration) :=
  [("1.1".toList, .usb11), ("2.0".toList, .usb20), ("usb 1.1".toList, .usb11),
    ("usb 2.0".toList, .usb20), ("usb 3.0".toList, .usb32Gen1), ("usb 3.1 gen 1".toList, .usb32Gen1),
    ("usb 3.1 gen 2".toList, .usb32Gen2), ("usb 3.2 gen 1".toList, .usb32Gen1),
    ("usb 3.2 gen 2".toList, .usb32Gen2), ("usb 3.2 gen 2x2".toList, .usb32Gen2x2),
    ("usb 4".toList, .usb4At20), ("usb4 20gbps".toList, .usb4At20),
    ("usb4 40gbps".toList, .usb4At40), ("usb4 80gbps".toList, .usb4At80)]

/-- `normalizeUsbGenerationV12` -/
def normalizeUsbGeneration (rules : TextRules) (value : Option String) (legacyBoundary : Bool) :
    Option UsbGeneration :=
  match value with
  | none => none
  | some value =>
    if trim value.toList = [] then none
    else
      let normalized := rules.toLowerCase (collapseSpaces (rules.nfkc value.toList))
      (usbGenerationAliases.lookup normalized).filter fun canonical =>
        legacyBoundary || rules.toLowerCase canonical.text.toList == normalized

end Compatible

/-! ## The physical module -/

namespace Physical

/-- The characters of `[\s/_-]`. -/
def isJoint (c : Char) : Bool := isSpace c || c == '/' || c == '_' || c == '-'

/-- `replace(/[\s/_-]+/g, '+')`; `joined` says whether a plus stands for the characters before. -/
def plusJoints : Bool → List Char → List Char
  | _, [] => []
  | joined, c :: rest =>
    if isJoint c then if joined then plusJoints true rest else '+' :: plusJoints true rest
    else c :: plusJoints false rest

/-- `text`, where an exception is no text. -/
def text (rules : TextRules) (value : Option String) : Option (List Char) :=
  match value with
  | none => none
  | some value =>
    if trim value.toList = [] then none else some (collapseSpaces (rules.nfkc value.toList))

/-- A keying in capitals with pluses as joints. -/
def plussed (rules : TextRules) (value : Option String) : Option (List Char) :=
  (text rules value).map fun value => plusJoints false (upperCase rules value)

/-- `canonicalModuleKey`, where an exception is no key. -/
def canonicalModuleKey (rules : TextRules) (value : Option String) : Option ModuleKey :=
  match plussed rules value with
  | none => none
  | some normalized =>
    if normalized = "E+A".toList then some .combined
    else if normalized = ['A'] then some .a
    else if normalized = ['E'] then some .e
    else if normalized = "A+E".toList then some .combined
    else none

/-- `moduleKeyFitsSocketV12` -/
def moduleKeyFitsSocket (rules : TextRules) (moduleKey socketKey : Option String) : Bool :=
  match canonicalModuleKey rules moduleKey, canonicalModuleKey rules socketKey with
  | some module', some socket =>
    if socket = .combined then false else module' == socket || module' == .combined
  | _, _ => false

/-- `USB_ALIASES` -/
def usbAliases : List (List Char × UsbGeneration) :=
  [("1.1".toList, .usb11), ("USB 1.1".toList, .usb11), ("2.0".toList, .usb20),
    ("USB 2.0".toList, .usb20), ("USB 3.0".toList, .usb32Gen1), ("USB 3.1 Gen 1".toList, .usb32Gen1),
    ("USB 3.2 Gen 1".toList, .usb32Gen1), ("USB 3.1 Gen 2".toList, .usb32Gen2),
    ("USB 3.2 Gen 2".toList, .usb32Gen2), ("USB 3.2 Gen 2x2".toList, .usb32Gen2x2),
    ("USB 4".toList, .usb4At20), ("USB4".toList, .usb4At20), ("USB4 20Gbps".toList, .usb4At20),
    ("USB4 40Gbps".toList, .usb4At40), ("USB4 80Gbps".toList, .usb4At80)]

/-- `normalizeUsbGenerationV12` -/
def normalizeUsbGeneration (rules : TextRules) (value : Option String) (legacyBoundary : Bool) :
    Option UsbGeneration :=
  match value with
  | none => none
  | some value =>
    let normalized := collapseSpaces (rules.nfkc value.toList)
    (usbAliases.lookup normalized).filter fun canonical =>
      legacyBoundary || canonical.text.toList == normalized

end Physical

/-! ## When they agree -/

/-- **The two implementations agree** about a module, a socket and a generation. -/
structure Agree (rules : TextRules) (moduleKey socketKey usbGeneration : Option String) : Prop where
  keys : Compatible.moduleKeyFitsSocket rules moduleKey socketKey =
    Physical.moduleKeyFitsSocket rules moduleKey socketKey
  usb : ∀ legacyBoundary, Compatible.normalizeUsbGeneration rules usbGeneration legacyBoundary =
    Physical.normalizeUsbGeneration rules usbGeneration legacyBoundary

/-- A keying of one letter, as the compatibility module spells it. -/
def Compatible.IsSingle (rules : TextRules) (value : Option String) : Prop :=
  ∃ text, value = some text ∧ (compact rules text.toList = ['A'] ∨ compact rules text.toList = ['E'])

/-- A keying of both letters with one sign between them and any white space. -/
def Compatible.IsCombined (rules : TextRules) (value : Option String) : Prop :=
  ∃ text, value = some text ∧ compact rules text.toList ∈ combinedSpellings

/-- A keying of one letter, as the physical module spells it. -/
def Physical.IsSingle (rules : TextRules) (value : Option String) : Prop :=
  plussed rules value = some ['A'] ∨ plussed rules value = some ['E']

/-- A keying of both letters with one plus or one run of white space, slashes, underscores and
dashes between them. -/
def Physical.IsCombined (rules : TextRules) (value : Option String) : Prop :=
  plussed rules value = some "A+E".toList ∨ plussed rules value = some "E+A".toList

/-- **Keyings that are judged alike.** -/
structure KeysAlike (rules : TextRules) (moduleKey socketKey : Option String) : Prop where
  /-- At most one of the two has both letters. -/
  one_combined : ¬ (Compatible.IsCombined rules moduleKey ∧ Compatible.IsCombined rules socketKey)
  /-- The letters of a module that meets one of a socket are joined in a way that the physical
  module reads too. -/
  joined : Compatible.IsCombined rules moduleKey → Compatible.IsSingle rules socketKey →
    Physical.IsCombined rules moduleKey
  /-- Keyings that the physical module fits together are spelled in a way that the compatibility
  module reads too. -/
  spelled : Physical.IsSingle rules socketKey →
    (Physical.IsCombined rules moduleKey ∨
      Physical.plussed rules moduleKey = Physical.plussed rules socketKey) →
    (Compatible.IsCombined rules moduleKey ∨ Compatible.IsSingle rules moduleKey) ∧
      (Compatible.IsCombined rules socketKey ∨ Compatible.IsSingle rules socketKey)

/-- **Generations that are read alike**: the text is not `USB4` alone, and it has the capitals of
the physical module if it has its letters. -/
def UsbAlike (rules : TextRules) (usbGeneration : Option String) : Prop :=
  ∀ text, usbGeneration = some text →
    collapseSpaces (rules.nfkc text.toList) ≠ "USB4".toList ∧
    (rules.toLowerCase (collapseSpaces (rules.nfkc text.toList)) ∈
        Compatible.usbGenerationAliases.map (·.1) →
      collapseSpaces (rules.nfkc text.toList) ∈ Physical.usbAliases.map (·.1))

end HomelabInventory.M2Keyings
