import HomelabInventory.CanonicalJson

/-!
# Normal forms of ASCII texts

Every runtime agrees on texts of ASCII characters. The normal form of such a text is known,
and a text of lower-case hexadecimal digits is its own normal form.
-/

namespace HomelabInventory.CatalogProtocol

open Compatibility (isSpace)

/-- A text of ASCII characters. -/
def isAscii (text : String) : Bool := text.toList.all fun c => c.toNat < 128

/-- What Unicode says about ASCII texts: they are their own compatibility form, and their
letters have the usual lower-case forms. -/
structure ActsOnAscii (rules : TextRules) : Prop where
  nfkc : ∀ text, isAscii text → rules.nfkc text = text
  lower : ∀ text, isAscii text →
    rules.toLocaleLowerCase text = asciiRules.toLocaleLowerCase text

variable {rules : TextRules}

/-! ## Texts that are given -/

theorem normalizeText_ascii (h : ActsOnAscii rules) {text : String} (htext : isAscii text) :
    normalizeText rules text = normalizeText asciiRules text := by
  rw [normalizeText, normalizeText, h.nfkc text htext]
  rfl

/-- The normal form of an ASCII text does not depend on the runtime. -/
theorem normalizeFingerprintText_ascii (h : ActsOnAscii rules) {text : String}
    (htext : isAscii text) (hnormal : isAscii (normalizeText asciiRules text)) :
    normalizeFingerprintText rules text = normalizeFingerprintText asciiRules text := by
  rw [normalizeFingerprintText, normalizeFingerprintText, normalizeText_ascii h htext,
    h.lower _ hnormal]

/-- The empty text is its own normal form, under every key. -/
theorem normalizeValueText_empty (h : ActsOnAscii rules) (key : Option String) :
    normalizeValueText rules key "" = "" := by
  have hnormal : normalizeFingerprintText rules "" = "" := by
    rw [normalizeFingerprintText_ascii h (by decide +kernel) (by decide +kernel)]
    decide +kernel
  have hempty : "".toList = [] := rfl
  rw [normalizeValueText, normalizeManufacturer, normalizeUnitText, hnormal, hempty]
  split <;> rfl

/-! ## Hexadecimal texts -/

/-- A text of lower-case hexadecimal digits. -/
def IsHex (text : List Char) : Prop := ∀ c ∈ text, ∃ n < 16, c = hexDigit n

/-- A hexadecimal digit is a character that nothing is done to. -/
theorem hexDigit_plain : ∀ n < 16, (hexDigit n).toNat < 128 ∧
    plainCharacter (hexDigit n) = hexDigit n ∧ (hexDigit n).toLower = hexDigit n ∧
    isSpace (hexDigit n) = false ∧ isWordCharacter (hexDigit n) = true ∧ hexDigit n ≠ 'w' := by
  decide

variable {text : List Char}

/-- A property of all hexadecimal digits holds of the characters of a hexadecimal text. -/
theorem IsHex.forall (h : IsHex text) {P : Char → Prop} (hP : ∀ n < 16, P (hexDigit n)) :
    ∀ c ∈ text, P c := by
  intro c hc
  obtain ⟨n, hn, rfl⟩ := h c hc
  exact hP n hn

theorem map_eq_self {f : Char → Char} (h : ∀ c ∈ text, f c = c) : text.map f = text := by
  have hmap : text.map f = text.map id := List.map_congr_left h
  rw [hmap, List.map_id]

theorem collapseSpaces_of_no_space (h : ∀ c ∈ text, isSpace c = false) :
    collapseSpaces text = text := by
  rw [collapseSpaces, List.splitOnP_eq_singleton h]
  cases text <;> simp

theorem joinUnits_of_no_space (h : ∀ c ∈ text, isSpace c = false) : joinUnits text = text := by
  induction text with
  | nil => rfl
  | cons c rest ih =>
    rw [joinUnits, h c List.mem_cons_self, ih fun d hd => h d (List.mem_cons_of_mem _ hd)]
    rfl

/-- A word that does not start like `watt` keeps its letters. -/
theorem shortenWatts_of_word (hword : ∀ c ∈ text, isWordCharacter c = true)
    (hw : ∀ c ∈ text, c ≠ 'w') : shortenWatts text = text := by
  cases text with
  | nil => rfl
  | cons c rest =>
    have hchain : List.IsChain
        (fun c d => (isWordCharacter c == isWordCharacter d) = true) (c :: rest) := by
      refine (List.pairwise_of_forall_mem_list fun d hd e he => ?_).isChain
      rw [hword d hd, hword e he]
      rfl
    have hne : c ≠ 'w' := hw c List.mem_cons_self
    rw [shortenWatts, List.splitBy_of_isChain (List.cons_ne_nil _ _) hchain, List.flatMap_singleton,
      if_neg]
    rintro (heq | heq)
    · exact hne (List.cons.inj heq).1
    · exact hne (List.cons.inj heq).1

/-- **A hexadecimal text is its own normal form.** -/
theorem normalizeUnitText_of_isHex (h : ActsOnAscii rules) {text : String}
    (hhex : IsHex text.toList) : normalizeUnitText rules text = text := by
  have hascii : isAscii text := by
    rw [isAscii, List.all_eq_true]
    exact hhex.forall fun n hn => decide_eq_true (hexDigit_plain n hn).1
  have hplain : text.toList.map plainCharacter = text.toList :=
    map_eq_self (hhex.forall fun n hn => (hexDigit_plain n hn).2.1)
  have hlower : text.toList.map Char.toLower = text.toList :=
    map_eq_self (hhex.forall fun n hn => (hexDigit_plain n hn).2.2.1)
  have hspace : ∀ c ∈ text.toList, isSpace c = false :=
    hhex.forall fun n hn => (hexDigit_plain n hn).2.2.2.1
  have hnormal : normalizeText rules text = text := by
    rw [normalizeText, h.nfkc text hascii, hplain, collapseSpaces_of_no_space hspace,
      String.ofList_toList]
  have hfingerprint : normalizeFingerprintText rules text = text := by
    rw [normalizeFingerprintText, hnormal, h.lower text hascii]
    change String.ofList (text.toList.map Char.toLower) = text
    rw [hlower, String.ofList_toList]
  rw [normalizeUnitText, hfingerprint, joinUnits_of_no_space hspace, shortenWatts_of_word
    (hhex.forall fun n hn => (hexDigit_plain n hn).2.2.2.2.1)
    (hhex.forall fun n hn => (hexDigit_plain n hn).2.2.2.2.2), String.ofList_toList]

end HomelabInventory.CatalogProtocol
