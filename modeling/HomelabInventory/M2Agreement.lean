import HomelabInventory.M2Keyings

/-!
# When keys are judged alike

The two implementations of M.2 keyings and USB generations agree exactly about texts that both of
them read: what the one reads as a single letter the other reads too, so that only combined keyings,
other spellings and capitals tell them apart.
-/

namespace HomelabInventory.M2Keyings

open List Option

open Compatibility (isSpace)
open CatalogProtocol (collapseSpaces)

/-! ## White space -/

section Spaces

variable {p : Char → Bool}

theorem flatten_splitOnP (p : Char → Bool) (text : List Char) :
    (text.splitOnP p).flatten = text.filter fun c => !p c := by
  induction text with
  | nil => simp
  | cons c rest ih =>
    rw [splitOnP_cons_eq_if_modifyHead]
    cases hc : p c with
    | true => rw [if_pos rfl, flatten_cons, ih, filter_cons_of_neg (by simp [hc])]; rfl
    | false =>
      rw [if_neg (by simp), filter_cons_of_pos (by simp [hc]), ← ih]
      obtain ⟨word, words, hwords⟩ := exists_cons_of_ne_nil (splitOnP_ne_nil p rest)
      rw [hwords]
      rfl

/-- The words of a text have all that is no white space. -/
theorem flatten_words (text : List Char) :
    ((text.splitOnP isSpace).filter fun word => !word.isEmpty).flatten =
      text.filter fun c => !isSpace c := by
  rw [← flatten_splitOnP]
  induction text.splitOnP isSpace with
  | nil => rfl
  | cons word words ih =>
    cases word with
    | nil => simpa using ih
    | cons c word => simp [ih]

variable {text : List Char}
variable {c : Char}

/-- A text of one character is that character. -/
theorem collapseSpaces_of_filter_eq_singleton (h : (text.filter fun c => !isSpace c) = [c]) :
    collapseSpaces text = [c] := by
  rw [← flatten_words] at h
  rw [collapseSpaces]
  have hne : ∀ word ∈ (text.splitOnP isSpace).filter fun word => !word.isEmpty, word ≠ [] := by
    intro word hword
    simpa using (mem_filter.mp hword).2
  generalize (text.splitOnP isSpace).filter (fun word => !word.isEmpty) = words at h hne
  match words with
  | [] => simp at h
  | [word] =>
    rw [intercalate_singleton]
    simpa using h
  | word :: other :: words =>
    -- two words have two characters
    have hlength := congrArg List.length h
    have hword := length_pos_iff.mpr (hne word mem_cons_self)
    have hother := length_pos_iff.mpr (hne other (mem_cons_of_mem _ mem_cons_self))
    simp only [flatten_cons, length_append, length_singleton] at hlength
    omega

theorem collapseSpaces_of_filter_eq_nil (h : (text.filter fun c => !isSpace c) = []) :
    collapseSpaces text = [] := by
  rw [← flatten_words] at h
  rw [collapseSpaces]
  generalize hwords : (text.splitOnP isSpace).filter (fun word => !word.isEmpty) = words at h
  cases words with
  | nil => rfl
  | cons word words =>
    have hmem : word ∈ (text.splitOnP isSpace).filter fun word => !word.isEmpty := by
      rw [hwords]
      exact mem_cons_self
    have hne : word ≠ [] := by simpa using (mem_filter.mp hmem).2
    rw [flatten_cons, append_eq_nil_iff] at h
    exact absurd h.1 hne

theorem mem_intercalate {words : List (List Char)} {word : List Char} (hword : word ∈ words)
    (hc : c ∈ word) : c ∈ [' '].intercalate words := by
  induction words with
  | nil => exact absurd hword not_mem_nil
  | cons first words ih =>
    cases words with
    | nil =>
      rw [mem_singleton.mp hword] at hc
      rw [intercalate_singleton]
      exact hc
    | cons second words =>
      rw [intercalate_cons_cons, mem_append]
      rcases mem_cons.mp hword with rfl | hword
      · exact Or.inl (mem_append_left _ hc)
      · exact Or.inr (ih hword)

theorem mem_collapseSpaces (hc : c ∈ text) (hspace : isSpace c = false) :
    c ∈ collapseSpaces text := by
  have hmem : c ∈ text.filter fun c => !isSpace c := mem_filter.mpr ⟨hc, by simp [hspace]⟩
  rw [← flatten_words] at hmem
  obtain ⟨word, hword, hc⟩ := mem_flatten.mp hmem
  exact mem_intercalate hword hc

theorem filter_dropWhile (text : List Char) :
    ((text.dropWhile p).filter fun c => !p c) = text.filter fun c => !p c := by
  induction text with
  | nil => rfl
  | cons c rest ih =>
    by_cases hc : p c = true
    · rw [dropWhile_cons_of_pos hc, ih, filter_cons_of_neg (by simp [hc])]
    · rw [dropWhile_cons_of_neg hc]

theorem filter_trim (text : List Char) :
    ((trim text).filter fun c => !isSpace c) = text.filter fun c => !isSpace c := by
  rw [trim, List.rdropWhile, filter_reverse, filter_dropWhile, ← filter_reverse,
    reverse_reverse, filter_dropWhile]

theorem trim_eq_nil_iff : trim text = [] ↔ (text.filter fun c => !isSpace c) = [] := by
  constructor
  · intro h
    rw [← filter_trim, h]
    rfl
  · intro h
    have hall : ∀ c ∈ text, isSpace c = true := by
      intro c hc
      by_contra hspace
      rw [filter_eq_nil_iff] at h
      exact h c hc (by simpa using hspace)
    rw [trim, dropWhile_eq_nil_iff.mpr hall]
    rfl

end Spaces

/-! ## Keyings that the compatibility module reads -/

section Keyings

variable {rules : TextRules}

variable {text : List Char}

/-- The characters of a keying that the compatibility module reads are plain. -/
theorem plain_of_compact (h : rules.Documented)
    (hcompact : ∀ d ∈ Compatible.compact rules text, d ∈ keyCharacters) :
    ∀ c ∈ text, isSpace c = true ∨ c ∈ 'a' :: 'e' :: keyCharacters := by
  intro c hc
  by_cases hspace : isSpace c = true
  · exact Or.inl hspace
  · refine h.only_letters c fun d hd => ?_
    by_cases hd' : isSpace d = true
    · exact Or.inl hd'
    · refine Or.inr (hcompact d ?_)
      have htrim : c ∈ trim text := by
        have : c ∈ (trim text).filter fun c => !isSpace c := by
          rw [filter_trim]
          exact mem_filter.mpr ⟨hc, by simpa using hspace⟩
        exact (mem_filter.mp this).1
      exact mem_filter.mpr ⟨mem_flatMap.mpr ⟨c, htrim, hd⟩, by simpa using hd'⟩

/-- The letters and signs of keyings are ASCII characters, whose capitals are no white space. -/
theorem letter_plain : ∀ c ∈ 'a' :: 'e' :: keyCharacters,
    c.toNat < 128 ∧ isSpace c = false ∧ isSpace c.toUpper = false :=
  forall_iff_forall_mem.mp (by decide)

/-- What is left of a plain keying is its letters and signs in capitals. -/
theorem compact_of_plain (h : rules.Documented)
    (hplain : ∀ c ∈ text, isSpace c = true ∨ c ∈ 'a' :: 'e' :: keyCharacters) :
    Compatible.compact rules text = (text.filter fun c => !isSpace c).map Char.toUpper := by
  rw [Compatible.compact, upperCase, filter_flatMap, ← filter_trim]
  have hplain' : ∀ c ∈ trim text, isSpace c = true ∨ c ∈ 'a' :: 'e' :: keyCharacters := by
    intro c hc
    exact hplain c ((dropWhile_sublist _).subset (( rdropWhile_prefix isSpace _).subset hc))
  generalize trim text = trimmed at hplain'
  induction trimmed with
  | nil => rfl
  | cons c rest ih =>
    rw [flatMap_cons, ih fun d hd => hplain' d (mem_cons_of_mem _ hd)]
    by_cases hspace : isSpace c = true
    · rw [h.upper_space c hspace, filter_cons_of_neg (by simp [hspace]),
        filter_cons_of_neg (by simp [hspace])]
      rfl
    · rcases hplain' c mem_cons_self with hc | hc
      · exact absurd hc hspace
      · obtain ⟨hascii, -, hupper⟩ := letter_plain c hc
        rw [h.upper_ascii c hascii, filter_cons_of_pos (by simp [hupper]),
          filter_cons_of_pos (by simpa using hspace)]
        rfl

/-- What is no white space is the same in the normal form of a plain text. -/
theorem filter_nfkc (h : rules.Documented) (hplain : ∀ c ∈ text, c.toNat < 128 ∨ isSpace c = true) :
    ((rules.nfkc text).filter fun c => !isSpace c) = text.filter fun c => !isSpace c := by
  obtain ⟨space, hspace, heq⟩ := h.nfkc_plain text hplain
  rw [heq]
  clear heq hplain
  induction text with
  | nil => rfl
  | cons c rest ih =>
    rw [map_cons]
    by_cases hc : isSpace c = true
    · rw [if_pos hc, filter_cons_of_neg (by simp [hspace c hc]),
        filter_cons_of_neg (by simp [hc]), ih]
    · rw [if_neg hc, filter_cons_of_pos (by simpa using hc),
        filter_cons_of_pos (by simpa using hc), ih]

/-- The letters and signs of keyings are plain. -/
theorem ascii_of_plain (hplain : ∀ c ∈ text, isSpace c = true ∨ c ∈ 'a' :: 'e' :: keyCharacters) :
    ∀ c ∈ text, c.toNat < 128 ∨ isSpace c = true := fun c hc =>
  (hplain c hc).symm.imp (fun hc => (letter_plain c hc).1) id

/-- **A keying of one letter is read alike.** -/
theorem plussed_of_single (h : rules.Documented) {text : String} {key : Char}
    (hkey : key = 'A' ∨ key = 'E') (hcompact : Compatible.compact rules text.toList = [key]) :
    Physical.plussed rules (some text) = some [key] := by
  have hplain : ∀ c ∈ text.toList, isSpace c = true ∨ c ∈ 'a' :: 'e' :: keyCharacters := by
    refine plain_of_compact h fun d hd => ?_
    rw [hcompact, mem_singleton] at hd
    rcases hkey with rfl | rfl <;> rw [hd] <;> decide
  have hletters := compact_of_plain h hplain
  rw [hcompact] at hletters
  obtain ⟨c, hc, hupper⟩ := map_eq_singleton_iff.mp hletters.symm
  have hmem : c ∈ text.toList.filter fun c => !isSpace c := by
    rw [hc]
    exact mem_singleton.mpr rfl
  obtain ⟨hctext, hspace⟩ := mem_filter.mp hmem
  have hascii : c.toNat < 128 := by
    rcases hplain c hctext with hc | hc
    · rw [hc] at hspace
      exact absurd hspace (by simp)
    · exact (letter_plain c hc).1
  have htrim : trim text.toList ≠ [] := by
    rw [ne_eq, trim_eq_nil_iff, hc]
    exact cons_ne_nil _ _
  have hcollapse : collapseSpaces (rules.nfkc text.toList) = [c] :=
    collapseSpaces_of_filter_eq_singleton ((filter_nfkc h (ascii_of_plain hplain)).trans hc)
  rw [Physical.plussed, Physical.text, if_neg htrim, hcollapse, map_some, upperCase,
    flatMap_singleton, h.upper_ascii c hascii, hupper]
  rcases hkey with rfl | rfl <;> rfl

theorem mem_plusJoints {c : Char} (hc : c ∈ text) (hjoint : Physical.isJoint c = false)
    (joined : Bool) : c ∈ Physical.plusJoints joined text := by
  induction text generalizing joined with
  | nil => exact absurd hc not_mem_nil
  | cons d rest ih =>
    rw [Physical.plusJoints]
    rcases mem_cons.mp hc with rfl | hc
    · rw [hjoint, if_neg (by simp)]
      exact mem_cons_self
    · cases Physical.isJoint d with
      | false =>
        rw [if_neg (by simp)]
        exact mem_cons_of_mem _ (ih hc false)
      | true =>
        rw [if_pos rfl]
        cases joined with
        | false => exact mem_cons_of_mem _ (ih hc true)
        | true => exact ih hc true

/-- A keying of both letters is never read as one of one letter. -/
theorem not_single_of_combined (h : rules.Documented) {text : String}
    (hcompact : Compatible.compact rules text.toList ∈ Compatible.combinedSpellings) :
    ¬ Physical.IsSingle rules (some text) := by
  have hspellings : ∀ spelling ∈ Compatible.combinedSpellings,
      spelling ⊆ keyCharacters ∧ 'A' ∈ spelling ∧ 'E' ∈ spelling := by decide
  obtain ⟨hcharacters, hA, hE⟩ := hspellings _ hcompact
  have hplain := plain_of_compact h fun d hd => hcharacters hd
  rw [compact_of_plain h hplain] at hA hE
  have hstays : ∀ key : Char, Physical.isJoint key = false →
      key ∈ (text.toList.filter fun c => !isSpace c).map Char.toUpper →
      ∀ normalized, Physical.plussed rules (some text) = some normalized → key ∈ normalized := by
    intro key hjoint hkey normalized hplussed
    obtain ⟨c, hc, hupper⟩ := List.mem_map.mp hkey
    obtain ⟨hctext, hspace⟩ := mem_filter.mp hc
    have hspace : isSpace c = false := by simpa using hspace
    have hascii : c.toNat < 128 := by
      rcases hplain c hctext with hc | hc
      · rw [hc] at hspace
        exact absurd hspace (by simp)
      · exact (letter_plain c hc).1
    rw [← filter_nfkc h (ascii_of_plain hplain)] at hc
    have hcollapse := mem_collapseSpaces (mem_filter.mp hc).1 hspace
    rw [Physical.plussed, Physical.text] at hplussed
    by_cases htrim : trim text.toList = []
    · rw [if_pos htrim] at hplussed
      exact absurd hplussed (by simp)
    · rw [if_neg htrim, map_some, Option.some.injEq] at hplussed
      rw [← hplussed]
      refine mem_plusJoints (mem_flatMap.mpr ⟨c, hcollapse, ?_⟩) hjoint false
      rw [h.upper_ascii c hascii, hupper]
      exact mem_singleton.mpr rfl
  rintro (hsingle | hsingle)
  · have := hstays 'E' (by decide) hE _ hsingle
    exact absurd this (by decide)
  · have := hstays 'A' (by decide) hA _ hsingle
    exact absurd this (by decide)

end Keyings

/-! ## What the modules read -/

section Readings

variable {rules : TextRules} {value moduleKey socketKey : Option String}

theorem Compatible.single_iff :
    (Compatible.canonicalModuleKey rules value = some .a ↔
      ∃ text, value = some text ∧ compact rules text.toList = ['A']) ∧
    (Compatible.canonicalModuleKey rules value = some .e ↔
      ∃ text, value = some text ∧ compact rules text.toList = ['E']) := by
  cases value with
  | none => simp [Compatible.canonicalModuleKey]
  | some text =>
    by_cases hA : compact rules text.toList = ['A']
    · simp [Compatible.canonicalModuleKey, hA]
    · by_cases hE : compact rules text.toList = ['E']
      · simp [Compatible.canonicalModuleKey, hE]
      · by_cases hAE : compact rules text.toList ∈ combinedSpellings <;>
          simp [Compatible.canonicalModuleKey, hA, hE, hAE]

theorem Compatible.isCombined_iff : Compatible.IsCombined rules value ↔
    Compatible.canonicalModuleKey rules value = some .combined := by
  cases value with
  | none => simp [Compatible.canonicalModuleKey, Compatible.IsCombined]
  | some text =>
    by_cases hA : compact rules text.toList = ['A']
    · simp [Compatible.canonicalModuleKey, Compatible.IsCombined, hA, combinedSpellings]
    · by_cases hE : compact rules text.toList = ['E']
      · simp [Compatible.canonicalModuleKey, Compatible.IsCombined, hE, combinedSpellings]
      · by_cases hAE : compact rules text.toList ∈ combinedSpellings <;>
          simp [Compatible.canonicalModuleKey, Compatible.IsCombined, hA, hE, hAE]

theorem Compatible.isSingle_iff : Compatible.IsSingle rules value ↔
    Compatible.canonicalModuleKey rules value = some .a ∨
      Compatible.canonicalModuleKey rules value = some .e := by
  rw [Compatible.single_iff.1, Compatible.single_iff.2, Compatible.IsSingle]
  constructor
  · rintro ⟨text, hvalue, h | h⟩
    · exact Or.inl ⟨text, hvalue, h⟩
    · exact Or.inr ⟨text, hvalue, h⟩
  · rintro (⟨text, hvalue, h⟩ | ⟨text, hvalue, h⟩)
    · exact ⟨text, hvalue, Or.inl h⟩
    · exact ⟨text, hvalue, Or.inr h⟩

theorem Physical.eq_a_iff : Physical.canonicalModuleKey rules value = some .a ↔
    Physical.plussed rules value = some ['A'] := by
  rw [Physical.canonicalModuleKey]
  cases Physical.plussed rules value with
  | none => simp
  | some normalized => grind

theorem Physical.eq_e_iff : Physical.canonicalModuleKey rules value = some .e ↔
    Physical.plussed rules value = some ['E'] := by
  rw [Physical.canonicalModuleKey]
  cases Physical.plussed rules value with
  | none => simp
  | some normalized => grind

theorem Physical.isCombined_iff : Physical.IsCombined rules value ↔
    Physical.canonicalModuleKey rules value = some .combined := by
  rw [Physical.canonicalModuleKey, Physical.IsCombined]
  cases Physical.plussed rules value with
  | none => simp
  | some normalized => grind

theorem Physical.isSingle_iff : Physical.IsSingle rules value ↔
    Physical.canonicalModuleKey rules value = some .a ∨
      Physical.canonicalModuleKey rules value = some .e := by
  rw [Physical.eq_a_iff, Physical.eq_e_iff, Physical.IsSingle]

/-- Next to a keying of one letter, spelled alike is read alike. -/
theorem Physical.plussed_eq_iff (hsocket : Physical.IsSingle rules socketKey) :
    Physical.plussed rules moduleKey = Physical.plussed rules socketKey ↔
      Physical.canonicalModuleKey rules moduleKey = Physical.canonicalModuleKey rules socketKey := by
  rcases hsocket with h | h
  · rw [h, Physical.eq_a_iff.mpr h, Physical.eq_a_iff]
  · rw [h, Physical.eq_e_iff.mpr h, Physical.eq_e_iff]

/-- The pairs that the compatibility module fits together. -/
theorem Compatible.fits_iff : Compatible.moduleKeyFitsSocket rules moduleKey socketKey = true ↔
    ∃ key, Compatible.canonicalModuleKey rules socketKey = some key ∧
      (Compatible.canonicalModuleKey rules moduleKey = some key ∨
        Compatible.canonicalModuleKey rules moduleKey = some .combined) := by
  rw [Compatible.moduleKeyFitsSocket]
  generalize Compatible.canonicalModuleKey rules moduleKey = module'
  generalize Compatible.canonicalModuleKey rules socketKey = socket
  rcases module' with _ | _ | _ | _ <;> rcases socket with _ | _ | _ | _ <;> simp

/-- The pairs that the physical module fits together. -/
theorem Physical.fits_iff : Physical.moduleKeyFitsSocket rules moduleKey socketKey = true ↔
    ∃ key, key ≠ ModuleKey.combined ∧ Physical.canonicalModuleKey rules socketKey = some key ∧
      (Physical.canonicalModuleKey rules moduleKey = some key ∨
        Physical.canonicalModuleKey rules moduleKey = some .combined) := by
  rw [Physical.moduleKeyFitsSocket]
  generalize Physical.canonicalModuleKey rules moduleKey = module'
  generalize Physical.canonicalModuleKey rules socketKey = socket
  rcases module' with _ | _ | _ | _ <;> rcases socket with _ | _ | _ | _ <;> simp

/-- What the compatibility module reads as one letter, the physical module reads as that letter. -/
theorem physical_eq_of_compatible (h : rules.Documented) {key : ModuleKey}
    (hkey : key ≠ .combined) (hread : Compatible.canonicalModuleKey rules value = some key) :
    Physical.canonicalModuleKey rules value = some key := by
  cases key with
  | a =>
    obtain ⟨text, rfl, hcompact⟩ := Compatible.single_iff.1.mp hread
    exact Physical.eq_a_iff.mpr (plussed_of_single h (Or.inl rfl) hcompact)
  | e =>
    obtain ⟨text, rfl, hcompact⟩ := Compatible.single_iff.2.mp hread
    exact Physical.eq_e_iff.mpr (plussed_of_single h (Or.inr rfl) hcompact)
  | combined => exact absurd rfl hkey

/-- What the compatibility module reads as both letters, the physical module does not read as one. -/
theorem physical_of_combined (h : rules.Documented) {key : ModuleKey}
    (hcombined : Compatible.canonicalModuleKey rules value = some .combined)
    (hread : Physical.canonicalModuleKey rules value = some key) : key = .combined := by
  obtain ⟨text, rfl, hcompact⟩ := Compatible.isCombined_iff.mpr hcombined
  have hsingle := not_single_of_combined h hcompact
  rw [Physical.isSingle_iff, hread] at hsingle
  cases key with
  | a => exact absurd (Or.inl rfl) hsingle
  | e => exact absurd (Or.inr rfl) hsingle
  | combined => rfl

end Readings

/-! ## The two implementations -/

section Agreement

variable {rules : TextRules}

/-- Keys are judged alike exactly when they are spelled so. -/
theorem keys_iff (h : rules.Documented) (moduleKey socketKey : Option String) :
    Compatible.moduleKeyFitsSocket rules moduleKey socketKey =
      Physical.moduleKeyFitsSocket rules moduleKey socketKey ↔
    KeysAlike rules moduleKey socketKey := by
  rw [Bool.eq_iff_iff, Compatible.fits_iff, Physical.fits_iff]
  constructor
  · intro hiff
    refine ⟨?_, fun hmodule hsocket => ?_, fun hsocket hfits => ?_⟩
    · rintro ⟨hmodule, hsocket⟩
      rw [Compatible.isCombined_iff] at hmodule hsocket
      obtain ⟨key, hne, hkey, -⟩ := hiff.mp ⟨.combined, hsocket, Or.inl hmodule⟩
      exact hne (physical_of_combined h hsocket hkey)
    · rw [Compatible.isCombined_iff] at hmodule
      rw [Compatible.isSingle_iff] at hsocket
      have hfits : ∃ key, Compatible.canonicalModuleKey rules socketKey = some key :=
        hsocket.elim (fun h => ⟨_, h⟩) fun h => ⟨_, h⟩
      obtain ⟨key, hkey⟩ := hfits
      obtain ⟨key', hne, -, hread | hread⟩ := hiff.mp ⟨key, hkey, Or.inr hmodule⟩
      · exact absurd (physical_of_combined h hmodule hread) hne
      · exact Physical.isCombined_iff.mpr hread
    · -- what the physical module fits together, the compatibility module reads
      have hphysical : ∃ key, key ≠ ModuleKey.combined ∧
          Physical.canonicalModuleKey rules socketKey = some key ∧
          (Physical.canonicalModuleKey rules moduleKey = some key ∨
            Physical.canonicalModuleKey rules moduleKey = some .combined) := by
        rw [Physical.isCombined_iff, Physical.plussed_eq_iff hsocket] at hfits
        rcases Physical.isSingle_iff.mp hsocket with hkey | hkey
        · exact ⟨.a, by simp, hkey, hfits.symm.imp_left fun heq => heq.trans hkey⟩
        · exact ⟨.e, by simp, hkey, hfits.symm.imp_left fun heq => heq.trans hkey⟩
      obtain ⟨key, hkey, hmodule⟩ := hiff.mpr hphysical
      have hread : ∀ {value : Option String} {key : ModuleKey},
          Compatible.canonicalModuleKey rules value = some key →
          Compatible.IsCombined rules value ∨ Compatible.IsSingle rules value := by
        intro value key hread
        rw [Compatible.isCombined_iff, Compatible.isSingle_iff]
        cases key with
        | a => exact Or.inr (Or.inl hread)
        | e => exact Or.inr (Or.inr hread)
        | combined => exact Or.inl hread
      exact ⟨hmodule.elim hread hread, hread hkey⟩
  · rintro ⟨hcombined, hjoined, hspelled⟩
    rw [Compatible.isCombined_iff, Compatible.isCombined_iff] at hcombined
    rw [Compatible.isCombined_iff, Compatible.isSingle_iff, Physical.isCombined_iff] at hjoined
    constructor
    · rintro ⟨key, hsocket, hmodule⟩
      have hsingle : key ≠ .combined := by
        rintro rfl
        exact hcombined ⟨hmodule.elim id id, hsocket⟩
      refine ⟨key, hsingle, physical_eq_of_compatible h hsingle hsocket, ?_⟩
      rcases hmodule with hmodule | hmodule
      · exact Or.inl (physical_eq_of_compatible h hsingle hmodule)
      · refine Or.inr (hjoined hmodule ?_)
        cases key with
        | a => exact Or.inl hsocket
        | e => exact Or.inr hsocket
        | combined => exact absurd rfl hsingle
    · rintro ⟨key, hne, hsocket, hmodule⟩
      have hsingle : Physical.IsSingle rules socketKey := by
        rw [Physical.isSingle_iff]
        cases key with
        | a => exact Or.inl hsocket
        | e => exact Or.inr hsocket
        | combined => exact absurd rfl hne
      have hfits : Physical.IsCombined rules moduleKey ∨
          Physical.plussed rules moduleKey = Physical.plussed rules socketKey := by
        rw [Physical.isCombined_iff, Physical.plussed_eq_iff hsingle, hsocket]
        exact hmodule.symm
      obtain ⟨hreadModule, hreadSocket⟩ := hspelled hsingle hfits
      have hreads : ∀ {value : Option String} {key : ModuleKey}, key ≠ .combined →
          Physical.canonicalModuleKey rules value = some key →
          (Compatible.IsCombined rules value ∨ Compatible.IsSingle rules value) →
          Compatible.canonicalModuleKey rules value = some key := by
        intro value key hne hphysical hread
        rw [Compatible.isCombined_iff, Compatible.isSingle_iff] at hread
        rcases hread with hread | hread | hread
        · exact absurd (physical_of_combined h hread hphysical) hne
        · rw [physical_eq_of_compatible h (by simp) hread] at hphysical
          rw [hread, hphysical]
        · rw [physical_eq_of_compatible h (by simp) hread] at hphysical
          rw [hread, hphysical]
      refine ⟨key, hreads hne hsocket hreadSocket, ?_⟩
      rcases hmodule with hmodule | hmodule
      · exact Or.inl (hreads hne hmodule hreadModule)
      · -- a module with both letters is not read as one letter
        rw [Compatible.isCombined_iff, Compatible.isSingle_iff] at hreadModule
        rcases hreadModule with hread | hread | hread
        · exact Or.inr hread
        · rw [physical_eq_of_compatible h (by simp) hread] at hmodule
          exact absurd (Option.some.inj hmodule) (by simp)
        · rw [physical_eq_of_compatible h (by simp) hread] at hmodule
          exact absurd (Option.some.inj hmodule) (by simp)

/-- The aliases of the physical module, apart from `USB4`, are those of the compatibility module in
capitals. -/
theorem usbAliases_lower : ∀ entry ∈ Physical.usbAliases, entry.1 ≠ "USB4".toList →
    Compatible.usbGenerationAliases.lookup (entry.1.map Char.toLower) = some entry.2 ∧
    ((entry.2.text.toList.map Char.toLower == entry.1.map Char.toLower) =
      (entry.2.text.toList == entry.1)) := by decide

theorem usbAliases_ascii : ∀ entry ∈ Physical.usbAliases,
    (∀ c ∈ entry.1, c.toNat < 128) ∧ ∀ c ∈ entry.2.text.toList, c.toNat < 128 := by
  simp only [← forall_iff_forall_mem]
  decide

theorem usbAlias_mem {normalized : List Char} {generation : UsbGeneration}
    (h : Physical.usbAliases.lookup normalized = some generation) :
    (normalized, generation) ∈ Physical.usbAliases := by
  obtain ⟨before, later, hsplit, -⟩ := List.lookup_eq_some_iff.mp h
  rw [hsplit]
  exact mem_append_right _ mem_cons_self

theorem lookup_isSome_iff_mem {entries : List (List Char × UsbGeneration)}
    {key : List Char} : (entries.lookup key).isSome = true ↔ key ∈ entries.map (·.1) := by
  rw [lookup_isSome_iff, List.mem_map]
  constructor
  · rintro ⟨entry, hentry, heq⟩
    exact ⟨entry, hentry, (beq_iff_eq.mp heq).symm⟩
  · rintro ⟨entry, hentry, rfl⟩
    exact ⟨entry, hentry, beq_self_eq_true _⟩

/-- Generations are read alike exactly when they are spelled so. -/
theorem usb_iff (h : rules.Documented) (usbGeneration : Option String) :
    (∀ legacyBoundary, Compatible.normalizeUsbGeneration rules usbGeneration legacyBoundary =
      Physical.normalizeUsbGeneration rules usbGeneration legacyBoundary) ↔
    UsbAlike rules usbGeneration := by
  cases usbGeneration with
  | none => simp [Compatible.normalizeUsbGeneration, Physical.normalizeUsbGeneration, UsbAlike]
  | some text =>
    by_cases hblank : trim text.toList = []
    · -- a blank text is no generation for either
      have hletters := trim_eq_nil_iff.mp hblank
      have hplain : ∀ c ∈ text.toList, c.toNat < 128 ∨ isSpace c = true := by
        intro c hc
        by_contra hnot
        rw [not_or] at hnot
        rw [filter_eq_nil_iff] at hletters
        exact hletters c hc (by simpa using hnot.2)
      have hempty : collapseSpaces (rules.nfkc text.toList) = [] :=
        collapseSpaces_of_filter_eq_nil ((filter_nfkc h hplain).trans hletters)
      constructor
      · rintro - text' heq
        obtain rfl := Option.some.inj heq
        rw [hempty, h.lower_ascii [] (by simp)]
        exact ⟨by decide, by decide⟩
      · intro _ legacyBoundary
        rw [Compatible.normalizeUsbGeneration, Physical.normalizeUsbGeneration]
        simp only [if_pos hblank, hempty]
        rfl
    · have hcompatible : ∀ legacyBoundary,
          Compatible.normalizeUsbGeneration rules (some text) legacyBoundary =
            (Compatible.usbGenerationAliases.lookup (rules.toLowerCase
              (collapseSpaces (rules.nfkc text.toList)))).filter fun canonical =>
                legacyBoundary || rules.toLowerCase canonical.text.toList ==
                  rules.toLowerCase (collapseSpaces (rules.nfkc text.toList)) := by
        intro legacyBoundary
        rw [Compatible.normalizeUsbGeneration]
        simp only [if_neg hblank]
      have hphysical : ∀ legacyBoundary,
          Physical.normalizeUsbGeneration rules (some text) legacyBoundary =
            (Physical.usbAliases.lookup (collapseSpaces (rules.nfkc text.toList))).filter
              fun canonical => legacyBoundary ||
                canonical.text.toList == collapseSpaces (rules.nfkc text.toList) :=
        fun legacyBoundary => rfl
      have halike : UsbAlike rules (some text) ↔
          collapseSpaces (rules.nfkc text.toList) ≠ "USB4".toList ∧
          (rules.toLowerCase (collapseSpaces (rules.nfkc text.toList)) ∈
              Compatible.usbGenerationAliases.map (·.1) →
            collapseSpaces (rules.nfkc text.toList) ∈ Physical.usbAliases.map (·.1)) :=
        ⟨fun halike => halike text rfl, fun halike _ heq => Option.some.inj heq ▸ halike⟩
      rw [halike]
      simp only [hcompatible, hphysical]
      clear hcompatible hphysical halike
      generalize collapseSpaces (rules.nfkc text.toList) = normalized
      have htrue : ∀ found : Option UsbGeneration, (found.filter fun _ => true) = found := by
        intro found
        cases found <;> rfl
      constructor
      · intro hagree
        have hlegacy := hagree true
        simp only [Bool.true_or, htrue] at hlegacy
        constructor
        · rintro rfl
          rw [h.lower_ascii _ (forall_iff_forall_mem.mp (by decide))] at hlegacy
          revert hlegacy
          decide
        · intro hmem
          rw [← lookup_isSome_iff_mem] at hmem ⊢
          rw [← hlegacy]
          exact hmem
      · rintro ⟨hne, hcapitals⟩ legacyBoundary
        cases hfound : Physical.usbAliases.lookup normalized with
        | none =>
          have hnone :
              Compatible.usbGenerationAliases.lookup (rules.toLowerCase normalized) = none := by
            rw [← not_isSome_iff_eq_none, lookup_isSome_iff_mem]
            intro hmem
            have := lookup_isSome_iff_mem.mpr (hcapitals hmem)
            rw [hfound] at this
            exact absurd this (by simp)
          rw [hnone]
          rfl
        | some generation =>
          have hmem := usbAlias_mem hfound
          obtain ⟨hlower, hsame⟩ := usbAliases_lower _ hmem hne
          obtain ⟨hascii, htext⟩ := usbAliases_ascii _ hmem
          rw [h.lower_ascii normalized hascii, hlower, filter_some, filter_some,
            h.lower_ascii _ htext, hsame]

/-- **The two implementations agree exactly about keyings and generations that are spelled
alike.** -/
theorem agree_iff (rules : TextRules) (h : rules.Documented)
    (moduleKey socketKey usbGeneration : Option String) :
    Agree rules moduleKey socketKey usbGeneration ↔
      KeysAlike rules moduleKey socketKey ∧ UsbAlike rules usbGeneration := by
  rw [← keys_iff h, ← usb_iff h]
  exact ⟨fun hagree => ⟨hagree.keys, hagree.usb⟩, fun halike => ⟨halike.1, halike.2⟩⟩

end Agreement

/-! ## ASCII texts -/

/-- The operations on ASCII texts. -/
def asciiTexts : TextRules where
  nfkc := id
  toUpperCase c := [c.toUpper]
  toLowerCase text := text.map Char.toLower

/-- Only ASCII letters have other capitals there. -/
theorem toUpper_of_not_ascii {c : Char} (hc : ¬ c.toNat < 128) : c.toUpper = c := by
  delta Char.toUpper
  split
  · rename_i h
    have hle : c.val.toNat ≤ 122 := UInt32.le_iff_toNat_le.mp h.2
    exact absurd (show c.toNat < 128 by rw [Char.toNat]; omega) hc
  · rfl

/-- The operations on ASCII texts are as documented. -/
theorem documented_asciiTexts : asciiTexts.Documented where
  nfkc_plain text _ := by
    refine ⟨id, fun _ hc => hc, ?_⟩
    simp [asciiTexts]
  upper_ascii _ _ := rfl
  upper_space c hc := by
    by_cases hascii : c.toNat < 128
    · have hall : ∀ n < 128, isSpace (Char.ofNat n) = true →
          (Char.ofNat n).toUpper = Char.ofNat n := by decide
      have := hall c.toNat hascii
      rw [Char.ofNat_toNat] at this
      exact congrArg (fun c => [c]) (this hc)
    · exact congrArg (fun c => [c]) (toUpper_of_not_ascii hascii)
  only_letters c hc := by
    have hupper := hc c.toUpper (mem_singleton.mpr rfl)
    by_cases hascii : c.toNat < 128
    · have hall : ∀ n < 128, (isSpace (Char.ofNat n).toUpper = true ∨
            (Char.ofNat n).toUpper ∈ keyCharacters) →
          isSpace (Char.ofNat n) = true ∨ Char.ofNat n ∈ 'a' :: 'e' :: keyCharacters := by
        decide +kernel
      have := hall c.toNat hascii
      rw [Char.ofNat_toNat] at this
      exact this hupper
    · rw [toUpper_of_not_ascii hascii] at hupper
      exact hupper.imp_right fun h => mem_cons_of_mem _ (mem_cons_of_mem _ h)
  lower_ascii _ _ := rfl

/-- A module with both letters for a socket with one is judged alike, and so is a generation in its
capitals. -/
theorem agree_iff_asciiTexts :
    asciiTexts.Documented ∧
      (Agree asciiTexts (some "A+E") (some "E") (some "USB 3.2 Gen 2") ↔
        KeysAlike asciiTexts (some "A+E") (some "E") ∧
          UsbAlike asciiTexts (some "USB 3.2 Gen 2")) :=
  ⟨documented_asciiTexts, agree_iff asciiTexts documented_asciiTexts _ _ _⟩

/-- **The two implementations disagree** about a module and a socket that have both letters, and
about `USB4`. -/
theorem not_agree_asciiTexts :
    asciiTexts.Documented ∧ ¬ Agree asciiTexts (some "A+E") (some "A+E") (some "USB 2.0") ∧
      ¬ Agree asciiTexts (some "A") (some "A") (some "USB4") := by
  refine ⟨documented_asciiTexts, fun h => ?_, fun h => ?_⟩
  · have hkeys := h.keys
    revert hkeys
    decide +kernel
  · have husb := h.usb true
    revert husb
    decide +kernel

end HomelabInventory.M2Keyings
