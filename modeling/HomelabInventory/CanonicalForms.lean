import HomelabInventory.CanonicalJson
import HomelabInventory.PrefixCodes
import HomelabInventory.StableSorting

/-!
# What the canonical form looks at

The canonical text of an array is that of the texts of its entries in any order, and the
one of an object is that of the texts of its members in any order.
-/

namespace HomelabInventory

open List

namespace InsertionMap

variable {κ α β : Type} [DecidableEq κ]

/-- Setting values goes along with a map of the values. -/
theorem map_ofEntries (f : α → β) (entries : List (κ × α)) :
    (ofEntries entries).map (fun entry => (entry.1, f entry.2)) =
      ofEntries (entries.map fun entry => (entry.1, f entry.2)) := by
  have hset : ∀ (m : List (κ × α)) (key : κ) (value : α),
      (set m key value).map (fun entry => (entry.1, f entry.2)) =
        set (m.map fun entry => (entry.1, f entry.2)) key (f value) := by
    intro m key value
    induction m with
    | nil => rfl
    | cons entry rest ih =>
      by_cases hkey : entry.1 = key
      · simp [set, hkey]
      · simp [set, hkey, ih]
  have hfold : ∀ (m : List (κ × α)) (entries : List (κ × α)),
      (entries.foldl (fun m entry => set m entry.1 entry.2) m).map
          (fun entry => (entry.1, f entry.2)) =
        (entries.map fun entry => (entry.1, f entry.2)).foldl
          (fun m entry => set m entry.1 entry.2) (m.map fun entry => (entry.1, f entry.2)) := by
    intro m entries
    induction entries generalizing m with
    | nil => rfl
    | cons entry rest ih => rw [foldl_cons, ih, hset, map_cons, foldl_cons]
  exact hfold [] entries

/-- Entries with different keys are set one after the other. -/
theorem ofEntries_of_nodup {entries : List (κ × α)} (h : (entries.map (·.1)).Nodup) :
    ofEntries entries = entries := by
  have hfold : ∀ (m entries : List (κ × α)), ((m ++ entries).map (·.1)).Nodup →
      entries.foldl (fun m entry => set m entry.1 entry.2) m = m ++ entries := by
    intro m entries hnodup
    induction entries generalizing m with
    | nil => simp
    | cons entry rest ih =>
      have hnot : ∀ other ∈ m, other.1 ≠ entry.1 := by
        rw [map_append, nodup_append] at hnodup
        exact fun other hother => hnodup.2.2 _ (mem_map_of_mem hother) _ (by simp)
      rw [foldl_cons, set_of_not_mem hnot, ih _ (by simpa using hnodup)]
      simp
  exact hfold [] entries (by simpa using h)

end InsertionMap

namespace CatalogProtocol

variable {rules : TextRules}

/-! ## Entries and members -/

theorem canonicalizeEntries_eq (entries : List Value) :
    canonicalizeEntries rules entries =
      entries.filterMap fun entry => canonicalizeValue rules entry none := by
  induction entries with
  | nil => rfl
  | cons entry rest ih =>
    rw [canonicalizeEntries, filterMap_cons, ih]
    cases canonicalizeValue rules entry none <;> rfl

theorem canonicalizeMembers_eq (members : List (String × Value)) :
    canonicalizeMembers rules members = members.filterMap fun member =>
      (canonicalizeValue rules member.2 (some member.1)).map (Prod.mk member.1) := by
  induction members with
  | nil => rfl
  | cons member rest ih =>
    obtain ⟨key, value⟩ := member
    rw [canonicalizeMembers, filterMap_cons, ih]
    cases canonicalizeValue rules value (some key) <;> rfl

theorem stringifyEntries_eq (entries : List Value) :
    stringifyEntries rules entries = entries.map (stringify rules) := by
  induction entries with
  | nil => rfl
  | cons entry rest ih => rw [stringifyEntries, ih, map_cons]

theorem stringifyMembers_eq {members : List (String × Value)}
    (h : ∀ member ∈ members, member.2 ≠ .undefined) :
    stringifyMembers rules members =
      members.map fun member => (member.1, stringify rules member.2) := by
  induction members with
  | nil => rfl
  | cons member rest ih =>
    have hrest := ih fun other hother => h other (mem_cons_of_mem _ hother)
    have hvalue := h member mem_cons_self
    obtain ⟨key, value⟩ := member
    rw [stringifyMembers, hrest, map_cons]
    exact hvalue

theorem canonicalizeValue_ne_undefined {value canonical : Value} {key : Option String}
    (h : canonicalizeValue rules value key = some canonical) : canonical ≠ .undefined := by
  rintro rfl
  cases value with
  | undefined => cases h
  | null => cases h
  | bool value => cases h
  | number value => cases value <;> cases h
  | string value =>
    rw [canonicalizeValue] at h
    split at h <;> cases h
  | array entries =>
    rw [canonicalizeValue] at h
    split at h <;> cases h
  | object members =>
    rw [canonicalizeValue] at h
    split at h <;> cases h

/-! ## The order of texts -/

theorem toNat_lt_or_lt (c : Char) :
    c.toNat < 0xD800 ∨ (0xDFFF < c.toNat ∧ c.toNat < 0x110000) := c.valid

theorem prefixCode_codeUnitsOf : PrefixCode codeUnitsOf where
  nonempty c := by
    rw [codeUnitsOf]
    split
    · exact cons_ne_nil _ _
    · exact cons_ne_nil _ _
  cancel := by
    intro c d rest rest' heq
    have hc := toNat_lt_or_lt c
    have hd := toNat_lt_or_lt d
    have heq' : ∀ {n m : ℕ}, c.toNat = n → d.toNat = m → n = m → c = d := by
      rintro n m rfl rfl hnm
      exact Char.toNat_inj.mp hnm
    unfold codeUnitsOf at heq
    split at heq
    · split at heq
      · simp only [cons_append, nil_append, List.cons.injEq] at heq
        exact ⟨heq' rfl rfl heq.1, heq.2⟩
      · simp only [cons_append, nil_append, List.cons.injEq] at heq
        omega
    · split at heq
      · simp only [cons_append, nil_append, List.cons.injEq] at heq
        omega
      · simp only [cons_append, nil_append, List.cons.injEq] at heq
        exact ⟨heq' rfl rfl (by omega), heq.2.2⟩

/-- **Texts that compare equal are equal.** -/
theorem eq_of_compareCodeUnits {left right : String} (h : compareCodeUnits left right = .eq) :
    left = right := by
  have hunits : codeUnits left = codeUnits right := Std.LawfulEqOrd.eq_of_compare h
  exact String.toList_inj.mp (prefixCode_codeUnitsOf.flatMap_injective hunits)

/-! ## Maps of the values of members -/

variable {α β : Type}

/-- The map of the values of members. -/
def mapValues (f : α → β) (members : List (String × α)) : List (String × β) :=
  members.map fun member => (member.1, f member.2)

theorem map_propertyOrder (f : α → β) (members : List (String × α)) :
    mapValues f (propertyOrder members) = propertyOrder (mapValues f members) := by
  have hsort : ∀ l : List (String × α),
      mapValues f (sortBy compareIndices l) = sortBy compareIndices (mapValues f l) :=
    fun l => map_sortBy _ l fun _ _ => rfl
  have hfilter : ∀ p : String → Bool,
      mapValues f (members.filter fun member => p member.1) =
        (mapValues f members).filter fun member => p member.1 := fun p => by
    rw [mapValues, mapValues, filter_map]
    rfl
  have happend : ∀ l l' : List (String × α),
      mapValues f (l ++ l') = mapValues f l ++ mapValues f l' := fun l l' => map_append
  rw [propertyOrder, propertyOrder, happend, hsort, hfilter fun key => (arrayIndex key).isSome,
    hfilter fun key => (arrayIndex key).isNone]

/-- The members of the result go along with a map of their values. -/
theorem map_canonicalMembers (f : α → β) (members : List (String × α)) :
    mapValues f (canonicalMembers rules members) = canonicalMembers rules (mapValues f members) := by
  have hsort : mapValues f (sortBy compareKeys members) =
      sortBy compareKeys (mapValues f members) := map_sortBy _ _ fun _ _ => rfl
  rw [canonicalMembers, canonicalMembers, map_propertyOrder, ← hsort]
  congr 1
  rw [mapValues, InsertionMap.map_ofEntries]
  congr 1
  simp only [mapValues, filter_map, map_map]
  rfl

theorem perm_propertyOrder (members : List (String × α)) :
    (propertyOrder members).Perm members := by
  have hnone : (members.filter fun member => (arrayIndex member.1).isNone) =
      members.filter fun member => !(arrayIndex member.1).isSome :=
    filter_congr fun member _ => by cases arrayIndex member.1 <;> rfl
  rw [propertyOrder, hnone]
  exact ((perm_sortBy _ _).append_right _).trans (filter_append_perm _ _)

/-- The members of the result are members under the normal forms of their keys. -/
theorem exists_of_mem_canonicalMembers {members : List (String × α)} {member : String × α}
    (h : member ∈ canonicalMembers rules members) : ∃ old ∈ members,
      normalizeFingerprintText rules old.1 ≠ "__proto__" ∧ old.2 = member.2 := by
  have hmem := InsertionMap.mem_ofEntries ((perm_propertyOrder _).mem_iff.mp h)
  obtain ⟨hmem, hname⟩ := mem_filter.mp hmem
  obtain ⟨old, hold, rfl⟩ := mem_map.mp hmem
  exact ⟨old, mem_sortBy.mp hold, by simpa using hname, rfl⟩

/-! ## Texts -/

/-- The text of the canonical form of a value, under a key. -/
def canonicalText (rules : TextRules) (value : Value) (key : Option String) :
    Option (List Char) :=
  (canonicalizeValue rules value key).map (stringify rules)

theorem canonicalJson_eq (value : Value) :
    canonicalJson rules value =
      String.ofList ((canonicalText rules value none).getD "null".toList) := by
  rw [canonicalJson, canonicalize, canonicalText]
  cases canonicalizeValue rules value none <;> rfl

/-- Texts in the order that entries are sorted in. -/
def sortTexts (rules : TextRules) (texts : List (List Char)) : List (List Char) :=
  sortBy (fun left right => rules.localeCompare (String.ofList left) (String.ofList right)) texts

/-- An array of texts in order, or nothing when there is none. -/
def arrayOf (rules : TextRules) : List (List Char) → Option (List Char)
  | [] => none
  | text :: texts => some (arrayText (sortTexts rules (text :: texts)))

/-- An object of texts under the normal forms of their keys, or nothing when there is none. -/
def objectOf (rules : TextRules) (texts : List (String × List Char)) : Option (List Char) :=
  match canonicalMembers rules texts with
  | [] => none
  | text :: texts => some (objectText (text :: texts))

/-- The texts of the entries of an array that are not left out. -/
def entryTexts (rules : TextRules) (entries : List Value) : List (List Char) :=
  entries.filterMap fun entry => canonicalText rules entry none

/-- The texts of the members of an object that are not left out, under their keys. -/
def memberTexts (rules : TextRules) (members : List (String × Value)) :
    List (String × List Char) :=
  members.filterMap fun member =>
    (canonicalText rules member.2 (some member.1)).map (Prod.mk member.1)

/-- **The text of an array** is that of the texts of its entries. -/
theorem canonicalText_array (entries : List Value) (key : Option String) :
    canonicalText rules (.array entries) key = arrayOf rules (entryTexts rules entries) := by
  have htexts : entryTexts rules entries =
      (canonicalizeEntries rules entries).map (stringify rules) := by
    rw [canonicalizeEntries_eq, map_filterMap]
    rfl
  rw [htexts, canonicalText, canonicalizeValue]
  cases canonicalizeEntries rules entries with
  | nil => rfl
  | cons entry rest =>
    have hsort : (sortBy (compareCanonical rules) (entry :: rest)).map (stringify rules) =
        sortTexts rules ((entry :: rest).map (stringify rules)) := map_sortBy _ _ fun _ _ => rfl
    change some (stringify rules (.array (sortBy (compareCanonical rules) (entry :: rest)))) =
      some (arrayText (sortTexts rules ((entry :: rest).map (stringify rules))))
    rw [← hsort, stringify, stringifyEntries_eq]

/-- **The text of an object** is that of the texts of its members. -/
theorem canonicalText_object (members : List (String × Value)) (key : Option String) :
    canonicalText rules (.object members) key = objectOf rules (memberTexts rules members) := by
  have htexts : memberTexts rules members =
      mapValues (stringify rules) (canonicalizeMembers rules members) := by
    rw [memberTexts, canonicalizeMembers_eq, mapValues, map_filterMap]
    refine congrArg (fun f => members.filterMap f) (funext fun member => ?_)
    rw [canonicalText]
    cases canonicalizeValue rules member.2 (some member.1) <;> rfl
  have hdefined : ∀ member ∈ canonicalMembers rules (canonicalizeMembers rules members),
      member.2 ≠ .undefined := by
    intro member hmember
    obtain ⟨old, hold, -, heq⟩ := exists_of_mem_canonicalMembers hmember
    rw [canonicalizeMembers_eq] at hold
    obtain ⟨source, -, hsource⟩ := mem_filterMap.mp hold
    obtain ⟨canonical, hcanonical, rfl⟩ := Option.map_eq_some_iff.mp hsource
    rw [← heq]
    exact canonicalizeValue_ne_undefined hcanonical
  rw [htexts, objectOf, ← map_canonicalMembers, canonicalText, canonicalizeValue]
  cases hcanonical : canonicalMembers rules (canonicalizeMembers rules members) with
  | nil => rfl
  | cons member rest =>
    rw [hcanonical] at hdefined
    change some (stringify rules (.object (member :: rest))) =
      some (objectText (mapValues (stringify rules) (member :: rest)))
    rw [stringify, stringifyMembers_eq hdefined]
    rfl

end CatalogProtocol

end HomelabInventory
