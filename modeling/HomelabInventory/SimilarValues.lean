import HomelabInventory.CanonicalForms
import Mathlib.Logic.Relation

/-!
# Values with the same canonical text

Reordering entries and members and adding or removing blank ones never changes the
canonical text. Changing the case of a text does not change it when the text can be
lower-cased first, and changing the case of a key does not when its member is left out or the
key also keeps its place among the keys of members that stay, and a text the normal form
that it has under the key.
-/

namespace HomelabInventory.CatalogProtocol

open List

/-! ## Similar values -/

/-- A member or an entry that is left out: null, undefined or the empty text. -/
def Blank (value : Value) : Prop :=
  value = .undefined ∨ value = .null ∨ value = .string ""

/-- Two texts that differ by the case of their letters. -/
structure SameLetters (rules : TextRules) (left right : String) : Prop where
  lower : rules.toLocaleLowerCase left = rules.toLocaleLowerCase right
  empty : left = "" ↔ right = ""

/-- The text has the same normal form when it is lower-cased first. -/
def LowersFirst (rules : TextRules) (text : String) : Prop :=
  normalizeFingerprintText rules text =
    normalizeFingerprintText rules (rules.toLocaleLowerCase text)

/-- A value that is not left out under a key. -/
inductive Stays (rules : TextRules) : Option String → Value → Prop where
  | bool {key : Option String} {value : Bool} : Stays rules key (.bool value)
  | number {key : Option String} {value : Number} (hfinite : value ≠ .notFinite) :
    Stays rules key (.number value)
  | string {key : Option String} {value : String} (hempty : value ≠ "")
    (hnormal : normalizeValueText rules key value ≠ "") : Stays rules key (.string value)
  | array {key : Option String} {entries : List Value} {entry : Value} (hentry : entry ∈ entries)
    (hstays : Stays rules none entry) : Stays rules key (.array entries)
  | object {key : Option String} {members : List (String × Value)} {name : String} {value : Value}
    (hmember : (name, value) ∈ members) (hname : normalizeFingerprintText rules name ≠ "__proto__")
    (hstays : Stays rules (some name) value) : Stays rules key (.object members)

/-- A member that the canonical form keeps: its value is not left out, and its key does not become
the one that sets no property. -/
structure Kept (rules : TextRules) (member : String × Value) : Prop where
  name : normalizeFingerprintText rules member.1 ≠ "__proto__"
  value : Stays rules (some member.1) member.2

/-- A key of a member keeps its normal form, its place among the keys of the other members that are
kept, and a text the normal form that it has under the key, when the key is changed. A value that is
no text, such as a number, is the same under every key. -/
structure KeepsPlace (rules : TextRules) (others : List (String × Value)) (value : Value)
    (key key' : String) : Prop where
  lowers : LowersFirst rules key
  lowers' : LowersFirst rules key'
  order : ∀ other ∈ others, Kept rules other →
    compareCodeUnits key other.1 = compareCodeUnits key' other.1
  text : ∀ text, value = .string text →
    normalizeValueText rules (some key) text = normalizeValueText rules (some key') text

/-- The keys of members. -/
def keysOf (members : List (String × Value)) : List String := members.map (·.1)

/-- One change of a value, at any depth: another order, a blank entry or member less, or the
case of the letters of a text or a key. A careful change of case keeps to texts that can be
lower-cased first, and a key of a member that is kept to its place. -/
inductive Change (rules : TextRules) (careful : Bool) : Value → Value → Prop where
  | arrayOrder {entries entries' : List Value} (hperm : entries.Perm entries') :
    Change rules careful (.array entries) (.array entries')
  | arrayBlank {before after : List Value} {entry : Value} (hblank : Blank entry) :
    Change rules careful (.array (before ++ entry :: after)) (.array (before ++ after))
  | arrayEntry {before after : List Value} {entry entry' : Value}
    (hchange : Change rules careful entry entry') :
    Change rules careful (.array (before ++ entry :: after)) (.array (before ++ entry' :: after))
  | objectOrder {members members' : List (String × Value)} (hkeys : (keysOf members).Nodup)
    (hperm : members.Perm members') :
    Change rules careful (.object members) (.object members')
  | objectBlank {before after : List (String × Value)} {key : String} {value : Value}
    (hblank : Blank value) :
    Change rules careful (.object (before ++ (key, value) :: after)) (.object (before ++ after))
  | objectMember {before after : List (String × Value)} {key : String} {value value' : Value}
    (hchange : Change rules careful value value') :
    Change rules careful (.object (before ++ (key, value) :: after))
      (.object (before ++ (key, value') :: after))
  | textCase {left right : String} (hletters : SameLetters rules left right)
    (hcareful : careful = true → LowersFirst rules left ∧ LowersFirst rules right) :
    Change rules careful (.string left) (.string right)
  | keyCase {before after : List (String × Value)} {key key' : String} {value : Value}
    (hletters : SameLetters rules key key')
    (hkeys : (keysOf (before ++ (key, value) :: after)).Nodup)
    (hkeys' : (keysOf (before ++ (key', value) :: after)).Nodup)
    (hcareful : careful = true → Kept rules (key, value) ∨ Kept rules (key', value) →
      KeepsPlace rules (before ++ after) value key key') :
    Change rules careful (.object (before ++ (key, value) :: after))
      (.object (before ++ (key', value) :: after))

/-- **Values that differ in what the canonical form forgets**: a chain of changes, each taken forwards
or backwards, leads from one to the other. When the changes are careful, each of them is one that
the canonical form does not tell. -/
def Similar (rules : TextRules) (careful : Bool) : Value → Value → Prop :=
  Relation.EqvGen (Change rules careful)

/-! ## What a change does -/

variable {rules : TextRules}

variable {value value' : Value}

theorem canonicalText_of_blank (h : Blank value) (key : Option String) :
    canonicalText rules value key = none := by
  rcases h with rfl | rfl | rfl
  · rfl
  · rfl
  · rw [canonicalText, canonicalizeValue, if_pos (Or.inl rfl)]
    rfl

variable {key key' left right : String}

/-- Texts with one normal form have one canonical text. -/
theorem canonicalText_string (hempty : left = "" ↔ right = "")
    (hnormal : normalizeFingerprintText rules left = normalizeFingerprintText rules right)
    (key : Option String) :
    canonicalText rules (.string left) key = canonicalText rules (.string right) key := by
  have hvalue : normalizeValueText rules key left = normalizeValueText rules key right := by
    simp only [normalizeValueText, normalizeManufacturer, normalizeUnitText, hnormal]
  simp only [canonicalText, canonicalizeValue, hvalue, hempty]

theorem canonicalText_key {value : Value} (htext : ∀ text, value = .string text →
    normalizeValueText rules (some key) text = normalizeValueText rules (some key') text) :
    canonicalText rules value (some key) = canonicalText rules value (some key') := by
  rw [canonicalText, canonicalText]
  congr 1
  cases value with
  | number value => cases value <;> rfl
  | string value => rw [canonicalizeValue, canonicalizeValue, htext value rfl]
  | _ => rfl

/-- What has a canonical form is not left out. -/
theorem stays_of_canonicalizeValue {value canonical : Value} {key : Option String}
    (h : canonicalizeValue rules value key = some canonical) : Stays rules key value :=
  match value with
  | .undefined | .null => by cases h
  | .bool _ => .bool
  | .number value => .number (by rintro rfl; cases h)
  | .string value => by
    rw [canonicalizeValue] at h
    split at h
    · cases h
    · next hpresent =>
      rw [not_or] at hpresent
      exact .string hpresent.1 hpresent.2
  | .array entries => by
    rw [canonicalizeValue] at h
    split at h
    · cases h
    · next first rest hcanonical =>
      rw [canonicalizeEntries_eq] at hcanonical
      obtain ⟨entry, hentry, hsome⟩ := mem_filterMap.mp (hcanonical ▸ mem_cons_self (a := first))
      exact .array hentry (stays_of_canonicalizeValue hsome)
  | .object members => by
    rw [canonicalizeValue] at h
    split at h
    · cases h
    · next first rest hcanonical =>
      obtain ⟨⟨name, old⟩, hold, hname, -⟩ :=
        exists_of_mem_canonicalMembers (hcanonical ▸ mem_cons_self (a := first))
      rw [canonicalizeMembers_eq] at hold
      obtain ⟨member, hmember, hsome⟩ := mem_filterMap.mp hold
      obtain ⟨canonical, hvalue, heq⟩ := Option.map_eq_some_iff.mp hsome
      obtain ⟨rfl, rfl⟩ := Prod.mk.inj heq
      exact .object hmember hname (stays_of_canonicalizeValue hvalue)
termination_by sizeOf value
decreasing_by
  · have := sizeOf_lt_of_mem hentry
    simp only [Value.array.sizeOf_spec]
    omega
  · have := sizeOf_lt_of_mem hmember
    obtain ⟨name, value⟩ := member
    simp only [Value.object.sizeOf_spec, Prod.mk.sizeOf_spec] at *
    omega

theorem normalizeFingerprintText_of_sameLetters (hletters : SameLetters rules left right)
    (hleft : LowersFirst rules left) (hright : LowersFirst rules right) :
    normalizeFingerprintText rules left = normalizeFingerprintText rules right := by
  rw [hleft, hright, hletters.lower]

/-! ### Order -/

/-- An array does not depend on the order of its entries. -/
theorem arrayOf_perm [Std.LawfulEqCmp rules.localeCompare] {texts texts' : List (List Char)}
    (hperm : texts.Perm texts') : arrayOf rules texts = arrayOf rules texts' := by
  have hconsistent := rules.consistent
  have hcmp : Std.TransCmp fun left right : List Char =>
      rules.localeCompare (String.ofList left) (String.ofList right) :=
    { eq_swap := Std.OrientedCmp.eq_swap, isLE_trans := Std.TransCmp.isLE_trans }
  have hsort : sortTexts rules texts = sortTexts rules texts' := by
    refine sortBy_congr_perm _ (fun left _ right _ heq => ?_) hperm
    exact String.ofList_inj.mp (Std.LawfulEqCmp.eq_of_compare heq)
  cases texts with
  | nil => rw [hperm.nil_eq]
  | cons text texts =>
    cases texts' with
    | nil => exact absurd hperm.symm.nil_eq.symm (cons_ne_nil _ _)
    | cons text' texts' => rw [arrayOf, arrayOf, hsort]

theorem transCmp_codeUnits : Std.TransCmp (α := List ℕ) compare := inferInstance

@[simp]
theorem compareCodeUnits_self (text : String) : compareCodeUnits text text = .eq :=
  have := transCmp_codeUnits
  Std.ReflCmp.compare_self (α := List ℕ)

instance transCmp_compareKeys {α : Type} : Std.TransCmp (compareKeys (α := α)) :=
  { eq_swap := transCmp_codeUnits.eq_swap
    isLE_trans := transCmp_codeUnits.isLE_trans }

/-- Members with different keys do not depend on their order. -/
theorem canonicalMembers_perm {α : Type} {members members' : List (String × α)}
    (hkeys : (members'.map (·.1)).Nodup) (hperm : members.Perm members') :
    canonicalMembers rules members = canonicalMembers rules members' := by
  have hsort : sortBy compareKeys members = sortBy compareKeys members' := by
    refine sortBy_congr_perm _ (fun left hleft right hright heq => ?_) hperm
    exact inj_on_of_nodup_map hkeys hleft hright (eq_of_compareCodeUnits heq)
  rw [canonicalMembers, canonicalMembers, hsort]

/-- The keys of the members that are not left out are keys of the members. -/
theorem keys_filterMap_sublist {α : Type} (f : String × Value → Option α)
    (members : List (String × Value)) :
    ((members.filterMap fun member => (f member).map (Prod.mk member.1)).map (·.1)).Sublist
      (keysOf members) := by
  rw [keysOf, map_filterMap]
  have heq : (members.filterMap fun member => Option.map (·.1) ((f member).map (Prod.mk member.1))) =
      (members.filter fun member => (f member).isSome).map (·.1) := by
    rw [← filterMap_eq_map, filterMap_filter]
    refine congrArg (fun g => members.filterMap g) (funext fun member => ?_)
    cases f member <;> rfl
  rw [heq]
  exact filter_sublist.map _

theorem keys_memberTexts_sublist (members : List (String × Value)) :
    ((memberTexts rules members).map (·.1)).Sublist (keysOf members) :=
  keys_filterMap_sublist _ members

/-- Members whose keys set no property do not count. -/
theorem canonicalMembers_filter {α : Type} {members : List (String × α)}
    (hkeys : (members.map (·.1)).Nodup) : canonicalMembers rules members = canonicalMembers rules
      (members.filter fun member => normalizeFingerprintText rules member.1 ≠ "__proto__") := by
  have hsort : sortBy compareKeys (members.filter fun member =>
        normalizeFingerprintText rules member.1 ≠ "__proto__") =
      (sortBy compareKeys members).filter fun member =>
        normalizeFingerprintText rules member.1 ≠ "__proto__" := by
    refine sortBy_eq_of_perm _ (fun left hleft right hright heq => ?_)
      ((pairwise_isLE_sortBy compareKeys members).sublist filter_sublist)
      ((perm_sortBy compareKeys members).symm.filter _)
    exact inj_on_of_nodup_map hkeys (mem_sortBy.mp (mem_of_mem_filter hleft))
      (mem_sortBy.mp (mem_of_mem_filter hright)) (eq_of_compareCodeUnits heq)
  rw [canonicalMembers, canonicalMembers, hsort, filter_map, filter_map, filter_filter]
  congr 4
  refine funext fun member => ?_
  simp

/-! ### A changed key -/

/-- Give one key another name. -/
def renameKey {α : Type} (key key' : String) (member : String × α) : String × α :=
  if member.1 = key then (key', member.2) else member

theorem map_renameKey {α : Type} {members : List (String × α)} (h : key ∉ members.map (·.1)) :
    members.map (renameKey key key') = members := by
  have hsame : ∀ member ∈ members, renameKey key key' member = member := by
    intro member hmember
    refine if_neg ?_
    rintro rfl
    exact h (mem_map_of_mem hmember)
  rw [map_congr_left hsame, map_id'']
  exact fun _ => rfl

/-- A key that keeps its place keeps the members where they are. -/
theorem canonicalMembers_keyCase {α : Type} {before after : List (String × α)}
    {value : α}
    (hnormal : normalizeFingerprintText rules key = normalizeFingerprintText rules key')
    (hkeys : key ∉ (before ++ after).map (·.1))
    (horder : ∀ other ∈ (before ++ after).map (·.1),
      compareCodeUnits key other = compareCodeUnits key' other) :
    canonicalMembers rules (before ++ (key, value) :: after) =
      canonicalMembers rules (before ++ (key', value) :: after) := by
  rw [map_append, mem_append, not_or] at hkeys
  have hrename : before ++ (key', value) :: after =
      (before ++ (key, value) :: after).map (renameKey key key') := by
    rw [map_append, List.map_cons, map_renameKey hkeys.1, map_renameKey hkeys.2, renameKey,
      if_pos rfl]
  have hself : ∀ text, compareCodeUnits text text = .eq := compareCodeUnits_self
  have hswap : ∀ left right, compareCodeUnits left right = (compareCodeUnits right left).swap :=
    fun left right => transCmp_codeUnits.eq_swap
  have hsort : sortBy compareKeys ((before ++ (key, value) :: after).map (renameKey key key')) =
      (sortBy compareKeys (before ++ (key, value) :: after)).map (renameKey key key') := by
    refine (map_insertionSort _ _ _ _ fun left hleft right hright => ?_).symm
    have hother : ∀ member ∈ before ++ (key, value) :: after, member.1 ≠ key →
        compareCodeUnits key member.1 = compareCodeUnits key' member.1 := by
      intro member hmember hne
      refine horder _ (mem_map_of_mem ?_)
      rcases mem_append.mp hmember with hmember | hmember
      · exact mem_append_left _ hmember
      · rcases List.mem_cons.mp hmember with rfl | hmember
        · exact absurd rfl hne
        · exact mem_append_right _ hmember
    have hcompare : compareKeys left right =
        compareKeys (renameKey key key' left) (renameKey key key' right) := by
      unfold compareKeys renameKey
      by_cases hl : left.1 = key
      · by_cases hr : right.1 = key
        · rw [if_pos hl, if_pos hr, hl, hr, hself, hself]
        · rw [if_pos hl, if_neg hr, hl, hother right hright hr]
      · by_cases hr : right.1 = key
        · rw [if_neg hl, if_pos hr, hr, hswap, hother left hleft hl, ← hswap]
        · rw [if_neg hl, if_neg hr]
    rw [hcompare]
  rw [hrename, canonicalMembers, canonicalMembers, hsort, map_map]
  congr 4
  refine funext fun member => ?_
  simp only [Function.comp_apply, renameKey]
  split
  · next hkey => rw [hkey, hnormal]
  · rfl

/-! ### Members that are kept -/

/-- The text of a member that is kept, under its key. -/
def keptText (rules : TextRules) (member : String × Value) : Option (String × List Char) :=
  if normalizeFingerprintText rules member.1 = "__proto__" then none
  else (canonicalText rules member.2 (some member.1)).map (Prod.mk member.1)

/-- The texts of the members that are kept, under their keys. -/
def keptTexts (rules : TextRules) (members : List (String × Value)) : List (String × List Char) :=
  members.filterMap (keptText rules)

theorem kept_of_keptText {member : String × Value} {text : String × List Char}
    (h : keptText rules member = some text) : Kept rules member ∧ text.1 = member.1 := by
  unfold keptText at h
  split at h
  · cases h
  · next hname =>
    obtain ⟨text, htext, rfl⟩ := Option.map_eq_some_iff.mp h
    obtain ⟨canonical, hcanonical, -⟩ := Option.map_eq_some_iff.mp htext
    exact ⟨⟨hname, stays_of_canonicalizeValue hcanonical⟩, rfl⟩

theorem keptText_eq_none {member : String × Value} (h : ¬Kept rules member) :
    keptText rules member = none :=
  Option.eq_none_iff_forall_ne_some.mpr fun _ htext => h (kept_of_keptText htext).1

theorem keptTexts_middle (before after : List (String × Value)) (member : String × Value) :
    keptTexts rules (before ++ member :: after) =
      keptTexts rules before ++ ((keptText rules member).toList ++ keptTexts rules after) := by
  rw [keptTexts, filterMap_append, filterMap_cons]
  cases keptText rules member <;> rfl

theorem exists_of_mem_keptTexts {members : List (String × Value)} {key : String}
    (h : key ∈ (keptTexts rules members).map (·.1)) :
    ∃ member ∈ members, Kept rules member ∧ member.1 = key := by
  obtain ⟨text, htext, rfl⟩ := mem_map.mp h
  obtain ⟨member, hmember, hsome⟩ := mem_filterMap.mp htext
  obtain ⟨hkept, heq⟩ := kept_of_keptText hsome
  exact ⟨member, hmember, hkept, heq.symm⟩

theorem keptTexts_eq (members : List (String × Value)) : keptTexts rules members =
    (memberTexts rules members).filter fun member =>
      normalizeFingerprintText rules member.1 ≠ "__proto__" := by
  rw [keptTexts, memberTexts, filter_filterMap]
  refine congrArg (fun f => members.filterMap f) (funext fun member => ?_)
  rw [keptText]
  cases canonicalText rules member.2 (some member.1) <;> simp [Option.filter]

theorem keys_keptTexts_sublist (members : List (String × Value)) :
    ((keptTexts rules members).map (·.1)).Sublist (keysOf members) := by
  rw [keptTexts_eq]
  exact (filter_sublist.map _).trans (keys_memberTexts_sublist members)

/-- The text of an object is that of the members that are kept. -/
theorem objectOf_keptTexts {members : List (String × Value)} (hkeys : (keysOf members).Nodup) :
    objectOf rules (memberTexts rules members) = objectOf rules (keptTexts rules members) := by
  rw [objectOf, objectOf, keptTexts_eq,
    ← canonicalMembers_filter ((keys_memberTexts_sublist members).nodup hkeys)]

/-! ## The canonical text is kept -/

/-- **A careful change keeps the canonical text.** -/
theorem canonicalText_change [Std.LawfulEqCmp rules.localeCompare]
    (h : Change rules true value value') (key : Option String) :
    canonicalText rules value key = canonicalText rules value' key := by
  induction h generalizing key with
  | arrayOrder hperm =>
    rw [canonicalText_array, canonicalText_array]
    exact arrayOf_perm (hperm.filterMap _)
  | arrayBlank hblank =>
    rw [canonicalText_array, canonicalText_array, entryTexts, entryTexts, filterMap_append,
      filterMap_append, filterMap_cons, canonicalText_of_blank hblank]
  | arrayEntry hchange ih =>
    rw [canonicalText_array, canonicalText_array, entryTexts, entryTexts, filterMap_append,
      filterMap_append, filterMap_cons, filterMap_cons, ih]
  | @objectOrder members members' hkeys hperm =>
    have hkeys' : (keysOf members').Nodup := (hperm.map Prod.fst).nodup_iff.mp hkeys
    have htexts : (memberTexts rules members).Perm (memberTexts rules members') := hperm.filterMap _
    rw [canonicalText_object, canonicalText_object, objectOf, objectOf,
      canonicalMembers_perm ((keys_memberTexts_sublist members').nodup hkeys') htexts]
  | objectBlank hblank =>
    rw [canonicalText_object, canonicalText_object, memberTexts, memberTexts,
      filterMap_append, filterMap_append, filterMap_cons,
      canonicalText_of_blank hblank]
    rfl
  | objectMember hchange ih =>
    rw [canonicalText_object, canonicalText_object, memberTexts, memberTexts,
      filterMap_append, filterMap_append, filterMap_cons, filterMap_cons, ih]
  | textCase hletters hcareful =>
    obtain ⟨hleft, hright⟩ := hcareful rfl
    exact canonicalText_string hletters.empty
      (normalizeFingerprintText_of_sameLetters hletters hleft hright) key
  | @keyCase before after name name' value hletters hkeys hkeys' hcareful =>
    rw [canonicalText_object, canonicalText_object, objectOf_keptTexts hkeys,
      objectOf_keptTexts hkeys', keptTexts_middle, keptTexts_middle]
    by_cases hkept : Kept rules (name, value) ∨ Kept rules (name', value)
    · have hplace := hcareful rfl hkept
      have hnormal := normalizeFingerprintText_of_sameLetters hletters hplace.lowers hplace.lowers'
      rw [keptText, keptText, canonicalText_key hplace.text, hnormal]
      split
      · rfl
      · cases canonicalText rules value (some name') with
        | none => rfl
        | some text =>
          have hsub : ((keptTexts rules before ++ keptTexts rules after).map (·.1)).Sublist
              (keysOf (before ++ after)) := by
            rw [map_append, keysOf, map_append]
            exact (keys_keptTexts_sublist before).append (keys_keptTexts_sublist after)
          show objectOf rules (keptTexts rules before ++ (name, text) :: keptTexts rules after) =
            objectOf rules (keptTexts rules before ++ (name', text) :: keptTexts rules after)
          rw [objectOf, objectOf, canonicalMembers_keyCase hnormal (fun hmem => ?_)
            fun other hother => ?_]
          · rw [keysOf, map_append, List.map_cons, nodup_middle] at hkeys
            refine (nodup_cons.mp hkeys).1 ?_
            have hname := hsub.subset hmem
            rwa [keysOf, map_append] at hname
          · rw [map_append] at hother
            obtain ⟨member, hmember, hkept, rfl⟩ : ∃ member ∈ before ++ after, Kept rules member ∧
                member.1 = other := by
              rcases mem_append.mp hother with hother | hother
              · obtain ⟨member, hmember, h⟩ := exists_of_mem_keptTexts hother
                exact ⟨member, mem_append_left _ hmember, h⟩
              · obtain ⟨member, hmember, h⟩ := exists_of_mem_keptTexts hother
                exact ⟨member, mem_append_right _ hmember, h⟩
            exact hplace.order member hmember hkept
    · rw [not_or] at hkept
      rw [keptText_eq_none hkept.1, keptText_eq_none hkept.2]

/-- **Values that careful changes make similar have one canonical text.** -/
theorem canonicalJson_similar [Std.LawfulEqCmp rules.localeCompare]
    (h : Similar rules true value value') :
    canonicalJson rules value = canonicalJson rules value' := by
  have htext : canonicalText rules value none = canonicalText rules value' none := by
    induction h with
    | rel value value' hchange => exact canonicalText_change hchange none
    | refl value => rfl
    | symm value value' _ ih => exact ih.symm
    | trans value value' value'' _ _ ih ih' => exact ih.trans ih'
  rw [canonicalJson_eq, canonicalJson_eq, htext]

end HomelabInventory.CatalogProtocol
