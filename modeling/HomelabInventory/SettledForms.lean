import HomelabInventory.SimilarValues

/-!
# Canonical forms that stay as they are

The canonical form of a value is its own canonical form when its texts have normal forms
that are their own, under the keys they come to stand under, and when the keys of the members
that each object keeps are in the order of their normal forms, which are their own.
-/

namespace HomelabInventory.CatalogProtocol

open List

/-! ## Settled values -/

/-- The keys of the members that are kept are in the order of their normal forms, which are their
own. The keys of an object are distinct. -/
structure KeysSettle (rules : TextRules) (members : List (String × Value)) : Prop where
  nodup : (keysOf members).Nodup
  stable : ∀ member ∈ members, Kept rules member →
    normalizeFingerprintText rules (normalizeFingerprintText rules member.1) =
      normalizeFingerprintText rules member.1
  order : ∀ left ∈ members, ∀ right ∈ members, Kept rules left → Kept rules right →
    compareCodeUnits left.1 right.1 = .lt →
    compareCodeUnits (normalizeFingerprintText rules left.1)
      (normalizeFingerprintText rules right.1) = .lt

/-- The text is left out, or its normal form under its key is the normal form of itself under
the normal form of the key. -/
def TextSettles (rules : TextRules) (key : Option String) (text : String) : Prop :=
  text = "" ∨ normalizeValueText rules key text = "" ∨
    normalizeValueText rules (key.map (normalizeFingerprintText rules))
      (normalizeValueText rules key text) = normalizeValueText rules key text

/-- A value with texts and keys that settle, under a key. -/
inductive Settled (rules : TextRules) : Option String → Value → Prop where
  | undefined {key : Option String} : Settled rules key .undefined
  | null {key : Option String} : Settled rules key .null
  | bool {key : Option String} {value : Bool} : Settled rules key (.bool value)
  | number {key : Option String} {value : Number} : Settled rules key (.number value)
  | string {key : Option String} {value : String} (htext : TextSettles rules key value) :
    Settled rules key (.string value)
  | array {key : Option String} {entries : List Value}
    (hentries : ∀ entry ∈ entries, Settled rules none entry) : Settled rules key (.array entries)
  | object {key : Option String} {members : List (String × Value)}
    (hmembers : ∀ member ∈ members, Settled rules (some member.1) member.2)
    (hkeys : KeysSettle rules members) : Settled rules key (.object members)

variable {rules : TextRules}

theorem filterMap_eq_self {α : Type} {f : α → Option α} {l : List α}
    (h : ∀ a ∈ l, f a = some a) : l.filterMap f = l := by
  induction l with
  | nil => rfl
  | cons a rest ih =>
    rw [filterMap_cons_some (h a mem_cons_self),
      ih fun b hb => h b (mem_cons_of_mem _ hb)]

/-! ## Members in the order of their normal forms -/

instance transCmp_compareCanonical : Std.TransCmp (compareCanonical rules) :=
  have := rules.consistent
  { eq_swap := this.eq_swap
    isLE_trans := this.isLE_trans }

/-- Members whose keys are strictly in order and normal stay as they are. -/
theorem canonicalMembers_eq_self {α : Type} {members : List (String × α)}
    (horder : members.Pairwise fun left right => compareKeys left right = .lt)
    (hstable : ∀ member ∈ members, normalizeFingerprintText rules member.1 = member.1)
    (hproto : ∀ member ∈ members, member.1 ≠ "__proto__") :
    canonicalMembers rules (propertyOrder members) = propertyOrder members := by
  have hnodup : (members.map (·.1)).Nodup := by
    rw [List.Nodup, pairwise_map]
    refine horder.imp fun {left right} hlt heq => ?_
    rw [compareKeys, heq, compareCodeUnits_self] at hlt
    cases hlt
  have hsort : sortBy compareKeys (propertyOrder members) = members := by
    refine sortBy_eq_of_perm _ (fun left hleft right hright heq => ?_)
      (horder.imp fun hlt => by rw [hlt]; rfl) (perm_propertyOrder members)
    exact inj_on_of_nodup_map hnodup hleft hright (eq_of_compareCodeUnits heq)
  have hnormal : (members.map fun member => (normalizeFingerprintText rules member.1, member.2)) =
      members := by
    rw [map_congr_left fun member hmember => by
      rw [hstable member hmember], map_id'']
    exact fun _ => rfl
  have hfilter : (members.filter fun member => member.1 ≠ "__proto__") = members :=
    filter_eq_self.mpr fun member hmember => by simpa using hproto member hmember
  rw [canonicalMembers, hsort, hnormal, hfilter, InsertionMap.ofEntries_of_nodup hnodup]

variable (rules) in
/-- The members of a result, in the order of their keys, which is that of their normal forms. -/
theorem exists_canonicalMembers {α : Type} {members : List (String × α)}
    (hnodup : (members.map (·.1)).Nodup)
    (horder : ∀ left ∈ members, ∀ right ∈ members,
      normalizeFingerprintText rules left.1 ≠ "__proto__" →
      normalizeFingerprintText rules right.1 ≠ "__proto__" →
      compareCodeUnits left.1 right.1 = .lt →
      compareCodeUnits (normalizeFingerprintText rules left.1)
        (normalizeFingerprintText rules right.1) = .lt) :
    ∃ sorted : List (String × α), canonicalMembers rules members = propertyOrder sorted ∧
      (sorted.Pairwise fun left right => compareKeys left right = .lt) ∧
      ∀ member ∈ sorted, member.1 ≠ "__proto__" ∧ ∃ old ∈ members,
        member = (normalizeFingerprintText rules old.1, old.2) := by
  have hstrict : (sortBy compareKeys members).Pairwise fun left right =>
      compareCodeUnits left.1 right.1 = .lt := by
    have hdistinct : (sortBy compareKeys members).Pairwise fun left right => left.1 ≠ right.1 := by
      rw [← pairwise_map (f := Prod.fst) (R := (· ≠ ·))]
      exact ((perm_sortBy compareKeys members).map Prod.fst).nodup_iff.mpr hnodup
    refine ((pairwise_isLE_sortBy compareKeys members).and hdistinct).imp
      fun {left right} hboth => ?_
    cases hcompare : compareCodeUnits left.1 right.1 with
    | lt => rfl
    | eq => exact absurd (eq_of_compareCodeUnits hcompare) hboth.2
    | gt =>
      have hle := hboth.1
      rw [compareKeys, hcompare] at hle
      cases hle
  have hnormal : (((sortBy compareKeys members).map fun member =>
      (normalizeFingerprintText rules member.1, member.2)).filter fun member =>
        member.1 ≠ "__proto__").Pairwise fun left right => compareKeys left right = .lt := by
    rw [filter_map, pairwise_map]
    refine (hstrict.sublist filter_sublist).imp_of_mem fun {left right} hleft hright hlt => ?_
    obtain ⟨hleft, hname⟩ := mem_filter.mp hleft
    obtain ⟨hright, hname'⟩ := mem_filter.mp hright
    exact horder left (mem_sortBy.mp hleft) right (mem_sortBy.mp hright) (by simpa using hname)
      (by simpa using hname') hlt
  refine ⟨_, congrArg propertyOrder (InsertionMap.ofEntries_of_nodup ?_), hnormal,
    fun member hmember => ?_⟩
  · rw [List.Nodup, pairwise_map]
    refine hnormal.imp fun {left right} hlt heq => ?_
    rw [compareKeys, heq, compareCodeUnits_self] at hlt
    cases hlt
  · obtain ⟨hmem, hproto⟩ := mem_filter.mp hmember
    obtain ⟨old, hold, rfl⟩ := mem_map.mp hmem
    exact ⟨by simpa using hproto, old, mem_sortBy.mp hold, rfl⟩

/-! ## The canonical form of a canonical form -/

/-- **The canonical form of a settled value is its own canonical form**, under the normal form
of its key. -/
theorem canonicalizeValue_canonical {key : Option String} {value canonical : Value}
    (h : Settled rules key value) (hcanonical : canonicalizeValue rules value key = some canonical) :
    canonicalizeValue rules canonical (key.map (normalizeFingerprintText rules)) =
      some canonical := by
  induction h generalizing canonical with
  | undefined => cases hcanonical
  | null => cases hcanonical
  | bool =>
    cases hcanonical
    rfl
  | @number key value =>
    cases value <;> cases hcanonical <;> rfl
  | @string key value htext =>
    rw [canonicalizeValue] at hcanonical
    split at hcanonical
    · cases hcanonical
    · next hpresent =>
      rw [not_or] at hpresent
      cases hcanonical
      rcases htext with hempty | hempty | hstable
      · exact absurd hempty hpresent.1
      · exact absurd hempty hpresent.2
      · rw [canonicalizeValue, hstable, if_neg (by simp [hpresent.2])]
  | @array key entries hentries ih =>
    rw [canonicalizeValue] at hcanonical
    split at hcanonical
    · cases hcanonical
    · next entry rest hentry =>
      cases hcanonical
      have hself : canonicalizeEntries rules (sortBy (compareCanonical rules) (entry :: rest)) =
          sortBy (compareCanonical rules) (entry :: rest) := by
        rw [canonicalizeEntries_eq]
        refine filterMap_eq_self fun canonical hmem => ?_
        rw [mem_sortBy, ← hentry, canonicalizeEntries_eq] at hmem
        obtain ⟨source, hsource, hsome⟩ := mem_filterMap.mp hmem
        exact ih source hsource hsome
      have hsorted : sortBy (compareCanonical rules)
          (sortBy (compareCanonical rules) (entry :: rest)) =
          sortBy (compareCanonical rules) (entry :: rest) :=
        sortBy_eq_self (pairwise_isLE_sortBy _ _)
      rw [canonicalizeValue, hself]
      cases hlist : sortBy (compareCanonical rules) (entry :: rest) with
      | nil =>
        have hlength := congrArg List.length hlist
        simp at hlength
      | cons first others =>
        rw [hlist] at hsorted
        exact congrArg (fun sorted => some (Value.array sorted)) hsorted
  | @object key members hmembers hkeys ih =>
    rw [canonicalizeValue] at hcanonical
    have hnodup : ((canonicalizeMembers rules members).map (·.1)).Nodup := by
      rw [canonicalizeMembers_eq]
      exact (keys_filterMap_sublist _ members).nodup hkeys.nodup
    have hsource : ∀ old ∈ canonicalizeMembers rules members, ∃ member ∈ members,
        member.1 = old.1 ∧ canonicalizeValue rules member.2 (some member.1) = some old.2 := by
      intro old hold
      rw [canonicalizeMembers_eq] at hold
      obtain ⟨member, hmember, hsome⟩ := mem_filterMap.mp hold
      obtain ⟨canonical, hcanonical, rfl⟩ := Option.map_eq_some_iff.mp hsome
      exact ⟨member, hmember, rfl, hcanonical⟩
    obtain ⟨sorted, heq, horder, hfrom⟩ := exists_canonicalMembers rules hnodup
      fun left hleft right hright hname hname' hlt => by
        obtain ⟨member, hmember, hkey, hsome⟩ := hsource left hleft
        obtain ⟨member', hmember', hkey', hsome'⟩ := hsource right hright
        rw [← hkey] at hname hlt ⊢
        rw [← hkey'] at hname' hlt ⊢
        exact hkeys.order member hmember member' hmember'
          ⟨hname, stays_of_canonicalizeValue hsome⟩ ⟨hname', stays_of_canonicalizeValue hsome'⟩ hlt
    rw [heq] at hcanonical
    have hold : ∀ member ∈ sorted, normalizeFingerprintText rules member.1 = member.1 ∧
        canonicalizeValue rules member.2 (some member.1) = some member.2 := by
      intro member hmember
      obtain ⟨hproto, old, hold, rfl⟩ := hfrom member hmember
      obtain ⟨source, hmem, hkey, hsome⟩ := hsource old hold
      dsimp only at hproto ⊢
      rw [← hkey] at hproto ⊢
      exact ⟨hkeys.stable source hmem ⟨hproto, stays_of_canonicalizeValue hsome⟩,
        ih source hmem hsome⟩
    have hself : canonicalizeMembers rules (propertyOrder sorted) = propertyOrder sorted := by
      rw [canonicalizeMembers_eq]
      refine filterMap_eq_self fun member hmember => ?_
      rw [(hold member ((perm_propertyOrder sorted).mem_iff.mp hmember)).2]
      rfl
    have hstable : canonicalMembers rules (propertyOrder sorted) = propertyOrder sorted :=
      canonicalMembers_eq_self horder (fun member hmember => (hold member hmember).1)
        fun member hmember => (hfrom member hmember).1
    split at hcanonical
    · cases hcanonical
    · next member rest hlist =>
      cases hcanonical
      rw [canonicalizeValue, ← hlist, hself, hstable, hlist]

/-- **Canonicalizing a settled value twice is canonicalizing it once.** -/
theorem canonicalize_canonicalize {value : Value} (h : Settled rules none value) :
    canonicalize rules (canonicalize rules value) = canonicalize rules value := by
  cases hcanonical : canonicalizeValue rules value none with
  | none =>
    rw [canonicalize, canonicalize, hcanonical]
    rfl
  | some canonical =>
    have hagain := canonicalizeValue_canonical h hcanonical
    rw [canonicalize, canonicalize, hcanonical, Option.getD_some]
    exact congrArg (·.getD .null) hagain

/-- A board with a manufacturer that is written in capital letters. -/
def boardValue : Value := .object [("name", .string "X 1"), ("Manufacturer", .string "ACME")]

/-- The board with its fields in another order and its manufacturer in small letters. -/
def boardValue' : Value := .object [("Manufacturer", .string "acme"), ("name", .string "X 1")]

theorem similar_boardValue : Similar asciiRules true boardValue boardValue' := by
  have hletters : SameLetters asciiRules "ACME" "acme" := ⟨by decide, by decide⟩
  have hlower : LowersFirst asciiRules "ACME" := by
    unfold LowersFirst
    decide +kernel
  have hlower' : LowersFirst asciiRules "acme" := by
    unfold LowersFirst
    decide +kernel
  have hcase : Change asciiRules true (.string "ACME") (.string "acme") :=
    .textCase hletters fun _ => ⟨hlower, hlower'⟩
  have hmember := @Change.objectMember asciiRules true [("name", .string "X 1")] []
    "Manufacturer" _ _ hcase
  have horder := @Change.objectOrder asciiRules true _ _ (by decide)
    (List.Perm.swap ("Manufacturer", .string "acme") ("name", .string "X 1") [])
  exact .trans _ _ _ (.rel _ _ hmember) (.rel _ _ horder)

theorem settled_boardValue : Settled asciiRules none boardValue := by
  have hstable : ∀ key ∈ ["name", "Manufacturer"], normalizeFingerprintText asciiRules
      (normalizeFingerprintText asciiRules key) = normalizeFingerprintText asciiRules key := by
    decide +kernel
  have horder : ∀ left ∈ ["name", "Manufacturer"], ∀ right ∈ ["name", "Manufacturer"],
      compareCodeUnits left right = .lt →
      compareCodeUnits (normalizeFingerprintText asciiRules left)
        (normalizeFingerprintText asciiRules right) = .lt := by
    decide +kernel
  refine .object ?_ ⟨by decide, fun member hmember _ => hstable _ (mem_map_of_mem hmember),
    fun left hleft right hright _ _ => horder _ (mem_map_of_mem hleft) _ (mem_map_of_mem hright)⟩
  intro member hmember
  rw [mem_cons, mem_singleton] at hmember
  rcases hmember with rfl | rfl
  · exact .string (.inr (.inr (by decide +kernel)))
  · exact .string (.inr (.inr (by decide +kernel)))

end HomelabInventory.CatalogProtocol
