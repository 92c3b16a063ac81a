import HomelabInventory.AsciiText
import HomelabInventory.QuotedTexts

/-!
# What a signature binds

`packages/catalog-protocol/src/contribution-auth.ts`: the texts that an installation signs.
They are the canonical JSON of an object of texts, so they bind the normal forms of the
fields and not the fields.
-/

namespace HomelabInventory.CatalogProtocol

open List

/-! ## Objects of texts -/

/-- An object of texts. -/
def fieldsValue (fields : List (String × String)) : Value :=
  .object (fields.map fun field => (field.1, .string field.2))

/-- The normal form of the text of a field. -/
def normalField (rules : TextRules) (field : String × String) : String :=
  normalizeValueText rules (some field.1) field.2

/-- The fields whose normal forms are not empty, with these. -/
def presentFields (rules : TextRules) (fields : List (String × String)) : List (String × String) :=
  (fields.filter fun field => normalField rules field ≠ "").map fun field =>
    (field.1, normalField rules field)

/-- The normal forms of keys are different and are names of properties. -/
structure KeysApart (rules : TextRules) (keys : List String) : Prop where
  nodup : (keys.map (normalizeFingerprintText rules)).Nodup
  proto : "__proto__" ∉ keys.map (normalizeFingerprintText rules)

variable {rules : TextRules}

/-- The members of an object under different normal forms, in some order. -/
theorem perm_canonicalMembers {α : Type} {members : List (String × α)}
    (hkeys : KeysApart rules (members.map (·.1))) :
    (canonicalMembers rules members).Perm
      (members.map fun member => (normalizeFingerprintText rules member.1, member.2)) := by
  obtain ⟨hnodup, hproto⟩ := hkeys
  rw [map_map] at hnodup hproto
  have hperm : ((sortBy compareKeys members).map fun member =>
      (normalizeFingerprintText rules member.1, member.2)).Perm
      (members.map fun member => (normalizeFingerprintText rules member.1, member.2)) :=
    (perm_sortBy compareKeys members).map _
  have hfilter : ((sortBy compareKeys members).map fun member =>
      (normalizeFingerprintText rules member.1, member.2)).filter
        (fun member => member.1 ≠ "__proto__") =
      (sortBy compareKeys members).map fun member =>
        (normalizeFingerprintText rules member.1, member.2) := by
    refine filter_eq_self.mpr fun member hmember => ?_
    obtain ⟨old, hold, rfl⟩ := mem_map.mp (hperm.mem_iff.mp hmember)
    refine decide_eq_true fun heq => hproto ?_
    rw [← heq]
    exact mem_map_of_mem hold
  have hdistinct : (((sortBy compareKeys members).map fun member =>
      (normalizeFingerprintText rules member.1, member.2)).map (·.1)).Nodup := by
    rw [(hperm.map Prod.fst).nodup_iff, map_map]
    exact hnodup
  rw [canonicalMembers, hfilter, InsertionMap.ofEntries_of_nodup hdistinct]
  exact (perm_propertyOrder _).trans hperm

theorem memberTexts_fields (hempty : ∀ key, normalizeValueText rules key "" = "")
    (fields : List (String × String)) :
    memberTexts rules (fields.map fun field => (field.1, .string field.2)) =
      mapValues quote (presentFields rules fields) := by
  have htext : ∀ field : String × String,
      canonicalText rules (.string field.2) (some field.1) =
        if normalField rules field = "" then none else some (quote (normalField rules field)) := by
    intro field
    have hiff : field.2 = "" ∨ normalField rules field = "" ↔ normalField rules field = "" := by
      refine ⟨fun h => ?_, Or.inr⟩
      rcases h with h | h
      · rw [normalField, h, hempty]
      · exact h
    rw [canonicalText, canonicalizeValue]
    change Option.map _ (if field.2 = "" ∨ normalField rules field = "" then none
      else some (Value.string (normalField rules field))) = _
    rw [if_congr hiff rfl rfl]
    split <;> rfl
  rw [memberTexts, filterMap_map, mapValues, presentFields, map_map,
    ← filterMap_eq_map, filterMap_filter]
  refine congrArg (fun f => fields.filterMap f) (funext fun field => ?_)
  simp only [Function.comp_apply, htext field]
  by_cases h : normalField rules field = "" <;> simp [h]

/-- The canonical text of an object of texts. -/
theorem canonicalText_fields (hempty : ∀ key, normalizeValueText rules key "" = "")
    (fields : List (String × String)) :
    canonicalText rules (fieldsValue fields) none =
      match canonicalMembers rules (presentFields rules fields) with
      | [] => none
      | field :: rest => some (objectText (mapValues quote (field :: rest))) := by
  rw [fieldsValue, canonicalText_object, memberTexts_fields hempty, objectOf,
    ← map_canonicalMembers]
  cases canonicalMembers rules (presentFields rules fields) <;> rfl

theorem objectText_ne_null (texts : List (String × List Char)) :
    objectText texts ≠ "null".toList := by
  intro h
  have hhead : some (Char.ofNat 0x7B) = some 'n' := congrArg List.head? h
  exact absurd hhead (by decide)

variable {fields fields' : List (String × String)}

/-- The members of the canonical form are known from its text. -/
theorem canonicalMembers_of_canonicalJson (hempty : ∀ key, normalizeValueText rules key "" = "")
    (h : canonicalJson rules (fieldsValue fields) = canonicalJson rules (fieldsValue fields')) :
    canonicalMembers rules (presentFields rules fields) =
      canonicalMembers rules (presentFields rules fields') := by
  rw [canonicalJson_eq, canonicalJson_eq, canonicalText_fields hempty,
    canonicalText_fields hempty] at h
  have htext := String.ofList_inj.mp h
  cases hmembers : canonicalMembers rules (presentFields rules fields) with
  | nil =>
    cases hmembers' : canonicalMembers rules (presentFields rules fields') with
    | nil => rfl
    | cons field' rest' =>
      rw [hmembers, hmembers'] at htext
      exact absurd htext.symm (objectText_ne_null _)
  | cons field rest =>
    cases hmembers' : canonicalMembers rules (presentFields rules fields') with
    | nil =>
      rw [hmembers, hmembers'] at htext
      exact absurd htext (objectText_ne_null _)
    | cons field' rest' =>
      rw [hmembers, hmembers'] at htext
      exact objectText_injective htext

/-- A field is present under its normal key when its normal form is not empty. -/
theorem mem_canonicalMembers_fields {field : String × String}
    (hkeys : KeysApart rules (fields.map (·.1))) (hfield : field ∈ fields) (text : String) :
    (normalizeFingerprintText rules field.1, text) ∈
        canonicalMembers rules (presentFields rules fields) ↔
      text = normalField rules field ∧ text ≠ "" := by
  have hpresent : (presentFields rules fields).map (·.1) =
      (fields.filter fun field => normalField rules field ≠ "").map (·.1) := by
    rw [presentFields, map_map]
    rfl
  have hsub : ((presentFields rules fields).map (·.1)).Sublist (fields.map (·.1)) := by
    rw [hpresent]
    exact filter_sublist.map _
  have hapart : KeysApart rules ((presentFields rules fields).map (·.1)) :=
    ⟨hkeys.nodup.sublist (hsub.map _), fun hmem => hkeys.proto ((hsub.map _).subset hmem)⟩
  have hnodup := hkeys.nodup
  rw [map_map] at hnodup
  rw [(perm_canonicalMembers hapart).mem_iff, presentFields, map_map]
  constructor
  · intro hmem
    obtain ⟨other, hother, heq⟩ := mem_map.mp hmem
    obtain ⟨hother, hne⟩ := mem_filter.mp hother
    obtain ⟨hkey, rfl⟩ := Prod.mk.inj heq
    obtain rfl := inj_on_of_nodup_map hnodup hother hfield hkey
    exact ⟨rfl, of_decide_eq_true hne⟩
  · rintro ⟨rfl, hne⟩
    exact mem_map_of_mem (mem_filter.mpr ⟨hfield, decide_eq_true hne⟩)

/-- **The canonical text of an object of texts binds the normal forms of the texts.** -/
theorem canonicalJson_fields (hempty : ∀ key, normalizeValueText rules key "" = "")
    (hkeys : fields.map (·.1) = fields'.map (·.1)) (hapart : KeysApart rules (fields.map (·.1))) :
    canonicalJson rules (fieldsValue fields) = canonicalJson rules (fieldsValue fields') ↔
      fields.map (normalField rules) = fields'.map (normalField rules) := by
  have hlength : fields.length = fields'.length := by
    simpa using congrArg List.length hkeys
  have hkey : ∀ i (h : i < fields.length), fields[i].1 = (fields'.get ⟨i, hlength ▸ h⟩).1 := by
    intro i h
    have hget := getElem_of_eq hkeys (by simpa using h)
    simpa using hget
  constructor
  · intro heq
    have hmembers := canonicalMembers_of_canonicalJson hempty heq
    refine ext_getElem (by simpa using hlength) fun i hi hi' => ?_
    rw [length_map] at hi hi'
    rw [getElem_map, getElem_map]
    have hmem := mem_canonicalMembers_fields hapart (getElem_mem hi)
    have hmem' := mem_canonicalMembers_fields (hkeys ▸ hapart) (getElem_mem hi')
    rw [hmembers, hkey i hi] at hmem
    have hiff : ∀ text, text = normalField rules fields[i] ∧ text ≠ "" ↔
        text = normalField rules fields'[i] ∧ text ≠ "" := fun text =>
      (hmem text).symm.trans (hmem' text)
    by_cases htext : normalField rules fields[i] = ""
    · by_cases htext' : normalField rules fields'[i] = ""
      · rw [htext, htext']
      · exact absurd htext (by rw [← ((hiff _).mpr ⟨rfl, htext'⟩).1]; exact htext')
    · exact ((hiff _).mp ⟨rfl, htext⟩).1
  · intro heq
    have hpresent : presentFields rules fields = presentFields rules fields' := by
      have hzip : (fields.map fun field => (field.1, normalField rules field)) =
          fields'.map fun field => (field.1, normalField rules field) := by
        rw [← zip_map', ← zip_map', hkeys, heq]
      have hfilter : ∀ fields : List (String × String), presentFields rules fields =
          (fields.map fun field => (field.1, normalField rules field)).filter
            fun field => field.2 ≠ "" := by
        intro fields
        rw [presentFields, filter_map]
        rfl
      rw [hfilter, hfilter, hzip]
    rw [canonicalJson_eq, canonicalJson_eq, canonicalText_fields hempty,
      canonicalText_fields hempty, hpresent]

/-! ## The texts that are signed -/

/-- The operations of the runtime that signatures use. -/
structure SignatureRules extends TextRules where
  /-- `String.prototype.toUpperCase` -/
  toUpperCase : String → String
  /-- `crypto.subtle.digest` with SHA-256 -/
  digest : ByteArray → List UInt8

/-- `bytesToHex` -/
def bytesToHex (bytes : List UInt8) : String :=
  String.ofList (bytes.flatMap fun byte => [hexDigit (byte.toNat / 16), hexDigit (byte.toNat % 16)])

/-- `sha256Hex` -/
def sha256Hex (rules : SignatureRules) (value : String) : String :=
  bytesToHex (rules.digest value.toUTF8)

/-- `CONTRIBUTION_PROTOCOL` -/
def CONTRIBUTION_PROTOCOL : String := "hli-contribution-v1"

/-- `InstallationChallenge` -/
structure InstallationChallenge where
  challengeKey : String
  nonce : String
  publicKeyId : String
  publicKey : String
  expiresAt : String
  clientInstanceId : Option String

/-- `SignedRequestInput` -/
structure SignedRequestInput where
  method : String
  path : String
  timestamp : String
  nonce : String
  body : Value

/-- The fields that an activation signs. -/
def activationFields (challenge : InstallationChallenge) : List (String × String) :=
  [("protocol", CONTRIBUTION_PROTOCOL), ("purpose", "installation-activation"),
    ("challengeKey", challenge.challengeKey), ("nonce", challenge.nonce),
    ("publicKeyId", challenge.publicKeyId), ("publicKey", challenge.publicKey),
    ("expiresAt", challenge.expiresAt)]

/-- `activationSignaturePayload` -/
def activationSignaturePayload (rules : SignatureRules) (challenge : InstallationChallenge) :
    String :=
  canonicalJson rules.toTextRules (fieldsValue (activationFields challenge ++
    if challenge.clientInstanceId.getD "" ≠ "" then
      [("clientInstanceId", challenge.clientInstanceId.getD "")]
    else []))

/-- The fields that a request signs. -/
def requestFields (rules : SignatureRules) (input : SignedRequestInput) :
    List (String × String) :=
  [("protocol", CONTRIBUTION_PROTOCOL), ("purpose", "authenticated-request"),
    ("method", rules.toUpperCase input.method), ("path", input.path),
    ("timestamp", input.timestamp), ("nonce", input.nonce),
    ("bodyHash", sha256Hex rules (canonicalJson rules.toTextRules input.body))]

/-- `signedRequestPayload` -/
def signedRequestPayload (rules : SignatureRules) (input : SignedRequestInput) : String :=
  canonicalJson rules.toTextRules (fieldsValue (requestFields rules input))

/-! ## What they bind -/

theorem isHex_bytesToHex (bytes : List UInt8) : IsHex (bytesToHex bytes).toList := by
  rw [bytesToHex, String.toList_ofList]
  intro c hc
  obtain ⟨byte, -, hc⟩ := mem_flatMap.mp hc
  have hlt := byte.toNat_lt
  rcases mem_cons.mp hc with rfl | hc
  · exact ⟨byte.toNat / 16, by omega, rfl⟩
  · exact ⟨byte.toNat % 16, by omega, mem_singleton.mp hc⟩

/-- Keys that are ASCII texts are apart when their normal forms are. -/
theorem keysApart_ascii (h : ActsOnAscii rules) {keys : List String}
    (hkeys : ∀ key ∈ keys, isAscii key ∧ isAscii (normalizeText asciiRules key))
    (hapart : (keys.map (normalizeFingerprintText asciiRules)).Nodup ∧
      "__proto__" ∉ keys.map (normalizeFingerprintText asciiRules)) : KeysApart rules keys := by
  have hmap : keys.map (normalizeFingerprintText rules) =
      keys.map (normalizeFingerprintText asciiRules) :=
    map_congr_left fun key hkey =>
      normalizeFingerprintText_ascii h (hkeys key hkey).1 (hkeys key hkey).2
  constructor
  · rw [hmap]
    exact hapart.1
  · rw [hmap]
    exact hapart.2

/-- Under keys of other fields than manufacturers the texts bind the normal forms of units. -/
theorem canonicalJson_units (hrules : ActsOnAscii rules) {keys : List String}
    (hapart : KeysApart rules keys) (hkeys : ∀ key ∈ keys, isManufacturerKey (some key) = false)
    (hfields : fields.map (·.1) = keys) (hfields' : fields'.map (·.1) = keys) :
    canonicalJson rules (fieldsValue fields) = canonicalJson rules (fieldsValue fields') ↔
      (fields.map fun field => normalizeUnitText rules field.2) =
        fields'.map fun field => normalizeUnitText rules field.2 := by
  have hunits : ∀ fields : List (String × String), fields.map (·.1) = keys →
      fields.map (normalField rules) = fields.map fun field => normalizeUnitText rules field.2 := by
    rintro fields rfl
    refine map_congr_left fun field hfield => ?_
    rw [normalField, normalizeValueText, hkeys field.1 (mem_map_of_mem hfield)]
    rfl
  rw [canonicalJson_fields (normalizeValueText_empty hrules) (hfields.trans hfields'.symm)
    (hfields ▸ hapart), hunits fields hfields, hunits fields' hfields']

/-- The keys of the fields that an activation signs. -/
def activationKeys : List String :=
  ["protocol", "purpose", "challengeKey", "nonce", "publicKeyId", "publicKey", "expiresAt",
    "clientInstanceId"]

/-- The keys of the fields that a request signs. -/
def requestKeys : List String :=
  ["protocol", "purpose", "method", "path", "timestamp", "nonce", "bodyHash"]

theorem keysApart_activationKeys (h : ActsOnAscii rules) : KeysApart rules activationKeys :=
  keysApart_ascii h (by decide) (by decide)

theorem keysApart_requestKeys (h : ActsOnAscii rules) : KeysApart rules requestKeys :=
  keysApart_ascii h (by decide) (by decide)

/-- The fields of an activation with the client instance, which is left out when empty. -/
def allActivationFields (challenge : InstallationChallenge) : List (String × String) :=
  activationFields challenge ++ [("clientInstanceId", challenge.clientInstanceId.getD "")]

variable {rules : SignatureRules}

theorem activationSignaturePayload_eq
    (hempty : ∀ key, normalizeValueText rules.toTextRules key "" = "")
    (challenge : InstallationChallenge) :
    activationSignaturePayload rules challenge =
      canonicalJson rules.toTextRules (fieldsValue (allActivationFields challenge)) := by
  rw [activationSignaturePayload, allActivationFields]
  by_cases h : challenge.clientInstanceId.getD "" = ""
  · have hpresent : ∀ fields : List (String × String), presentFields rules.toTextRules
        (fields ++ [("clientInstanceId", "")]) = presentFields rules.toTextRules fields := by
      intro fields
      have hnormal : normalField rules.toTextRules ("clientInstanceId", "") = "" := hempty _
      rw [presentFields, filter_append, filter_cons_of_neg (by simp [hnormal])]
      simp [presentFields]
    rw [if_neg (not_not.mpr h), h, append_nil, canonicalJson_eq, canonicalJson_eq,
      canonicalText_fields hempty, canonicalText_fields hempty, hpresent]
  · rw [if_pos h]

/-- A request binds the normal forms of its fields. -/
theorem signedRequestPayload_eq_iff (hrules : ActsOnAscii rules.toTextRules)
    (a b : SignedRequestInput) :
    signedRequestPayload rules a = signedRequestPayload rules b ↔
      ((requestFields rules a).map fun field => normalizeUnitText rules.toTextRules field.2) =
        (requestFields rules b).map fun field => normalizeUnitText rules.toTextRules field.2 :=
  have hkeys : ∀ key ∈ requestKeys, isManufacturerKey (some key) = false := by decide
  canonicalJson_units hrules (keysApart_requestKeys hrules) hkeys rfl rfl

/-- **A signature binds the normal forms of what it is made for**: of the fields of a request
with the canonical text of its body, and of the fields of a challenge. -/
theorem signaturePayload_binds {rules : SignatureRules} (hrules : ActsOnAscii rules.toTextRules) :
    (Function.Injective (sha256Hex rules) → ∀ a b : SignedRequestInput,
      signedRequestPayload rules a = signedRequestPayload rules b ↔
        normalizeUnitText rules.toTextRules (rules.toUpperCase a.method) =
            normalizeUnitText rules.toTextRules (rules.toUpperCase b.method) ∧
          normalizeUnitText rules.toTextRules a.path = normalizeUnitText rules.toTextRules b.path ∧
          normalizeUnitText rules.toTextRules a.timestamp =
            normalizeUnitText rules.toTextRules b.timestamp ∧
          normalizeUnitText rules.toTextRules a.nonce =
            normalizeUnitText rules.toTextRules b.nonce ∧
          canonicalJson rules.toTextRules a.body = canonicalJson rules.toTextRules b.body) ∧
    ∀ a b : InstallationChallenge,
      activationSignaturePayload rules a = activationSignaturePayload rules b ↔
        normalizeUnitText rules.toTextRules a.challengeKey =
            normalizeUnitText rules.toTextRules b.challengeKey ∧
          normalizeUnitText rules.toTextRules a.nonce =
            normalizeUnitText rules.toTextRules b.nonce ∧
          normalizeUnitText rules.toTextRules a.publicKeyId =
            normalizeUnitText rules.toTextRules b.publicKeyId ∧
          normalizeUnitText rules.toTextRules a.publicKey =
            normalizeUnitText rules.toTextRules b.publicKey ∧
          normalizeUnitText rules.toTextRules a.expiresAt =
            normalizeUnitText rules.toTextRules b.expiresAt ∧
          normalizeUnitText rules.toTextRules (a.clientInstanceId.getD "") =
            normalizeUnitText rules.toTextRules (b.clientInstanceId.getD "") := by
  refine ⟨fun hhash a b => ?_, fun a b => ?_⟩
  · have hbody : normalizeUnitText rules.toTextRules
          (sha256Hex rules (canonicalJson rules.toTextRules a.body)) =
        normalizeUnitText rules.toTextRules
          (sha256Hex rules (canonicalJson rules.toTextRules b.body)) ↔
        canonicalJson rules.toTextRules a.body = canonicalJson rules.toTextRules b.body := by
      have hnormal : ∀ text, normalizeUnitText rules.toTextRules (sha256Hex rules text) =
          sha256Hex rules text := fun text => normalizeUnitText_of_isHex hrules (isHex_bytesToHex _)
      rw [hnormal, hnormal]
      exact hhash.eq_iff
    rw [signedRequestPayload_eq_iff hrules]
    simp only [requestFields, map_cons, map_nil, List.cons.injEq, hbody, true_and,
      and_true]
  · have hempty := normalizeValueText_empty hrules
    have hkeys : ∀ key ∈ activationKeys, isManufacturerKey (some key) = false := by decide +kernel
    rw [activationSignaturePayload_eq hempty, activationSignaturePayload_eq hempty,
      canonicalJson_units hrules (keysApart_activationKeys hrules) hkeys rfl rfl]
    simp only [allActivationFields, activationFields, cons_append, nil_append,
      map_cons, map_nil, List.cons.injEq, true_and, and_true]

/-! ## Two requests with one signature -/

/-- The bytes of a digest are known from its text. -/
theorem bytesToHex_injective : Function.Injective bytesToHex := by
  have hcode : PrefixCode fun byte : UInt8 =>
      [hexDigit (byte.toNat / 16), hexDigit (byte.toNat % 16)] := by
    refine ⟨fun byte => cons_ne_nil _ _, fun {byte byte' rest rest'} heq => ?_⟩
    have hlt := byte.toNat_lt
    have hlt' := byte'.toNat_lt
    simp only [cons_append, nil_append, List.cons.injEq] at heq
    obtain ⟨hhigh, hlow, hrest⟩ := heq
    have hhigh' := congrArg hexValue hhigh
    have hlow' := congrArg hexValue hlow
    rw [hexValue_hexDigit _ (by omega), hexValue_hexDigit _ (by omega)] at hhigh' hlow'
    exact ⟨UInt8.toNat_inj.mp (by omega), hrest⟩
  exact fun bytes bytes' h => hcode.flatMap_injective (String.ofList_inj.mp h)

/-- The rules on ASCII texts, with a hash that is the one of the text `null` there. -/
def asciiSignatureRules : SignatureRules where
  toTextRules := asciiRules
  toUpperCase text := String.ofList (text.toList.map Char.toUpper)
  digest bytes :=
    if bytes.data.toList = [0x6E, 0x75, 0x6C, 0x6C] then
      [0x74, 0x23, 0x4E, 0x98, 0xAF, 0xE7, 0x49, 0x8F, 0xB5, 0xDA, 0xF1, 0xF3, 0x6A, 0xC2, 0xD7,
        0x8A, 0xCC, 0x33, 0x94, 0x64, 0xF9, 0x50, 0x70, 0x3B, 0x8C, 0x01, 0x98, 0x92, 0xF9, 0x82,
        0xB9, 0x0B]
    else 0 :: bytes.data.toList

theorem actsOnAscii_asciiRules : ActsOnAscii asciiRules := ⟨fun _ _ => rfl, fun _ _ => rfl⟩

theorem sha256Hex_injective : Function.Injective (sha256Hex asciiSignatureRules) := by
  intro text text' h
  have hdigest := bytesToHex_injective h
  have hbytes : text.toUTF8.data.toList = text'.toUTF8.data.toList := by
    simp only [asciiSignatureRules] at hdigest
    split at hdigest
    · next hnull =>
      split at hdigest
      · next hnull' => rw [hnull, hnull']
      · exact absurd (List.cons.inj hdigest).1 (by decide)
    · split at hdigest
      · exact absurd (List.cons.inj hdigest).1 (by decide)
      · exact (List.cons.inj hdigest).2
  exact String.toByteArray_inj.mp (ByteArray.ext (Array.toList_inj.mp hbytes))

/-- A request without a body. -/
def requestTo (path : String) : SignedRequestInput where
  method := "POST"
  path := path
  timestamp := "1767225600"
  nonce := "5f1c"
  body := .null

theorem signaturePayload_binds_path :
    signedRequestPayload asciiSignatureRules (requestTo "/v1/a") ≠
      signedRequestPayload asciiSignatureRules (requestTo "/v1/b") := by
  intro h
  have hpath := (((@signaturePayload_binds asciiSignatureRules
    actsOnAscii_asciiRules).1 sha256Hex_injective _ _).mp h).2.1
  exact absurd hpath (by decide +kernel)

/-- Paths that differ by the case of a letter have one signature. -/
theorem signedRequestPayload_case :
    Function.Injective (sha256Hex asciiSignatureRules) ∧
      signedRequestPayload asciiSignatureRules (requestTo "/v1/A") =
        signedRequestPayload asciiSignatureRules (requestTo "/v1/a") ∧
      (requestTo "/v1/A").path ≠ (requestTo "/v1/a").path := by
  refine ⟨sha256Hex_injective, ?_, by decide +kernel⟩
  have hpath : normalizeUnitText asciiRules "/v1/A" = normalizeUnitText asciiRules "/v1/a" := by
    decide +kernel
  refine (signedRequestPayload_eq_iff actsOnAscii_asciiRules _ _).mpr ?_
  simp only [requestFields, requestTo, map_cons]
  exact congrArg _ (congrArg _ (congrArg _ (congrArg₂ List.cons hpath rfl)))

end HomelabInventory.CatalogProtocol
