import HomelabInventory.CanonicalForms

/-!
# Reading texts in JSON back

What JSON writes for a text, for a member with a text and for an object of such members is
known from the characters that are written.
-/

namespace HomelabInventory.CatalogProtocol

/-! ## Characters -/

/-- The value of a hexadecimal digit. -/
def hexValue (c : Char) : ℕ :=
  if c.toNat < 'a'.toNat then c.toNat - '0'.toNat else c.toNat - 'a'.toNat + 10

theorem hexValue_hexDigit : ∀ n < 16, hexValue (hexDigit n) = n := by decide

/-- The character after a backslash. -/
def readEscape : List Char → Option (Char × List Char)
  | 'b' :: rest => some (Char.ofNat 0x08, rest)
  | 't' :: rest => some (Char.ofNat 0x09, rest)
  | 'n' :: rest => some (Char.ofNat 0x0A, rest)
  | 'f' :: rest => some (Char.ofNat 0x0C, rest)
  | 'r' :: rest => some (Char.ofNat 0x0D, rest)
  | 'u' :: _ :: _ :: high :: low :: rest =>
    some (Char.ofNat (hexValue high * 16 + hexValue low), rest)
  | c :: rest => some (c, rest)
  | [] => none

/-- The first character inside a text of JSON. -/
def readCharacter : List Char → Option (Char × List Char)
  | [] => none
  | c :: rest => if c = Char.ofNat 0x5C then readEscape rest else some (c, rest)

theorem eq_ofNat {c : Char} {n : ℕ} (h : c.toNat = n) : c = Char.ofNat n := by
  rw [← h, Char.ofNat_toNat]

/-- A character that is written is read back. -/
theorem readCharacter_escapeCharacter (c : Char) (rest : List Char) :
    readCharacter (escapeCharacter c ++ rest) = some (c, rest) := by
  unfold escapeCharacter
  dsimp only
  split
  · next h => rw [eq_ofNat h]; rfl
  split
  · next h => rw [eq_ofNat h]; rfl
  split
  · next h => rw [eq_ofNat h]; rfl
  split
  · next h => rw [eq_ofNat h]; rfl
  split
  · next h => rw [eq_ofNat h]; rfl
  split
  · next h => rw [eq_ofNat h]; rfl
  split
  · next h => rw [eq_ofNat h]; rfl
  split
  · next h =>
    have hhigh := hexValue_hexDigit (c.toNat / 16) (by omega)
    have hlow := hexValue_hexDigit (c.toNat % 16) (by omega)
    have hvalue : c.toNat / 16 * 16 + c.toNat % 16 = c.toNat := by omega
    change some (Char.ofNat (hexValue (hexDigit (c.toNat / 16)) * 16 +
      hexValue (hexDigit (c.toNat % 16))), rest) = _
    rw [hhigh, hlow, hvalue, Char.ofNat_toNat]
  · next hbackslash _ _ _ _ _ _ =>
    have hne : c ≠ Char.ofNat 0x5C := by
      rintro rfl
      exact hbackslash rfl
    change (if c = Char.ofNat 0x5C then _ else some (c, rest)) = _
    rw [if_neg hne]

theorem escapeCharacter_ne_nil (c : Char) : escapeCharacter c ≠ [] := by
  intro h
  have hread := readCharacter_escapeCharacter c []
  rw [h] at hread
  cases hread

theorem prefixCode_escapeCharacter : PrefixCode escapeCharacter :=
  .of_reader readCharacter escapeCharacter_ne_nil readCharacter_escapeCharacter

/-- A character is written with a backslash first, or as it is. -/
theorem escapeCharacter_cases (c : Char) :
    (∃ rest, escapeCharacter c = Char.ofNat 0x5C :: rest) ∨
      (escapeCharacter c = [c] ∧ c.toNat ≠ 0x22) := by
  unfold escapeCharacter
  dsimp only
  split_ifs with hquote
  on_goal 9 => exact .inr ⟨rfl, hquote⟩
  all_goals exact .inl ⟨_, rfl⟩

/-- No character is written with a quotation mark first. -/
theorem head?_escapeCharacter (c : Char) : (escapeCharacter c).head? ≠ some (Char.ofNat 0x22) := by
  rcases escapeCharacter_cases c with ⟨rest, heq⟩ | ⟨heq, hne⟩
  · rw [heq]
    exact fun h => absurd (Option.some.inj h) (by decide)
  · rw [heq]
    intro h
    exact hne (by rw [Option.some.inj h]; rfl)

/-! ## Texts and members -/

/-- A text that is quoted is read back. -/
theorem quote_append_cancel {text text' : String} {rest rest' : List Char}
    (h : quote text ++ rest = quote text' ++ rest') : text = text' ∧ rest = rest' := by
  simp only [quote, List.cons_append, List.append_assoc, List.nil_append, List.cons.injEq,
    true_and] at h
  obtain ⟨htext, hrest⟩ := prefixCode_escapeCharacter.flatMap_append_cancel head?_escapeCharacter h
  exact ⟨String.toList_inj.mp htext, hrest⟩

theorem prefixCode_quote : PrefixCode quote where
  nonempty _ := List.cons_ne_nil _ _
  cancel h := quote_append_cancel h

/-- A member with a text in JSON. -/
def fieldText (field : String × String) : List Char := memberText field.1 (quote field.2)

theorem prefixCode_fieldText : PrefixCode fieldText where
  nonempty _ := List.cons_ne_nil _ _
  cancel {field field' rest rest'} h := by
    simp only [fieldText, memberText, List.append_assoc, List.cons_append] at h
    obtain ⟨hkey, hvalue⟩ := prefixCode_quote.cancel h
    obtain ⟨htext, hrest⟩ := prefixCode_quote.cancel (List.cons.inj hvalue).2
    exact ⟨Prod.ext hkey htext, hrest⟩

/-- **An object of texts is known from its text.** -/
theorem objectText_injective {field field' : String × String} {rest rest' : List (String × String)}
    (h : objectText (mapValues quote (field :: rest)) =
      objectText (mapValues quote (field' :: rest'))) : field :: rest = field' :: rest' := by
  have htexts : ∀ fields : List (String × String),
      ((mapValues quote fields).map fun member => memberText member.1 member.2) =
        fields.map fieldText := by
    intro fields
    rw [mapValues, List.map_map]
    rfl
  simp only [objectText, htexts, List.cons.injEq, true_and] at h
  exact (prefixCode_fieldText.intercalate_append_cancel (by decide) h).1

end HomelabInventory.CatalogProtocol
