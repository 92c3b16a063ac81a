import HomelabInventory.Transducers
import Mathlib.Data.UInt
import Mathlib.Tactic.Basic

/-!
# Decoding UTF-8 as it arrives

The decoder of the runtime: it reads bytes, keeps what it has of an unfinished
character, writes a replacement character where the bytes are no character, and drops
a byte order mark at the start. A line end is one byte, so it shows in the bytes.
-/

namespace HomelabInventory.Utf8

open List

/-- Where the decoder is: between characters, or inside one with so many bytes owed and
bounds on the next byte. -/
inductive State where
  | between
  | inside (codePoint owed lower upper : ℕ)
deriving DecidableEq

/-- The replacement character. -/
def replacement : Char := Char.ofNat 0xFFFD

/-- A byte between characters. -/
def stepBetween (byte : ℕ) : List Char × State :=
  if byte ≤ 0x7F then ([Char.ofNat byte], .between)
  else if 0xC2 ≤ byte ∧ byte ≤ 0xDF then ([], .inside (byte - 0xC0) 1 0x80 0xBF)
  else if 0xE0 ≤ byte ∧ byte ≤ 0xEF then
    ([], .inside (byte - 0xE0) 2 (if byte = 0xE0 then 0xA0 else 0x80)
      (if byte = 0xED then 0x9F else 0xBF))
  else if 0xF0 ≤ byte ∧ byte ≤ 0xF4 then
    ([], .inside (byte - 0xF0) 3 (if byte = 0xF0 then 0x90 else 0x80)
      (if byte = 0xF4 then 0x8F else 0xBF))
  else ([replacement], .between)

/-- One byte. A byte that cannot go on an unfinished character ends it and is read again. -/
def step : State → UInt8 → List Char × State
  | .between, byte => stepBetween byte.toNat
  | .inside codePoint owed lower upper, byte =>
    if lower ≤ byte.toNat ∧ byte.toNat ≤ upper then
      if owed ≤ 1 then ([Char.ofNat (codePoint * 64 + (byte.toNat - 0x80))], .between)
      else ([], .inside (codePoint * 64 + (byte.toNat - 0x80)) (owed - 1) 0x80 0xBF)
    else (replacement :: (stepBetween byte.toNat).1, (stepBetween byte.toNat).2)

/-- An unfinished character at the end is replaced. -/
def finish : State → List Char
  | .between => []
  | .inside .. => [replacement]

/-- The decoder of bytes into characters. -/
def characters : Transducer UInt8 Char State := ⟨.between, step, finish⟩

/-- The byte order mark. -/
def byteOrderMark : Char := Char.ofNat 0xFEFF

/-- Drops a byte order mark when it is the first character. The state says whether there
was a character already. -/
def markless : Transducer Char Char Bool where
  start := false
  step seen c := (if !seen && c == byteOrderMark then [] else [c], true)
  finish _ := []

/-- `new TextDecoder()`, with `decode(bytes, { stream: true })` as `run`. -/
def decoder : Transducer UInt8 Char (State × Bool) := characters.andThen markless

/-! ## Characters of one byte -/

/-- A character that UTF-8 writes as one byte. -/
def IsAscii (c : Char) : Prop := 0 < c.toNat ∧ c.toNat < 0x80

/-- The byte of a character of one byte. -/
def asciiByte (c : Char) : UInt8 := UInt8.ofNat c.toNat

/-- What is known of an unfinished character can only become a character of several bytes. -/
def State.Valid : State → Prop
  | .between => True
  | .inside codePoint owed lower _ =>
    0x80 ≤ lower ∧ 0x80 ≤ (codePoint * 64 + (lower - 0x80)) * 64 ^ (owed - 1)

theorem toNat_ofNat {n : ℕ} (h : n.isValidChar) : (Char.ofNat n).toNat = n := by
  rw [Char.ofNat, dif_pos h]
  rfl

theorem toNat_ofNat_of_lt {n : ℕ} (h : n < 0x80) : (Char.ofNat n).toNat = n :=
  toNat_ofNat (Or.inl (by omega))

variable {c : Char}

/-- A high code point is not a character of one byte. -/
theorem ofNat_ne_of_isAscii (hc : IsAscii c) {n : ℕ} (hn : 0x80 ≤ n) : Char.ofNat n ≠ c := by
  rintro rfl
  obtain ⟨hpos, hlt⟩ := hc
  by_cases hvalid : n.isValidChar
  · have htoNat := toNat_ofNat hvalid
    omega
  · have hzero : (Char.ofNat n).toNat = 0 := by
      simp [Char.ofNat, hvalid, Char.toNat]
    omega

theorem replacement_ne (hc : IsAscii c) : replacement ≠ c := ofNat_ne_of_isAscii hc (by decide)

/-- A byte between characters is a character, begins one of several bytes, or is replaced. -/
theorem stepBetween_cases (byte : ℕ) :
    (byte ≤ 0x7F ∧ stepBetween byte = ([Char.ofNat byte], .between)) ∨
    (∃ codePoint owed lower upper, (State.inside codePoint owed lower upper).Valid ∧
      stepBetween byte = ([], .inside codePoint owed lower upper)) ∨
    stepBetween byte = ([replacement], .between) := by
  unfold stepBetween
  by_cases h1 : byte ≤ 0x7F
  · exact Or.inl ⟨h1, if_pos h1⟩
  · rw [if_neg h1]
    by_cases h2 : 0xC2 ≤ byte ∧ byte ≤ 0xDF
    · rw [if_pos h2]
      exact Or.inr (Or.inl ⟨_, _, _, _, ⟨le_rfl, by simp only [Nat.sub_self]; omega⟩, rfl⟩)
    · rw [if_neg h2]
      by_cases h3 : 0xE0 ≤ byte ∧ byte ≤ 0xEF
      · rw [if_pos h3]
        refine Or.inr (Or.inl ⟨_, _, _, _, ⟨?_, ?_⟩, rfl⟩)
        · split <;> omega
        · split <;> omega
      · rw [if_neg h3]
        by_cases h4 : 0xF0 ≤ byte ∧ byte ≤ 0xF4
        · rw [if_pos h4]
          refine Or.inr (Or.inl ⟨_, _, _, _, ⟨?_, ?_⟩, rfl⟩)
          · split <;> omega
          · split <;> omega
        · exact Or.inr (Or.inr (if_neg h4))

/-- A byte inside a character ends it, goes on with it, or ends it as replaced and is read
again. -/
theorem step_inside_cases {codePoint owed lower upper : ℕ}
    (hs : (State.inside codePoint owed lower upper).Valid) (byte : UInt8) :
    (∃ n, 0x80 ≤ n ∧
      step (.inside codePoint owed lower upper) byte = ([Char.ofNat n], .between)) ∨
    (∃ codePoint' owed' lower' upper', (State.inside codePoint' owed' lower' upper').Valid ∧
      step (.inside codePoint owed lower upper) byte =
        ([], .inside codePoint' owed' lower' upper')) ∨
    step (.inside codePoint owed lower upper) byte =
      (replacement :: (stepBetween byte.toNat).1, (stepBetween byte.toNat).2) := by
  obtain ⟨hlower, hbound⟩ := hs
  by_cases hin : lower ≤ byte.toNat ∧ byte.toNat ≤ upper
  · have hle : codePoint * 64 + (lower - 0x80) ≤ codePoint * 64 + (byte.toNat - 0x80) := by
      omega
    by_cases howed : owed ≤ 1
    · refine Or.inl ⟨codePoint * 64 + (byte.toNat - 0x80), ?_, ?_⟩
      · rw [show owed - 1 = 0 by omega, pow_zero, Nat.mul_one] at hbound
        exact hbound.trans hle
      · rw [step, if_pos hin, if_pos howed]
    · refine Or.inr (Or.inl ⟨codePoint * 64 + (byte.toNat - 0x80), owed - 1, 0x80, 0xBF,
        ⟨le_rfl, hbound.trans ?_⟩, ?_⟩)
      · -- the byte that came is at least the bound that was known for it
        obtain ⟨k, rfl⟩ : ∃ k, owed = k + 2 := ⟨owed - 2, by omega⟩
        calc (codePoint * 64 + (lower - 0x80)) * 64 ^ (k + 2 - 1)
            ≤ (codePoint * 64 + (byte.toNat - 0x80)) * 64 ^ (k + 1) := Nat.mul_le_mul_right _ hle
          _ = ((codePoint * 64 + (byte.toNat - 0x80)) * 64 + (0x80 - 0x80)) *
                64 ^ (k + 2 - 1 - 1) := by
              rw [pow_succ']
              simp [Nat.mul_assoc]
      · rw [step, if_pos hin, if_neg howed]
  · exact Or.inr (Or.inr (by rw [step, if_neg hin]))

theorem valid_stepBetween (byte : ℕ) : (stepBetween byte).2.Valid := by
  rcases stepBetween_cases byte with ⟨-, h⟩ | ⟨_, _, _, _, hvalid, h⟩ | h
  · rw [h]; exact trivial
  · rw [h]; exact hvalid
  · rw [h]; exact trivial

variable {s : State}

theorem valid_step (hs : s.Valid) (byte : UInt8) : (step s byte).2.Valid := by
  cases s with
  | between => exact valid_stepBetween _
  | inside codePoint owed lower upper =>
    rcases step_inside_cases hs byte with ⟨_, -, h⟩ | ⟨_, _, _, _, hvalid, h⟩ | h
    · rw [h]; exact trivial
    · rw [h]; exact hvalid
    · rw [h]; exact valid_stepBetween _

/-- The decoder is in a valid state after any bytes. -/
theorem valid_run (bytes : List UInt8) : (characters.run .between bytes).2.Valid :=
  characters.run_invariant (P := State.Valid) (fun _ byte hs => valid_step hs byte)
    (s := .between) trivial bytes

/-! ## A character of one byte shows in the bytes -/

variable {byte : UInt8}

/-- A byte between characters that writes a character of one byte is its byte. -/
theorem stepBetween_eq (hc : IsAscii c) {text : List Char} (h : (stepBetween byte.toNat).1 = text)
    (hmem : c ∈ text) : text = [c] ∧ byte = asciiByte c := by
  rcases stepBetween_cases byte.toNat with ⟨hle, hstep⟩ | ⟨_, _, _, _, -, hstep⟩ | hstep
  · rw [hstep] at h
    subst h
    obtain rfl := mem_singleton.mp hmem
    exact ⟨rfl, by rw [asciiByte, toNat_ofNat_of_lt (by omega), UInt8.ofNat_toNat]⟩
  · rw [hstep] at h
    subst h
    cases hmem
  · rw [hstep] at h
    subst h
    exact absurd (mem_singleton.mp hmem).symm (replacement_ne hc)

/-- A byte that writes nothing leaves a character unfinished. -/
theorem step_ne_between (hs : s.Valid) (h : (step s byte).1 = []) : (step s byte).2 ≠ .between := by
  cases s with
  | between =>
    change (stepBetween byte.toNat).1 = [] at h
    change (stepBetween byte.toNat).2 ≠ _
    rcases stepBetween_cases byte.toNat with ⟨-, hstep⟩ | ⟨_, _, _, _, -, hstep⟩ | hstep
    · rw [hstep] at h; cases h
    · rw [hstep]; intro heq; cases heq
    · rw [hstep] at h; cases h
  | inside codePoint owed lower upper =>
    rcases step_inside_cases hs byte with ⟨_, -, hstep⟩ | ⟨_, _, _, _, -, hstep⟩ | hstep
    · rw [hstep] at h; cases h
    · rw [hstep]; intro heq; cases heq
    · rw [hstep] at h; cases h

/-- A byte that writes a character of one byte is its byte, and the character comes last. -/
theorem step_mem (hc : IsAscii c) (hs : s.Valid) (h : c ∈ (step s byte).1) :
    byte = asciiByte c ∧ ((step s byte).1.head? = some c → s = .between) := by
  cases s with
  | between => exact ⟨(stepBetween_eq hc rfl h).2, fun _ => rfl⟩
  | inside codePoint owed lower upper =>
    rcases step_inside_cases hs byte with ⟨n, hn, hstep⟩ | ⟨_, _, _, _, -, hstep⟩ | hstep
    · rw [hstep] at h
      exact absurd (mem_singleton.mp h).symm (ofNat_ne_of_isAscii hc hn)
    · rw [hstep] at h
      cases h
    · rw [hstep] at h ⊢
      rcases List.mem_cons.mp h with rfl | hmem
      · exact absurd rfl (replacement_ne hc)
      · refine ⟨(stepBetween_eq hc rfl hmem).2, fun hhead => ?_⟩
        rw [head?_cons, Option.some.injEq] at hhead
        exact absurd hhead (replacement_ne hc)

/-- Text that ends in a character of one byte ends in its byte. -/
theorem characters_getLast (hc : IsAscii c) {bytes : List UInt8}
    (hlast : (characters.run .between bytes).1.getLast? = some c)
    (hstate : (characters.run .between bytes).2 = .between) :
    bytes.getLast? = some (asciiByte c) := by
  rcases eq_nil_or_concat bytes with rfl | ⟨init, byte, rfl⟩
  · simp at hlast
  · rw [concat_eq_append, Transducer.run_append] at hlast hstate
    simp only [Transducer.run_cons, Transducer.run_nil, List.append_nil] at hlast hstate
    have hvalid := valid_run init
    have hne : (characters.step (characters.run .between init).2 byte).1 ≠ [] := fun hnil =>
      step_ne_between hvalid hnil hstate
    rw [getLast?_append_of_ne_nil _ hne] at hlast
    obtain ⟨rfl, -⟩ := step_mem hc hvalid (mem_of_getLast? hlast)
    simp

/-- The first character of the text is of one byte only between characters, at its byte. -/
theorem characters_head (hc : IsAscii c) (hs : s.Valid) {bytes : List UInt8}
    (h : (characters.run s bytes).1.head? = some c) :
    s = .between ∧ bytes.head? = some (asciiByte c) := by
  induction bytes generalizing s with
  | nil => simp at h
  | cons byte rest ih =>
    rw [Transducer.run_cons] at h
    change ((step s byte).1 ++ (characters.run (step s byte).2 rest).1).head? = some c at h
    by_cases hout : (step s byte).1 = []
    · rw [hout, nil_append] at h
      exact absurd (ih (valid_step hs byte) h).1 (step_ne_between hs hout)
    · rw [head?_append_of_ne_nil _ hout] at h
      obtain ⟨rfl, hbetween⟩ := step_mem hc hs (mem_of_head? h)
      exact ⟨hbetween h, rfl⟩

/-! ## The byte order mark -/

theorem markless_run_true (text : List Char) : markless.run true text = (text, true) := by
  induction text with
  | nil => rfl
  | cons c rest ih =>
    have hstep : markless.step true c = ([c], true) := rfl
    rw [Transducer.run_cons, hstep, ih]
    rfl

/-- What is left of a text is an end of it, and all of it once there was a character. -/
theorem markless_getLast {text : List Char} (h : (markless.run false text).1.getLast? = some c) :
    text.getLast? = some c ∧ (markless.run false text).2 = true := by
  cases text with
  | nil => simp at h
  | cons d rest =>
    rw [Transducer.run_cons] at h ⊢
    have hseen : (markless.step false d).2 = true := rfl
    rw [hseen, markless_run_true] at h ⊢
    refine ⟨?_, rfl⟩
    by_cases hmark : d = byteOrderMark
    · have hstep : (markless.step false d).1 = [] := by simp [markless, hmark]
      rw [hstep, nil_append] at h
      cases rest with
      | nil => simp at h
      | cons e more => rwa [getLast?_cons_cons]
    · have hstep : (markless.step false d).1 = [d] := by simp [markless, hmark]
      rwa [hstep] at h

/-! ## Characters of one byte on both sides of a cut -/

/-- **A cut between two characters of one byte is a cut between their bytes.** -/
theorem decoder_cut {c d : Char} (hc : IsAscii c) (hd : IsAscii d) {before after : List UInt8}
    (hlast : (decoder.run decoder.start before).1.getLast? = some c)
    (hhead : (decoder.run (decoder.run decoder.start before).2 after).1.head? = some d) :
    before.getLast? = some (asciiByte c) ∧ after.head? = some (asciiByte d) := by
  have hrun : decoder.run decoder.start before =
      ((markless.run false (characters.run .between before).1).1,
        ((characters.run .between before).2,
          (markless.run false (characters.run .between before).1).2)) :=
    characters.run_andThen markless (.between, false) before
  rw [hrun] at hlast hhead
  obtain ⟨hend, hseen⟩ := markless_getLast hlast
  rw [hseen] at hhead
  have hrest : (decoder.run ((characters.run .between before).2, true) after).1 =
      (characters.run (characters.run .between before).2 after).1 := by
    rw [decoder, Transducer.run_andThen, markless_run_true]
  rw [hrest] at hhead
  obtain ⟨hstate, hbyte⟩ := characters_head hd (valid_run before) hhead
  exact ⟨characters_getLast hc hend hstate, hbyte⟩

end HomelabInventory.Utf8
