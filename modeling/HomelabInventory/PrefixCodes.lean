import Mathlib.Data.List.Basic

/-!
# Prefix codes

A code that no word of is the beginning of another one can be read back: from a text of
words the words are known, also up to a mark that no word starts with.
-/

namespace HomelabInventory

open List

universe u v

/-- No word of the code is empty, and where a word ends is known. -/
structure PrefixCode {α : Type u} {β : Type v} (code : α → List β) : Prop where
  nonempty : ∀ a, code a ≠ []
  cancel : ∀ {a b rest rest'}, code a ++ rest = code b ++ rest' → a = b ∧ rest = rest'

namespace PrefixCode

variable {α : Type u} {β : Type v} {code : α → List β}

/-- A code with a reader of its words is a prefix code. -/
theorem of_reader (read : List β → Option (α × List β)) (hnonempty : ∀ a, code a ≠ [])
    (hread : ∀ a rest, read (code a ++ rest) = some (a, rest)) : PrefixCode code where
  nonempty := hnonempty
  cancel {a b rest rest'} heq := by
    have hsome := hread a rest
    rw [heq, hread b rest'] at hsome
    cases hsome
    exact ⟨rfl, rfl⟩

variable (h : PrefixCode code)
include h

/-- **A text of words before a mark is read back.** -/
theorem flatMap_append_cancel {mark : β} (hmark : ∀ a, (code a).head? ≠ some mark)
    {words words' : List α} {rest rest' : List β}
    (heq : words.flatMap code ++ mark :: rest = words'.flatMap code ++ mark :: rest') :
    words = words' ∧ rest = rest' := by
  induction words generalizing words' with
  | nil =>
    cases words' with
    | nil => exact ⟨rfl, (List.cons.inj heq).2⟩
    | cons b more =>
      refine absurd ?_ (hmark b)
      have hhead := congrArg List.head? heq
      rw [flatMap_cons, append_assoc, head?_append_of_ne_nil _ (h.nonempty b)]
        at hhead
      exact hhead.symm
  | cons a more ih =>
    cases words' with
    | nil =>
      refine absurd ?_ (hmark a)
      have hhead := congrArg List.head? heq
      rw [flatMap_cons, append_assoc, head?_append_of_ne_nil _ (h.nonempty a)]
        at hhead
      exact hhead
    | cons b more' =>
      rw [flatMap_cons, flatMap_cons, append_assoc, append_assoc] at heq
      obtain ⟨rfl, hmore⟩ := h.cancel heq
      obtain ⟨rfl, hrest⟩ := ih hmore
      exact ⟨rfl, hrest⟩

/-- **A text of words is read back.** -/
theorem flatMap_injective {words words' : List α} (heq : words.flatMap code = words'.flatMap code) :
    words = words' := by
  induction words generalizing words' with
  | nil =>
    cases words' with
    | nil => rfl
    | cons b more =>
      rw [flatMap_cons] at heq
      exact absurd (append_eq_nil_iff.mp heq.symm).1 (h.nonempty b)
  | cons a more ih =>
    cases words' with
    | nil =>
      rw [flatMap_cons] at heq
      exact absurd (append_eq_nil_iff.mp heq).1 (h.nonempty a)
    | cons b more' =>
      rw [flatMap_cons, flatMap_cons] at heq
      obtain ⟨rfl, hrest⟩ := h.cancel heq
      rw [ih hrest]

/-- The code with a separator before each word. -/
theorem separated (separator : β) :
    PrefixCode fun a => separator :: code a where
  nonempty _ := cons_ne_nil _ _
  cancel heq := h.cancel (List.cons.inj heq).2

/-- **A text of words with separators between them is read back**, up to a mark. -/
theorem intercalate_append_cancel {separator mark : β}
    (hmark : separator ≠ mark) {a b : α} {more more' : List α} {rest rest' : List β}
    (heq : [separator].intercalate ((a :: more).map code) ++ mark :: rest =
      [separator].intercalate ((b :: more').map code) ++ mark :: rest') :
    a :: more = b :: more' ∧ rest = rest' := by
  have htext : ∀ (a : α) (more : List α), [separator].intercalate ((a :: more).map code) =
      code a ++ more.flatMap fun a => separator :: code a := by
    intro a more
    induction more generalizing a with
    | nil => simp
    | cons b more ih =>
      rw [List.map_cons, List.map_cons, intercalate_cons_cons, ← List.map_cons, ih,
        flatMap_cons, append_assoc]
      rfl
  rw [htext, htext, append_assoc, append_assoc] at heq
  obtain ⟨rfl, hmore⟩ := h.cancel heq
  obtain ⟨rfl, hrest⟩ := (h.separated separator).flatMap_append_cancel
    (fun a heq => hmark (Option.some.inj heq)) hmore
  exact ⟨rfl, hrest⟩

end PrefixCode

end HomelabInventory
