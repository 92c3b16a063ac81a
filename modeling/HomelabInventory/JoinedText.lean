import Mathlib.Algebra.GroupWithZero.Nat
import Mathlib.Data.String.Basic
import Mathlib.Tactic.Basic

/-!
# Texts joined by a separator

A list of texts is written as one text with a separator between them, and read
back by splitting at the separator. Splitting undoes joining exactly when no
text holds the separator, which the number of pieces shows.
-/

namespace HomelabInventory

open List

universe u

section Lists

variable {α : Type u} [BEq α] [LawfulBEq α]

omit [LawfulBEq α] in
/-- There is one piece more than there are separators. -/
theorem length_splitOn (x : α) (xs : List α) : (xs.splitOn x).length = xs.count x + 1 := by
  induction xs with
  | nil => simp
  | cons a as ih =>
    rw [splitOn_cons_eq_if_modifyHead, count_cons]
    by_cases ha : (a == x) = true
    · simp [ha, ih]
    · simp [ha, ih]

/-- Joining adds one separator less than there are pieces. -/
theorem count_intercalate (x : α) {ls : List (List α)} (hls : ls ≠ []) :
    ([x].intercalate ls).count x + 1 = (ls.map (List.count x)).sum + ls.length := by
  induction ls with
  | nil => exact absurd rfl hls
  | cons first rest ih =>
    cases rest with
    | nil => simp [List.intercalate]
    | cons second rest =>
      have hrest := ih (cons_ne_nil second rest)
      have hjoin : [x].intercalate (first :: second :: rest)
          = first ++ x :: [x].intercalate (second :: rest) := by
        simp [List.intercalate, List.intersperse]
      rw [hjoin, count_append, count_cons_self, List.map_cons, sum_cons,
        length_cons]
      omega

/-- Splitting undoes joining when it gives as many pieces as were joined. -/
theorem splitOn_intercalate_of_length {x : α} {ls : List (List α)}
    (h : (([x].intercalate ls).splitOn x).length = ls.length) :
    ([x].intercalate ls).splitOn x = ls := by
  by_cases hls : ls = []
  · subst hls
    rw [length_splitOn] at h
    simp at h
  · -- the pieces hold no separator, since all separators come from joining
    have hcount := count_intercalate x hls
    rw [length_splitOn] at h
    have hsum : (ls.map (List.count x)).sum = 0 := by omega
    refine splitOn_intercalate x ?_ hls
    intro l hl hmem
    have hzero := List.sum_eq_zero_iff_forall_eq_nat.mp hsum (l.count x) (mem_map_of_mem hl)
    exact count_eq_zero.mp hzero hmem

end Lists

/-- Write texts as one, with a separator between them. -/
def joinText (separator : Char) (parts : List String) : String :=
  String.ofList ([separator].intercalate (parts.map String.toList))

/-- The pieces of a text between separators. -/
def splitText (separator : Char) (text : String) : List String :=
  (text.toList.splitOn separator).map String.ofList

/-- Joining undoes splitting. -/
@[simp] theorem joinText_splitText (separator : Char) (text : String) :
    joinText separator (splitText separator text) = text := by
  have hpieces : (splitText separator text).map String.toList = text.toList.splitOn separator := by
    rw [splitText, map_map]
    exact map_id'' (fun _ => String.toList_ofList) _
  rw [joinText, hpieces, intercalate_splitOn, String.ofList_toList]

/-- **Splitting undoes joining** when it gives as many pieces as were joined. -/
theorem splitText_joinText {separator : Char} {parts : List String}
    (h : (splitText separator (joinText separator parts)).length = parts.length) :
    splitText separator (joinText separator parts) = parts := by
  have hsplit : splitText separator (joinText separator parts)
      = (([separator].intercalate (parts.map String.toList)).splitOn separator).map
          String.ofList := by
    rw [splitText, joinText, String.toList_ofList]
  rw [hsplit, length_map] at h
  rw [hsplit, splitOn_intercalate_of_length (by rw [h, length_map]), map_map]
  exact map_id'' (fun _ => String.ofList_toList) _

end HomelabInventory
