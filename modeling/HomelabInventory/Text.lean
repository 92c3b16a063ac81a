import Mathlib.Data.List.DropRight
import Mathlib.Data.String.Basic

/-!
# Text

Trimming of Unicode white space, the one text operation the engine relies on.
-/

namespace HomelabInventory

/-- The characters with the Unicode `White_Space` property. -/
def isWhitespace (c : Char) : Bool :=
  let n := c.toNat
  (0x9 ≤ n && n ≤ 0xD) || n == 0x20 || n == 0x85 || n == 0xA0 || n == 0x1680 ||
    (0x2000 ≤ n && n ≤ 0x200A) || n == 0x2028 || n == 0x2029 || n == 0x202F ||
    n == 0x205F || n == 0x3000

/-- Drop the white space at both ends of a list of characters. -/
def trimList (cs : List Char) : List Char :=
  (cs.dropWhile isWhitespace).rdropWhile isWhitespace

/-- Drop the white space at both ends of a string. -/
def trim (s : String) : String := String.ofList (trimList s.toList)

/-- A string of white space only. -/
def isBlank (s : String) : Bool := (trim s).isEmpty

/-- Dropping at the end does not uncover anything to drop at the front. -/
theorem dropWhile_rdropWhile {α : Type} (p : α → Bool) (l : List α) (h : l.dropWhile p = l) :
    (l.rdropWhile p).dropWhile p = l.rdropWhile p := by
  cases l with
  | nil => rfl
  | cons a as =>
    have ha : p a = false := by
      by_contra hp
      simp only [Bool.not_eq_false] at hp
      rw [List.dropWhile_cons_of_pos hp] at h
      have hlen := (List.dropWhile_suffix p (l := as)).length_le
      rw [h, List.length_cons] at hlen
      omega
    have hkeep : (a :: as).rdropWhile p = a :: as.rdropWhile p := by
      rw [List.rdropWhile, List.rdropWhile, List.reverse_cons, List.dropWhile_append]
      by_cases hempty : as.reverse.dropWhile p = []
      · simp [hempty, ha]
      · simp [hempty]
    rw [hkeep, List.dropWhile_cons_of_neg (by simp [ha])]

theorem trimList_trimList (cs : List Char) : trimList (trimList cs) = trimList cs := by
  have hfront := dropWhile_rdropWhile isWhitespace (cs.dropWhile isWhitespace)
    (List.dropWhile_idempotent isWhitespace cs)
  unfold trimList
  rw [hfront, List.rdropWhile_idempotent]

@[simp] theorem trim_trim (s : String) : trim (trim s) = trim s := by
  simp only [trim, String.toList_ofList, trimList_trimList]

end HomelabInventory
