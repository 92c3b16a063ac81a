import HomelabInventory.OrderedMap
import Mathlib.Tactic.Basic

/-!
# Sorting by a comparison

What `sortBy` gives is in order, is the same for lists with the same elements when equal
comparison means equal elements, and goes along with maps that keep the comparison.
-/

namespace HomelabInventory

universe u v

variable {α : Type u} {β : Type v}

/-- Sorting by a comparison sorts. -/
theorem pairwise_isLE_sortBy (cmp : α → α → Ordering) [Std.TransCmp cmp] (l : List α) :
    (sortBy cmp l).Pairwise fun a b => (cmp a b).isLE = true := by
  have : Std.Total fun a b : α => (cmp a b).isLE = true := by
    refine ⟨fun a b => ?_⟩
    have hswap : cmp b a = (cmp a b).swap := Std.OrientedCmp.eq_swap
    rw [hswap]
    cases cmp a b <;> simp
  have : IsTrans α fun a b => (cmp a b).isLE = true := ⟨fun _ _ _ => Std.TransCmp.isLE_trans⟩
  exact List.pairwise_insertionSort _ l

/-- **Elements in order stay in order**, from wherever they are collected, when elements that
compare equal are equal. -/
theorem sortBy_eq_of_perm (cmp : α → α → Ordering) [Std.TransCmp cmp] {l sorted : List α}
    (heq : ∀ a ∈ sorted, ∀ b ∈ sorted, cmp a b = .eq → a = b)
    (hsorted : sorted.Pairwise fun a b => (cmp a b).isLE = true) (hperm : l.Perm sorted) :
    sortBy cmp l = sorted := by
  refine List.Perm.eq_of_pairwise ?_ (pairwise_isLE_sortBy cmp l) hsorted
    ((perm_sortBy cmp l).trans hperm)
  intro a b ha hb hab hba
  have ha' : a ∈ sorted := hperm.mem_iff.mp ((perm_sortBy cmp l).mem_iff.mp ha)
  exact heq a ha' b hb (Std.OrientedCmp.isLE_antisymm hab hba)

theorem sortBy_congr_perm (cmp : α → α → Ordering) [Std.TransCmp cmp] {l l' : List α}
    (heq : ∀ a ∈ l', ∀ b ∈ l', cmp a b = .eq → a = b) (hperm : l.Perm l') :
    sortBy cmp l = sortBy cmp l' := by
  refine sortBy_eq_of_perm cmp (fun a ha b hb => ?_) (pairwise_isLE_sortBy cmp l')
    (hperm.trans (perm_sortBy cmp l').symm)
  exact heq a (mem_sortBy.mp ha) b (mem_sortBy.mp hb)

/-- A map that keeps the comparison goes along with sorting. -/
theorem map_sortBy (f : α → β) {cmp : α → α → Ordering} {cmp' : β → β → Ordering} (l : List α)
    (hcmp : ∀ a b, cmp a b = cmp' (f a) (f b)) : (sortBy cmp l).map f = sortBy cmp' (l.map f) :=
  List.map_insertionSort _ _ f l fun a _ b _ => by rw [hcmp]

theorem sortBy_eq_self {cmp : α → α → Ordering} {l : List α}
    (h : l.Pairwise fun a b => (cmp a b).isLE = true) : sortBy cmp l = l :=
  List.Pairwise.insertionSort_eq h

end HomelabInventory
