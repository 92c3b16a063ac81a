import Mathlib.Data.List.Nodup
import Mathlib.Data.List.Perm.Subperm
import Mathlib.Data.Nat.Notation
import Mathlib.Tactic.Basic

/-!
# Lists of numbered records

A collection of records that take their ids from a counter, and the ways a
program changes such a list in place: pushing a record, changing the first one
that matches, splicing one out. The rules say which keys a change keeps.
-/

namespace HomelabInventory

open List

variable {α : Type*} {κ : Type*}

/-! ## Ids from a counter -/

/-- The ids in use are distinct, positive and below the counter that hands them out. -/
structure Counted (ids : List ℕ) (next : ℕ) : Prop where
  nodup : ids.Nodup
  pos : ∀ i ∈ ids, 0 < i
  lt : ∀ i ∈ ids, i < next
  next_pos : 0 < next

theorem Counted.nil : Counted [] 1 := by
  refine ⟨nodup_nil, ?_, ?_, Nat.one_pos⟩ <;> simp

/-- The next id is fresh, so a record that takes it keeps the ids distinct. -/
theorem Counted.push {ids : List ℕ} {next : ℕ} (h : Counted ids next) :
    Counted (ids ++ [next]) (next + 1) where
  nodup := by
    have hfresh : next ∉ ids := fun hmem => Nat.lt_irrefl _ (h.lt next hmem)
    rw [nodup_append]
    refine ⟨h.nodup, nodup_singleton next, ?_⟩
    rintro i hi j hj rfl
    exact hfresh (mem_singleton.mp hj ▸ hi)
  pos i hi := by
    obtain hi | hi := mem_append.mp hi
    · exact h.pos i hi
    · exact mem_singleton.mp hi ▸ h.next_pos
  lt i hi := by
    obtain hi | hi := mem_append.mp hi
    · exact Nat.lt_succ_of_lt (h.lt i hi)
    · exact mem_singleton.mp hi ▸ Nat.lt_succ_self next
  next_pos := Nat.succ_pos next

theorem Counted.sublist {ids kept : List ℕ} {next : ℕ} (h : Counted ids next)
    (hkept : kept.Sublist ids) : Counted kept next where
  nodup := h.nodup.sublist hkept
  pos i hi := h.pos i (hkept.subset hi)
  lt i hi := h.lt i (hkept.subset hi)
  next_pos := h.next_pos

/-! ## Changing the first record that matches -/

/-- Change the first record that matches, in place. -/
def modifyFirst (p : α → Bool) (f : α → α) : List α → List α
  | [] => []
  | a :: as => if p a then f a :: as else a :: modifyFirst p f as

variable {key : α → κ}
variable {p : α → Bool}
variable {f : α → α}

/-- A change that keeps a key keeps the list of keys. -/
theorem map_modifyFirst (hkey : ∀ a, p a → key (f a) = key a) (l : List α) :
    (modifyFirst p f l).map key = l.map key := by
  induction l with
  | nil => rfl
  | cons a as ih =>
    by_cases ha : p a
    · simp [modifyFirst, ha, hkey a ha]
    · simp [modifyFirst, ha, ih]

variable {l : List α}
variable {a : α}

theorem mem_modifyFirst (h : a ∈ modifyFirst p f l) : a ∈ l ∨ ∃ b ∈ l, p b ∧ a = f b := by
  induction l with
  | nil => exact absurd h not_mem_nil
  | cons b bs ih =>
    by_cases hb : p b
    · rw [modifyFirst, if_pos hb] at h
      obtain rfl | h := mem_cons.mp h
      · exact .inr ⟨b, mem_cons_self, hb, rfl⟩
      · exact .inl (mem_cons_of_mem b h)
    · rw [modifyFirst, if_neg hb] at h
      obtain rfl | h := mem_cons.mp h
      · exact .inl mem_cons_self
      · obtain h | ⟨c, hc, hp, rfl⟩ := ih h
        · exact .inl (mem_cons_of_mem b h)
        · exact .inr ⟨c, mem_cons_of_mem b hc, hp, rfl⟩

/-- A record that does not match stays. -/
theorem mem_modifyFirst_of_not (ha : a ∈ l) (hp : p a = false) : a ∈ modifyFirst p f l := by
  induction l with
  | nil => exact absurd ha not_mem_nil
  | cons b bs ih =>
    by_cases hb : p b
    · rw [modifyFirst, if_pos hb]
      obtain rfl | ha := mem_cons.mp ha
      · rw [hp] at hb
        exact absurd hb Bool.false_ne_true
      · exact mem_cons_of_mem _ ha
    · rw [modifyFirst, if_neg hb]
      obtain rfl | ha := mem_cons.mp ha
      · exact mem_cons_self
      · exact mem_cons_of_mem _ (ih ha)

/-- Every record is still there, changed or not. -/
theorem mem_or_mem_modifyFirst (ha : a ∈ l) :
    a ∈ modifyFirst p f l ∨ p a ∧ f a ∈ modifyFirst p f l := by
  induction l with
  | nil => exact absurd ha not_mem_nil
  | cons b bs ih =>
    by_cases hb : p b
    · rw [modifyFirst, if_pos hb]
      obtain rfl | ha := mem_cons.mp ha
      · exact .inr ⟨hb, mem_cons_self⟩
      · exact .inl (mem_cons_of_mem _ ha)
    · rw [modifyFirst, if_neg hb]
      obtain rfl | ha := mem_cons.mp ha
      · exact .inl mem_cons_self
      · exact (ih ha).imp (mem_cons_of_mem _) fun ⟨hp, h⟩ => ⟨hp, mem_cons_of_mem _ h⟩

/-- The first record that matches is the one that is changed. -/
theorem mem_modifyFirst_of_find? (h : l.find? p = some a) : f a ∈ modifyFirst p f l := by
  induction l with
  | nil => exact nomatch h
  | cons b bs ih =>
    by_cases hb : p b
    · rw [find?_cons_of_pos hb] at h
      rw [modifyFirst, if_pos hb, Option.some.inj h]
      exact mem_cons_self
    · rw [find?_cons_of_neg hb] at h
      rw [modifyFirst, if_neg hb]
      exact mem_cons_of_mem b (ih h)

/-- Where keys are distinct, changing the first record with a key changes every record with
it: there is only one. -/
theorem modifyFirst_eq_map [DecidableEq κ] (hl : (l.map key).Nodup) (k : κ) (f : α → α) :
    modifyFirst (fun a => key a = k) f l = l.map fun a => if key a = k then f a else a := by
  induction l with
  | nil => rfl
  | cons a as ih =>
    obtain ⟨ha, has⟩ := nodup_cons.mp hl
    by_cases hk : key a = k
    · have hrest : ∀ b ∈ as, (if key b = k then f b else b) = b := by
        intro b hb
        have hne : key b ≠ k := fun hbk => ha (hk.trans hbk.symm ▸ mem_map_of_mem hb)
        exact if_neg hne
      have hsame : (as.map fun b => if key b = k then f b else b) = as := by
        rw [map_congr_left hrest, map_id']
      simp [modifyFirst, hk, hsame]
    · simp [modifyFirst, hk, ih has]

theorem mem_modifyFirst_of_key [DecidableEq κ] (hl : (l.map key).Nodup) (ha : a ∈ l) (f : α → α) :
    f a ∈ modifyFirst (fun b => key b = key a) f l := by
  rw [modifyFirst_eq_map hl]
  exact mem_map.mpr ⟨a, ha, if_pos rfl⟩

/-! ## Changing every record that matches -/

/-- Change every record that matches, as an update of a table does. -/
def updateWhere (p : α → Bool) (f : α → α) (l : List α) : List α :=
  l.map fun a => if p a then f a else a

/-- A record of the updated table was there before, and was changed when it matched. -/
theorem mem_updateWhere :
    a ∈ updateWhere p f l ↔ ∃ b ∈ l, (if p b then f b else b) = a := mem_map

/-- An update that keeps a key keeps the list of keys. -/
theorem map_updateWhere (hkey : ∀ a, p a → key (f a) = key a) (l : List α) :
    (updateWhere p f l).map key = l.map key := by
  rw [updateWhere, map_map]
  refine map_congr_left fun a _ => ?_
  by_cases ha : p a
  · simp [ha, hkey a ha]
  · simp [ha]

/-- The first record with a key, after an update that keeps keys. -/
theorem find?_updateWhere [DecidableEq κ] (hkey : ∀ a, p a → key (f a) = key a) (l : List α)
    (k : κ) :
    (updateWhere p f l).find? (fun a => key a = k) =
      (l.find? fun a => key a = k).map fun a => if p a then f a else a := by
  induction l with
  | nil => rfl
  | cons a as ih =>
    have hsame : key (if p a then f a else a) = key a := by
      by_cases ha : p a
      · simp [ha, hkey a ha]
      · simp [ha]
    rw [updateWhere, map_cons, find?_cons, find?_cons, hsame]
    by_cases hk : key a = k
    · simp [hk]
    · simpa [hk, updateWhere] using ih

/-! ## Splicing a record out -/

/-- Remove the record with a key the way `list.splice(list.indexOf(record), 1)` does: when no
record has the key the index is -1 and the last record goes. -/
def spliceOut [DecidableEq κ] (key : α → κ) (k : κ) (l : List α) : List α :=
  match l.findIdx? (fun a => key a = k) with
  | some i => l.eraseIdx i
  | none => l.dropLast

theorem spliceOut_sublist [DecidableEq κ] (key : α → κ) (k : κ) (l : List α) :
    (spliceOut key k l).Sublist l := by
  unfold spliceOut
  split
  · exact eraseIdx_sublist l _
  · exact dropLast_sublist l

/-- With distinct keys, splicing out a record that is there removes it and nothing else. -/
theorem spliceOut_eq_filter [DecidableEq κ] (hl : (l.map key).Nodup) (ha : a ∈ l) :
    spliceOut key (key a) l = l.filter fun b => key b ≠ key a := by
  unfold spliceOut
  induction l with
  | nil => exact absurd ha not_mem_nil
  | cons b bs ih =>
    obtain ⟨hb, hbs⟩ := nodup_cons.mp hl
    by_cases hk : key b = key a
    · have hrest : ∀ c ∈ bs, decide (key c ≠ key a) = true := fun c hc =>
        decide_eq_true fun hck => hb (hk.trans hck.symm ▸ mem_map_of_mem hc)
      rw [findIdx?_cons, decide_eq_true hk, filter_cons_of_neg (by simp [hk]),
        filter_eq_self.mpr hrest]
      rfl
    · have hmem : a ∈ bs := by
        obtain rfl | h := mem_cons.mp ha
        · exact absurd rfl hk
        · exact h
      rw [findIdx?_cons, decide_eq_false hk, filter_cons_of_pos (by simp [hk])]
      obtain ⟨i, hi⟩ : ∃ i, bs.findIdx? (fun c => key c = key a) = some i := by
        rw [← Option.isSome_iff_exists, findIdx?_isSome, any_eq_true]
        exact ⟨a, hmem, by simp⟩
      have := ih hbs hmem
      rw [hi] at this ⊢
      simpa using congrArg (b :: ·) this

/-! ## Records of distinct keys -/

theorem eq_of_key_eq (hl : (l.map key).Nodup) {a b : α} (ha : a ∈ l) (hb : b ∈ l)
    (h : key a = key b) : a = b :=
  inj_on_of_nodup_map hl ha hb h

theorem nodup_map_push (hl : (l.map key).Nodup) (ha : ∀ b ∈ l, key b ≠ key a) :
    ((l ++ [a]).map key).Nodup := by
  rw [map_append, nodup_append]
  refine ⟨hl, by simp, ?_⟩
  intro x hx y hy
  obtain ⟨b, hb, rfl⟩ := mem_map.mp hx
  obtain rfl : y = key a := by simpa using hy
  exact ha b hb

end HomelabInventory
