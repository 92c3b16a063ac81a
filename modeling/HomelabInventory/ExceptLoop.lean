import Mathlib.Data.List.Nodup

/-!
# Checked steps and loops

The rules for computations that stop at the first error: a guard, the inversion
of a sequence of steps, and two induction principles for loops, one for an
invariant and one for loops that reject duplicates.
-/

namespace HomelabInventory

open List

universe u v w

variable {ε : Type u} {α β σ : Type v}

/-- Stop with an error when the condition holds. -/
def failIf (c : Prop) [Decidable c] (e : ε) : Except ε Unit := if c then .error e else .ok ()

variable {e : ε}

@[simp] theorem failIf_eq_ok {c : Prop} [Decidable c] {u : Unit} : failIf c e = .ok u ↔ ¬c := by
  by_cases hc : c <;> simp [failIf, hc]

variable {x : Except ε α}

/-- A sequence of two steps succeeds when the first does and the second does on
its result. -/
theorem bind_eq_ok {f : α → Except ε β} {b : β} :
    (x >>= f) = .ok b ↔ ∃ a, x = .ok a ∧ f a = .ok b := by
  cases x with
  | error e =>
    constructor
    · intro h
      exact nomatch h
    · rintro ⟨_, h, _⟩
      exact nomatch h
  | ok a =>
    constructor
    · intro h
      exact ⟨a, rfl, h⟩
    · rintro ⟨_, ha, h⟩
      cases ha
      exact h

/-- A sequence of two steps fails when the first does, or the second does on its result. -/
theorem bind_eq_error {f : α → Except ε β} :
    (x >>= f) = .error e ↔ x = .error e ∨ ∃ a, x = .ok a ∧ f a = .error e := by
  cases x with
  | error e' =>
    refine ⟨fun h => .inl (congrArg _ (Except.error.inj h)), ?_⟩
    rintro (h | ⟨_, h, _⟩)
    · exact congrArg _ (Except.error.inj h)
    · exact nomatch h
  | ok a =>
    refine ⟨fun h => .inr ⟨a, rfl, h⟩, ?_⟩
    rintro (h | ⟨_, ha, h⟩)
    · exact nomatch h
    · cases ha
      exact h

@[simp] theorem failIf_eq_error {c : Prop} [Decidable c] {e e' : ε} :
    failIf c e = .error e' ↔ c ∧ e = e' := by
  by_cases hc : c <;> simp [failIf, hc]

variable {a b : α}

@[simp] theorem pure_eq_ok : (pure a : Except ε α) = .ok b ↔ a = b := by
  simp [pure, Except.pure]

@[simp] theorem bind_ok {f : α → Except ε β} : (Except.ok a >>= f) = f a := rfl

@[simp] theorem bind_error {f : α → Except ε β} :
    ((Except.error e : Except ε α) >>= f) = .error e := rfl

variable {f : σ → α → Except ε σ}
variable {s t : σ}

/-- A loop over a non-empty list succeeds when its first turn and the rest do. -/
theorem foldlM_cons_eq_ok {as : List α} :
    (a :: as).foldlM f s = .ok t ↔ ∃ u, f s a = .ok u ∧ as.foldlM f u = .ok t := by
  rw [foldlM_cons, bind_eq_ok]

variable {l : List α}

/-- A loop succeeds when every turn does, whatever the state. -/
theorem foldlM_total (hstep : ∀ s, ∀ a ∈ l, ∃ t, f s a = .ok t) : ∃ t, l.foldlM f s = .ok t := by
  induction l generalizing s with
  | nil => exact ⟨s, rfl⟩
  | cons a as ih =>
    obtain ⟨u, hu⟩ := hstep s a mem_cons_self
    obtain ⟨t, ht⟩ := ih fun s b hb => hstep s b (mem_cons_of_mem a hb)
    exact ⟨t, foldlM_cons_eq_ok.mpr ⟨u, hu, ht⟩⟩

/-- A computation that leaves a value succeeds with it. -/
theorem eq_ok_of_toOption (h : x.toOption = some a) : x = .ok a := by
  cases x with
  | error e => exact nomatch h
  | ok b => exact congrArg _ (Option.some.inj h)

/-- A computation that is run succeeds with a value that passes a check. -/
theorem exists_ok_of_any {P : α → Prop} [DecidablePred P]
    (h : x.toOption.any (fun a => decide (P a)) = true) : ∃ a, x = .ok a ∧ P a := by
  obtain ⟨a, ha, hpasses⟩ := (Option.any_eq_true _ _).mp h
  exact ⟨a, eq_ok_of_toOption ha, of_decide_eq_true hpasses⟩

/-- A loop keeps what each turn keeps. -/
theorem foldlM_invariant {P : σ → Prop} (hrun : l.foldlM f s = .ok t) (hstart : P s)
    (hstep : ∀ s, ∀ a ∈ l, ∀ t, P s → f s a = .ok t → P t) : P t := by
  induction l generalizing s with
  | nil =>
    rw [foldlM_nil, pure_eq_ok] at hrun
    exact hrun ▸ hstart
  | cons a as ih =>
    obtain ⟨u, hu, hrest⟩ := foldlM_cons_eq_ok.mp hrun
    have hPu := hstep s a mem_cons_self u hstart hu
    exact ih hrest hPu fun s b hb => hstep s b (mem_cons_of_mem a hb)

/-- Every turn of a loop that succeeds has checked its element. -/
theorem forall_of_foldlM {P : α → Prop} (hrun : l.foldlM f s = .ok t)
    (hstep : ∀ s a t, f s a = .ok t → P a) : ∀ a ∈ l, P a := by
  induction l generalizing s with
  | nil => simp
  | cons a as ih =>
    obtain ⟨u, hu, hrest⟩ := foldlM_cons_eq_ok.mp hrun
    intro b hb
    rcases mem_cons.mp hb with rfl | hb
    · exact hstep s b u hu
    · exact ih hrest b hb

/-- A loop that turns away keys it has seen runs over distinct keys only. The
predicate `seen` reads the keys off the state of the loop. -/
theorem nodup_of_foldlM {κ : Type w} (key : α → κ) (seen : σ → κ → Prop)
    (hrun : l.foldlM f s = .ok t)
    (hstep : ∀ s a t, f s a = .ok t →
      ¬seen s (key a) ∧ ∀ k, seen t k ↔ seen s k ∨ k = key a) :
    (l.map key).Nodup ∧ (∀ a ∈ l, ¬seen s (key a)) ∧
      ∀ k, seen t k ↔ seen s k ∨ ∃ a ∈ l, k = key a := by
  induction l generalizing s with
  | nil =>
    rw [foldlM_nil, pure_eq_ok] at hrun
    subst hrun
    simp
  | cons a as ih =>
    obtain ⟨u, hu, hrest⟩ := foldlM_cons_eq_ok.mp hrun
    obtain ⟨hfresh, hseen⟩ := hstep s a u hu
    obtain ⟨hnodup, hrestFresh, hfinal⟩ := ih hrest
    refine ⟨?_, ?_, ?_⟩
    · rw [map_cons, nodup_cons]
      refine ⟨?_, hnodup⟩
      intro hmem
      obtain ⟨b, hb, hba⟩ := mem_map.mp hmem
      exact hrestFresh b hb ((hseen _).mpr (Or.inr hba))
    · intro b hb
      rcases mem_cons.mp hb with rfl | hb
      · exact hfresh
      · intro hsb
        exact hrestFresh b hb ((hseen _).mpr (Or.inl hsb))
    · intro k
      rw [hfinal, hseen]
      simp only [mem_cons, exists_eq_or_imp]
      exact or_assoc

/-- A loop that succeeds without a result has checked every element. -/
theorem forM_eq_ok {f : α → Except ε PUnit} {u : PUnit} :
    l.forM f = .ok u ↔ ∀ a ∈ l, f a = .ok () := by
  induction l with
  | nil => exact ⟨fun _ => by simp, fun _ => rfl⟩
  | cons a as ih =>
    have hcons : (a :: as).forM f = f a >>= fun _ => as.forM f := rfl
    rw [hcons, bind_eq_ok]
    simp only [ih, mem_cons, forall_eq_or_imp]
    constructor
    · rintro ⟨_, ha, has⟩
      exact ⟨ha, has⟩
    · rintro ⟨ha, has⟩
      exact ⟨⟨⟩, ha, has⟩

end HomelabInventory
