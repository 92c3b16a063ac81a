import HomelabInventory.ExceptLoop

/-!
# Runs of addressed steps

A state is seen through its places, and every step reads and writes one place. Then a
run of steps is, for each place, the run of the steps addressed to it: the whole
succeeds when all of these do, and leaves at each place what they leave there.
-/

namespace HomelabInventory

open List

universe u v w

section Collecting

variable {ε : Type u} {α : Type v} {β : Type w}

variable {f : α → Except ε β}
variable {bs : List β}

/-- A loop that collects results succeeds when every turn does. -/
theorem mapM_cons_eq_ok {a : α} {as : List α} :
    (a :: as).mapM f = .ok bs ↔ ∃ b, f a = .ok b ∧ ∃ rest, as.mapM f = .ok rest ∧
      bs = b :: rest := by
  rw [mapM_cons, bind_eq_ok]
  constructor
  · rintro ⟨b, hb, h⟩
    obtain ⟨rest, hrest, hpure⟩ := bind_eq_ok.mp h
    exact ⟨b, hb, rest, hrest, (pure_eq_ok.mp hpure).symm⟩
  · rintro ⟨b, hb, rest, hrest, rfl⟩
    exact ⟨b, hb, bind_eq_ok.mpr ⟨rest, hrest, rfl⟩⟩

variable {l : List α}

/-- Loops over lists that look alike collect alike, when their turns do. -/
theorem mapM_congr_of_map_eq {α' γ : Type*} {l' : List α'} {g : α' → Except ε β} {key : α → γ}
    {key' : α' → γ} (h : l.map key = l'.map key')
    (hturn : ∀ a ∈ l, ∀ b, key a = key' b → f a = g b) : l.mapM f = l'.mapM g := by
  induction l generalizing l' with
  | nil =>
    obtain rfl := map_eq_nil_iff.mp h.symm
    rfl
  | cons a as ih =>
    obtain ⟨b, bs', rfl, hkey, hrest⟩ := map_eq_cons_iff.mp h.symm
    rw [mapM_cons, mapM_cons, hturn a mem_cons_self b hkey.symm,
      ih hrest.symm fun c hc => hturn c (mem_cons_of_mem _ hc)]

theorem mapM_congr_mem {g : α → Except ε β} (h : ∀ a ∈ l, f a = g a) : l.mapM f = l.mapM g := by
  refine mapM_congr_of_map_eq (congrArg (List.map id) (Eq.refl l)) fun a ha b hab => ?_
  obtain rfl : a = b := hab
  exact h a ha

/-- The results of a loop that collects are those of its turns. -/
theorem mem_of_mapM (h : l.mapM f = .ok bs) {b : β} : b ∈ bs ↔ ∃ a ∈ l, f a = .ok b := by
  induction l generalizing bs with
  | nil =>
    rw [mapM_nil, pure_eq_ok] at h
    subst h
    simp
  | cons a as ih =>
    obtain ⟨c, hc, rest, hrest, rfl⟩ := mapM_cons_eq_ok.mp h
    rw [mem_cons, ih hrest]
    constructor
    · rintro (rfl | ⟨d, hd, hfd⟩)
      · exact ⟨a, mem_cons_self, hc⟩
      · exact ⟨d, mem_cons_of_mem a hd, hfd⟩
    · rintro ⟨d, hd, hfd⟩
      rcases mem_cons.mp hd with rfl | hd
      · rw [hc] at hfd
        exact .inl (Except.ok.inj hfd).symm
      · exact .inr ⟨d, hd, hfd⟩

/-- Every turn of a loop that collects succeeds. -/
theorem exists_of_mapM (h : l.mapM f = .ok bs) {a : α} (ha : a ∈ l) : ∃ b ∈ bs, f a = .ok b := by
  induction l generalizing bs with
  | nil => cases ha
  | cons c cs ih =>
    obtain ⟨b, hb, rest, hrest, rfl⟩ := mapM_cons_eq_ok.mp h
    rcases mem_cons.mp ha with rfl | ha
    · exact ⟨b, mem_cons_self, hb⟩
    · obtain ⟨d, hd, hfd⟩ := ih hrest ha
      exact ⟨d, mem_cons_of_mem b hd, hfd⟩

/-- A list gives at most one result when each of its elements does and no two of them do. -/
theorem length_flatMap_le_one {f : α → List β} (hone : ∀ a ∈ l, (f a).length ≤ 1)
    (hpairs : l.Pairwise fun a b => f a = [] ∨ f b = []) : (l.flatMap f).length ≤ 1 := by
  induction l with
  | nil => simp
  | cons a as ih =>
    obtain ⟨hhead, htail⟩ := pairwise_cons.mp hpairs
    by_cases ha : f a = []
    · rw [flatMap_cons, ha, nil_append]
      exact ih (fun b hb => hone b (mem_cons_of_mem a hb)) htail
    · have hrest : as.flatMap f = [] :=
        flatMap_eq_nil_iff.mpr fun b hb => (hhead b hb).resolve_left ha
      rw [flatMap_cons, hrest, append_nil]
      exact hone a mem_cons_self

end Collecting

section Runs

variable {ε : Type u} {σ α ν : Type v} {κ : Type w} [DecidableEq κ]

/-- Every step reads and writes the one place it is addressed to. -/
structure Addressed (valid : σ → Prop) (step : σ → α → Except ε σ) (key : α → κ)
    (view : σ → κ → ν) (act : α → ν → Except ε ν) : Prop where
  /-- a step keeps the state valid -/
  keeps : ∀ {s a t}, valid s → step s a = .ok t → valid t
  /-- what a step does at its place -/
  here : ∀ {s a t}, valid s → step s a = .ok t → act a (view s (key a)) = .ok (view t (key a))
  /-- a step leaves the other places as they are -/
  elsewhere : ∀ {s a t k}, valid s → step s a = .ok t → k ≠ key a → view t k = view s k
  /-- a step that can be done at its place can be done -/
  runs : ∀ {s a v}, valid s → act a (view s (key a)) = .ok v → ∃ t, step s a = .ok t

variable {valid : σ → Prop} {step : σ → α → Except ε σ} {key : α → κ} {view : σ → κ → ν}
  {act : α → ν → Except ε ν}

namespace Addressed

variable {l : List α}
variable {s t : σ}

variable (h : Addressed valid step key view act)
include h

omit [DecidableEq κ] in
/-- A run keeps the state valid. -/
theorem run_valid (hs : valid s) (hrun : l.foldlM step s = .ok t) : valid t :=
  foldlM_invariant hrun hs fun _ _ _ _ hu hstep => h.keeps hu hstep

/-- **At each place a run does what the steps addressed to it do.** -/
theorem run_view (hs : valid s) (hrun : l.foldlM step s = .ok t) (k : κ) :
    (l.filter fun a => key a = k).foldlM (fun v a => act a v) (view s k) = .ok (view t k) := by
  induction l generalizing s with
  | nil =>
    rw [foldlM_nil, pure_eq_ok] at hrun
    subst hrun
    rfl
  | cons a as ih =>
    obtain ⟨u, hu, hrest⟩ := foldlM_cons_eq_ok.mp hrun
    have hlater := ih (h.keeps hs hu) hrest
    by_cases hk : key a = k
    · subst hk
      rw [filter_cons_of_pos (by simp), foldlM_cons_eq_ok]
      exact ⟨view u (key a), h.here hs hu, hlater⟩
    · rw [filter_cons_of_neg (by simp [hk]), ← h.elsewhere hs hu (Ne.symm hk)]
      exact hlater

/-- **A run succeeds when the steps addressed to each place do.** -/
theorem run_total (hs : valid s)
    (hplaces : ∀ k, ∃ v,
      (l.filter fun a => key a = k).foldlM (fun v a => act a v) (view s k) = .ok v) :
    ∃ t, l.foldlM step s = .ok t := by
  induction l generalizing s with
  | nil => exact ⟨s, rfl⟩
  | cons a as ih =>
    obtain ⟨v, hv⟩ := hplaces (key a)
    rw [filter_cons_of_pos (by simp), foldlM_cons_eq_ok] at hv
    obtain ⟨w, hw, hlater⟩ := hv
    obtain ⟨u, hu⟩ := h.runs hs hw
    have hhere : view u (key a) = w := by
      have := h.here hs hu
      rw [hw] at this
      exact (Except.ok.inj this).symm
    obtain ⟨t, ht⟩ := ih (s := u) (h.keeps hs hu) (by
      intro k
      by_cases hk : k = key a
      · subst hk
        rw [hhere]
        exact ⟨v, hlater⟩
      · obtain ⟨x, hx⟩ := hplaces k
        rw [filter_cons_of_neg (by simp [Ne.symm hk])] at hx
        rw [h.elsewhere hs hu hk]
        exact ⟨x, hx⟩)
    exact ⟨t, foldlM_cons_eq_ok.mpr ⟨u, hu, ht⟩⟩

end Addressed

end Runs

end HomelabInventory
