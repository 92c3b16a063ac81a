import Mathlib.Data.List.Nodup

/-!
# Events that an outage of their host inhibits

Pending and open events are known by keys. Each key is pending or open at most
once, and while an outage of a host is pending or open no other event of that
host is pending. The rules say how events begin, open and end under this
invariant, over any keys, hosts and notion of outage.
-/

namespace HomelabInventory

open List

variable {κ η : Type*} {host : κ → η} {outage : κ → Prop}

/-- The pending and the open events exclude each other, and outages inhibit their hosts. -/
structure Exclusive (host : κ → η) (outage : κ → Prop) (pending opened : List κ) : Prop where
  pending_nodup : pending.Nodup
  opened_nodup : opened.Nodup
  disjoint : ∀ k ∈ pending, k ∉ opened
  inhibited : ∀ k ∈ pending, ¬outage k →
    ∀ k', k' ∈ pending ∨ k' ∈ opened → host k' = host k → ¬outage k'

namespace Exclusive

variable {pending pending' opened opened' : List κ} {k : κ}

theorem nil : Exclusive host outage [] [] := by
  refine ⟨nodup_nil, nodup_nil, ?_, ?_⟩ <;> simp

variable (h : Exclusive host outage pending opened)
include h

/-- Events end. -/
theorem sublist (hpending : pending'.Sublist pending) (hopened : opened'.Sublist opened) :
    Exclusive host outage pending' opened' where
  pending_nodup := h.pending_nodup.sublist hpending
  opened_nodup := h.opened_nodup.sublist hopened
  disjoint k hk hk' := h.disjoint k (hpending.subset hk) (hopened.subset hk')
  inhibited k hk hout k' hk' :=
    h.inhibited k (hpending.subset hk) hout k' <|
      hk'.imp (fun hk' => hpending.subset hk') (fun hk' => hopened.subset hk')

/-- An event of a host without an outage becomes pending. -/
theorem begin_child (hfresh : k ∉ pending) (hclosed : k ∉ opened) (hchild : ¬outage k)
    (hhost : ∀ k', k' ∈ pending ∨ k' ∈ opened → host k' = host k → ¬outage k') :
    Exclusive host outage (pending ++ [k]) opened where
  pending_nodup := by
    rw [nodup_append]
    refine ⟨h.pending_nodup, nodup_singleton k, ?_⟩
    rintro k' hk' j hj rfl
    exact hfresh (mem_singleton.mp hj ▸ hk')
  opened_nodup := h.opened_nodup
  disjoint k' hk' := by
    obtain hk' | hk' := mem_append.mp hk'
    · exact h.disjoint k' hk'
    · exact mem_singleton.mp hk' ▸ hclosed
  inhibited k₁ hk₁ hout₁ k₂ hk₂ hsame := by
    have hk₂ : (k₂ ∈ pending ∨ k₂ ∈ opened) ∨ k₂ = k := by
      obtain hk₂ | hk₂ := hk₂
      · obtain hk₂ | hk₂ := mem_append.mp hk₂
        · exact .inl (.inl hk₂)
        · exact .inr (mem_singleton.mp hk₂)
      · exact .inl (.inr hk₂)
    obtain hk₂ | rfl := hk₂
    · obtain hk₁ | hk₁ := mem_append.mp hk₁
      · exact h.inhibited k₁ hk₁ hout₁ k₂ hk₂ hsame
      · exact hhost k₂ hk₂ (hsame.trans (congrArg host (mem_singleton.mp hk₁)))
    · exact hchild

/-- An outage becomes, or stays, pending and drops the other pending events of its host. -/
theorem begin_outage (hclosed : k ∉ opened) (hsub : ∀ k' ∈ pending', k' ∈ pending ∨ k' = k)
    (hnodup : pending'.Nodup) (halone : ∀ k' ∈ pending', k' = k ∨ host k' ≠ host k)
    (hout : outage k) :
    Exclusive host outage pending' opened where
  pending_nodup := hnodup
  opened_nodup := h.opened_nodup
  disjoint k' hk' := by
    obtain hk' | rfl := hsub k' hk'
    · exact h.disjoint k' hk'
    · exact hclosed
  inhibited k₁ hk₁ hout₁ k₂ hk₂ hsame := by
    obtain rfl | hhost := halone k₁ hk₁
    · exact absurd hout hout₁
    have hmem : k₁ ∈ pending := by
      obtain hmem | rfl := hsub k₁ hk₁
      · exact hmem
      · exact absurd hout hout₁
    obtain hk₂ | hk₂ := hk₂
    · obtain hk₂ | rfl := hsub k₂ hk₂
      · exact h.inhibited k₁ hmem hout₁ k₂ (.inl hk₂) hsame
      · exact absurd hsame.symm hhost
    · exact h.inhibited k₁ hmem hout₁ k₂ (.inr hk₂) hsame

/-- A pending event opens; an outage drops the pending events of its host that are none. -/
theorem promote (hk : k ∈ pending) (hsub : pending'.Sublist pending) (hgone : k ∉ pending') :
    Exclusive host outage pending' (opened ++ [k]) where
  pending_nodup := h.pending_nodup.sublist hsub
  opened_nodup := by
    rw [nodup_append]
    refine ⟨h.opened_nodup, nodup_singleton k, ?_⟩
    rintro k' hk' j hj rfl
    exact h.disjoint k hk (mem_singleton.mp hj ▸ hk')
  disjoint k' hk' hmem := by
    obtain hmem | hmem := mem_append.mp hmem
    · exact h.disjoint k' (hsub.subset hk') hmem
    · exact hgone (mem_singleton.mp hmem ▸ hk')
  inhibited k₁ hk₁ hout₁ k₂ hk₂ hsame := by
    have hk₂ : k₂ ∈ pending ∨ k₂ ∈ opened := by
      obtain hk₂ | hk₂ := hk₂
      · exact .inl (hsub.subset hk₂)
      · obtain hk₂ | hk₂ := mem_append.mp hk₂
        · exact .inr hk₂
        · exact .inl (mem_singleton.mp hk₂ ▸ hk)
    exact h.inhibited k₁ (hsub.subset hk₁) hout₁ k₂ hk₂ hsame

/-- While an outage is pending, only outages of its host are. -/
theorem outage_of_pending (hk : k ∈ pending) (hout : outage k) {k' : κ} (hk' : k' ∈ pending)
    (hsame : host k' = host k) : outage k' := by
  by_contra hchild
  exact h.inhibited k' hk' hchild k (.inl hk) hsame.symm hout

end Exclusive

end HomelabInventory
