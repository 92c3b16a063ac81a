import Mathlib.Data.Nat.Notation
import Mathlib.Logic.Function.Basic

/-!
# Programs that crash and restart

A program over a state that outlives it, such as the files on a disk. Every write is atomic: it
happens, or it fails and the program can react, or the program crashes before it and only the
state is left. The meaning of a program is the list of all the ways in which it can end, so the
states in which it can crash are all the states it passes through.

Triples say what holds when a program returns, when it fails and whenever it crashes. Restarting
programs from whatever the last one left keeps an invariant that every triple keeps.
-/

namespace HomelabInventory

open List

/-- How a program ends. -/
inductive Ending (α : Type) where
  | returned (value : α)
  | failed
  | crashed
  deriving DecidableEq

/-- A program over a state that can fail and crash, as the list of its endings. -/
def Fragile (σ α : Type) : Type := σ → List (Ending α × σ)

/-- The contents of the files that exist. -/
abbrev Disk (κ ν : Type) : Type := κ → Option ν

namespace Fragile

variable {σ α β : Type}

/-- Return a value. -/
protected def pure (a : α) : Fragile σ α := fun s => [(.returned a, s)]

/-- Run one program and then another; a failure or a crash of the first ends both. -/
protected def bind (m : Fragile σ α) (k : α → Fragile σ β) : Fragile σ β := fun s =>
  (m s).flatMap fun end_ =>
    match end_ with
    | (.returned a, t) => k a t
    | (.failed, t) => [(.failed, t)]
    | (.crashed, t) => [(.crashed, t)]

instance : Monad (Fragile σ) where
  pure := Fragile.pure
  bind := Fragile.bind

/-- Look at the state, which cannot fail. -/
def inspect (f : σ → α) : Fragile σ α := fun s => [(.returned (f s), s)]

/-- Change the state in one atomic step. -/
def write (f : σ → σ) : Fragile σ Unit := fun s => [(.crashed, s), (.failed, s), (.returned (), f s)]

/-- Fail. -/
def fail : Fragile σ α := fun s => [(.failed, s)]

/-- A step that leaves the state alone but may fail. -/
def attempt : Fragile σ Unit := write id

/-- Run a program and react to its failure. -/
def tryCatch (m handler : Fragile σ α) : Fragile σ α := fun s =>
  (m s).flatMap fun end_ =>
    match end_ with
    | (.failed, t) => handler t
    | other => [other]

/-! ## Triples -/

/-- From a state with `P` a program returns with `Q`, fails with `E` and crashes with `C`. -/
def Triple (P : σ → Prop) (m : Fragile σ α) (Q : α → σ → Prop) (E C : σ → Prop) : Prop :=
  ∀ s, P s → ∀ ending t, (ending, t) ∈ m s →
    match ending with
    | .returned a => Q a t
    | .failed => E t
    | .crashed => C t

section Rules

variable {P P' : σ → Prop} {Q Q' R : α → σ → Prop} {E E' F C C' : σ → Prop} {m : Fragile σ α}

theorem Triple.pure {a : α} (h : ∀ s, P s → Q a s) : Triple P (Pure.pure a) Q E C := by
  intro s hs ending t ht
  obtain ⟨rfl, rfl⟩ := Prod.mk.inj (mem_singleton.mp ht)
  exact h _ hs

theorem Triple.fail (h : ∀ s, P s → E s) : Triple P (Fragile.fail : Fragile σ α) Q E C := by
  intro s hs ending t ht
  obtain ⟨rfl, rfl⟩ := Prod.mk.inj (mem_singleton.mp ht)
  exact h _ hs

theorem Triple.inspect {f : σ → α} (h : ∀ s, P s → Q (f s) s) : Triple P (Fragile.inspect f) Q E C := by
  intro s hs ending t ht
  obtain ⟨rfl, rfl⟩ := Prod.mk.inj (mem_singleton.mp ht)
  exact h _ hs

theorem Triple.write {f : σ → σ} {Q : Unit → σ → Prop} (hQ : ∀ s, P s → Q () (f s))
    (hE : ∀ s, P s → E s) (hC : ∀ s, P s → C s) : Triple P (Fragile.write f) Q E C := by
  intro s hs ending t ht
  simp only [Fragile.write, mem_cons, Prod.mk.injEq, not_mem_nil, or_false] at ht
  obtain ⟨rfl, rfl⟩ | ⟨rfl, rfl⟩ | ⟨rfl, rfl⟩ := ht
  · exact hC _ hs
  · exact hE _ hs
  · exact hQ _ hs

theorem Triple.attempt (hE : ∀ s, P s → E s) (hC : ∀ s, P s → C s) :
    Triple P (Fragile.attempt : Fragile σ Unit) (fun _ => P) E C :=
  .write (fun _ hs => hs) hE hC

/-- The first program ends in the states from which the second one starts. -/
theorem Triple.bind {k : α → Fragile σ β} {Q : β → σ → Prop} (hm : Triple P m R E C)
    (hk : ∀ a, Triple (R a) (k a) Q E C) : Triple P (m >>= k) Q E C := by
  intro s hs ending t ht
  obtain ⟨⟨first, u⟩, hfirst, ht⟩ := mem_flatMap.mp ht
  have hu := hm s hs first u hfirst
  cases first with
  | returned a => exact hk a u hu ending t ht
  | failed =>
    obtain ⟨rfl, rfl⟩ := Prod.mk.inj (mem_singleton.mp ht)
    exact hu
  | crashed =>
    obtain ⟨rfl, rfl⟩ := Prod.mk.inj (mem_singleton.mp ht)
    exact hu

/-- A handler starts in the states in which the program fails. -/
theorem Triple.tryCatch {handler : Fragile σ α} (hm : Triple P m Q F C)
    (hhandler : Triple F handler Q E C) : Triple P (m.tryCatch handler) Q E C := by
  intro s hs ending t ht
  obtain ⟨⟨first, u⟩, hfirst, ht⟩ := mem_flatMap.mp ht
  have hu := hm s hs first u hfirst
  cases first with
  | failed => exact hhandler u hu ending t ht
  | returned a =>
    obtain ⟨rfl, rfl⟩ := Prod.mk.inj (mem_singleton.mp ht)
    exact hu
  | crashed =>
    obtain ⟨rfl, rfl⟩ := Prod.mk.inj (mem_singleton.mp ht)
    exact hu

/-- A triple that starts in fewer states and promises less. -/
theorem Triple.imp (h : Triple P m Q E C) (hP : ∀ s, P' s → P s) (hQ : ∀ a s, Q a s → Q' a s)
    (hE : ∀ s, E s → E' s) (hC : ∀ s, C s → C' s) : Triple P' m Q' E' C' := by
  intro s hs ending t ht
  have hend := h s (hP s hs) ending t ht
  cases ending with
  | returned a => exact hQ a t hend
  | failed => exact hE t hend
  | crashed => exact hC t hend

/-- A triple holds when it holds for every state by itself. -/
theorem Triple.of_forall (h : ∀ s, P s → Triple (fun t => t = s) m Q E C) : Triple P m Q E C :=
  fun s hs => h s hs s rfl

/-- A loop goes through the states that its turns go through. -/
theorem Triple.forM {items : List β} {body : β → Fragile σ PUnit} {I : List β → σ → Prop}
    (h : ∀ done item rest, items = done ++ item :: rest →
      Triple (I done) (body item) (fun _ => I (done ++ [item])) E C) :
    Triple (I []) (items.forM body) (fun _ => I items) E C := by
  suffices hrest : ∀ rest done, items = done ++ rest →
      Triple (I done) (rest.forM body) (fun _ => I items) E C from hrest items [] rfl
  intro rest
  induction rest with
  | nil =>
    intro done hdone
    rw [hdone, append_nil]
    exact .pure fun _ hs => hs
  | cons item rest ih =>
    intro done hdone
    refine (h done item rest hdone).bind fun _ => ih (done ++ [item]) ?_
    rw [hdone, append_assoc, singleton_append]

end Rules

/-! ## Files -/

section Files

variable {κ ν : Type} [DecidableEq κ]

/-- Write a file. -/
def writeFile (file : κ) (content : ν) : Fragile (Disk κ ν) Unit :=
  write fun disk => Function.update disk file (some content)

/-- Remove a file that may be missing. -/
def remove (file : κ) : Fragile (Disk κ ν) Unit :=
  write fun disk => Function.update disk file none

/-- Rename a file over another one; a missing file cannot be renamed. -/
def rename (file target : κ) : Fragile (Disk κ ν) Unit := fun disk =>
  match disk file with
  | none => [(.crashed, disk), (.failed, disk)]
  | some content =>
    write (fun disk => Function.update (Function.update disk target (some content)) file none) disk

theorem Triple.rename {P E C : Disk κ ν → Prop} {Q : Unit → Disk κ ν → Prop} {file target : κ}
    (hQ : ∀ disk content, P disk → disk file = some content →
      Q () (Function.update (Function.update disk target (some content)) file none))
    (hE : ∀ disk, P disk → E disk) (hC : ∀ disk, P disk → C disk) :
    Triple P (Fragile.rename file target) Q E C := by
  intro disk hdisk ending t ht
  rw [Fragile.rename] at ht
  cases hfile : disk file with
  | none =>
    simp only [hfile, mem_cons, Prod.mk.injEq, not_mem_nil, or_false] at ht
    obtain ⟨rfl, rfl⟩ | ⟨rfl, rfl⟩ := ht
    · exact hC _ hdisk
    · exact hE _ hdisk
  | some content =>
    simp only [hfile] at ht
    have hP : ∀ s, s = disk → P s := by
      rintro s rfl
      exact hdisk
    refine Triple.write (P := (· = disk)) (Q := Q) ?_ (fun s hs => hE s (hP s hs))
      (fun s hs => hC s (hP s hs)) disk rfl ending t ht
    rintro s rfl
    exact hQ s content hdisk hfile

end Files

/-! ## Restarts -/

/-- The states that are left by running programs one after the other, each from whatever state
the one before it was left in, when it may be started there. -/
inductive Restarts {ι : Type} (entry : ι → Fragile σ α) (allowed : ι → σ → Prop)
    (start : σ → Prop) : σ → Prop
  | start {s} (h : start s) : Restarts entry allowed start s
  | run {s i ending t} (h : Restarts entry allowed start s) (hallowed : allowed i s)
    (hrun : (ending, t) ∈ entry i s) : Restarts entry allowed start t

/-- Restarts keep an invariant that every program keeps, however it ends. -/
theorem Restarts.invariant {ι : Type} {entry : ι → Fragile σ α} {allowed : ι → σ → Prop}
    {start I : σ → Prop} (hstart : ∀ s, start s → I s)
    (hentry : ∀ i, Triple (fun s => I s ∧ allowed i s) (entry i) (fun _ => I) I I) {s : σ}
    (h : Restarts entry allowed start s) : I s := by
  induction h with
  | start h => exact hstart _ h
  | @run s i ending t _ hallowed hrun ih =>
    have hend := hentry i s ⟨ih, hallowed⟩ ending t hrun
    cases ending <;> exact hend

end Fragile

end HomelabInventory
