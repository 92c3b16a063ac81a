import Mathlib.Data.List.Basic

/-!
# Transducers

A machine that reads symbols one after another writes some symbols at each and more
at the end. What it writes does not depend on how its input is cut, since the state
carries over a cut.
-/

namespace HomelabInventory

universe u v w x y

/-- A machine with a state that writes symbols for each symbol it reads and at the end. -/
structure Transducer (α : Type u) (β : Type v) (σ : Type w) where
  start : σ
  step : σ → α → List β × σ
  finish : σ → List β

namespace Transducer

variable {α : Type u} {β : Type v} {σ : Type w} {γ : Type x} {τ : Type y}

/-- What the machine writes for an input, and the state after it. -/
def run (t : Transducer α β σ) : σ → List α → List β × σ
  | s, [] => ([], s)
  | s, a :: rest =>
    ((t.step s a).1 ++ (t.run (t.step s a).2 rest).1, (t.run (t.step s a).2 rest).2)

variable (t : Transducer α β σ)

@[simp] theorem run_nil (s : σ) : t.run s [] = ([], s) := rfl

@[simp] theorem run_cons (s : σ) (a : α) (rest : List α) :
    t.run s (a :: rest) =
      ((t.step s a).1 ++ (t.run (t.step s a).2 rest).1, (t.run (t.step s a).2 rest).2) := rfl

/-- **The state carries over a cut of the input.** -/
theorem run_append (s : σ) (first second : List α) :
    t.run s (first ++ second) =
      ((t.run s first).1 ++ (t.run (t.run s first).2 second).1,
        (t.run (t.run s first).2 second).2) := by
  induction first generalizing s with
  | nil => rfl
  | cons a rest ih => simp [ih]

/-- What holds of the start and is kept by each symbol holds after every input. -/
theorem run_invariant {P : σ → Prop} (hstep : ∀ s a, P s → P (t.step s a).2) {s : σ} (hs : P s)
    (input : List α) : P (t.run s input).2 := by
  induction input generalizing s with
  | nil => exact hs
  | cons a rest ih => exact ih (hstep s a hs)

/-- A machine that reads what another one writes. -/
def andThen (u : Transducer β γ τ) : Transducer α γ (σ × τ) where
  start := (t.start, u.start)
  step s a :=
    ((u.run s.2 (t.step s.1 a).1).1, ((t.step s.1 a).2, (u.run s.2 (t.step s.1 a).1).2))
  finish s :=
    (u.run s.2 (t.finish s.1)).1 ++ u.finish (u.run s.2 (t.finish s.1)).2

/-- Two machines in a row run one after the other. -/
theorem run_andThen (u : Transducer β γ τ) (s : σ × τ) (input : List α) :
    (t.andThen u).run s input =
      ((u.run s.2 (t.run s.1 input).1).1,
        ((t.run s.1 input).2, (u.run s.2 (t.run s.1 input).1).2)) := by
  induction input generalizing s with
  | nil => rfl
  | cons a rest ih =>
    rw [run_cons, ih, run_cons, run_append]
    rfl

end Transducer

end HomelabInventory
