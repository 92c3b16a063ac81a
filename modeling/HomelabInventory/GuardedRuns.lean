import Mathlib.Data.Option.Basic

/-!
# Runs whose steps all meet a condition

A system is a function that takes a state and an action to the next state, when the
action can be taken there. A run starts in an initial state, and a condition says which
of the actions that can be taken the run may take. **`RunsTo.invariant`** is the one
induction over such runs; `RunsTo.run` and `RunsTo.checked` go on with a run by a list.
-/

namespace HomelabInventory

universe u v w

variable {State : Type u} {Action : Type v}

/-- The states that a run from an initial one leads to, when each of its actions meets the
condition in the state where it is taken. -/
inductive RunsTo (step : State → Action → Option State) (condition : State → Action → Prop)
    (initial : State → Prop) : State → Prop where
  | start {s : State} : initial s → RunsTo step condition initial s
  | step {s s' : State} : RunsTo step condition initial s → ∀ action : Action,
    condition s action → step s action = some s' → RunsTo step condition initial s'

variable {step : State → Action → Option State} {condition : State → Action → Prop}
  {initial : State → Prop} {s t : State}

/-- What holds initially and is kept by every step that meets the condition holds in every
state of a run. -/
theorem RunsTo.invariant {Invariant : State → Prop} (h : RunsTo step condition initial s)
    (hinitial : ∀ s, initial s → Invariant s)
    (hstep : ∀ s action s', Invariant s → condition s action → step s action = some s' →
      Invariant s') : Invariant s := by
  induction h with
  | start h => exact hinitial _ h
  | step _ action hcondition hnext ih => exact hstep _ action _ ih hcondition hnext

/-- A list of moves goes on with a run when each of them is an action that meets the condition,
wherever it is made. -/
theorem RunsTo.run {Move : Type w} {move : State → Move → Option State} {moves : List Move}
    (h : RunsTo step condition initial s)
    (hmoves : ∀ m ∈ moves, ∀ s t, move s m = some t →
      ∃ action, condition s action ∧ step s action = some t)
    (hrun : moves.foldlM move s = some t) : RunsTo step condition initial t := by
  induction moves generalizing s with
  | nil => exact Option.some.inj hrun ▸ h
  | cons m moves ih =>
    obtain ⟨next, hmove, hrest⟩ := Option.bind_eq_some_iff.mp hrun
    obtain ⟨action, hcondition, hnext⟩ := hmoves m List.mem_cons_self s next hmove
    exact ih (h.step action hcondition hnext)
      (fun other hother => hmoves other (List.mem_cons_of_mem m hother)) hrest

/-- The step, which is taken only where it meets the condition. -/
def guarded (step : State → Action → Option State) (condition : State → Action → Prop)
    [∀ s action, Decidable (condition s action)] (s : State) (action : Action) : Option State :=
  if condition s action then step s action else none

/-- A list of actions goes on with a run when each of them meets the condition where it is
taken. -/
theorem RunsTo.checked [∀ s action, Decidable (condition s action)] {actions : List Action}
    (h : RunsTo step condition initial s)
    (hrun : actions.foldlM (guarded step condition) s = some t) :
    RunsTo step condition initial t :=
  h.run (fun action _ _ _ hmove => ⟨action, Option.ite_none_right_eq_some.mp hmove⟩) hrun

end HomelabInventory
