import Mathlib.Data.Option.Basic

/-!
# Runs of a transition system

A system is a partial `step` on states, one action at a time.  `Reach step allowed init s` says
that some run from `init` ends in `s` and that each of its actions was `allowed` in the state it
was taken in.

The induction over runs is packaged once (`Reach.invariant`): what holds at first and is kept by
every allowed step holds in every reached state.  `runAllowed` executes a given run and checks
the actions on the way, so that a concrete run is a computation.
-/

namespace Transition

variable {σ α : Type*} {step : σ → α → Option σ} {allowed : σ → α → Prop}
variable {init s s' : σ}

/-- The states that runs of allowed actions lead to. -/
inductive Reach (step : σ → α → Option σ) (allowed : σ → α → Prop) (init : σ) : σ → Prop
  | refl : Reach step allowed init init
  | tail {s s' : σ} (a : α) (h : Reach step allowed init s) (hallowed : allowed s a)
      (hstep : step s a = some s') : Reach step allowed init s'

/-- **Invariants**: what every allowed step keeps holds along every run. -/
theorem Reach.invariant {P : σ → Prop} (h : Reach step allowed init s) (hinit : P init)
    (hstep : ∀ s a s', P s → allowed s a → step s a = some s' → P s') : P s := by
  induction h with
  | refl => exact hinit
  | tail a _ hallowed hnext ih => exact hstep _ a _ ih hallowed hnext

/-- A run goes on with another one. -/
lemma Reach.trans (h : Reach step allowed init s) (h' : Reach step allowed s s') :
    Reach step allowed init s' := by
  induction h' with
  | refl => exact h
  | tail a _ hallowed hnext ih => exact .tail a ih hallowed hnext

/-- The state a run leads to, if each action is allowed and enabled. -/
def runAllowed (step : σ → α → Option σ) (allowed : σ → α → Prop)
    [∀ s a, Decidable (allowed s a)] : σ → List α → Option σ
  | s, [] => some s
  | s, a :: actions =>
      if allowed s a then (step s a).bind fun s' => runAllowed step allowed s' actions else none

/-- A run of two parts. -/
lemma runAllowed_append [∀ s a, Decidable (allowed s a)] {actions actions' : List α} {s'' : σ}
    (h : runAllowed step allowed s actions = some s')
    (h' : runAllowed step allowed s' actions' = some s'') :
    runAllowed step allowed s (actions ++ actions') = some s'' := by
  induction actions generalizing s with
  | nil =>
      obtain rfl := Option.some.inj h
      exact h'
  | cons a actions ih =>
      rw [runAllowed] at h
      split at h
      · rename_i hallowed
        obtain ⟨t, hstep, hrun⟩ := Option.bind_eq_some_iff.mp h
        rw [List.cons_append, runAllowed, if_pos hallowed, hstep]
        exact ih hrun
      · simp at h

/-- A run that goes through reaches its state. -/
lemma reach_of_runAllowed [∀ s a, Decidable (allowed s a)] {actions : List α}
    (h : Reach step allowed init s) (hrun : runAllowed step allowed s actions = some s') :
    Reach step allowed init s' := by
  induction actions generalizing s with
  | nil =>
      obtain rfl := Option.some.inj hrun
      exact h
  | cons a actions ih =>
      rw [runAllowed] at hrun
      split at hrun
      · rename_i hallowed
        obtain ⟨t, hstep, hrun⟩ := Option.bind_eq_some_iff.mp hrun
        exact ih (.tail a h hallowed hstep) hrun
      · simp at hrun

/-- A run that goes through, from the start. -/
lemma reach_get [∀ s a, Decidable (allowed s a)] {actions : List α}
    (h : (runAllowed step allowed init actions).isSome = true) :
    Reach step allowed init ((runAllowed step allowed init actions).get h) :=
  reach_of_runAllowed .refl (Option.some_get h).symm

end Transition
