import Mathlib.Algebra.BigOperators.Group.List.Basic
import Mathlib.Algebra.GroupWithZero.Nat
import SyncEngine.Lib.Transition

/-!
# Interleaved calls over a shared state

Calls come in and run side by side.  A call is a state of its own; `exec` takes it over one atomic
step on the shared state, given what its environment supplies (`ι`: the time, a random draw), and
says whether it goes on.  Any call may be the next, and any call may break off.

* `invariant`: what every step keeps of the shared state, together with what each call in flight
  knows of it.  A step has to respect what the other calls know.
* `account`: a budget that no step exceeds.  What a call in flight weighs counts as spent, so that
  nobody has to say which call spends it when.
* `serveAll` executes calls that nobody interrupts, one after the other, which is one of the runs.
-/

namespace Interleaving

open Transition

variable {σ π ι : Type*}

/-- The shared state and the calls in flight.  Which of two equal calls goes on makes no
difference. -/
structure Flight (σ π : Type*) where
  shared : σ
  calls : List π

/-- A call arrives, goes on after an await, or throws. -/
inductive Action (π ι : Type*)
  | arrive (p : π)
  | resume (p : π) (input : ι)
  /-- A call that throws. -/
  | abort (p : π)

variable [DecidableEq π]

/-- One action; only calls in flight go on or break off. -/
def step (exec : σ → π → ι → σ × Option π) (s : Flight σ π) : Action π ι → Option (Flight σ π)
  | .arrive p => some { s with calls := p :: s.calls }
  | .resume p input =>
      if p ∈ s.calls then
        some ⟨(exec s.shared p input).1, (exec s.shared p input).2.toList ++ s.calls.erase p⟩
      else none
  | .abort p => if p ∈ s.calls then some { s with calls := s.calls.erase p } else none

/-- Calls arrive as `arrives` says, and go on where `ok` admits the step. -/
def allowed (arrives : π → Prop) (ok : σ → π → ι → Prop) (s : Flight σ π) : Action π ι → Prop
  | .arrive p => arrives p
  | .resume p input => ok s.shared p input
  | .abort _ => True

instance (arrives : π → Prop) (ok : σ → π → ι → Prop) [DecidablePred arrives]
    [∀ s p i, Decidable (ok s p i)] (s : Flight σ π) : DecidablePred (allowed arrives ok s)
  | .arrive p => inferInstanceAs (Decidable (arrives p))
  | .resume p input => inferInstanceAs (Decidable (ok s.shared p input))
  | .abort _ => isTrue trivial

/-- The states that interleaved calls lead to. -/
def Interleaved (exec : σ → π → ι → σ × Option π) (arrives : π → Prop) (ok : σ → π → ι → Prop)
    (init : σ) (s : Flight σ π) : Prop :=
  Reach (step exec) (allowed arrives ok) ⟨init, []⟩ s

variable {exec : σ → π → ι → σ × Option π} {arrives : π → Prop} {ok : σ → π → ι → Prop}
variable {init : σ} {s s' : Flight σ π}

lemma step_resume {p : π} {input : ι} (h : step exec s (.resume p input) = some s') :
    p ∈ s.calls ∧
      s' = ⟨(exec s.shared p input).1, (exec s.shared p input).2.toList ++ s.calls.erase p⟩ := by
  by_cases hp : p ∈ s.calls
  · exact ⟨hp, (Option.some.inj ((if_pos hp).symm.trans h)).symm⟩
  · exact absurd ((if_neg hp).symm.trans h) nofun

lemma step_abort {p : π} (h : step exec s (.abort p) = some s') :
    p ∈ s.calls ∧ s' = { s with calls := s.calls.erase p } := by
  by_cases hp : p ∈ s.calls
  · exact ⟨hp, (Option.some.inj ((if_pos hp).symm.trans h)).symm⟩
  · exact absurd ((if_neg hp).symm.trans h) nofun

/-- **Invariants** of the shared state, with what the calls in flight know of it. -/
theorem Interleaved.invariant {I : σ → Prop} {J : σ → π → Prop}
    (h : Interleaved exec arrives ok init s) (hinit : I init)
    (harrive : ∀ σ p, I σ → arrives p → J σ p)
    (hexec : ∀ σ p i, I σ → J σ p → ok σ p i →
      I (exec σ p i).1 ∧ ∀ q ∈ (exec σ p i).2, J (exec σ p i).1 q)
    (hstable : ∀ σ p i q, I σ → J σ p → ok σ p i → J σ q → J (exec σ p i).1 q) :
    I s.shared ∧ ∀ p ∈ s.calls, J s.shared p := by
  refine Reach.invariant (P := fun s => I s.shared ∧ ∀ p ∈ s.calls, J s.shared p) h
    ⟨hinit, by simp⟩ ?_
  rintro s action s' ⟨hshared, hcalls⟩ hallowed hstep
  cases action with
  | arrive p =>
      obtain rfl := Option.some.inj hstep
      refine ⟨hshared, fun q hq => ?_⟩
      rcases List.mem_cons.mp hq with rfl | hq
      · exact harrive _ q hshared hallowed
      · exact hcalls q hq
  | resume p input =>
      obtain ⟨hp, rfl⟩ := step_resume hstep
      obtain ⟨hnext, hself⟩ := hexec s.shared p input hshared (hcalls p hp) hallowed
      refine ⟨hnext, fun q hq => ?_⟩
      rcases List.mem_append.mp hq with hq | hq
      · exact hself q (Option.mem_toList.mp hq)
      · exact hstable s.shared p input q hshared (hcalls p hp) hallowed
          (hcalls q (List.mem_of_mem_erase hq))
  | abort p =>
      obtain ⟨-, rfl⟩ := step_abort hstep
      exact ⟨hshared, fun q hq => hcalls q (List.mem_of_mem_erase hq)⟩

/-- Invariants of the shared state alone. -/
theorem Interleaved.shared {I : σ → Prop} (h : Interleaved exec arrives ok init s) (hinit : I init)
    (hexec : ∀ σ p i, I σ → ok σ p i → I (exec σ p i).1) : I s.shared :=
  (h.invariant (J := fun _ _ => True) hinit (fun _ _ _ _ => trivial)
    (fun σ p i hI _ hok => ⟨hexec σ p i hI hok, fun _ _ => trivial⟩)
    (fun _ _ _ _ _ _ _ _ => trivial)).1

/-- **Budgets**: what is spent, with what the calls in flight weigh, stays what it was at most,
where every call pays for what it does. -/
theorem Interleaved.account {I : σ → Prop} {J : σ → π → Prop}
    (h : Interleaved exec arrives ok init s)
    (hinv : ∀ s, Interleaved exec arrives ok init s → I s.shared ∧ ∀ p ∈ s.calls, J s.shared p)
    (spent : σ → Nat) (weight : π → Nat) (hweight : ∀ p, arrives p → weight p = 0)
    (hpay : ∀ σ p i, I σ → J σ p → ok σ p i →
      spent (exec σ p i).1 + ((exec σ p i).2.toList.map weight).sum ≤ spent σ + weight p) :
    spent s.shared + (s.calls.map weight).sum ≤ spent init := by
  induction h with
  | refl => simp
  | @tail s s' action hrun hallowed hstep ih =>
      obtain ⟨hshared, hcalls⟩ := hinv s hrun
      have herase : ∀ p ∈ s.calls,
          (s.calls.map weight).sum = weight p + ((s.calls.erase p).map weight).sum :=
        fun p hp => by rw [((List.perm_cons_erase hp).map weight).sum_eq, List.map_cons,
          List.sum_cons]
      cases action with
      | arrive p =>
          obtain rfl := Option.some.inj hstep
          rw [List.map_cons, List.sum_cons, hweight p hallowed, Nat.zero_add]
          exact ih
      | resume p input =>
          obtain ⟨hp, rfl⟩ := step_resume hstep
          have hpaid := hpay s.shared p input hshared (hcalls p hp) hallowed
          have hsum := herase p hp
          show spent (exec s.shared p input).1 + _ ≤ _
          rw [List.map_append, List.sum_append]
          omega
      | abort p =>
          obtain ⟨hp, rfl⟩ := step_abort hstep
          have hsum := herase p hp
          show spent s.shared + ((s.calls.erase p).map weight).sum ≤ _
          omega

/-! ## One call after the other -/

section Serve

variable [DecidablePred arrives] [∀ s p i, Decidable (ok s p i)]

/-- A call that nobody interrupts, in at most so many steps. -/
def serve (exec : σ → π → ι → σ × Option π) (ok : σ → π → ι → Prop)
    [∀ s p i, Decidable (ok s p i)] : Nat → σ → π → ι → Option σ
  | 0, _, _, _ => none
  | n + 1, s, p, i =>
      if ok s p i then
        match (exec s p i).2 with
        | none => some (exec s p i).1
        | some q => serve exec ok n (exec s p i).1 q i
      else none

/-- Calls that come one after the other. -/
def serveAll (exec : σ → π → ι → σ × Option π) (arrives : π → Prop) (ok : σ → π → ι → Prop)
    [DecidablePred arrives] [∀ s p i, Decidable (ok s p i)] (n : Nat) : σ → List (π × ι) → Option σ
  | s, [] => some s
  | s, (p, i) :: calls =>
      if arrives p then (serve exec ok n s p i).bind fun s' => serveAll exec arrives ok n s' calls
      else none

omit [DecidablePred arrives] in
lemma Interleaved.serve {n : Nat} {a a' : σ} {p : π} {i : ι}
    (h : Interleaved exec arrives ok init ⟨a, [p]⟩)
    (hserve : serve exec ok n a p i = some a') : Interleaved exec arrives ok init ⟨a', []⟩ := by
  induction n generalizing a p with
  | zero => simp [Interleaving.serve] at hserve
  | succ n ih =>
      unfold Interleaving.serve at hserve
      split at hserve
      · rename_i hok
        have hstep : step exec ⟨a, [p]⟩ (.resume p i) =
            some ⟨(exec a p i).1, (exec a p i).2.toList⟩ := by
          simp [step]
        have hnext := Reach.tail (Action.resume p i) h hok hstep
        split at hserve
        · rename_i hend
          obtain rfl := Option.some.inj hserve
          rwa [hend] at hnext
        · rename_i q hq
          rw [hq] at hnext
          exact ih hnext hserve
      · simp at hserve

/-- **Serial runs** are runs. -/
theorem Interleaved.serveAll {n : Nat} {a a' : σ} {calls : List (π × ι)}
    (h : Interleaved exec arrives ok init ⟨a, []⟩)
    (hserve : serveAll exec arrives ok n a calls = some a') :
    Interleaved exec arrives ok init ⟨a', []⟩ := by
  induction calls generalizing a with
  | nil =>
      obtain rfl := Option.some.inj hserve
      exact h
  | cons call calls ih =>
      obtain ⟨p, i⟩ := call
      unfold Interleaving.serveAll at hserve
      split at hserve
      · rename_i harrives
        obtain ⟨b, hb, hserve⟩ := Option.bind_eq_some_iff.mp hserve
        exact ih (Interleaved.serve (.tail (.arrive p) h harrives rfl) hb) hserve
      · simp at hserve

/-- A serial run that goes through, from the start. -/
lemma interleaved_get {n : Nat} {calls : List (π × ι)}
    (h : (serveAll exec arrives ok n init calls).isSome = true) :
    Interleaved exec arrives ok init ⟨(serveAll exec arrives ok n init calls).get h, []⟩ :=
  Interleaved.serveAll .refl (Option.some_get h).symm

end Serve

end Interleaving
