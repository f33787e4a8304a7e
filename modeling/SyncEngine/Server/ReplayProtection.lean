import Mathlib.Data.Fintype.Basic
import Mathlib.Logic.Function.Basic
import SyncEngine.Lib.Transition
import SyncEngine.Server.ReplayGuard

/-!
# Replay protection over time

Any number of calls, on any number of workers, that ask the replay guard about their nonces and
store their rows when they have passed.  The check in Redis, the one in the operations table, and
the INSERT of the row are separate steps; between them time passes, other calls move, and the two
stores come and go.  `ask_askTable` connects the steps with `isReplay`.

The nonce of an accepted operation is in one of the two stores at first: in Redis if the check
went there, with the time of the check, and in the table from the moment the row is stored.
`rows_apart` says what the two checks must not miss for the protection to hold.
-/

namespace SyncEngine

open Transition

/-! ## The calls -/

/-- How far a call of `isReplay` has come. -/
inductive GuardStage where
  /-- Awaits the SET in Redis. -/
  | checking
  /-- Redis has thrown; awaits `nonceExists`. -/
  | fallback
  /-- Not a replay; the row is still to be stored. -/
  | passed
  | done
deriving DecidableEq

/-- A call, with its document and nonce. -/
structure GuardCall where
  docId : JSString
  nonce : JSString
  stage : GuardStage
deriving DecidableEq

/-- A row of the operations table, with the time at which it was stored. -/
structure NonceRow where
  docId : JSString
  nonce : JSString
  storedAt : Nat
deriving DecidableEq

/-- The calls, Redis with its keys, and the rows. -/
structure GuardedCalls (K : Type*) where
  /-- `config.security.replayWindowSeconds`. -/
  seconds : Nat
  now : Nat
  available : Availability
  keys : NonceKeys
  rows : List NonceRow
  calls : K → Option GuardCall

/-- What happens to a call, to time, or to the stores. -/
inductive GuardAction (K : Type*) where
  | begin (k : K) (docId nonce : JSString)
  | tick (seconds : Nat)
  /-- Redis or PostgreSQL goes down or comes back. -/
  | outage (available : Availability)
  /-- The SET, or its error. -/
  | ask (k : K)
  | askTable (k : K)
  /-- The row is stored. -/
  | append (k : K)
  /-- The call ends without storing its row. -/
  | fail (k : K)

namespace GuardedCalls

variable {K : Type*}

/-- Nothing has been stored, and both stores are up. -/
def start (seconds : Nat) : GuardedCalls K :=
  ⟨seconds, 0, ⟨true, true⟩, [], [], fun _ => none⟩

variable [DecidableEq K]

/-- A call goes on to another stage. -/
def callAt (s : GuardedCalls K) (k : K) (call : GuardCall) (stage : GuardStage) : GuardedCalls K :=
  { s with calls := Function.update s.calls k (some { call with stage := stage }) }

/-- `redis.set(…, 'NX')`: without an answer the call falls back to the table. -/
def ask (s : GuardedCalls K) (k : K) (call : GuardCall) : GuardedCalls K :=
  if s.available.redisAnswers s.seconds then
    let (keys, set) := s.keys.setNX s.now s.seconds call.docId call.nonce
    ({ s with keys := keys } : GuardedCalls K).callAt k call (if set then .passed else .done)
  else s.callAt k call .fallback

/-- `nonceExists`; without an answer the operation is rejected. -/
def askTable (s : GuardedCalls K) (k : K) (call : GuardCall) : GuardedCalls K :=
  if s.available.postgres then
    s.callAt k call (if nonceExists (s.rows.map NonceRow.nonce) call.nonce then .done else .passed)
  else s.callAt k call .done

/-- The row of the call is stored. -/
def append (s : GuardedCalls K) (k : K) (call : GuardCall) : GuardedCalls K :=
  ({ s with rows := s.rows ++ [⟨call.docId, call.nonce, s.now⟩] } : GuardedCalls K).callAt k call
    .done

/-- The call, if it is at the stage. -/
def callIn (s : GuardedCalls K) (k : K) (stage : GuardStage) : Option GuardCall :=
  (s.calls k).filter fun call => call.stage = stage

/-- One action, if it can happen. -/
def step (s : GuardedCalls K) : GuardAction K → Option (GuardedCalls K)
  | .begin k docId nonce =>
      match s.calls k with
      | none => some { s with calls := Function.update s.calls k (some ⟨docId, nonce, .checking⟩) }
      | some _ => none
  | .tick seconds => some { s with now := s.now + seconds }
  | .outage available => some { s with available := available }
  | .ask k => (s.callIn k .checking).map (s.ask k)
  | .askTable k => (s.callIn k .fallback).map (s.askTable k)
  | .append k =>
      if s.available.postgres then (s.callIn k .passed).map (s.append k) else none
  | .fail k => (s.callIn k .passed).map fun call => s.callAt k call .done

@[simp] lemma calls_callAt_self (s : GuardedCalls K) (k : K) (call : GuardCall)
    (stage : GuardStage) : (s.callAt k call stage).calls k = some { call with stage := stage } :=
  Function.update_self ..

omit [DecidableEq K] in
lemma callIn_eq_some {s : GuardedCalls K} {k : K} {stage : GuardStage} {call : GuardCall} :
    s.callIn k stage = some call ↔ s.calls k = some call ∧ call.stage = stage := by
  rw [callIn, Option.filter_eq_some_iff, decide_eq_true_eq]

/-- Both checks, made without interruption. -/
def askBoth (s : GuardedCalls K) (k : K) (call : GuardCall) : GuardedCalls K :=
  match (s.ask k call).callIn k .fallback with
  | some waiting => (s.ask k call).askTable k waiting
  | none => s.ask k call

/-- **Uninterrupted, the two checks are `isReplay`.** -/
theorem askBoth_eq (s : GuardedCalls K) (k : K) (call : GuardCall) :
    let (keys, replay) := isReplay s.available s.seconds s.now s.keys (s.rows.map NonceRow.nonce)
      call.docId call.nonce
    (s.askBoth k call).keys = keys ∧
      (s.askBoth k call).calls k =
        some { call with stage := if replay then .done else .passed } := by
  cases hredis : s.available.redisAnswers s.seconds with
  | true =>
      have hask : s.ask k call = ({ s with
          keys := (s.keys.setNX s.now s.seconds call.docId call.nonce).1 } :
            GuardedCalls K).callAt k call
              (if (s.keys.setNX s.now s.seconds call.docId call.nonce).2 then .passed
                else .done) := by
        rw [ask, if_pos hredis]
      have hdone : (s.ask k call).callIn k .fallback = none := by
        rw [hask, callIn, calls_callAt_self]
        cases (s.keys.setNX s.now s.seconds call.docId call.nonce).2 <;> rfl
      simp only [askBoth, hdone, isReplay, hredis, if_true]
      rw [hask]
      refine ⟨rfl, (calls_callAt_self ..).trans ?_⟩
      cases (s.keys.setNX s.now s.seconds call.docId call.nonce).2 <;> rfl
  | false =>
      have hask : s.ask k call = s.callAt k call .fallback := by
        rw [ask, if_neg (by simp [hredis])]
      have hfallback :
          (s.ask k call).callIn k .fallback = some { call with stage := .fallback } := by
        rw [hask, callIn_eq_some]
        exact ⟨calls_callAt_self .., rfl⟩
      simp only [askBoth, hfallback, isReplay, hredis, Bool.false_eq_true, if_false]
      rw [hask, askTable]
      cases hpostgres : s.available.postgres with
      | true =>
          have hanswers : (s.callAt k call .fallback).available.postgres = true := hpostgres
          rw [if_pos hanswers]
          exact ⟨rfl, calls_callAt_self ..⟩
      | false =>
          rw [if_neg (by simp [callAt, hpostgres])]
          exact ⟨rfl, calls_callAt_self ..⟩

/-! ## The property -/

/-- An accepted nonce is not stored again within the window. -/
def RowsApart (s : GuardedCalls K) : Prop :=
  s.rows.Pairwise fun row later => row.docId = later.docId → row.nonce = later.nonce →
    row.storedAt + s.seconds < later.storedAt

/-- A call with the nonce has passed and has not stored its row yet. -/
def Pending (s : GuardedCalls K) (docId nonce : JSString) : Prop :=
  ∃ k, ∃ call ∈ s.callIn k .passed, call.docId = docId ∧ call.nonce = nonce

/-- A row with the nonce was stored, no longer ago than the window. -/
def StoredRecently (s : GuardedCalls K) (docId nonce : JSString) : Prop :=
  ∃ row ∈ s.rows, row.docId = docId ∧ row.nonce = nonce ∧ s.now ≤ row.storedAt + s.seconds

/-- A check that is answered misses nothing: Redis still has the nonce if an operation with it is
about to be stored or was stored within the window; and when the table is asked about a nonce that
it does not have, no operation with that nonce is about to be stored. -/
def ChecksSee (s : GuardedCalls K) : GuardAction K → Prop
  | .ask k => ∀ call ∈ s.callIn k .checking, s.available.redisAnswers s.seconds = true →
      s.Pending call.docId call.nonce ∨ s.StoredRecently call.docId call.nonce →
        s.keys.has s.now call.docId call.nonce = true
  | .askTable k => ∀ call ∈ s.callIn k .fallback, s.available.postgres = true →
      s.Pending call.docId call.nonce →
        nonceExists (s.rows.map NonceRow.nonce) call.nonce = true
  | _ => True

section Decidable

variable [Fintype K] (s : GuardedCalls K)

instance (docId nonce : JSString) : Decidable (s.Pending docId nonce) :=
  inferInstanceAs (Decidable (∃ k, ∃ call ∈ s.callIn k .passed, _))

instance (docId nonce : JSString) : Decidable (s.StoredRecently docId nonce) :=
  inferInstanceAs (Decidable (∃ row ∈ s.rows, _))

instance : DecidablePred s.ChecksSee
  | .ask k => inferInstanceAs (Decidable (∀ call ∈ s.callIn k .checking, _))
  | .askTable k => inferInstanceAs (Decidable (∀ call ∈ s.callIn k .fallback, _))
  | .begin .. => isTrue trivial
  | .tick _ => isTrue trivial
  | .outage _ => isTrue trivial
  | .append _ => isTrue trivial
  | .fail _ => isTrue trivial

instance : Decidable s.RowsApart := inferInstanceAs (Decidable (List.Pairwise _ _))

end Decidable

/-! ## The invariant -/

/-- What holds along every run whose checks miss nothing. -/
structure Guarded (s : GuardedCalls K) : Prop where
  rows_le : ∀ row ∈ s.rows, row.storedAt ≤ s.now
  apart : s.RowsApart
  /-- Of the operations with one nonce at most one is about to be stored … -/
  alone : ∀ k k' call call', s.callIn k .passed = some call → s.callIn k' .passed = some call' →
    call.docId = call'.docId → call.nonce = call'.nonce → k = k'
  /-- … and then none was stored within the window. -/
  quiet : ∀ k call, s.callIn k .passed = some call → ¬ s.StoredRecently call.docId call.nonce

omit [DecidableEq K] in
lemma guarded_start (seconds : Nat) : (start seconds : GuardedCalls K).Guarded where
  rows_le := by simp [start]
  apart := List.Pairwise.nil
  alone := by simp [start, callIn]
  quiet := by simp [start, callIn]

lemma callIn_callAt (s : GuardedCalls K) {k k' : K} {call : GuardCall} {stage stage' : GuardStage} :
    (s.callAt k call stage).callIn k' stage' =
      if k' = k then (if stage = stage' then some { call with stage := stage } else none)
      else s.callIn k' stage' := by
  by_cases hk : k' = k
  · subst hk
    rw [if_pos rfl, callIn, calls_callAt_self, Option.filter_some]
    simp
  · rw [if_neg hk, callIn, callIn, callAt]
    simp only [Function.update_of_ne hk]

section Step

variable {s s' : GuardedCalls K} {k : K} {call : GuardCall}

lemma Guarded.callAt (h : s.Guarded) {stage : GuardStage} (hstage : stage ≠ .passed) :
    (s.callAt k call stage).Guarded := by
  have hpassed : ∀ k' call', (s.callAt k call stage).callIn k' .passed = some call' →
      s.callIn k' .passed = some call' := by
    intro k' call' hcall'
    rw [callIn_callAt] at hcall'
    split at hcall'
    · simp at hcall'
    · exact hcall'
  exact ⟨h.rows_le, h.apart,
    fun k₁ k₂ c₁ c₂ h₁ h₂ => h.alone k₁ k₂ c₁ c₂ (hpassed k₁ c₁ h₁) (hpassed k₂ c₂ h₂),
    fun k₁ c₁ h₁ => h.quiet k₁ c₁ (hpassed k₁ c₁ h₁)⟩

/-- A call passes whose nonce no other call is about to store and none has stored of late. -/
lemma Guarded.pass (h : s.Guarded) (hpending : ¬ s.Pending call.docId call.nonce)
    (hrecent : ¬ s.StoredRecently call.docId call.nonce) : (s.callAt k call .passed).Guarded := by
  have hpassed : ∀ k' call', (s.callAt k call .passed).callIn k' .passed = some call' →
      k' = k ∧ call' = { call with stage := .passed } ∨ s.callIn k' .passed = some call' := by
    intro k' call' hcall'
    rw [callIn_callAt] at hcall'
    split at hcall'
    · rename_i hk
      exact Or.inl ⟨hk, (Option.some.inj hcall').symm⟩
    · exact Or.inr hcall'
  refine ⟨h.rows_le, h.apart, fun k₁ k₂ c₁ c₂ h₁ h₂ hdoc hnonce => ?_, fun k₁ c₁ h₁ => ?_⟩
  · rcases hpassed k₁ c₁ h₁ with ⟨hk₁, hc₁⟩ | hold₁ <;>
      rcases hpassed k₂ c₂ h₂ with ⟨hk₂, hc₂⟩ | hold₂
    · exact hk₁.trans hk₂.symm
    · subst hc₁
      exact absurd ⟨k₂, c₂, hold₂, hdoc.symm, hnonce.symm⟩ hpending
    · subst hc₂
      exact absurd ⟨k₁, c₁, hold₁, hdoc, hnonce⟩ hpending
    · exact h.alone k₁ k₂ c₁ c₂ hold₁ hold₂ hdoc hnonce
  · rcases hpassed k₁ c₁ h₁ with ⟨-, rfl⟩ | h₁
    · exact hrecent
    · exact h.quiet k₁ c₁ h₁

omit [DecidableEq K] in
lemma Guarded.of_keys (h : s.Guarded) (keys : NonceKeys) :
    ({ s with keys := keys } : GuardedCalls K).Guarded := ⟨h.rows_le, h.apart, h.alone, h.quiet⟩

lemma Guarded.ask (h : s.Guarded) (hcall : s.callIn k .checking = some call)
    (hsee : s.ChecksSee (.ask k)) : (s.ask k call).Guarded := by
  rw [GuardedCalls.ask]
  by_cases hredis : s.available.redisAnswers s.seconds = true
  · rw [if_pos hredis]
    by_cases hhas : s.keys.has s.now call.docId call.nonce = true
    · simp only [NonceKeys.setNX, hhas, if_true]
      exact (h.of_keys _).callAt (by simp)
    · have hnone := mt (hsee call hcall hredis) hhas
      rw [not_or] at hnone
      rw [NonceKeys.setNX, if_neg hhas]
      exact (h.of_keys _).pass hnone.1 hnone.2
  · rw [if_neg hredis]
    exact h.callAt (by simp)

lemma Guarded.askTable (h : s.Guarded) (hcall : s.callIn k .fallback = some call)
    (hsee : s.ChecksSee (.askTable k)) : (s.askTable k call).Guarded := by
  rw [GuardedCalls.askTable]
  by_cases hpostgres : s.available.postgres = true
  · rw [if_pos hpostgres]
    by_cases hexists : nonceExists (s.rows.map NonceRow.nonce) call.nonce = true
    · rw [if_pos hexists]
      exact h.callAt (by simp)
    · rw [if_neg hexists]
      refine h.pass (mt (hsee call hcall hpostgres) hexists) ?_
      rintro ⟨row, hrow, -, hnonce, -⟩
      exact hexists (List.contains_iff_mem.mpr (List.mem_map.mpr ⟨row, hrow, hnonce⟩))
  · rw [if_neg hpostgres]
    exact h.callAt (by simp)

/-- The row is stored long after the others with its nonce. -/
lemma Guarded.append (h : s.Guarded) (hcall : s.callIn k .passed = some call) :
    (s.append k call).Guarded := by
  have hpassed : ∀ k' call', (s.append k call).callIn k' .passed = some call' →
      k' ≠ k ∧ s.callIn k' .passed = some call' := by
    intro k' call' hcall'
    rw [GuardedCalls.append, callIn_callAt] at hcall'
    split at hcall'
    · simp at hcall'
    · rename_i hk
      exact ⟨hk, hcall'⟩
  refine ⟨?_, ?_, fun k₁ k₂ c₁ c₂ h₁ h₂ => ?_, fun k₁ c₁ h₁ => ?_⟩
  · intro row hrow
    rcases List.mem_append.mp hrow with hrow | hrow
    · exact h.rows_le row hrow
    · rw [List.mem_singleton.mp hrow]
      exact Nat.le_refl _
  · refine List.pairwise_append.mpr ⟨h.apart, List.pairwise_singleton _ _, ?_⟩
    intro row hrow later hlater hdoc hnonce
    obtain rfl := List.mem_singleton.mp hlater
    by_contra hlt
    exact h.quiet k call hcall ⟨row, hrow, hdoc, hnonce, Nat.not_lt.mp hlt⟩
  · exact h.alone k₁ k₂ c₁ c₂ (hpassed k₁ c₁ h₁).2 (hpassed k₂ c₂ h₂).2
  · obtain ⟨hne, hold⟩ := hpassed k₁ c₁ h₁
    rintro ⟨row, hrow, hdoc, hnonce, hle⟩
    rcases List.mem_append.mp hrow with hrow | hrow
    · exact h.quiet k₁ c₁ hold ⟨row, hrow, hdoc, hnonce, hle⟩
    · rw [List.mem_singleton.mp hrow] at hdoc hnonce
      exact hne (h.alone k₁ k c₁ call hold hcall hdoc.symm hnonce.symm)

omit [DecidableEq K] in
lemma Guarded.tick (h : s.Guarded) (seconds : Nat) :
    ({ s with now := s.now + seconds } : GuardedCalls K).Guarded := by
  refine ⟨fun row hrow => (h.rows_le row hrow).trans (Nat.le_add_right _ _), h.apart, h.alone, ?_⟩
  rintro k call hcall ⟨row, hrow, hdoc, hnonce, hle⟩
  exact h.quiet k call hcall ⟨row, hrow, hdoc, hnonce, (Nat.le_add_right _ _).trans hle⟩

lemma Guarded.step {a : GuardAction K} (h : s.Guarded) (hsee : s.ChecksSee a)
    (hstep : s.step a = some s') : s'.Guarded := by
  cases a with
  | begin k docId nonce =>
      simp only [GuardedCalls.step] at hstep
      split at hstep
      · obtain rfl := Option.some.inj hstep
        show (s.callAt k ⟨docId, nonce, .checking⟩ .checking).Guarded
        exact h.callAt (by simp)
      · simp at hstep
  | tick seconds =>
      obtain rfl := Option.some.inj hstep
      exact h.tick seconds
  | outage available =>
      obtain rfl := Option.some.inj hstep
      exact ⟨h.rows_le, h.apart, h.alone, h.quiet⟩
  | ask k =>
      obtain ⟨call, hcall, rfl⟩ := Option.map_eq_some_iff.mp hstep
      exact h.ask hcall hsee
  | askTable k =>
      obtain ⟨call, hcall, rfl⟩ := Option.map_eq_some_iff.mp hstep
      exact h.askTable hcall hsee
  | append k =>
      simp only [GuardedCalls.step] at hstep
      split at hstep
      · obtain ⟨call, hcall, rfl⟩ := Option.map_eq_some_iff.mp hstep
        exact h.append hcall
      · simp at hstep
  | fail k =>
      obtain ⟨call, hcall, rfl⟩ := Option.map_eq_some_iff.mp hstep
      exact h.callAt (by simp)

end Step

/-! ## Runs -/

/-- **Replay protection holds** along every run whose checks miss nothing: Redis, when it answers,
still has the nonce of every operation that is about to be stored or was stored within the window,
and the table is never asked about a nonce it lacks while an operation with it is about to be
stored. -/
theorem rows_apart {seconds : Nat} {s : GuardedCalls K}
    (h : Reach step ChecksSee (start seconds) s) : s.RowsApart :=
  (h.invariant (guarded_start seconds) fun _ _ _ hs hsee hstep => hs.step hsee hstep).apart

/-! ## Two runs -/

/-- A message that both calls carry. -/
def beginMessage (k : Bool) : GuardAction Bool :=
  .begin k (JSString.lit "d") (JSString.lit "n")

/-- A message is stored with both stores up, and rejected when it comes again. -/
theorem rows_apart_rejected :
    ((runAllowed step ChecksSee (start 300) [beginMessage true, .ask true, .append true, .tick 1,
      beginMessage false, .ask false]).get (by decide) : GuardedCalls Bool).RowsApart :=
  rows_apart (reach_get _)

/-- A message is stored while Redis is down, and comes again when Redis is back. -/
def afterOutage : GuardedCalls Bool :=
  (runAllowed step (fun _ _ => True) (start 300)
    [.outage ⟨false, true⟩, beginMessage true, .ask true, .askTable true, .append true,
      .outage ⟨true, true⟩, .tick 1, beginMessage false, .ask false, .append false]).get (by decide)

/-- It is stored twice within a second. -/
theorem not_forall_rowsApart :
    ¬ ∀ (seconds : Nat) (s : GuardedCalls Bool),
      Reach step (fun _ _ => True) (start seconds) s → s.RowsApart := by
  intro h
  exact absurd (h 300 afterOutage (reach_get _)) (by decide)

end GuardedCalls

end SyncEngine
