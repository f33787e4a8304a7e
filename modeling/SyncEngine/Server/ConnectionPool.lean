import Mathlib.Algebra.BigOperators.Group.List.Basic
import Mathlib.Algebra.GroupWithZero.Nat
import Mathlib.Algebra.Order.BigOperators.Group.List
import Mathlib.Data.List.MinMax
import SyncEngine.Lib.Transition

/-!
# Waiting for a database client

How requests share the clients of the connection pool and the row locks of PostgreSQL
(`withTransaction` and `query` in `server/persistence/db.ts`, and the stores that call them).

A transaction keeps its client, and the locks of the rows it has written, until it ends; a `query`
takes a client for itself.  The transactions lock rows in one order, that of the sequences before
that of the documents, which rules out a cycle of locks.  But `restoreToRevision` saves its
snapshot with `query`, within its transaction: it waits for a second client while it holds one,
and the lock of the document's sequence.

`stuck_asking` says that this is the only way to get stuck: the pool is exhausted and a
transaction waits for another client.  `frugal_completes` is what a transaction that uses its own
client only would give: whatever the order, every request is answered.  `exists_stuck` shows that
one restore is enough to block a pool of any size, with edits of the same document holding the
other clients.  Then nothing moves until the pool's timeout.
-/

namespace SyncEngine

open Transition

/-- What a request awaits of the database, over the rows `R`. -/
inductive DbStatement (R : Type*) where
  /-- A statement on the client of the request that waits for no other request. -/
  | own
  /-- One that takes the lock of a row. -/
  | lock (row : R)
  /-- A call of `query`, which takes another client from the pool. -/
  | pool
deriving DecidableEq

/-- The rows that are locked, in order. -/
def lockedRows {R : Type*} : List (DbStatement R) → List R
  | [] => []
  | .own :: rest => lockedRows rest
  | .lock row :: rest => row :: lockedRows rest
  | .pool :: rest => lockedRows rest

/-- The statements of a request, which lock rows in ascending order; BEGIN and COMMIT are among
those of a transaction. -/
structure Script (R : Type*) [LinearOrder R] where
  transaction : Bool
  statements : List (DbStatement R)
  ordered : (lockedRows statements).Pairwise (· < ·)

namespace Script

variable {R : Type*} [LinearOrder R]

/-- A `query` outside of a transaction, which locks no row for long. -/
def query : Script R := ⟨false, [.own], by simp [lockedRows]⟩

/-- `appendOperation` without a client: `next_doc_seq` locks the sequence of the document. -/
def appendOperation (sequence : R) : Script R :=
  ⟨false, [.lock sequence], by simp [lockedRows]⟩

/-- `restoreToRevision`, with the snapshot saved by `query`, and the row that is there read by
another one if there is a conflict. -/
def restoreToRevision (sequence document : R) (h : sequence < document) (conflict : Bool) :
    Script R where
  transaction := true
  statements := [.own, .lock sequence, .pool] ++ (if conflict then [.pool] else []) ++
    [.lock document, .own, .own]
  ordered := by cases conflict <;> simp [lockedRows, h]

/-- The document, the permission of its owner and the audit row, between BEGIN and COMMIT. -/
def createDocument : Script R :=
  ⟨true, [.own, .own, .own, .own, .own], by simp [lockedRows]⟩

/-- The UPDATE locks the document's row. -/
def softDeleteDocument (document : R) : Script R :=
  ⟨true, [.own, .lock document, .own, .own], by simp [lockedRows]⟩

/-- `acceptInvitation`, of an invitation by e-mail or by link. -/
def acceptInvitation (permission invitation : R) (h : permission < invitation) (email : Bool) :
    Script R where
  transaction := true
  statements := [.own, .own, .lock permission] ++ (if email then [.lock invitation] else []) ++
    [.own, .own]
  ordered := by cases email <;> simp [lockedRows, h]

/-- The UPDATE locks the invitation's row; one by link is left pending. -/
def rejectInvitation (invitation : R) (email : Bool) : Script R where
  transaction := true
  statements := [.own, .own] ++ (if email then [.lock invitation] else []) ++ [.own, .own]
  ordered := by cases email <;> simp [lockedRows]

end Script

/-- How far a request has come. -/
inductive TaskStage where
  /-- Awaits a client. -/
  | connecting
  /-- Awaits its next statement, or releases its client. -/
  | running
  /-- Awaits a second client. -/
  | asking
  /-- Awaits a statement on the second client. -/
  | borrowing
  /-- Awaits ROLLBACK. -/
  | rollingBack
  | done (ok : Bool)
deriving DecidableEq

/-- A request, with what is left of its statements and the rows it has locked. -/
structure PoolTask (R : Type*) where
  transaction : Bool
  stage : TaskStage
  rest : List (DbStatement R)
  locked : List R
deriving DecidableEq

namespace PoolTask

variable {R : Type*} [DecidableEq R]

/-- The clients the request has. -/
def clients (t : PoolTask R) : Nat :=
  match t.stage with
  | .connecting => 0
  | .running => 1
  | .asking => 1
  | .borrowing => 2
  | .rollingBack => 1
  | .done _ => 0

/-- The request is over; its locks are released. -/
def finish (t : PoolTask R) (ok : Bool) : PoolTask R :=
  { t with stage := .done ok, locked := [] }

/-- What it awaits comes back, if there is room for another client and the row is free. -/
def proceed (room : Bool) (free : R → Bool) (t : PoolTask R) : Option (PoolTask R) :=
  match t.stage, t.rest with
  | .connecting, _ => if room then some { t with stage := .running } else none
  | .running, [] => some (t.finish true)
  | .running, .own :: rest => some { t with rest := rest }
  | .running, .lock row :: rest =>
      if free row then some { t with rest := rest, locked := t.locked ++ [row] } else none
  | .running, .pool :: rest => some { t with stage := .asking, rest := rest }
  | .asking, _ => if room then some { t with stage := .borrowing } else none
  | .borrowing, _ => some { t with stage := .running }
  | .rollingBack, _ => some (t.finish false)
  | .done _, _ => none

/-- What it awaits throws, or times out; a ROLLBACK that throws releases the client as well. -/
def fail (t : PoolTask R) : Option (PoolTask R) :=
  match t.stage with
  | .connecting => some (t.finish false)
  | .running =>
      if t.transaction then some { t with stage := .rollingBack } else some (t.finish false)
  | .asking => some { t with stage := .rollingBack }
  | .borrowing => some { t with stage := .rollingBack }
  | .rollingBack => some (t.finish false)
  | .done _ => none

end PoolTask

/-- The requests so far. -/
structure ConnectionPool (R : Type*) where
  tasks : List (PoolTask R)
deriving DecidableEq

/-- A request begins, gets what it awaits, or fails. -/
inductive PoolEvent (R : Type*) [LinearOrder R] where
  | begin (script : Script R)
  | proceed (i : Nat)
  | fail (i : Nat)

namespace ConnectionPool

variable {R : Type*} [LinearOrder R] (max : Nat)

/-- The clients that are in use. -/
def held (s : ConnectionPool R) : Nat := (s.tasks.map PoolTask.clients).sum

/-- Nobody has locked the row. -/
def free (s : ConnectionPool R) (row : R) : Bool := s.tasks.all fun t => !t.locked.contains row

/-- One event, if it can happen in a pool of `max` clients. -/
def step (s : ConnectionPool R) : PoolEvent R → Option (ConnectionPool R)
  | .begin script =>
      some ⟨s.tasks ++ [⟨script.transaction, .connecting, script.statements, []⟩]⟩
  | .proceed i => do
      let t ← s.tasks[i]?
      let t' ← t.proceed (s.held < max) s.free
      some ⟨s.tasks.set i t'⟩
  | .fail i => do
      let t ← s.tasks[i]?
      let t' ← t.fail
      some ⟨s.tasks.set i t'⟩

/-- No request yet. -/
def start : ConnectionPool R := ⟨[]⟩

/-- The pool after any events. -/
def Reachable (s : ConnectionPool R) : Prop := Reach (step max) (fun _ _ => True) start s

/-- Requests are not over, and none of them gets what it awaits. -/
def Stuck (s : ConnectionPool R) : Prop :=
  (∃ t ∈ s.tasks, ∀ ok, t.stage ≠ .done ok) ∧ ∀ i, s.step max (.proceed i) = none

end ConnectionPool

/-! ## The steps of a request -/

namespace PoolTask

variable {R : Type*} {t t' : PoolTask R} {room : Bool} {free : R → Bool}

/-- How a request proceeds. -/
inductive Proceeds (room : Bool) (free : R → Bool) (t : PoolTask R) : PoolTask R → Prop
  | connect (hstage : t.stage = .connecting) (hroom : room = true) :
      Proceeds room free t { t with stage := .running }
  | release (hstage : t.stage = .running) (hrest : t.rest = []) :
      Proceeds room free t (t.finish true)
  | own (rest : List (DbStatement R)) (hstage : t.stage = .running)
      (hrest : t.rest = .own :: rest) :
      Proceeds room free t { t with rest := rest }
  | lock (row : R) (rest : List (DbStatement R)) (hstage : t.stage = .running)
      (hrest : t.rest = .lock row :: rest) (hfree : free row = true) :
      Proceeds room free t { t with rest := rest, locked := t.locked ++ [row] }
  | ask (rest : List (DbStatement R)) (hstage : t.stage = .running)
      (hrest : t.rest = .pool :: rest) :
      Proceeds room free t { t with stage := .asking, rest := rest }
  | borrow (hstage : t.stage = .asking) (hroom : room = true) :
      Proceeds room free t { t with stage := .borrowing }
  | giveBack (hstage : t.stage = .borrowing) : Proceeds room free t { t with stage := .running }
  | rolledBack (hstage : t.stage = .rollingBack) : Proceeds room free t (t.finish false)

lemma proceeds_of_proceed (h : t.proceed room free = some t') : Proceeds room free t t' := by
  unfold proceed at h
  split at h
  · split_ifs at h with hroom
    exact Option.some.inj h ▸ .connect ‹_› hroom
  · exact Option.some.inj h ▸ .release ‹_› ‹_›
  · exact Option.some.inj h ▸ .own _ ‹_› ‹_›
  · split_ifs at h with hfree
    exact Option.some.inj h ▸ .lock _ _ ‹_› ‹_› hfree
  · exact Option.some.inj h ▸ .ask _ ‹_› ‹_›
  · split_ifs at h with hroom
    exact Option.some.inj h ▸ .borrow ‹_› hroom
  · exact Option.some.inj h ▸ .giveBack ‹_›
  · exact Option.some.inj h ▸ .rolledBack ‹_›
  · simp at h

section Order

variable [LinearOrder R]

/-- The rows locked come before those still to be locked, and only a request with a client has
any. -/
structure Orderly (t : PoolTask R) : Prop where
  rest : (lockedRows t.rest).Pairwise (· < ·)
  locked : ∀ row ∈ t.locked, ∀ row' ∈ lockedRows t.rest, row < row'
  client : t.clients = 0 → t.locked = []

lemma orderly_finish (h : t.Orderly) (ok : Bool) : (t.finish ok).Orderly :=
  ⟨h.rest, by simp [finish], fun _ => rfl⟩

lemma orderly_stage (h : t.Orderly) {stage : TaskStage}
    (hclient : ({ t with stage := stage } : PoolTask R).clients ≠ 0) :
    ({ t with stage := stage } : PoolTask R).Orderly :=
  ⟨h.rest, h.locked, fun hnone => absurd hnone hclient⟩

lemma Orderly.proceed (h : t.Orderly) (hproceed : Proceeds room free t t') : t'.Orderly := by
  have hclient : t.stage = .running → t.clients ≠ 0 := fun hstage => by simp [clients, hstage]
  cases hproceed with
  | connect hstage hroom => exact orderly_stage h (by simp [clients])
  | release hstage hrest => exact orderly_finish h true
  | own rest hstage hrest =>
      refine ⟨?_, ?_, h.client⟩
      · have hordered := h.rest
        rwa [hrest] at hordered
      · have hlocked := h.locked
        rwa [hrest] at hlocked
  | lock row rest hstage hrest hfree =>
      obtain ⟨hfirst, hordered⟩ := List.pairwise_cons.mp (hrest ▸ h.rest : List.Pairwise _ (_ :: _))
      refine ⟨hordered, ?_, fun hnone => absurd hnone (hclient hstage)⟩
      intro r hr r' hr'
      rcases List.mem_append.mp hr with hr | hr
      · refine h.locked r hr r' ?_
        rw [hrest]
        exact List.mem_cons_of_mem row hr'
      · obtain rfl := List.mem_singleton.mp hr
        exact hfirst r' hr'
  | ask rest hstage hrest =>
      refine ⟨?_, ?_, fun hnone => by simp [clients] at hnone⟩
      · have hordered := h.rest
        rwa [hrest] at hordered
      · have hlocked := h.locked
        rwa [hrest] at hlocked
  | borrow hstage hroom => exact orderly_stage h (by simp [clients])
  | giveBack hstage => exact orderly_stage h (by simp [clients])
  | rolledBack hstage => exact orderly_finish h false

lemma Orderly.fail (h : t.Orderly) (hfail : t.fail = some t') : t'.Orderly := by
  unfold PoolTask.fail at hfail
  split at hfail
  · exact Option.some.inj hfail ▸ orderly_finish h false
  · split_ifs at hfail
    · exact Option.some.inj hfail ▸ orderly_stage h (by simp [clients])
    · exact Option.some.inj hfail ▸ orderly_finish h false
  · exact Option.some.inj hfail ▸ orderly_stage h (by simp [clients])
  · exact Option.some.inj hfail ▸ orderly_stage h (by simp [clients])
  · exact Option.some.inj hfail ▸ orderly_finish h false
  · simp at hfail

end Order

/-- A request takes a client only if there is room, and one at a time. -/
lemma clients_proceed (hproceed : Proceeds room free t t') :
    t'.clients ≤ t.clients ∨ room = true ∧ t'.clients = t.clients + 1 := by
  cases hproceed with
  | connect hstage hroom => exact .inr ⟨hroom, by simp [clients, hstage]⟩
  | release hstage hrest => exact .inl (Nat.zero_le _)
  | own rest hstage hrest => exact .inl (Nat.le_refl _)
  | lock row rest hstage hrest hfree => exact .inl (Nat.le_refl _)
  | ask rest hstage hrest => exact .inl (by simp [clients, hstage])
  | borrow hstage hroom => exact .inr ⟨hroom, by simp [clients, hstage]⟩
  | giveBack hstage => exact .inl (by simp [clients, hstage])
  | rolledBack hstage => exact .inl (Nat.zero_le _)

lemma clients_fail (hfail : t.fail = some t') : t'.clients ≤ t.clients := by
  unfold PoolTask.fail at hfail
  split at hfail
  · exact Option.some.inj hfail ▸ Nat.zero_le _
  · rename_i hstage
    split_ifs at hfail
    · exact Option.some.inj hfail ▸ (by simp [clients, hstage])
    · exact Option.some.inj hfail ▸ Nat.zero_le _
  · exact Option.some.inj hfail ▸ (by simp [clients, *])
  · exact Option.some.inj hfail ▸ (by simp [clients, *])
  · exact Option.some.inj hfail ▸ Nat.zero_le _
  · simp at hfail

/-- A request that is not over and does not proceed waits: for a client, for a second one, or for
a row. -/
lemma waits_of_proceed (h : t.proceed room free = none) :
    (∃ ok, t.stage = .done ok) ∨ (room = false ∧ (t.stage = .connecting ∨ t.stage = .asking)) ∨
      (t.stage = .running ∧ ∃ row rest, t.rest = .lock row :: rest ∧ free row = false) := by
  unfold proceed at h
  split at h
  · split_ifs at h with hroom
    exact .inr (.inl ⟨Bool.eq_false_iff.mpr hroom, .inl ‹_›⟩)
  · simp at h
  · simp at h
  · split_ifs at h with hfree
    exact .inr (.inr ⟨‹_›, _, _, ‹_›, Bool.eq_false_iff.mpr hfree⟩)
  · simp at h
  · split_ifs at h with hroom
    exact .inr (.inl ⟨Bool.eq_false_iff.mpr hroom, .inr ‹_›⟩)
  · simp at h
  · simp at h
  · exact .inl ⟨_, ‹_›⟩

/-- What is left to do, of a request that only proceeds. -/
def work (t : PoolTask R) : Nat :=
  match t.stage with
  | .connecting => 3 * t.rest.length + 2
  | .running => 3 * t.rest.length + 1
  | .asking => 3 * t.rest.length + 3
  | .borrowing => 3 * t.rest.length + 2
  | .rollingBack => 1
  | .done _ => 0

lemma work_proceed (hproceed : Proceeds room free t t') : t'.work < t.work := by
  cases hproceed with
  | connect hstage hroom => simp [work, hstage]
  | release hstage hrest => simp [work, hstage, finish]
  | own rest hstage hrest => simp [work, hstage, hrest]
  | lock row rest hstage hrest hfree => simp [work, hstage, hrest]
  | ask rest hstage hrest => simp only [work, hstage, hrest, List.length_cons]; omega
  | borrow hstage hroom => simp [work, hstage]
  | giveBack hstage => simp [work, hstage]
  | rolledBack hstage => simp [work, hstage, finish]

/-- A request that never asks for a second client. -/
def Frugal (t : PoolTask R) : Prop := .pool ∉ t.rest ∧ t.stage ≠ .asking

lemma Frugal.proceed (h : t.Frugal) (hproceed : Proceeds room free t t') : t'.Frugal := by
  obtain ⟨hpool, hstage⟩ := h
  cases hproceed with
  | connect _ hroom => exact ⟨hpool, by simp⟩
  | release _ hrest => exact ⟨hpool, by simp [finish]⟩
  | own rest _ hrest => exact ⟨fun hmem => hpool (hrest ▸ List.mem_cons_of_mem _ hmem), hstage⟩
  | lock row rest _ hrest hfree =>
      exact ⟨fun hmem => hpool (hrest ▸ List.mem_cons_of_mem _ hmem), hstage⟩
  | ask rest _ hrest => exact absurd (hrest ▸ List.mem_cons_self) hpool
  | borrow hasking hroom => exact absurd hasking hstage
  | giveBack _ => exact ⟨hpool, by simp⟩
  | rolledBack _ => exact ⟨hpool, by simp [finish]⟩

lemma Frugal.fail (h : t.Frugal) (hfail : t.fail = some t') : t'.Frugal := by
  obtain ⟨hpool, -⟩ := h
  unfold PoolTask.fail at hfail
  split at hfail
  · exact Option.some.inj hfail ▸ ⟨hpool, by simp [finish]⟩
  · split_ifs at hfail
    · exact Option.some.inj hfail ▸ ⟨hpool, by simp⟩
    · exact Option.some.inj hfail ▸ ⟨hpool, by simp [finish]⟩
  · exact Option.some.inj hfail ▸ ⟨hpool, by simp⟩
  · exact Option.some.inj hfail ▸ ⟨hpool, by simp⟩
  · exact Option.some.inj hfail ▸ ⟨hpool, by simp [finish]⟩
  · simp at hfail

end PoolTask

/-! ## The pool -/

namespace ConnectionPool

variable {R : Type*} [LinearOrder R] {max : Nat} {s s' : ConnectionPool R} {i : Nat}

/-- How a step changes the list of requests. -/
inductive Changes (max : Nat) (s : ConnectionPool R) : PoolEvent R → ConnectionPool R → Prop
  | begin (script : Script R) :
      Changes max s (.begin script)
        ⟨s.tasks ++ [⟨script.transaction, .connecting, script.statements, []⟩]⟩
  | proceed (i : Nat) (t t' : PoolTask R) (ht : s.tasks[i]? = some t)
      (hproceed : PoolTask.Proceeds (s.held < max) s.free t t') :
      Changes max s (.proceed i) ⟨s.tasks.set i t'⟩
  | fail (i : Nat) (t t' : PoolTask R) (ht : s.tasks[i]? = some t) (hfail : t.fail = some t') :
      Changes max s (.fail i) ⟨s.tasks.set i t'⟩

lemma changes_of_step {event : PoolEvent R} (h : s.step max event = some s') :
    Changes max s event s' := by
  cases event with
  | begin script => exact Option.some.inj h ▸ .begin script
  | proceed i =>
      obtain ⟨t, ht, h⟩ := Option.bind_eq_some_iff.mp h
      obtain ⟨t', hproceed, h⟩ := Option.bind_eq_some_iff.mp h
      exact Option.some.inj h ▸ .proceed i t t' ht (PoolTask.proceeds_of_proceed hproceed)
  | fail i =>
      obtain ⟨t, ht, h⟩ := Option.bind_eq_some_iff.mp h
      obtain ⟨t', hfail, h⟩ := Option.bind_eq_some_iff.mp h
      exact Option.some.inj h ▸ .fail i t t' ht hfail

omit [LinearOrder R] in
lemma sum_map_set {l : List (PoolTask R)} {t : PoolTask R} (f : PoolTask R → Nat)
    (ht : l[i]? = some t) (t' : PoolTask R) :
    ((l.set i t').map f).sum + f t = (l.map f).sum + f t' := by
  induction l generalizing i with
  | nil => simp at ht
  | cons a l ih =>
      cases i with
      | zero =>
          obtain rfl := Option.some.inj ht
          simp only [List.set_cons_zero, List.map_cons, List.sum_cons]
          omega
      | succ i =>
          have hrest := ih ht
          simp only [List.set_cons_succ, List.map_cons, List.sum_cons]
          omega

omit [LinearOrder R] in
lemma held_set {t : PoolTask R} (ht : s.tasks[i]? = some t) (t' : PoolTask R) :
    (⟨s.tasks.set i t'⟩ : ConnectionPool R).held + t.clients = s.held + t'.clients :=
  sum_map_set PoolTask.clients ht t'

/-- What holds of a pool at any time. -/
structure Sound (max : Nat) (s : ConnectionPool R) : Prop where
  within : s.held ≤ max
  orderly : ∀ t ∈ s.tasks, t.Orderly

lemma sound_step {event : PoolEvent R} (h : s.Sound max) (hstep : s.step max event = some s') :
    s'.Sound max := by
  cases changes_of_step hstep with
  | begin script =>
      constructor
      · simp only [held, List.map_append, List.sum_append, List.map_singleton, List.sum_singleton,
          PoolTask.clients, Nat.add_zero]
        exact h.within
      · intro t ht
        rcases List.mem_append.mp ht with ht | ht
        · exact h.orderly t ht
        · obtain rfl := List.mem_singleton.mp ht
          exact ⟨script.ordered, by simp, fun _ => rfl⟩
  | proceed i t t' ht hproceed =>
      have hsum := held_set ht t'
      have hwithin := h.within
      constructor
      · rcases PoolTask.clients_proceed hproceed with hle | ⟨hroom, hsucc⟩
        · omega
        · have hroom := of_decide_eq_true hroom
          omega
      · intro u hu
        rcases List.mem_or_eq_of_mem_set hu with hu | rfl
        · exact h.orderly u hu
        · exact (h.orderly t (List.mem_of_getElem? ht)).proceed hproceed
  | fail i t t' ht hfail =>
      have hsum := held_set ht t'
      have hwithin := h.within
      have hle := PoolTask.clients_fail hfail
      constructor
      · omega
      · intro u hu
        rcases List.mem_or_eq_of_mem_set hu with hu | rfl
        · exact h.orderly u hu
        · exact (h.orderly t (List.mem_of_getElem? ht)).fail hfail

lemma sound_start : (start : ConnectionPool R).Sound max := by
  constructor
  · exact Nat.zero_le max
  · simp [start]

lemma sound_of_reachable (h : s.Reachable max) : s.Sound max :=
  h.invariant sound_start fun _ _ _ hs _ hstep => sound_step hs hstep

/-! ## What a pool that is stuck waits for -/

/-- The request waits for the row. -/
def Awaits (s : ConnectionPool R) (t : PoolTask R) (row : R) : Prop :=
  t.stage = .running ∧ ∃ rest, t.rest = .lock row :: rest ∧ s.free row = false

/-- Where every row with a property has a greater one, no row of a list has it. -/
lemma not_of_ascending (rows : List R) {P : R → Prop} (hrows : ∀ row, P row → row ∈ rows)
    (hascend : ∀ row, P row → ∃ row', P row' ∧ row < row') (row : R) : ¬ P row := by
  classical
  intro hrow
  have hmem : ∀ row, P row → row ∈ rows.filter fun row => P row := fun row h =>
    List.mem_filter.mpr ⟨hrows row h, decide_eq_true h⟩
  have hpos := List.length_pos_of_mem (hmem row hrow)
  have hmax := List.maximum_of_length_pos_mem hpos
  obtain ⟨row', hrow', hlt⟩ := hascend _ (of_decide_eq_true (List.mem_filter.mp hmax).2)
  exact absurd (List.le_maximum_of_length_pos_of_mem (hmem row' hrow') hpos) (not_le.mpr hlt)

/-- **Locks alone do not get stuck**: if the requests with a client all wait for rows, there are
none. -/
lemma not_awaits (h : s.Sound max)
    (hwaits : ∀ t ∈ s.tasks, t.clients ≠ 0 → ∃ row, s.Awaits t row) (row : R) :
    ¬ ∃ t ∈ s.tasks, s.Awaits t row := by
  refine not_of_ascending (s.tasks.flatMap fun t => lockedRows t.rest)
    (P := fun row => ∃ t ∈ s.tasks, s.Awaits t row) ?_ ?_ row
  · rintro row ⟨t, ht, -, rest, hrest, -⟩
    refine List.mem_flatMap.mpr ⟨t, ht, ?_⟩
    rw [hrest]
    exact List.mem_cons_self
  · rintro row ⟨-, -, -, -, -, hlocked⟩
    -- whoever has the row waits for a greater one
    obtain ⟨t, ht, hrow⟩ : ∃ t ∈ s.tasks, row ∈ t.locked := by
      simpa [free] using hlocked
    have horderly := h.orderly t ht
    obtain ⟨row', hawaits⟩ := hwaits t ht fun hnone => by
      rw [horderly.client hnone] at hrow
      simp at hrow
    refine ⟨row', ⟨t, ht, hawaits⟩, horderly.locked row hrow row' ?_⟩
    obtain ⟨-, rest, hrest, -⟩ := hawaits
    rw [hrest]
    exact List.mem_cons_self

/-- **Stuck means that a transaction wants a second client**: in a pool in which no request gets
what it awaits, all clients are taken, and a transaction that has one asks for another. -/
theorem stuck_asking (hmax : 0 < max) (h : s.Reachable max) (hstuck : s.Stuck max) :
    s.held = max ∧ ∃ t ∈ s.tasks, t.stage = .asking := by
  have hsound := sound_of_reachable h
  obtain ⟨⟨t, ht, hopen⟩, hnone⟩ := hstuck
  -- what each request waits for
  have hwaits : ∀ t ∈ s.tasks, (∃ ok, t.stage = .done ok) ∨
      (¬ s.held < max ∧ (t.stage = .connecting ∨ t.stage = .asking)) ∨
        ∃ row, s.Awaits t row := by
    intro t ht
    obtain ⟨i, hi, rfl⟩ := List.mem_iff_getElem.mp ht
    have hproceed : s.tasks[i].proceed (s.held < max) s.free = none := by
      by_contra hsome
      obtain ⟨t', ht'⟩ := Option.ne_none_iff_exists'.mp hsome
      have hstep := hnone i
      rw [step, List.getElem?_eq_getElem hi, Option.bind_eq_bind, Option.bind_some, ht'] at hstep
      simp at hstep
    rcases PoolTask.waits_of_proceed hproceed with hdone | ⟨hroom, hstage⟩ | hrow
    · exact .inl hdone
    · exact .inr (.inl ⟨of_decide_eq_false hroom, hstage⟩)
    · obtain ⟨hstage, row, rest, hrest, hlocked⟩ := hrow
      exact .inr (.inr ⟨row, hstage, rest, hrest, hlocked⟩)
  by_contra hnot
  -- otherwise nobody asks for a second client
  have hasking : ∀ t ∈ s.tasks, t.stage ≠ .asking := by
    intro t ht hstage
    rcases hwaits t ht with ⟨ok, hdone⟩ | ⟨hroom, -⟩ | ⟨row, hrunning, -⟩
    · simp [hstage] at hdone
    · exact hnot ⟨Nat.le_antisymm hsound.within (not_lt.mp hroom), t, ht, hstage⟩
    · simp [hstage] at hrunning
  have hclient : ∀ t ∈ s.tasks, t.clients ≠ 0 → ∃ row, s.Awaits t row := by
    intro t ht hpos
    rcases hwaits t ht with ⟨ok, hdone⟩ | ⟨-, hstage | hstage⟩ | hrow
    · simp [PoolTask.clients, hdone] at hpos
    · simp [PoolTask.clients, hstage] at hpos
    · exact absurd hstage (hasking t ht)
    · exact hrow
  -- then a chain of requests awaiting each other's rows, which are taken in one order, has an end
  have hall := fun row => not_awaits hsound hclient row
  have hidle : s.held = 0 := by
    refine List.sum_eq_zero fun n hn => ?_
    obtain ⟨t, ht, rfl⟩ := List.mem_map.mp hn
    by_contra hpos
    obtain ⟨row, hrow⟩ := hclient t ht hpos
    exact hall row ⟨t, ht, hrow⟩
  rcases hwaits t ht with ⟨ok, hdone⟩ | ⟨hroom, -⟩ | ⟨row, hrow⟩
  · exact hopen ok hdone
  · omega
  · exact hall row ⟨t, ht, hrow⟩

/-! ## Transactions on their own client -/

/-- Requests that begin do not call `query` in a transaction. -/
def Frugal (_ : ConnectionPool R) : PoolEvent R → Prop
  | .begin script => .pool ∉ script.statements
  | _ => True

lemma frugal_tasks (h : Reach (step max) Frugal start s) : ∀ t ∈ s.tasks, t.Frugal := by
  refine h.invariant (P := fun s => ∀ t ∈ s.tasks, t.Frugal) (by simp [start]) ?_
  intro s event s' hs hallowed hstep
  cases changes_of_step hstep with
  | begin script =>
      intro t ht
      rcases List.mem_append.mp ht with ht | ht
      · exact hs t ht
      · obtain rfl := List.mem_singleton.mp ht
        exact ⟨hallowed, by simp⟩
  | proceed i t t' ht hproceed =>
      intro u hu
      rcases List.mem_or_eq_of_mem_set hu with hu | rfl
      · exact hs u hu
      · exact (hs t (List.mem_of_getElem? ht)).proceed hproceed
  | fail i t t' ht hfail =>
      intro u hu
      rcases List.mem_or_eq_of_mem_set hu with hu | rfl
      · exact hs u hu
      · exact (hs t (List.mem_of_getElem? ht)).fail hfail

/-- What is left to do for all requests. -/
def work (s : ConnectionPool R) : Nat := (s.tasks.map PoolTask.work).sum

lemma work_step (hstep : s.step max (.proceed i) = some s') : s'.work < s.work := by
  cases changes_of_step hstep with
  | proceed i t t' ht hproceed =>
      have hsum : (⟨s.tasks.set i t'⟩ : ConnectionPool R).work + t.work = s.work + t'.work :=
        sum_map_set PoolTask.work ht t'
      have hless := PoolTask.work_proceed hproceed
      omega

lemma work_run (h : Reach (step max) Frugal start s) {is : List Nat}
    (hrun : runAllowed (step max) (fun _ _ => True) s (is.map .proceed) = some s') :
    Reach (step max) Frugal start s' ∧ is.length + s'.work ≤ s.work := by
  induction is generalizing s with
  | nil =>
      obtain rfl := Option.some.inj hrun
      exact ⟨h, by simp⟩
  | cons i is ih =>
      rw [List.map_cons, runAllowed, if_pos trivial] at hrun
      obtain ⟨t, hstep, hrest⟩ := Option.bind_eq_some_iff.mp hrun
      obtain ⟨hreach, hle⟩ := ih (.tail (.proceed i) h trivial hstep) hrest
      have hless := work_step hstep
      refine ⟨hreach, ?_⟩
      rw [List.length_cons]
      omega

lemma reachable_of_frugal (h : Reach (step max) Frugal start s) : s.Reachable max :=
  h.invariant .refl fun _ event _ hs _ hstep => .tail event hs trivial hstep

/-- **With their own clients only, all requests are answered**: whatever has happened, and in
whatever order the requests proceed, after a bounded number of steps they are over. -/
theorem frugal_completes (hmax : 0 < max) (h : Reach (step max) Frugal start s) {is : List Nat}
    (hrun : runAllowed (step max) (fun _ _ => True) s (is.map .proceed) = some s') :
    is.length ≤ s.work ∧
      ((∀ i, s'.step max (.proceed i) = none) → ∀ t ∈ s'.tasks, ∃ ok, t.stage = .done ok) := by
  obtain ⟨hreach, hle⟩ := work_run h hrun
  refine ⟨by omega, fun hnone t ht => ?_⟩
  by_contra hopen
  obtain ⟨-, u, hu, hasking⟩ := stuck_asking hmax (reachable_of_frugal hreach)
    ⟨⟨t, ht, fun ok hdone => hopen ⟨ok, hdone⟩⟩, hnone⟩
  exact (frugal_tasks hreach u hu).2 hasking

instance (s : ConnectionPool R) : ∀ event, Decidable (Frugal s event)
  | .begin script => inferInstanceAs (Decidable (.pool ∉ script.statements))
  | .proceed _ => isTrue trivial
  | .fail _ => isTrue trivial

/-- Two edits of a document and a new one, in a pool of one client. -/
def oneClient : ConnectionPool Nat :=
  (runAllowed (step 1) Frugal start
    [.begin (.appendOperation 0), .begin (.appendOperation 0), .begin .createDocument,
      .proceed 1]).get (by decide +kernel)

/-- They are over after at most twenty-six steps, of which these are the first four. -/
theorem frugal_completes_oneClient : oneClient.work = 26 ∧ [1, 1, 0, 0].length ≤ oneClient.work :=
  ⟨by decide +kernel,
    (@frugal_completes _ _ 1 oneClient _ (by decide) (reach_get _) [1, 1, 0, 0]
      (Option.some_get (by decide +kernel)).symm).1⟩

/-! ## One restore is enough -/

/-- Requests that begin are edits of one document, or a restore of it; none fails. -/
def Edits {sequence document : R} (h : sequence < document) (_ : ConnectionPool R) :
    PoolEvent R → Prop
  | .begin script =>
      script = .appendOperation sequence ∨ script = .restoreToRevision sequence document h false
  | .proceed _ => True
  | .fail _ => False

/-- A restore waits for a second client, and edits with a client wait for the sequence. -/
def blocked (sequence document : R) (edits : Nat) : ConnectionPool R where
  tasks := ⟨true, .asking, [.lock document, .own, .own], [sequence]⟩ ::
    List.replicate edits ⟨false, .running, [.lock sequence], []⟩

omit [LinearOrder R] in
lemma held_blocked (sequence document : R) (edits : Nat) :
    (blocked sequence document edits).held = edits + 1 := by
  simp [held, blocked, PoolTask.clients, Nat.add_comm]

lemma step_last {l : List (PoolTask R)} {t t' : PoolTask R}
    (h : t.proceed ((⟨l ++ [t]⟩ : ConnectionPool R).held < max) (free ⟨l ++ [t]⟩) = some t') :
    step max ⟨l ++ [t]⟩ (.proceed l.length) = some ⟨l ++ [t']⟩ := by
  rw [step, List.getElem?_concat_length, Option.bind_eq_bind, Option.bind_some, h]
  simp

lemma reach_blocked {sequence document : R} (h : sequence < document) :
    ∀ edits < max, Reach (step max) (Edits h) start (blocked sequence document edits) := by
  intro edits
  induction edits with
  | zero =>
      intro hmax
      have hbegin : Reach (step max) (Edits h) start
          ⟨[] ++ [⟨true, .connecting,
            [.own, .lock sequence, .pool, .lock document, .own, .own], []⟩]⟩ :=
        .tail (.begin (.restoreToRevision sequence document h false)) .refl (.inr rfl) rfl
      have hconnected : Reach (step max) (Edits h) start
          ⟨[] ++ [⟨true, .running,
            [.own, .lock sequence, .pool, .lock document, .own, .own], []⟩]⟩ := by
        refine .tail (.proceed 0) hbegin trivial (step_last ?_)
        exact if_pos (decide_eq_true hmax)
      have hbegun : Reach (step max) (Edits h) start
          ⟨[] ++ [⟨true, .running, [.lock sequence, .pool, .lock document, .own, .own], []⟩]⟩ :=
        .tail (.proceed 0) hconnected trivial (step_last rfl)
      have hlocked : Reach (step max) (Edits h) start
          ⟨[] ++ [⟨true, .running, [.pool, .lock document, .own, .own], [sequence]⟩]⟩ :=
        .tail (.proceed 0) hbegun trivial (step_last rfl)
      exact .tail (.proceed 0) hlocked trivial (step_last rfl)
  | succ edits ih =>
      intro hmax
      have hbegin : Reach (step max) (Edits h) start
          ⟨(blocked sequence document edits).tasks ++
            [⟨false, .connecting, [.lock sequence], []⟩]⟩ :=
        .tail (.begin (.appendOperation sequence)) (ih (by omega)) (.inl rfl) rfl
      have hblocked : blocked sequence document (edits + 1) =
          ⟨(blocked sequence document edits).tasks ++
            [⟨false, .running, [.lock sequence], []⟩]⟩ := by
        simp only [blocked, List.replicate_succ', List.cons_append]
      rw [hblocked]
      refine .tail (.proceed _) hbegin trivial (step_last (if_pos (decide_eq_true ?_)))
      have hheld := held_blocked sequence document edits
      simp only [held, List.map_append, List.sum_append] at hheld ⊢
      rw [hheld]
      exact hmax

lemma stuck_blocked (sequence document : R) (edits : Nat) :
    (blocked sequence document edits).Stuck (edits + 1) := by
  refine ⟨⟨_, List.mem_cons_self, by simp⟩, fun i => ?_⟩
  rw [step, held_blocked]
  cases htask : (blocked sequence document edits).tasks[i]? with
  | none => rfl
  | some t =>
      rw [Option.bind_eq_bind, Option.bind_some]
      rcases List.mem_cons.mp (List.mem_of_getElem? htask) with rfl | ht
      · simp [PoolTask.proceed]
      · obtain rfl := List.eq_of_mem_replicate ht
        simp [PoolTask.proceed, free, blocked]

lemma reachable_blocked {sequence document : R} (h : sequence < document) (edits : Nat) :
    (blocked sequence document edits).Reachable (edits + 1) :=
  (reach_blocked h edits (Nat.lt_succ_self _)).invariant .refl fun _ event _ hs _ hstep =>
    .tail event hs trivial hstep

/-- A restore and an edit in a pool of two clients. -/
theorem stuck_asking_twoClients :
    (blocked 0 1 1).held = 2 ∧ ∃ t ∈ (blocked 0 1 1).tasks, t.stage = .asking :=
  stuck_asking (by decide) (reachable_blocked Nat.zero_lt_one 1) (stuck_blocked 0 1 1)

/-- **One restore is enough**: a pool of any size gets stuck with one restore and edits of the same
document.  The restore has the sequence and asks for a client to save its snapshot with, and every
other client is held by an edit that awaits the sequence. -/
theorem exists_stuck {sequence document : R} (h : sequence < document) (hmax : 0 < max) :
    ∃ s, Reach (step max) (Edits h) start s ∧ s.Stuck max ∧ s.tasks.length = max ∧
      s.tasks.countP (fun t => t.transaction) = 1 ∧
      s.tasks = ⟨true, .asking, [.lock document, .own, .own], [sequence]⟩ ::
        List.replicate (max - 1) ⟨false, .running, [.lock sequence], []⟩ := by
  obtain ⟨edits, rfl⟩ := Nat.exists_eq_succ_of_ne_zero hmax.ne'
  refine ⟨_, reach_blocked h edits (Nat.lt_succ_self _), stuck_blocked sequence document edits,
    ?_, ?_, rfl⟩
  · simp [blocked]
  · simp [blocked]

/-- The pool as it is configured by default has twenty clients. -/
theorem exists_stuck_twenty :
    ∃ s : ConnectionPool Nat, Reach (step 20) (Edits Nat.zero_lt_one) start s ∧ s.Stuck 20 ∧
      s.tasks.length = 20 ∧ s.tasks.countP (fun t => t.transaction) = 1 ∧
      s.tasks = ⟨true, .asking, [.lock 1, .own, .own], [0]⟩ ::
        List.replicate 19 ⟨false, .running, [.lock 0], []⟩ :=
  exists_stuck Nat.zero_lt_one (by decide)

end ConnectionPool

end SyncEngine
