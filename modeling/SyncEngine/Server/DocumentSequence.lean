import Mathlib.Logic.Function.Basic
import SyncEngine.Lib.LockedRow
import SyncEngine.Lib.Transition
import SyncEngine.Server.Persistence

/-!
# The sequence numbers of a document

`appendOperation` is one statement, but not one step: `next_doc_seq` runs an INSERT and an UPDATE
of the document's row in `document_sequences` (`server/persistence/schema.sql`), the row of the
operation is stored with what they return, and none of it is seen by others before the transaction
commits.  A single statement is a transaction of its own; `withTransaction`
(`server/persistence/db.ts`) may run any number of them before it commits or rolls back.  Here
transactions interleave at every one of these points.

A transaction that fails (a violated constraint, a timeout, a lost connection) rolls back; it may
do so at any point.  That no two rows have one seq is not checked on the way, it follows.

The invariant is `Sequenced`: the committed rows have the seqs up to the committed counter, and
those of the transaction that holds the row lock go on from there.

* **`gapless`**: the committed seqs are `1..n`, and what is committed later comes after.
* **`committed_eq_appendOperations`**: the committed tables are those that `appendOperation` calls
  leave that run one after the other, as the other modules have them.
-/

namespace SyncEngine

/-- Transactions by number. -/
abbrev TransactionId := Nat

/-- How far a call of `appendOperation` has come. -/
inductive Append where
  /-- No call is running. -/
  | idle
  /-- The INSERT of `next_doc_seq` has run. -/
  | initialized (params : OperationEnvelope)
  /-- `next_doc_seq` has returned, `none` for NULL. -/
  | reserved (params : OperationEnvelope) (seq : Option Nat)
deriving DecidableEq

/-- The seq that is reserved for a row not stored yet. -/
def Append.seqs : Append → List Nat
  | .reserved _ (some seq) => [seq]
  | _ => []

/-- An open transaction, with the rows it has stored. -/
structure Transaction where
  append : Append
  operations : List OperationEnvelope
deriving DecidableEq

/-- The seqs that a transaction has used or reserved, in their order. -/
def Transaction.seqs (tx : Transaction) : List Nat :=
  tx.operations.map OperationEnvelope.seq ++ tx.append.seqs

lemma Transaction.seqs_idle (rows : List OperationEnvelope) :
    (⟨.idle, rows⟩ : Transaction).seqs = rows.map OperationEnvelope.seq := List.append_nil _

lemma Transaction.seqs_initialized (params : OperationEnvelope) (rows : List OperationEnvelope) :
    (⟨.initialized params, rows⟩ : Transaction).seqs = rows.map OperationEnvelope.seq :=
  List.append_nil _

lemma Transaction.seqs_reserved (params : OperationEnvelope) (seq : Nat)
    (rows : List OperationEnvelope) :
    (⟨.reserved params (some seq), rows⟩ : Transaction).seqs =
      rows.map OperationEnvelope.seq ++ [seq] := rfl

/-- The committed rows of a document, the row of its counter, and the open transactions. -/
structure SequencedStore where
  operations : List OperationEnvelope
  sequence : LockedRow TransactionId Nat
  transactions : TransactionId → Option Transaction

/-- What happens next in a transaction. -/
inductive Statement where
  | begin (t : TransactionId)
  /-- `INSERT INTO document_sequences … ON CONFLICT (doc_id) DO NOTHING`. -/
  | insertSequence (t : TransactionId) (params : OperationEnvelope)
  /-- `UPDATE document_sequences SET seq = seq + 1 … RETURNING seq INTO v_seq`. -/
  | updateSequence (t : TransactionId)
  /-- `INSERT INTO operations`, with the seq that `next_doc_seq` returned. -/
  | insertOperation (t : TransactionId)
  | commit (t : TransactionId)
  | rollback (t : TransactionId)
deriving DecidableEq

namespace SequencedStore

/-- A document nobody has edited. -/
def empty : SequencedStore := ⟨[], ⟨none, none⟩, fun _ => none⟩

/-- The transaction goes on with `tx`, or ends. -/
def set (s : SequencedStore) (t : TransactionId) (tx : Option Transaction) : SequencedStore :=
  { s with transactions := Function.update s.transactions t tx }

/-- One statement; `none` where it waits for another transaction or does not come next. -/
def step (s : SequencedStore) : Statement → Option SequencedStore
  | .begin t =>
      match s.transactions t with
      | none => some (s.set t (some ⟨.idle, []⟩))
      | some _ => none
  | .insertSequence t params =>
      match s.transactions t with
      | some ⟨.idle, rows⟩ =>
          (s.sequence.insertDoNothing t 0).map fun sequence =>
            { s with sequence := sequence }.set t (some ⟨.initialized params, rows⟩)
      | _ => none
  | .updateSequence t =>
      match s.transactions t with
      | some ⟨.initialized params, rows⟩ =>
          (s.sequence.update t (· + 1)).map fun (sequence, seq) =>
            { s with sequence := sequence }.set t (some ⟨.reserved params seq, rows⟩)
      | _ => none
  | .insertOperation t =>
      match s.transactions t with
      | some ⟨.reserved params (some seq), rows⟩ =>
          some (s.set t (some ⟨.idle, rows ++ [{ params with seq := seq }]⟩))
      | _ => none
  | .commit t =>
      match s.transactions t with
      | some ⟨.idle, rows⟩ =>
          some ({ s with operations := s.operations ++ rows, sequence := s.sequence.commit t }.set t
            none)
      | _ => none
  | .rollback t =>
      match s.transactions t with
      | some _ => some ({ s with sequence := s.sequence.rollback t }.set t none)
      | none => none

/-- What any interleaving of the statements leads to. -/
abbrev Reaches : SequencedStore → SequencedStore → Prop :=
  Transition.Reach step fun _ _ => True

/-- What one statement does. -/
inductive Next (s : SequencedStore) : SequencedStore → Prop
  | begin (t : TransactionId) (htx : s.transactions t = none) : Next s (s.set t (some ⟨.idle, []⟩))
  | insertSequence (t : TransactionId) (params : OperationEnvelope)
      (rows : List OperationEnvelope) (row : LockedRow TransactionId Nat)
      (htx : s.transactions t = some ⟨.idle, rows⟩)
      (hrow : s.sequence.insertDoNothing t 0 = some row) :
      Next s ({ s with sequence := row }.set t (some ⟨.initialized params, rows⟩))
  | updateSequence (t : TransactionId) (params : OperationEnvelope)
      (rows : List OperationEnvelope) (row : LockedRow TransactionId Nat) (seq : Option Nat)
      (htx : s.transactions t = some ⟨.initialized params, rows⟩)
      (hrow : s.sequence.update t (· + 1) = some (row, seq)) :
      Next s ({ s with sequence := row }.set t (some ⟨.reserved params seq, rows⟩))
  | insertOperation (t : TransactionId) (params : OperationEnvelope) (seq : Nat)
      (rows : List OperationEnvelope)
      (htx : s.transactions t = some ⟨.reserved params (some seq), rows⟩) :
      Next s (s.set t (some ⟨.idle, rows ++ [{ params with seq := seq }]⟩))
  | commit (t : TransactionId) (rows : List OperationEnvelope)
      (htx : s.transactions t = some ⟨.idle, rows⟩) :
      Next s ({ s with
        operations := s.operations ++ rows, sequence := s.sequence.commit t }.set t none)
  | rollback (t : TransactionId) : Next s ({ s with sequence := s.sequence.rollback t }.set t none)

lemma next_of_step {s s' : SequencedStore} {a : Statement} (h : s.step a = some s') :
    Next s s' := by
  cases a with
  | begin t =>
      simp only [step] at h
      split at h
      · rename_i htx
        obtain rfl := Option.some.inj h
        exact .begin t htx
      · exact absurd h (by simp)
  | insertSequence t params =>
      simp only [step] at h
      split at h
      · rename_i rows htx
        obtain ⟨row, hrow, rfl⟩ := Option.map_eq_some_iff.mp h
        exact .insertSequence t params rows row htx hrow
      · exact absurd h (by simp)
  | updateSequence t =>
      simp only [step] at h
      split at h
      · rename_i params rows htx
        obtain ⟨⟨row, seq⟩, hrow, rfl⟩ := Option.map_eq_some_iff.mp h
        exact .updateSequence t params rows row seq htx hrow
      · exact absurd h (by simp)
  | insertOperation t =>
      simp only [step] at h
      split at h
      · rename_i params seq rows htx
        obtain rfl := Option.some.inj h
        exact .insertOperation t params seq rows htx
      · exact absurd h (by simp)
  | commit t =>
      simp only [step] at h
      split at h
      · rename_i rows htx
        obtain rfl := Option.some.inj h
        exact .commit t rows htx
      · exact absurd h (by simp)
  | rollback t =>
      simp only [step] at h
      split at h
      · obtain rfl := Option.some.inj h
        exact .rollback t
      · exact absurd h (by simp)

/-! ## What a transaction accounts for -/

/-- The committed counter; a row that is not there counts as `0`. -/
def counter (row : LockedRow TransactionId Nat) : Nat := row.committed.getD 0

/-- How many seqs a transaction has reserved beyond the committed counter. -/
def reservedBy (row : LockedRow TransactionId Nat) (t : TransactionId) : Nat :=
  (row.version t).getD (counter row) - counter row

/-- The row is there once its INSERT has run, and the UPDATE returns a number. -/
def Sound (row : LockedRow TransactionId Nat) (t : TransactionId) : Append → Prop
  | .idle => True
  | .initialized _ => (row.view t).isSome = true
  | .reserved _ seq => seq.isSome = true

/-- The seqs of a transaction are those it has reserved; without a transaction there is no lock. -/
def Accounted (row : LockedRow TransactionId Nat) (t : TransactionId) : Option Transaction → Prop
  | none => row.version t = none
  | some tx => Sound row t tx.append ∧ tx.seqs = List.range' (counter row + 1) (reservedBy row t)

/-- The seqs of the committed rows and of the open transactions. -/
structure Sequenced (s : SequencedStore) : Prop where
  operations : s.operations.map OperationEnvelope.seq = List.range' 1 (counter s.sequence)
  counter_le : ∀ t m, s.sequence.version t = some m → counter s.sequence ≤ m
  accounted : ∀ t, Accounted s.sequence t (s.transactions t)

variable {row row' : LockedRow TransactionId Nat} {t u : TransactionId} {s s' : SequencedStore}

lemma reservedBy_of_version {m : Nat} (h : row.version t = some m) :
    reservedBy row t = m - counter row := by
  rw [reservedBy, h, Option.getD_some]

lemma reservedBy_of_no_version (h : row.version t = none) : reservedBy row t = 0 := by
  rw [reservedBy, h, Option.getD_none, Nat.sub_self]

/-- A statement of another transaction that leaves the committed row does not matter. -/
lemma Accounted.congr {tx : Option Transaction} (h : Accounted row t tx)
    (hversion : row'.version t = row.version t) (hcommitted : row'.committed = row.committed) :
    Accounted row' t tx := by
  have hcounter : counter row' = counter row := by rw [counter, counter, hcommitted]
  cases tx with
  | none => exact hversion.trans h
  | some tx =>
      obtain ⟨hsound, hseqs⟩ := h
      refine ⟨?_, ?_⟩
      · cases happend : tx.append with
        | idle => trivial
        | initialized params =>
            rw [happend] at hsound
            show (row'.view t).isSome = true
            rw [LockedRow.view, hversion, hcommitted]
            exact hsound
        | reserved params seq =>
            rw [happend] at hsound
            exact hsound
      · rw [hseqs, reservedBy, reservedBy, hversion, hcounter]

/-- Nor does the commit of another one, if this one has written nothing. -/
lemma Accounted.of_commit {tx : Option Transaction} (h : Accounted row t tx)
    (hversion : row.version t = none) (hversion' : row'.version t = none)
    (hcommitted : row'.committed.isSome = true) : Accounted row' t tx := by
  cases tx with
  | none => exact hversion'
  | some tx =>
      obtain ⟨hsound, hseqs⟩ := h
      refine ⟨?_, ?_⟩
      · cases happend : tx.append with
        | idle => trivial
        | initialized params =>
            show (row'.view t).isSome = true
            rwa [LockedRow.view_of_no_version hversion']
        | reserved params seq =>
            rw [happend] at hsound
            exact hsound
      · rw [reservedBy_of_no_version hversion] at hseqs
        rw [hseqs, reservedBy_of_no_version hversion', List.range'_zero, List.range'_zero]

lemma sequenced_empty : Sequenced empty := by
  refine ⟨rfl, fun t m h => ?_, fun t => rfl⟩
  simp [empty] at h

/-- What a statement of `t` has to keep: its own account, and the rows the others see. -/
lemma Sequenced.set (h : Sequenced s) {tx : Option Transaction}
    (hcounter : ∀ m, row.version t = some m → counter s.sequence ≤ m)
    (hcommitted : row.committed = s.sequence.committed)
    (hversion : ∀ u, u ≠ t → row.version u = s.sequence.version u)
    (htx : Accounted row t tx) : Sequenced ({ s with sequence := row }.set t tx) := by
  have heq : counter row = counter s.sequence := by rw [counter, counter, hcommitted]
  refine ⟨h.operations.trans (by rw [← heq]; rfl), fun u m hu => ?_, fun u => ?_⟩
  · show counter row ≤ m
    rw [heq]
    by_cases hut : u = t
    · exact hcounter m (hut ▸ hu)
    · exact h.counter_le u m ((hversion u hut).symm.trans hu)
  · by_cases hut : u = t
    · subst hut
      simpa [SequencedStore.set] using htx
    · simpa [SequencedStore.set, Function.update_of_ne hut] using
        (h.accounted u).congr (hversion u hut) hcommitted

/-! ## One statement -/

/-- `next_doc_seq` makes sure that the counter row is there. -/
lemma Sequenced.insertSequence (h : Sequenced s) {rows : List OperationEnvelope}
    {params : OperationEnvelope} (htx : s.transactions t = some ⟨.idle, rows⟩)
    (hrow : s.sequence.insertDoNothing t 0 = some row) :
    Sequenced ({ s with sequence := row }.set t (some ⟨.initialized params, rows⟩)) := by
  have haccounted := h.accounted t
  rw [htx] at haccounted
  obtain ⟨-, hseqs⟩ := haccounted
  rcases LockedRow.insertDoNothing_cases hrow with ⟨hview, rfl⟩ | ⟨hcommitted, hpending, rfl⟩
  · exact h.set (h.counter_le t) rfl (fun _ _ => rfl) ⟨hview, hseqs⟩
  · -- the transaction holds the first version of the row
    have hversion : ∀ u, s.sequence.version u = none := fun u => by
      rw [LockedRow.version, hpending]
    refine h.set (fun m _ => ?_) hcommitted.symm (fun u hu => ?_) ⟨?_, ?_⟩
    · rw [counter, hcommitted]
      exact Nat.zero_le m
    · rw [hversion, LockedRow.version_of_pending_ne _ _ hu]
    · show (LockedRow.view _ t).isSome = true
      rw [LockedRow.view_of_version (LockedRow.version_of_pending _ t 0)]
      rfl
    · rw [reservedBy_of_no_version (hversion t)] at hseqs
      rw [reservedBy_of_version (LockedRow.version_of_pending _ t 0), Nat.zero_sub]
      exact hseqs

/-- `next_doc_seq` takes the lock and reserves the next seq. -/
lemma Sequenced.updateSequence (h : Sequenced s) {rows : List OperationEnvelope}
    {params : OperationEnvelope} {seq : Option Nat}
    (htx : s.transactions t = some ⟨.initialized params, rows⟩)
    (hrow : s.sequence.update t (· + 1) = some (row, seq)) :
    Sequenced ({ s with sequence := row }.set t (some ⟨.reserved params seq, rows⟩)) := by
  have haccounted := h.accounted t
  rw [htx] at haccounted
  obtain ⟨hview, hseqs⟩ := haccounted
  obtain ⟨hfree, ⟨hnone, -, -⟩ | ⟨m, hm, rfl, rfl⟩⟩ := LockedRow.update_cases hrow
  · have hsome : (s.sequence.view t).isSome = true := hview
    rw [hnone] at hsome
    exact absurd hsome (by simp)
  -- the transaction has seen its own version, or the committed one
  have hreserved : counter s.sequence ≤ m ∧ reservedBy s.sequence t = m - counter s.sequence := by
    cases hversion : s.sequence.version t with
    | some k =>
        obtain rfl : k = m := Option.some.inj ((LockedRow.view_of_version hversion).symm.trans hm)
        exact ⟨h.counter_le t k hversion, reservedBy_of_version hversion⟩
    | none =>
        have hcounter : counter s.sequence = m := by
          rw [counter, ← LockedRow.view_of_no_version hversion, hm, Option.getD_some]
        rw [reservedBy_of_no_version hversion, hcounter, Nat.sub_self]
        exact ⟨Nat.le_refl m, rfl⟩
  obtain ⟨hle, hreserved⟩ := hreserved
  refine h.set (fun k hk => ?_) rfl (fun u hu => ?_) ⟨rfl, ?_⟩
  · rw [LockedRow.version_of_pending] at hk
    obtain rfl := Option.some.inj hk
    exact Nat.le_succ_of_le hle
  · rw [hfree.version_of_ne hu, LockedRow.version_of_pending_ne _ _ hu]
  · have hcounter : counter (⟨s.sequence.committed, some (t, m + 1)⟩ : LockedRow _ _) =
        counter s.sequence := rfl
    have hlast : m + 1 = counter s.sequence + 1 + (m - counter s.sequence) := by omega
    rw [Transaction.seqs_initialized, hreserved] at hseqs
    rw [Transaction.seqs_reserved, hseqs, reservedBy_of_version (LockedRow.version_of_pending ..),
      hcounter, Nat.succ_sub hle, List.range'_1_concat, ← hlast]

/-- The row is stored with the seq that was reserved for it. -/
lemma Sequenced.insertOperation (h : Sequenced s) {rows : List OperationEnvelope}
    {params : OperationEnvelope} {seq : Nat}
    (htx : s.transactions t = some ⟨.reserved params (some seq), rows⟩) :
    Sequenced (s.set t (some ⟨.idle, rows ++ [{ params with seq := seq }]⟩)) := by
  have haccounted := h.accounted t
  rw [htx] at haccounted
  obtain ⟨-, hseqs⟩ := haccounted
  refine h.set (h.counter_le t) rfl (fun _ _ => rfl) ⟨trivial, ?_⟩
  rw [Transaction.seqs_reserved] at hseqs
  rw [Transaction.seqs_idle, List.map_append, List.map_singleton]
  exact hseqs

/-- A commit appends the rows, whose seqs are the next ones. -/
lemma Sequenced.commit (h : Sequenced s) {rows : List OperationEnvelope}
    (htx : s.transactions t = some ⟨.idle, rows⟩) :
    Sequenced ({ s with operations := s.operations ++ rows, sequence := s.sequence.commit t }.set t
      none) := by
  have haccounted := h.accounted t
  rw [htx] at haccounted
  obtain ⟨-, hseqs⟩ := haccounted
  rw [Transaction.seqs_idle] at hseqs
  cases hversion : s.sequence.version t with
  | none =>
      rw [reservedBy_of_no_version hversion, List.range'_zero, List.map_eq_nil_iff] at hseqs
      rw [LockedRow.commit_of_no_version hversion, hseqs, List.append_nil]
      exact h.set (h.counter_le t) rfl (fun _ _ => rfl) hversion
  | some m =>
      rw [LockedRow.commit_of_version hversion]
      rw [reservedBy_of_version hversion] at hseqs
      have hle : counter s.sequence ≤ m := h.counter_le t m hversion
      refine ⟨?_, fun u k hk => ?_, fun u => ?_⟩
      · show (s.operations ++ rows).map OperationEnvelope.seq = List.range' 1 m
        rw [List.map_append, h.operations, hseqs, Nat.add_comm (counter s.sequence) 1,
          List.range'_append_1, Nat.add_sub_cancel' hle]
      · exact absurd hk (by simp [SequencedStore.set])
      · by_cases hut : u = t
        · subst hut
          simp [SequencedStore.set, Accounted]
        · -- the others have no version
          have hother : s.sequence.version u = none := by
            cases hu : s.sequence.version u with
            | none => rfl
            | some k => exact absurd (LockedRow.version_unique hu hversion) hut
          have hcommit : Accounted ⟨some m, none⟩ u (s.transactions u) :=
            (h.accounted u).of_commit hother rfl rfl
          simpa [SequencedStore.set, Function.update_of_ne hut] using hcommit

lemma Sequenced.rollback (h : Sequenced s) (t : TransactionId) :
    Sequenced ({ s with sequence := s.sequence.rollback t }.set t none) :=
  h.set (fun m hm => by simp at hm) LockedRow.committed_rollback
    (fun _ hu => LockedRow.version_rollback_of_ne hu) LockedRow.version_rollback_self

/-- **Every statement keeps the seqs in order.** -/
theorem Sequenced.next (h : Sequenced s) (hnext : Next s s') : Sequenced s' := by
  cases hnext with
  | begin t htx =>
      have hversion : s.sequence.version t = none := by
        have haccounted := h.accounted t
        rwa [htx] at haccounted
      refine h.set (h.counter_le t) rfl (fun _ _ => rfl) ⟨trivial, ?_⟩
      rw [reservedBy_of_no_version hversion]
      rfl
  | insertSequence t params rows row htx hrow => exact h.insertSequence htx hrow
  | updateSequence t params rows row seq htx hrow => exact h.updateSequence htx hrow
  | insertOperation t params seq rows htx => exact h.insertOperation htx
  | commit t rows htx => exact h.commit htx
  | rollback t => exact h.rollback t

lemma Sequenced.reaches (h : Sequenced s) (hreach : Reaches s s') : Sequenced s' :=
  hreach.invariant h fun _ _ _ hs _ hstep => hs.next (next_of_step hstep)

/-! ## What readers see -/

lemma operations_of_reaches (h : Reaches s s') : s.operations <+: s'.operations := by
  refine h.invariant (P := fun s' => s.operations <+: s'.operations) (List.prefix_refl _)
    fun x _ y hx _ hstep => hx.trans ?_
  cases next_of_step hstep with
  | commit t rows htx => exact List.prefix_append _ _
  | _ => exact List.prefix_refl _

lemma Sequenced.seq_lt (h : Sequenced s') (hfront : s.operations <+: s'.operations)
    {seen row : OperationEnvelope} (hseen : seen ∈ s.operations) (hrow : row ∈ s'.operations)
    (hnew : row ∉ s.operations) : seen.seq < row.seq := by
  obtain ⟨rows, hrows⟩ := hfront
  have hsorted : (s'.operations.map OperationEnvelope.seq).Pairwise (· < ·) := by
    rw [h.operations]
    exact List.pairwise_lt_range'
  rw [← hrows, List.map_append, List.pairwise_append] at hsorted
  rw [← hrows] at hrow
  have hrow' : row ∈ rows := (List.mem_append.mp hrow).resolve_left hnew
  exact hsorted.2.2 _ (List.mem_map_of_mem hseen) _ (List.mem_map_of_mem hrow')

/-- **Sequence numbers are gapless and prefix-closed**, for any interleaving of transactions: the
committed rows have the seqs `1..n`, they stay, and rows that are committed later have greater
seqs. -/
theorem gapless (h : Reaches empty s) :
    (∃ n, s.operations.map OperationEnvelope.seq = List.range' 1 n) ∧
    ∀ s', Reaches s s' → s.operations ⊆ s'.operations ∧
      ∀ seen ∈ s.operations, ∀ row ∈ s'.operations, row ∉ s.operations → seen.seq < row.seq := by
  have hs : Sequenced s := sequenced_empty.reaches h
  refine ⟨⟨_, hs.operations⟩, fun s' h' => ?_⟩
  have hfront := operations_of_reaches h'
  exact ⟨hfront.subset, fun seen hseen row hrow hnew =>
    (hs.reaches h').seq_lt hfront hseen hrow hnew⟩

/-- The operation that the transactions below append. -/
def deletion : OperationEnvelope :=
  ⟨JSString.lit "d", JSString.lit "s", JSString.lit "u", .delete ⟨⟨1, JSString.lit "s"⟩⟩, 0, 1,
    JSString.lit "n"⟩

/-- Two transactions race for the counter row.  The one that has inserted it rolls back, and the
other one commits two operations. -/
def raced : SequencedStore :=
  (Transition.runAllowed step (fun _ _ => True) empty
    [.begin 1, .begin 2, .insertSequence 1 deletion, .updateSequence 1, .insertOperation 1,
      .rollback 1, .insertSequence 2 deletion, .updateSequence 2, .insertOperation 2,
      .insertSequence 2 deletion, .updateSequence 2, .insertOperation 2, .commit 2]).get
    (by decide)

theorem gapless_raced :
    (∃ n, raced.operations.map OperationEnvelope.seq = List.range' 1 n) ∧
    ∀ s', Reaches raced s' → raced.operations ⊆ s'.operations ∧
      ∀ seen ∈ raced.operations, ∀ row ∈ s'.operations, row ∉ raced.operations →
        seen.seq < row.seq :=
  gapless (Transition.reach_get _)

/-- The second transaction waits for the row that the first one has inserted. -/
example : (Transition.runAllowed step (fun _ _ => True) empty
    [.begin 1, .begin 2, .insertSequence 1 deletion,
      .insertSequence 2 deletion]).isSome = false := by
  decide

/-! ## Calls one after the other -/

/-- Calls of `appendOperation` that run one after the other. -/
def appendOperations (db : Database) (calls : List OperationEnvelope) : Database :=
  calls.foldl (fun db params => (db.appendOperation params).1) db

/-- Rows that have the next seqs are appended as they are. -/
lemma appendOperations_of_next {rows : List OperationEnvelope} {db : Database}
    (h : rows.map OperationEnvelope.seq = List.range' (db.documentSeq + 1) rows.length) :
    (appendOperations db rows).operations = db.operations ++ rows ∧
      (appendOperations db rows).documentSeq = db.documentSeq + rows.length := by
  induction rows generalizing db with
  | nil => exact ⟨(List.append_nil _).symm, rfl⟩
  | cons row rows ih =>
      rw [List.map_cons, List.length_cons, List.range'_succ] at h
      obtain ⟨hseq, hrest⟩ := List.cons.inj h
      obtain ⟨hrows, hcounter⟩ :
          (appendOperations (db.appendOperation row).1 rows).operations =
              (db.appendOperation row).1.operations ++ rows ∧
            (appendOperations (db.appendOperation row).1 rows).documentSeq =
              (db.appendOperation row).1.documentSeq + rows.length := ih hrest
      have hrow : { row with seq := db.documentSeq + 1 } = row := by rw [← hseq]
      refine ⟨?_, ?_⟩
      · show (appendOperations (db.appendOperation row).1 rows).operations = _
        rw [hrows]
        show db.operations ++ [{ row with seq := db.documentSeq + 1 }] ++ rows = _
        rw [hrow, List.append_assoc, List.singleton_append]
      · show (appendOperations (db.appendOperation row).1 rows).documentSeq = _
        rw [hcounter]
        show db.documentSeq + 1 + rows.length = _
        rw [List.length_cons]
        omega

/-- **The committed tables are those of calls that run one after the other.** -/
theorem committed_eq_appendOperations (h : Reaches empty s) :
    ∃ calls, (appendOperations .empty calls).operations = s.operations ∧
      (appendOperations .empty calls).documentSeq = counter s.sequence := by
  have hs : Sequenced s := sequenced_empty.reaches h
  have hlength : counter s.sequence = s.operations.length := by
    rw [← List.length_map (f := OperationEnvelope.seq), hs.operations, List.length_range']
  have hseqs : s.operations.map OperationEnvelope.seq =
      List.range' (Database.empty.documentSeq + 1) s.operations.length := by
    rw [← hlength]
    exact hs.operations
  obtain ⟨hrows, hcounter⟩ := appendOperations_of_next hseqs
  refine ⟨s.operations, hrows, hcounter.trans ?_⟩
  rw [hlength]
  exact Nat.zero_add _

/-- **A resumed read misses nothing**: what `loadOperationsAfterSeq` returns behind the greatest
seq of an earlier state is what has been committed since, within the limit. -/
theorem loadOperationsAfterSeq_since (h : Reaches empty s) (h' : Reaches s s') {db db' : Database}
    (hdb : db.operations = s.operations) (hdb' : db'.operations = s'.operations) {limit : Nat}
    (hlimit : db'.countAfterSeq db.getMaxSeq ≤ limit) (row : OperationEnvelope) :
    row ∈ db'.loadOperationsAfterSeq db.getMaxSeq limit ↔
      row ∈ s'.operations ∧ row ∉ s.operations := by
  have hs' : Sequenced s' := (sequenced_empty.reaches h).reaches h'
  rw [Database.mem_loadOperationsAfterSeq hlimit, hdb']
  refine and_congr_right fun hrow => ⟨fun hlt hold => ?_, fun hnew => ?_⟩
  · exact absurd (Database.seq_le_getMaxSeq (hdb ▸ hold)) (by omega)
  · have hpos : 0 < row.seq := by
      have hmem : row.seq ∈ s'.operations.map OperationEnvelope.seq := List.mem_map_of_mem hrow
      rw [hs'.operations] at hmem
      exact (List.mem_range'_1.mp hmem).1
    have hle : db.getMaxSeq ≤ row.seq - 1 := Database.getMaxSeq_le_of_forall fun seen hseen =>
      Nat.le_sub_one_of_lt (hs'.seq_lt (operations_of_reaches h') (hdb ▸ hseen) hrow hnew)
    omega

end SequencedStore

end SyncEngine
