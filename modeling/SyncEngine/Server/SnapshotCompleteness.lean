import Mathlib.Data.Fintype.Prod
import SyncEngine.Crdt.Encoding
import SyncEngine.Lib.Transition
import SyncEngine.Server.PoolHistory

/-!
# Snapshots and their seq

A snapshot "includes operations through this seq".  Its seq is the greatest in the shared table,
read at one await of the job; its data is the replica of one worker, serialized at a later one.
A worker that has not applied what others have stored writes a snapshot that lacks it
(`not_forall_snapshots_capture`), and whoever loads this snapshot never reads the operation
again.

`snapshots_capture` says what a job may rely on: every row up to the seq it has read must have
reached the entry it serializes (`Reached`), every DELETE that a call has applied to the entry must
have been stored, and no INSERT may fail when it is applied, bring back a node whose DELETE has
reached the entry before it, or share its UID with another INSERT.  Then every snapshot holds all
it should, on every run.

A DELETE takes its node away from the entry before its row is stored.  When the append throws, the
row is never stored, and a snapshot of the entry would lose the node for good: that is why the job
has to wait for it.
-/

namespace SyncEngine

open ReplicatedList Transition

namespace WorkerPool

variable {W K : Type*} [DecidableEq W] [DecidableEq K] {s s' : WorkerPool W K}
  {a : PoolAction W K}

/-! ## What has been applied -/

/-- The operations that some worker has applied. -/
def applied (s : WorkerPool W K) : Set RGAOperation :=
  {op | ∃ k, ∃ call ∈ s.calls k, call.appliedTo ≠ none ∧ call.msg.op = op}

/-- The operations that are stored. -/
def storedOps (s : WorkerPool W K) : Set RGAOperation :=
  {op | ∃ row ∈ s.db.operations, row.op = op}

/-- The operations that calls have applied to the entry of load `n`. -/
def appliedTo (s : WorkerPool W K) (w : W) (n : Nat) : Set RGAOperation :=
  {op | ∃ k, ∃ call ∈ s.calls k,
    call.worker = w ∧ (∃ target ∈ call.appliedTo, target.1 = n) ∧ call.msg.op = op}

/-- The operation has reached the entry of load `n`: through the snapshot the load started from,
in its replay, or by a call. -/
def Reached (s : WorkerPool W K) (w : W) (n : Nat) (l : Loaded) (op : RGAOperation) : Prop :=
  (∃ row ∈ s.db.operations, row.seq ≤ snapshotSeq l.snapshot ∧ row.op = op) ∨
    (∃ row ∈ l.rows, row.op = op) ∨ op ∈ s.appliedTo w n

/-- What a document goes back to: INSERTs that have been applied, and DELETEs that are stored or
among `own`. -/
def basis (s : WorkerPool W K) (own : Set RGAOperation) : Set RGAOperation :=
  {op | op ∈ s.applied ∧ (op.inserted = none → op ∈ s.storedOps ∨ op ∈ own)}

/-- The operations stored up to a seq. -/
def opsUpTo (db : Database) (seq : Nat) : List RGAOperation :=
  (db.operations.filter fun row => row.seq ≤ seq).map OperationEnvelope.op

instance (op : RGAOperation) : Decidable (op ∈ s.storedOps) :=
  inferInstanceAs (Decidable (∃ row ∈ s.db.operations, row.op = op))

instance [Fintype K] (w : W) (n : Nat) (op : RGAOperation) : Decidable (op ∈ s.appliedTo w n) :=
  inferInstanceAs (Decidable (∃ k, ∃ call ∈ s.calls k,
    call.worker = w ∧ (∃ target ∈ call.appliedTo, target.1 = n) ∧ call.msg.op = op))

instance [Fintype K] (w : W) (n : Nat) (l : Loaded) (op : RGAOperation) :
    Decidable (s.Reached w n l op) := by
  unfold Reached
  infer_instance

/-- An INSERT that a call is about to apply succeeds, brings back no deleted node and shares its
UID with no other INSERT. -/
def AppliesCleanly (s : WorkerPool W K) (k : K) : Prop :=
  ∀ call ∈ s.calls k, ∀ n ∈ call.aboutToApply, ∀ l ∈ s.loaded call.worker n,
    ∀ u ∈ call.msg.op.inserted,
      (l.entry.doc.applyOperation call.msg.op).2 = true ∧
      ¬ s.Reached call.worker n l (.delete ⟨u⟩) ∧
      ∀ k', ∀ call' ∈ s.calls k', call'.appliedTo ≠ none →
        call'.msg.op.inserted = some u → call'.msg.op = call.msg.op

/-- The INSERTs that a load is about to replay succeed and bring back no deleted node. -/
def ReplaysCleanly (s : WorkerPool W K) (w : W) (n : Nat) : Prop :=
  ∀ stage ∈ s.stageOf w n, ∀ read ∈ stage.toReplay,
    ReplaysInserts (snapshotDoc read.1) (opsUpTo s.db (snapshotSeq read.1))
      (read.2.map OperationEnvelope.op)

/-- Every row up to its seq has reached the entry that a job is about to serialize, and the DELETEs
that calls have applied to the entry are stored. -/
def SerializesAll (s : WorkerPool W K) (i : Nat) : Prop :=
  ∀ job ∈ s.jobs[i]?, ∀ target ∈ job.aboutToCollect,
    (∀ l ∈ s.loaded job.worker target.1,
      ∀ row ∈ s.db.operations, row.seq ≤ target.2 → s.Reached job.worker target.1 l row.op) ∧
    ∀ k, ∀ call ∈ s.calls k, call.worker = job.worker →
      (∃ applied ∈ call.appliedTo, applied.1 = target.1) → call.msg.op.inserted = none →
        call.msg.op ∈ s.storedOps

/-- The steps after which every snapshot still holds what it should. -/
def Capturing (s : WorkerPool W K) : PoolAction W K → Prop
  | .advance k => s.AppliesCleanly k
  | .load w n => s.ReplaysCleanly w n
  | .job i => s.SerializesAll i
  | _ => True

instance [Fintype K] (k : K) : Decidable (s.AppliesCleanly k) := by
  unfold AppliesCleanly
  infer_instance

instance (w : W) (n : Nat) : Decidable (s.ReplaysCleanly w n) := by
  unfold ReplaysCleanly
  infer_instance

instance [Fintype K] (i : Nat) : Decidable (s.SerializesAll i) := by
  unfold SerializesAll
  infer_instance

instance [Fintype K] : DecidablePred s.Capturing
  | .advance k => inferInstanceAs (Decidable (s.AppliesCleanly k))
  | .load w n => inferInstanceAs (Decidable (s.ReplaysCleanly w n))
  | .job i => inferInstanceAs (Decidable (s.SerializesAll i))
  | .begin .. | .refuse .. | .throwAppend _ | .join _ | .evict _ | .deliver _ | .forceSnapshot _
  | .skipJob _ => isTrue trivial

instance [Fintype K] (op : RGAOperation) : Decidable (op ∈ s.applied) :=
  inferInstanceAs (Decidable (∃ k, ∃ call ∈ s.calls k, call.appliedTo ≠ none ∧ call.msg.op = op))

section

omit [DecidableEq W] [DecidableEq K]

lemma applied_mono (h : Grows s s') : s.applied ⊆ s'.applied := by
  rintro op ⟨k, call, hcall, happlied, rfl⟩
  obtain ⟨call', hcall', hgrows⟩ := h.calls_kept k call hcall
  obtain ⟨⟨n, ok⟩, htarget⟩ := Option.ne_none_iff_exists'.mp happlied
  exact ⟨k, call', hcall', by simp [hgrows.appliedTo htarget], by rw [hgrows.msg_eq]⟩

lemma storedOps_mono (h : Grows s s') : s.storedOps ⊆ s'.storedOps := by
  rintro op ⟨row, hrow, rfl⟩
  exact ⟨row, h.operations_subset hrow, rfl⟩

lemma appliedTo_mono (h : Grows s s') (w : W) (n : Nat) : s.appliedTo w n ⊆ s'.appliedTo w n := by
  rintro op ⟨k, call, hcall, hworker, ⟨⟨m, ok⟩, htarget, hm⟩, rfl⟩
  obtain ⟨call', hcall', hgrows⟩ := h.calls_kept k call hcall
  exact ⟨k, call', hcall', hgrows.worker_eq.trans hworker, ⟨_, hgrows.appliedTo htarget, hm⟩,
    by rw [hgrows.msg_eq]⟩

lemma basis_subset {own own' : Set RGAOperation} (happlied : s.applied ⊆ s'.applied)
    (hstored : s.storedOps ⊆ s'.storedOps) (hown : own ⊆ own') : s.basis own ⊆ s'.basis own' :=
  fun _ hop => ⟨happlied hop.1, fun hnone => (hop.2 hnone).imp (@hstored _) (@hown _)⟩

lemma basis_mono (h : Grows s s') {own own' : Set RGAOperation} (hown : own ⊆ own') :
    s.basis own ⊆ s'.basis own' :=
  basis_subset (applied_mono h) (storedOps_mono h) hown

lemma Recorded.row_applied (hrec : Recorded s) {row : OperationEnvelope}
    (hrow : row ∈ s.db.operations) : row.op ∈ s.applied := by
  obtain ⟨k, call, hcall, hstored⟩ := hrec.row_call row hrow
  refine ⟨k, call, hcall, fun hnone => ?_, (hrec.stored_mem k call row hcall hstored).2.symm⟩
  simp [OperationCall.stored_of_appliedTo_none hnone] at hstored

lemma Recorded.row_mem_basis (hrec : Recorded s) {row : OperationEnvelope}
    (hrow : row ∈ s.db.operations) (own : Set RGAOperation) : row.op ∈ s.basis own :=
  ⟨hrec.row_applied hrow, fun _ => Or.inl ⟨row, hrow, rfl⟩⟩

end

lemma mem_opsUpTo {db : Database} {seq : Nat} {op : RGAOperation} :
    op ∈ opsUpTo db seq ↔ ∃ row ∈ db.operations, row.seq ≤ seq ∧ row.op = op := by
  simp [opsUpTo, and_assoc]

/-! ## What holds of snapshots and entries -/

/-- A snapshot, or the lack of one, reckons with every row up to its seq. -/
structure Captured (s : WorkerPool W K) (snapshot : Option SnapshotRecord) : Prop where
  indexed : RGADocument.Indexed (snapshotDoc snapshot)
  sound : Sound (s.basis ∅) (snapshotDoc snapshot).cells
  accounts : ∀ row ∈ s.db.operations, row.seq ≤ snapshotSeq snapshot →
    Accounts (s.basis ∅) (snapshotDoc snapshot).cells row.op
  seq_le : snapshotSeq snapshot ≤ s.db.documentSeq

/-- An entry reckons with every operation that has reached it. -/
structure CapturingEntry (s : WorkerPool W K) (w : W) (n : Nat) (l : Loaded) : Prop where
  indexed : RGADocument.Indexed l.entry.doc
  sound : Sound (s.basis (s.appliedTo w n)) l.entry.doc.cells
  accounts : ∀ op, s.Reached w n l op →
    Accounts (s.basis (s.appliedTo w n)) l.entry.doc.cells op
  seq_le : snapshotSeq l.snapshot ≤ s.db.documentSeq

/-- What a load has read so far. -/
def ReadsCaptured (s : WorkerPool W K) : LoadStage → Prop
  | .awaitSnapshot => True
  | .awaitOperations snapshot => s.Captured snapshot
  | .replaying snapshot rows => s.Captured snapshot ∧ rows ⊆ s.db.operations
  | .resolved _ => True

/-- What a job is about to do. -/
def WritesCaptured (s : WorkerPool W K) : JobStage → Prop
  | .maxSeq _ seq => seq ≤ s.db.documentSeq
  | .saving _ snapshot => s.Captured (some snapshot)
  | _ => True

/-- What holds along every run. -/
structure Captures (s : WorkerPool W K) : Prop where
  recorded : Recorded s
  applied_loaded : AppliedLoaded s
  inserted_unique : ∀ p ∈ s.applied, ∀ q ∈ s.applied, ∀ u, p.inserted = some u →
    q.inserted = some u → p = q
  snapshots : ∀ snapshot ∈ s.db.snapshots, s.Captured (some snapshot)
  jobs : ∀ job ∈ s.jobs, s.WritesCaptured job.stage
  loads : ∀ w n stage, s.stageOf w n = some stage → s.ReadsCaptured stage
  entries : ∀ w n l, s.loaded w n = some l → s.CapturingEntry w n l

section

omit [DecidableEq W] [DecidableEq K]

lemma captures_start (t : Nat) : Captures (start t : WorkerPool W K) where
  recorded := recorded_start t
  applied_loaded k c n ok hc := by simp [start] at hc
  inserted_unique p hp := by
    obtain ⟨k, call, hcall, -⟩ := hp
    simp [start] at hcall
  snapshots snapshot h := by simp [start, Database.empty] at h
  jobs job h := by simp [start] at h
  loads w n stage h := by simp [start, stageOf, Worker.start] at h
  entries w n l h := by simp [start, loaded, Worker.loaded, Worker.start] at h

lemma captured_none (hrec : Recorded s) : s.Captured none where
  indexed := RGADocument.indexed_empty
  sound := sound_nil
  accounts row hrow hle := by
    have hpos := hrec.seq_pos row hrow
    have hzero : row.seq ≤ 0 := hle
    omega
  seq_le := Nat.zero_le _

lemma Captured.of_grows {snapshot : Option SnapshotRecord} (hcaptured : s.Captured snapshot)
    (h : Grows s s') : s'.Captured snapshot where
  indexed := hcaptured.indexed
  sound := hcaptured.sound.mono (basis_mono h (Set.Subset.refl _))
  accounts row hrow hle := by
    rcases h.new_row row hrow with hrow | hnew
    · exact (hcaptured.accounts row hrow hle).mono (basis_mono h (Set.Subset.refl _))
    · have hseq := hcaptured.seq_le
      omega
  seq_le := hcaptured.seq_le.trans h.documentSeq_le

lemma ReadsCaptured.of_grows {stage : LoadStage} (hreads : s.ReadsCaptured stage)
    (h : Grows s s') : s'.ReadsCaptured stage := by
  cases stage with
  | awaitSnapshot => exact trivial
  | awaitOperations snapshot => exact Captured.of_grows hreads h
  | replaying snapshot rows =>
      exact ⟨hreads.1.of_grows h, fun row hrow => h.operations_subset (hreads.2 hrow)⟩
  | resolved l => exact trivial

lemma WritesCaptured.of_grows {stage : JobStage} (hwrites : s.WritesCaptured stage)
    (h : Grows s s') : s'.WritesCaptured stage := by
  cases stage with
  | maxSeq n seq => exact Nat.le_trans hwrites h.documentSeq_le
  | saving n snapshot => exact Captured.of_grows hwrites h
  | _ => exact trivial

lemma readsCaptured_next {stage stage' : LoadStage} (hs : Captures s)
    (hreads : s.ReadsCaptured stage) (hnext : stage.next s.db = some stage') :
    s.ReadsCaptured stage' := by
  cases stage with
  | awaitSnapshot =>
      obtain rfl := Option.some.inj hnext
      cases hlatest : s.db.loadLatestSnapshot with
      | none => exact captured_none hs.recorded
      | some snapshot => exact hs.snapshots snapshot (Database.loadLatestSnapshot_mem hlatest)
  | awaitOperations snapshot =>
      obtain rfl := Option.some.inj hnext
      exact ⟨hreads, fun row hrow => (Database.mem_of_mem_loadOperationsAfterSeq hrow).1⟩
  | replaying snapshot rows =>
      obtain rfl := Option.some.inj hnext
      exact trivial
  | resolved l => simp [LoadStage.next] at hnext

end

/-- Whatever has reached an entry of the new state had reached it before, or a call has just
applied it. -/
lemma reached_old (h : s.step a = some s') {w : W} {n : Nat} {l l' : Loaded}
    (hrows : l'.rows = l.rows) (hsnapshot : l'.snapshot = l.snapshot)
    (hseq : snapshotSeq l.snapshot ≤ s.db.documentSeq) {op : RGAOperation}
    (hreached : s'.Reached w n l' op) : s.Reached w n l op ∨
      ∃ k call l₀, a = .advance k ∧ s.calls k = some call ∧ call.stage = .awaitDocument n ∧
        call.worker = w ∧ call.msg.op = op ∧ s.loaded w n = some l₀ ∧
        s'.loaded w n = some { l₀ with
          entry := { l₀.entry with doc := (l₀.entry.doc.applyOperation op).1 } } := by
  rcases hreached with ⟨row, hrow, hle, hop⟩ | ⟨row, hrow, hop⟩ | ⟨k, c, hc, hw, htarget, hop⟩
  · rcases (step_grows h).new_row row hrow with hrow | hnew
    · exact Or.inl (Or.inl ⟨row, hrow, hsnapshot ▸ hle, hop⟩)
    · rw [hsnapshot] at hle
      omega
  · exact Or.inl (Or.inr (Or.inl ⟨row, hrows ▸ hrow, hop⟩))
  · obtain ⟨⟨m, ok⟩, htarget, hm⟩ := htarget
    obtain rfl : m = n := hm
    rcases appliedTo_old h hc htarget with
      ⟨c₀, hc₀, happlied, hworker, hmsg⟩ | ⟨ha, call, l₀, hcall, hstage, hworker, hmsg, hl, -, hnew⟩
    · refine Or.inl (Or.inr (Or.inr ⟨k, c₀, hc₀, hworker.symm.trans hw, ⟨_, happlied, rfl⟩, ?_⟩))
      rw [← hmsg, hop]
    · have hcw : call.worker = w := hworker.symm.trans hw
      have hcop : call.msg.op = op := by rw [← hmsg, hop]
      rw [hcw] at hl
      rw [hcw, hcop] at hnew
      exact Or.inr ⟨k, call, l₀, ha, hcall, hstage, hcw, hcop, hl, hnew⟩

/-- An operation of the new state had been applied before, or a call has just applied it. -/
lemma applied_old (h : s.step a = some s') {op : RGAOperation} (hop : op ∈ s'.applied) :
    op ∈ s.applied ∨ ∃ k call n l, a = .advance k ∧ s.calls k = some call ∧
      call.stage = .awaitDocument n ∧ s.loaded call.worker n = some l ∧ call.msg.op = op := by
  obtain ⟨k, c, hc, happlied, rfl⟩ := hop
  obtain ⟨⟨n, ok⟩, htarget⟩ := Option.ne_none_iff_exists'.mp happlied
  rcases appliedTo_old h hc htarget with
    ⟨c₀, hc₀, htarget₀, -, hmsg⟩ | ⟨ha, call, l, hcall, hstage, -, hmsg, hl, -⟩
  · exact Or.inl ⟨k, c₀, hc₀, by simp [htarget₀], by rw [hmsg]⟩
  · exact Or.inr ⟨k, call, n, l, ha, hcall, hstage, hl, by rw [hmsg]⟩

/-- A call that applies its operation to an entry leaves it applied. -/
lemma mem_basis_of_apply {k : K} {call : OperationCall W} {n : Nat}
    (hcall : s.calls k = some call) (hstage : call.stage = .awaitDocument n)
    (h : s.step (.advance k) = some s') :
    call.msg.op ∈ s'.basis (s'.appliedTo call.worker n) := by
  simp only [step, hcall, Option.bind_some, advanceCall, hstage, Option.map_eq_some_iff] at h
  obtain ⟨l, -, rfl⟩ := h
  have hcall' : (s.applyOperation k call n l).calls k = some { call with
      stage := .applied n (l.entry.doc.applyOperation call.msg.op).2 .appending } := by
    rw [calls_applyOperation, Function.update_self]
  exact ⟨⟨k, _, hcall', by simp [OperationCall.appliedTo], rfl⟩, fun _ =>
    Or.inr ⟨k, _, hcall', rfl, ⟨_, rfl, rfl⟩, rfl⟩⟩

/-! ## One step -/

lemma inserted_unique_step (hs : Captures s) (hcapturing : s.Capturing a)
    (h : s.step a = some s') : ∀ p ∈ s'.applied, ∀ q ∈ s'.applied, ∀ u, p.inserted = some u →
      q.inserted = some u → p = q := by
  have hmixed : ∀ p ∈ s.applied, ∀ k call n l, a = .advance k → s.calls k = some call →
      call.stage = .awaitDocument n → s.loaded call.worker n = some l → ∀ u,
      p.inserted = some u → call.msg.op.inserted = some u → p = call.msg.op := by
    rintro p ⟨k', c, hc, happlied, rfl⟩ k call n l rfl hcall hstage hl u hpu hcu
    exact (hcapturing call hcall n (by simp [OperationCall.aboutToApply, hstage]) l hl u hcu).2.2
      k' c hc happlied hpu
  intro p hp q hq u hpu hqu
  rcases applied_old h hp with hp | ⟨k, call, n, l, ha, hcall, hstage, hl, rfl⟩ <;>
    rcases applied_old h hq with hq | ⟨k₂, call₂, n₂, l₂, ha₂, hcall₂, hstage₂, hl₂, rfl⟩
  · exact hs.inserted_unique p hp q hq u hpu hqu
  · exact hmixed p hp k₂ call₂ n₂ l₂ ha₂ hcall₂ hstage₂ hl₂ u hpu hqu
  · exact (hmixed q hq k call n l ha hcall hstage hl u hqu hpu).symm
  · obtain rfl : k = k₂ := by simpa using ha.symm.trans ha₂
    obtain rfl := Option.some.inj (hcall.symm.trans hcall₂)
    rfl

/-- What an entry has reckoned with, with what a call may just have applied to it. -/
lemma accounts_step (hs : Captures s) (hcapturing : s.Capturing a) (h : s.step a = some s')
    {w : W} {n : Nat} {l l' : Loaded} (hl : s.loaded w n = some l)
    (hl' : s'.loaded w n = some l') (hrows : l'.rows = l.rows)
    (hsnapshot : l'.snapshot = l.snapshot)
    (hkept : ∀ op, s.Reached w n l op →
      Accounts (s'.basis (s'.appliedTo w n)) l'.entry.doc.cells op) :
    ∀ op, s'.Reached w n l' op →
      Accounts (s'.basis (s'.appliedTo w n)) l'.entry.doc.cells op := by
  intro op hreached
  have hentry := hs.entries w n l hl
  rcases reached_old h hrows hsnapshot hentry.seq_le hreached with
    hold | ⟨k, call, l₀, rfl, hcall, hstage, hw, rfl, hl₀, hnew⟩
  · exact hkept op hold
  · obtain rfl := Option.some.inj (hl.symm.trans hl₀)
    obtain rfl := Option.some.inj (hnew.symm.trans hl')
    refine accounts_self hentry.indexed call.msg.uid_ne_root fun hne => ?_
    obtain ⟨u, hu⟩ := Option.ne_none_iff_exists'.mp hne
    exact (hcapturing call hcall n (by simp [OperationCall.aboutToApply, hstage]) l (hw ▸ hl) u
      hu).1

/-- The entry of a load that replays a log as it should. -/
lemma capturingEntry_replayed (hs : Captures s) {w : W} {n : Nat}
    {snapshot : Option SnapshotRecord} {rows : List OperationEnvelope}
    (hstage : s.stageOf w n = some (.replaying snapshot rows))
    (hcapturing : s.Capturing (.load w n)) (h : s.step (.load w n) = some s') :
    s'.CapturingEntry w n ⟨snapshot, rows, replayDelta snapshot rows⟩ := by
  have hgrows := step_grows h
  obtain ⟨hcaptured, hsub⟩ := hs.loads w n _ hstage
  have hreplays := hcapturing (.replaying snapshot rows) (by simp [hstage]) (snapshot, rows) rfl
  have hmsg : ∀ op ∈ rows.map OperationEnvelope.op,
      op ∈ s.basis ∅ ∧ ∃ msg : ValidatedOperationMessage, op = msg.op := by
    intro op hop
    obtain ⟨row, hrow, rfl⟩ := List.mem_map.mp hop
    exact ⟨hs.recorded.row_mem_basis (hsub hrow) _, hs.recorded.exists_msg (hsub hrow)⟩
  have hbefore : ∀ op ∈ opsUpTo s.db (snapshotSeq snapshot),
      Accounts (s.basis ∅) (snapshotDoc snapshot).cells op := by
    intro op hop
    obtain ⟨row, hrow, hle, rfl⟩ := mem_opsUpTo.mp hop
    exact hcaptured.accounts row hrow hle
  obtain ⟨hsound, haccounts⟩ := accounts_replay hcaptured.indexed hcaptured.sound hbefore
    (fun op hop => by obtain ⟨-, msg, rfl⟩ := hmsg op hop; exact msg.uid_ne_root)
    (fun op hop => by obtain ⟨-, msg, rfl⟩ := hmsg op hop; exact msg.isEdit)
    (fun op hop => (hmsg op hop).1) hreplays
  have hmono : s.basis ∅ ⊆ s'.basis (s'.appliedTo w n) :=
    basis_mono hgrows (Set.empty_subset _)
  refine ⟨hcaptured.indexed.applyOperations _, hsound.mono hmono, fun op hop => ?_,
    hcaptured.seq_le.trans hgrows.documentSeq_le⟩
  refine (haccounts op (List.mem_append.mpr ?_)).mono hmono
  rcases hop with
    ⟨row, hrow, hle, rfl⟩ | ⟨row, hrow, rfl⟩ | ⟨k, c, hc, hw, ⟨⟨m, ok⟩, htarget, hm⟩, -⟩
  · rcases hgrows.new_row row hrow with hrow | hnew
    · exact Or.inl (mem_opsUpTo.mpr ⟨row, hrow, hle, rfl⟩)
    · have hseq := hcaptured.seq_le
      have hle' : row.seq ≤ snapshotSeq snapshot := hle
      omega
  · exact Or.inr (List.mem_map_of_mem hrow)
  · -- no call has applied anything to a load that was not resolved
    obtain rfl : m = n := hm
    rcases appliedTo_old h hc htarget with ⟨c₀, hc₀, happlied₀, hworker, -⟩ | ⟨ha, -⟩
    · obtain ⟨l, hl⟩ := hs.applied_loaded k c₀ m ok hc₀ happlied₀
      rw [← hworker, hw, loaded_eq_some, hstage] at hl
      simp at hl
    · exact absurd ha (by simp)

lemma capturingEntry_step (hs : Captures s) (hcapturing : s.Capturing a) (h : s.step a = some s')
    {w : W} {n : Nat} {l' : Loaded} (hl' : s'.loaded w n = some l') :
    s'.CapturingEntry w n l' := by
  have hgrows := step_grows h
  have hmono : s.basis (s.appliedTo w n) ⊆ s'.basis (s'.appliedTo w n) :=
    basis_mono hgrows (appliedTo_mono hgrows w n)
  -- an entry whose document stays as it is
  have hsame : ∀ l, s.loaded w n = some l → l'.entry.doc = l.entry.doc → l'.rows = l.rows →
      l'.snapshot = l.snapshot → s'.CapturingEntry w n l' := by
    intro l hl hdoc hrows hsnapshot
    obtain ⟨hindexed, hsound, haccounts, hseq⟩ := hs.entries w n l hl
    rw [← hdoc] at hindexed hsound haccounts
    exact ⟨hindexed, hsound.mono hmono, accounts_step hs hcapturing h hl hl' hrows hsnapshot
      fun op hop => (haccounts op hop).mono hmono, hsnapshot ▸ hseq.trans hgrows.documentSeq_le⟩
  cases entryFrom h hl' with
  | kept hl => exact hsame l' hl rfl rfl rfl
  | replayed snapshot rows hstage hl'' =>
      subst hl''
      exact capturingEntry_replayed hs hstage hcapturing h
  | applied call l hcall hstage hworker hl hl'' =>
      subst hl''
      have hentry := hs.entries w n l hl
      have hnew := hworker ▸ mem_basis_of_apply hcall hstage h
      refine ⟨hentry.indexed.applyOperation _, (hentry.sound.mono hmono).applyOperation
        hentry.indexed call.msg.uid_ne_root call.msg.isEdit hnew,
        accounts_step hs hcapturing h hl hl' rfl rfl fun op hop => ?_,
        hentry.seq_le.trans hgrows.documentSeq_le⟩
      -- the entry has reckoned with no DELETE of the node the call inserts, as `Capturing` says
      refine ((hentry.accounts op hop).mono hmono).applyOperation hentry.indexed
        call.msg.uid_ne_root call.msg.isEdit fun u hu hdelete => ?_
      exact (hcapturing call hcall n (by simp [OperationCall.aboutToApply, hstage]) l
        (hworker ▸ hl) u hu).2.1 (hworker ▸ hdelete ▸ hop)
  | counted call m ok envelope l hcall hstage hworker hcache hl hl'' =>
      subst hl''
      exact hsame l hl rfl rfl rfl
  | collected l hl hl'' =>
      subst hl''
      have hentry := hs.entries w n l hl
      have hsound := hentry.sound.mono hmono
      exact ⟨indexed_gc hentry.indexed, hsound.gc, accounts_step hs hcapturing h hl hl' rfl rfl
        fun op hop => ((hentry.accounts op hop).mono hmono).gc hsound,
        hentry.seq_le.trans hgrows.documentSeq_le⟩
  | reset l hl hl'' =>
      subst hl''
      exact hsame l hl rfl rfl rfl

omit [DecidableEq W] [DecidableEq K] in
/-- What a job serializes when every row up to its seq has reached the entry. -/
lemma captured_collected (hs : Captures s) {i : Nat} {job : SnapshotJob W} {n seq : Nat}
    {l : Loaded} (hjob : s.jobs[i]? = some job) (hstage : job.stage = .maxSeq n seq)
    (hl : s.loaded job.worker n = some l) (hcapturing : s.Capturing (.job i)) :
    s.Captured (some ⟨seq, l.entry.doc.gc.1.serialize⟩) := by
  have hentry := hs.entries job.worker n l hl
  have hcells : (RGADocument.deserialize l.entry.doc.gc.1.serialize).cells =
      l.entry.doc.gc.1.cells := by
    rw [RGADocument.cells_deserialize, RGADocument.cells_serialize]
  have hseq : s.WritesCaptured job.stage := hs.jobs job (List.mem_of_getElem? hjob)
  rw [hstage] at hseq
  obtain ⟨hreached, hstored⟩ := hcapturing job hjob (n, seq)
    (by simp [SnapshotJob.aboutToCollect, hstage])
  -- what the entry owes to a DELETE is stored
  have hbasis : s.basis (s.appliedTo job.worker n) ⊆ s.basis ∅ := by
    rintro op ⟨happlied, hdelete⟩
    refine ⟨happlied, fun hnone => Or.inl ((hdelete hnone).elim id ?_)⟩
    rintro ⟨k, call, hcall, hworker, htarget, rfl⟩
    exact hstored k call hcall hworker htarget hnone
  refine ⟨(indexed_gc hentry.indexed).of_cells_eq hcells, ?_, fun row hrow hle => ?_, hseq⟩
  · show Sound _ (RGADocument.deserialize _).cells
    rw [hcells]
    exact hentry.sound.gc.mono hbasis
  · show Accounts _ (RGADocument.deserialize _).cells _
    rw [hcells]
    exact ((hentry.accounts row.op (hreached l hl row hrow hle)).gc hentry.sound).mono hbasis

/-- **One step keeps the snapshots complete.** -/
lemma Captures.step (hs : Captures s) (hcapturing : s.Capturing a) (h : s.step a = some s') :
    Captures s' := by
  have hgrows := step_grows h
  refine ⟨hs.recorded.step h, hs.applied_loaded.step h, inserted_unique_step hs hcapturing h,
    fun snapshot hsnapshot => ?_, fun job' hjob' => ?_, ?_,
    fun w n l' hl' => capturingEntry_step hs hcapturing h hl'⟩
  · rcases snapshot_old h hsnapshot with hold | ⟨i, job, n, -, hjob, hstage⟩
    · exact (hs.snapshots snapshot hold).of_grows hgrows
    · have hwrites := hs.jobs job (List.mem_of_getElem? hjob)
      rw [hstage] at hwrites
      exact Captured.of_grows hwrites hgrows
  · cases jobFrom h hjob' with
    | kept hold => exact (hs.jobs job' hold).of_grows hgrows
    | early hsaving hseq =>
        cases hstage : job'.stage with
        | maxSeq n seq =>
            have hmax := hseq n seq hstage
            exact (hmax ▸ s.db.getMaxSeq_le).trans hgrows.documentSeq_le
        | saving n snapshot => exact absurd hstage (hsaving n snapshot)
        | _ => exact trivial
    | collected job n seq l hjob hstage hl hstage' =>
        rw [hstage']
        exact Captured.of_grows (captured_collected hs hjob hstage hl hcapturing) hgrows
  · exact loads_step h hs.loads trivial (fun _ => trivial) (fun _ hreads => hreads.of_grows hgrows)
      fun _ _ hreads hnext => (readsCaptured_next hs hreads hnext).of_grows hgrows

/-! ## Snapshots lose nothing -/

/-- Every INSERT stored up to the snapshot's seq whose node no stored DELETE targets is a live node
of its data, with its value; and no node deleted up to there is live. -/
structure LosesNothing (s : WorkerPool W K) (snapshot : SnapshotRecord) : Prop where
  inserted : ∀ row ∈ s.db.operations, row.seq ≤ snapshot.seq → ∀ op, row.op = .insert op →
    (∀ row' ∈ s.db.operations, row'.op ≠ .delete ⟨op.uid⟩) →
      ∃ node ∈ snapshot.data, (⟨node.clock, node.siteId⟩ : UID) = op.uid ∧
        node.value = op.value ∧ node.tombstoned = false
  deleted : ∀ row ∈ s.db.operations, row.seq ≤ snapshot.seq → ∀ op, row.op = .delete op →
    ∀ node ∈ snapshot.data, (⟨node.clock, node.siteId⟩ : UID) = op.uid → node.tombstoned = true

omit [DecidableEq W] [DecidableEq K] in
lemma Captured.losesNothing (hs : Captures s) {snapshot : SnapshotRecord}
    (hcaptured : s.Captured (some snapshot)) : s.LosesNothing snapshot := by
  have hcells : (snapshotDoc (some snapshot)).cells = snapshot.data.map SerializedRGANode.cell :=
    RGADocument.cells_deserialize snapshot.data
  have hsound := hcells ▸ hcaptured.sound
  have haccounts := hcells ▸ hcaptured.accounts
  refine ⟨fun row hrow hle op hop hnone => ?_, fun row hrow hle op hop node hnode huid => ?_⟩
  · have hkept : .delete ⟨op.uid⟩ ∉ s.basis ∅ := by
      rintro ⟨-, hstored⟩
      obtain ⟨row', hrow', heq⟩ := (hstored rfl).resolve_right (Set.notMem_empty _)
      exact hnone row' hrow' heq
    have hmem : op.uid ∈ ids (snapshot.data.map SerializedRGANode.cell) := by
      have haccount := haccounts row hrow hle
      rw [hop] at haccount
      exact haccount.resolve_right hkept
    obtain ⟨c, hc, hid⟩ := List.mem_map.mp hmem
    obtain ⟨node, hnode, rfl⟩ := List.mem_map.mp hc
    refine ⟨node, hnode, hid, ?_, ?_⟩
    · obtain ⟨op', hop', huid, hvalue⟩ := hsound.inserted _ hc
      have hrow' : .insert op ∈ s.applied := hop ▸ hs.recorded.row_applied hrow
      have hsame := hs.inserted_unique _ hop'.1 _ hrow' op.uid (congrArg some (huid.trans hid)) rfl
      rw [← RGAOperation.insert.inj hsame, hvalue]
      rfl
    · rw [Bool.eq_false_iff]
      exact fun hdead => hkept (hid ▸ hsound.deleted _ hc hdead)
  · have haccount := haccounts row hrow hle
    rw [hop] at haccount
    exact haccount _ (List.mem_map_of_mem hnode) huid

/-- **Snapshots lose nothing** along every run in which INSERTs succeed, bring back no deleted
node and share no UID, and a job serializes only what every row up to its seq has reached and from
which only stored DELETEs have taken something away. -/
theorem snapshots_capture {t : Nat} (h : Reach step Capturing (start t) s) :
    ∀ snapshot ∈ s.db.snapshots, s.LosesNothing snapshot := by
  have hs : Captures s := h.invariant (captures_start t) fun s a s' hs hcapturing hstep =>
    hs.step hcapturing hstep
  exact fun snapshot hsnapshot => (hs.snapshots snapshot hsnapshot).losesNothing hs

/-- One worker stores one operation and saves a snapshot of it. -/
theorem snapshots_capture_one_call :
    let s : WorkerPool Unit Unit :=
      (runAllowed step Capturing (start 100)
        (beginAndLoad () () .siteA ++ List.replicate 5 (.advance ()) ++
          List.replicate 4 (.job 0))).get (by decide)
    ∀ snapshot ∈ s.db.snapshots, s.LosesNothing snapshot :=
  snapshots_capture (reach_get (by decide))

/-- A worker that has loaded the empty document saves a snapshot after another worker has stored
an operation. -/
def staleSnapshotActions : List (PoolAction Bool Bool) :=
  beginAndLoad false false .siteA ++
    [.advance false, .forceSnapshot true, .load true 0, .load true 0, .load true 0, .advance false,
      .job 0, .job 0, .job 0, .job 0]

/-- The state they lead to. -/
def staleSnapshot : WorkerPool Bool Bool :=
  (runAllowed step (fun _ _ => True) (start 100) staleSnapshotActions).get (by decide)

/-- The snapshot has seq 1 and no nodes. -/
theorem not_forall_snapshots_capture :
    ¬ ∀ s : WorkerPool Bool Bool, Reach step (fun _ _ => True) (start 100) s →
      ∀ snapshot ∈ s.db.snapshots, s.LosesNothing snapshot := by
  intro h
  have hlost := h staleSnapshot (reach_get _) ⟨1, []⟩ (by decide)
  obtain ⟨node, hnode, -⟩ := hlost.inserted (staleSnapshot.db.operations.head (by decide))
    (List.head_mem _) (by decide) _ rfl (by decide)
  simp at hnode

end WorkerPool

end SyncEngine
