import SyncEngine.Lib.Transition
import SyncEngine.Server.History
import SyncEngine.Server.PoolEffect

/-!
# Restores among the workers

A document that any number of workers edit, compact and restore: the pool of workers, with calls
of `restoreToRevision` (`server/persistence/history-service.ts`) that interleave with it at every
await.

A restore reads a snapshot, reads the rows behind it, and opens a transaction.  Its first statement
there, `next_doc_seq`, locks the row of `document_sequences` until the transaction ends, so while
a transaction is open nobody else can append.  The INSERT of `saveSnapshot` is executed on the
pool and is visible at once; the rest of what the transaction writes is visible after its COMMIT.

`step_writes` lists what a step can do to the tables of the document.
-/

namespace SyncEngine

open Transition

/-! ## Reading in two statements -/

/-- What `reconstructAtSeq` makes of the snapshot it has read. -/
def Database.readRevision (db : Database) (snapshot : Option SnapshotRecord) (targetSeq : Nat) :
    RGADocument :=
  if snapshotSeq snapshot + 1 ≤ targetSeq then
    (snapshotDoc snapshot).applyOperations
      ((db.loadOperationsInRange (snapshotSeq snapshot + 1) targetSeq).map OperationEnvelope.op)
  else snapshotDoc snapshot

lemma Database.reconstructAtSeq_eq (db : Database) (targetSeq : Nat) :
    (db.reconstructAtSeq targetSeq).1 =
      db.readRevision (db.loadSnapshotBefore targetSeq) targetSeq := by
  rw [reconstructAtSeq, readRevision]
  split <;> rfl

/-! ## Restores under way -/

/-- How far a call of `restoreToRevision` has come. -/
inductive RestoreStage where
  /-- Awaits `loadSnapshotBefore`. -/
  | awaitSnapshot
  /-- Awaits `loadOperationsInRange`. -/
  | awaitOperations (snapshot : Option SnapshotRecord)
  /-- Awaits `appendOperation`, in its transaction. -/
  | appending (doc : RGADocument)
  /-- Has the lock on the row of `document_sequences`. -/
  | locked
  | done (result : Except RestoreError RestoreResult)

/-- A call of `restoreToRevision`, by the await it is at. -/
structure RestoreCall where
  params : RestoreParams
  stage : RestoreStage

/-- A transaction that has appended its row. -/
structure RestoreTransaction (R : Type*) where
  restore : R
  params : RestoreParams
  doc : RGADocument
  /-- What its connection sees. -/
  client : DocumentTables
  envelope : OperationEnvelope
  /-- The statement it awaits. -/
  awaits : RestorePoint

/-- The pool, and the restores of its document. -/
structure HistoryPool (W K R : Type*) where
  pool : WorkerPool W K
  auditLog : List AuditEntry
  restores : R → Option RestoreCall
  /-- The transaction that has the lock on the row of `document_sequences`. -/
  transaction : Option (RestoreTransaction R)

/-- A step of the pool, or of a restore. -/
inductive HistoryAction (W K R : Type*) where
  | pool (action : PoolAction W K)
  | restoreToRevision (r : R) (params : RestoreParams)
  /-- The next step of a restore, up to its `appendOperation`. -/
  | advanceRestore (r : R)
  /-- The next statement of the transaction. -/
  | advanceTransaction
  /-- The statement that the transaction awaits throws. -/
  | throwTransaction

/-- The call is about to append its row. -/
def OperationCall.isAppending {W : Type*} (call : OperationCall W) : Bool :=
  match call.stage with
  | .applied _ _ .appending => true
  | _ => false

/-- The action appends the row of a call. -/
def WorkerPool.appends {W K : Type*} (s : WorkerPool W K) : PoolAction W K → Bool
  | .advance k => (s.calls k).any OperationCall.isAppending
  | _ => false

namespace HistoryPool

variable {W K R : Type*}

/-- No call yet, and nothing stored. -/
def start (snapshotOpsThreshold : Nat) : HistoryPool W K R where
  pool := .start snapshotOpsThreshold
  auditLog := []
  restores _ := none
  transaction := none

/-- The tables that are committed. -/
def db (s : HistoryPool W K R) : Database := s.pool.db

/-- What everybody sees. -/
def tables (s : HistoryPool W K R) : DocumentTables := ⟨s.db, s.auditLog⟩

/-- Other tables are committed. -/
def withTables (s : HistoryPool W K R) (t : DocumentTables) : HistoryPool W K R :=
  { s with pool := { s.pool with db := t.db }, auditLog := t.auditLog }

variable [DecidableEq W] [DecidableEq K] [DecidableEq R]

/-- A restore goes on to another await. -/
def restoreAt (s : HistoryPool W K R) (r : R) (params : RestoreParams) (stage : RestoreStage) :
    HistoryPool W K R :=
  { s with restores := Function.update s.restores r (some ⟨params, stage⟩) }

/-- The transaction ends, and `restoreToRevision` with it. -/
def endTransaction (s : HistoryPool W K R) (tx : RestoreTransaction R)
    (result : Except RestoreError RestoreResult) : HistoryPool W K R :=
  { s.restoreAt tx.restore tx.params (.done result) with transaction := none }

/-- `appendOperation`, if no other transaction has the lock. -/
def beginTransaction (s : HistoryPool W K R) (r : R) (params : RestoreParams) (doc : RGADocument) :
    Option (HistoryPool W K R) :=
  match s.transaction with
  | some _ => none
  | none =>
      let (tx, envelope) := OpenTransaction.appendOperation ⟨s.tables, s.tables⟩ params.rollback
      some { s.restoreAt r params .locked with
        transaction := some ⟨r, params, doc, tx.client, envelope, .insertSnapshot⟩ }

/-- What the restore awaits comes back, up to its `appendOperation`. -/
def advanceRestore (s : HistoryPool W K R) (r : R) (call : RestoreCall) :
    Option (HistoryPool W K R) :=
  match call.stage with
  | .awaitSnapshot =>
      let snapshot := s.db.loadSnapshotBefore call.params.targetSeq
      some (s.restoreAt r call.params
        (if snapshotSeq snapshot + 1 ≤ call.params.targetSeq then .awaitOperations snapshot
          else .appending (snapshotDoc snapshot)))
  | .awaitOperations snapshot =>
      some (s.restoreAt r call.params
        (.appending (s.db.readRevision snapshot call.params.targetSeq)))
  | .appending doc => s.beginTransaction r call.params doc
  | .locked => none
  | .done _ => none

/-- The transaction goes on to another statement. -/
def awaiting (s : HistoryPool W K R) (tx : RestoreTransaction R) (point : RestorePoint) :
    HistoryPool W K R :=
  { s with transaction := some { tx with awaits := point } }

/-- A statement of the transaction is executed. -/
def advanceTransaction (s : HistoryPool W K R) (tx : RestoreTransaction R) :
    Option (HistoryPool W K R) :=
  let seq := tx.envelope.seq
  match tx.awaits with
  | .append => none
  | .insertSnapshot =>
      let (tx', stored) := OpenTransaction.insertSnapshot ⟨s.tables, tx.client⟩
        ⟨seq, tx.doc.serialize⟩
      some ((s.withTables tx'.committed).awaiting tx
        (if stored then .updateDocument else .reloadSnapshot))
  | .reloadSnapshot =>
      match s.db.loadLatestSnapshot with
      | some existing =>
          if existing.seq = seq then some (s.awaiting tx .updateDocument)
          else some (s.endTransaction tx (.error (.conflict tx.params.docId seq)))
      | none => some (s.endTransaction tx (.error (.conflict tx.params.docId seq)))
  | .updateDocument => some (s.awaiting tx .insertAudit)
  | .insertAudit =>
      let tx' := OpenTransaction.insertAudit ⟨s.tables, tx.client⟩ (tx.params.audit seq)
      some (s.awaiting { tx with client := tx'.client } .commit)
  | .commit =>
      some ((s.withTables (OpenTransaction.commit ⟨s.tables, tx.client⟩)).endTransaction tx
        (.ok ⟨tx.envelope, tx.doc.toText, seq⟩))

/-- One action, if it can happen. -/
def step (s : HistoryPool W K R) : HistoryAction W K R → Option (HistoryPool W K R)
  | .pool action =>
      if s.transaction.isSome ∧ s.pool.appends action then none
      else (s.pool.step action).map fun pool => { s with pool := pool }
  | .restoreToRevision r params =>
      match s.restores r with
      | none => some (s.restoreAt r params .awaitSnapshot)
      | some _ => none
  | .advanceRestore r => (s.restores r).bind (s.advanceRestore r)
  | .advanceTransaction => s.transaction.bind s.advanceTransaction
  | .throwTransaction =>
      s.transaction.map fun tx => s.endTransaction tx (.error (.statement tx.awaits))

/-! ## What a step writes -/

/-- The tables of the document after a step. -/
inductive Writes (s : HistoryPool W K R) : HistoryAction W K R → Database → Prop
  | nothing {a : HistoryAction W K R} : Writes s a s.db
  | append {a : HistoryAction W K R} (params : OperationEnvelope) (h : s.transaction = none) :
      Writes s a (s.db.appendOperation params).1
  | saveSnapshot {i : Nat} (job : SnapshotJob W) (n : Nat) (snapshot : SnapshotRecord)
      (hjob : s.pool.jobs[i]? = some job) (hstage : job.stage = .saving n snapshot) :
      Writes s (.pool (.job i)) (s.db.insertSnapshot snapshot).1
  | prune {i : Nat} (job : SnapshotJob W) (hjob : s.pool.jobs[i]? = some job)
      (hstage : job.stage = .pruning) :
      Writes s (.pool (.job i)) (s.db.pruneSnapshots maxSnapshotsPerDoc)
  | saveRestored (tx : RestoreTransaction R) (htx : s.transaction = some tx) :
      Writes s .advanceTransaction
        (s.db.insertSnapshot ⟨tx.envelope.seq, tx.doc.serialize⟩).1
  | commit (tx : RestoreTransaction R) (htx : s.transaction = some tx) :
      Writes s .advanceTransaction (OpenTransaction.commit ⟨s.tables, tx.client⟩).db

variable {s s' : HistoryPool W K R} {a : HistoryAction W K R}

omit [DecidableEq W] [DecidableEq K] [DecidableEq R] in
lemma appends_of_appending {k : K} {call : OperationCall W} {n : Nat} {ok : Bool}
    (hcall : s.pool.calls k = some call)
    (hstage : call.stage = .applied n ok .appending) : s.pool.appends (.advance k) = true := by
  simp [WorkerPool.appends, hcall, OperationCall.isAppending, hstage]

/-- **What a step writes.** -/
theorem step_writes (h : s.step a = some s') : Writes s a s'.db := by
  cases a with
  | pool action =>
      rw [step] at h
      split at h
      · simp at h
      · rename_i hlock
        obtain ⟨pool, hpool, rfl⟩ := Option.map_eq_some_iff.mp h
        show Writes s _ pool.db
        cases WorkerPool.step_effect hpool with
        | idle hidle => exact hidle.db_eq ▸ .nothing
        | load _ _ _ _ _ _ hdb => exact hdb ▸ .nothing
        | apply _ _ _ _ _ _ hs' => exact hs' ▸ .nothing
        | append call n ok hcall hstage hs' =>
            -- the row lock: an append waits while a restore has its transaction open
            have hfree : s.transaction = none := by
              by_contra hopen
              exact hlock
                ⟨Option.isSome_iff_ne_none.mpr hopen, appends_of_appending hcall hstage⟩
            exact hs' ▸ .append call.params hfree
        | update _ _ _ _ _ _ hs' => exact hs' ▸ .nothing
        | collect _ _ _ _ _ _ _ hs' => exact hs' ▸ .nothing
        | save job n snapshot hjob hstage hs' =>
            exact hs' ▸ .saveSnapshot job n snapshot hjob hstage
        | reset _ _ _ hs' => exact hs' ▸ .nothing
        | prune job hjob hstage hs' => exact hs' ▸ .prune job hjob hstage
  | restoreToRevision r params =>
      rw [step] at h
      split at h
      · obtain rfl := Option.some.inj h
        exact .nothing
      · simp at h
  | advanceRestore r =>
      obtain ⟨call, -, h⟩ := Option.bind_eq_some_iff.mp h
      rw [advanceRestore] at h
      split at h
      · obtain rfl := Option.some.inj h
        exact .nothing
      · obtain rfl := Option.some.inj h
        exact .nothing
      · rw [beginTransaction] at h
        split at h
        · simp at h
        · obtain rfl := Option.some.inj h
          exact .nothing
      · simp at h
      · simp at h
  | advanceTransaction =>
      obtain ⟨tx, htx, h⟩ := Option.bind_eq_some_iff.mp h
      rw [advanceTransaction] at h
      cases hawaits : tx.awaits with
      | append => simp [hawaits] at h
      | insertSnapshot =>
          simp only [hawaits] at h
          obtain rfl := Option.some.inj h
          exact .saveRestored tx htx
      | reloadSnapshot =>
          simp only [hawaits] at h
          split at h
          · split at h
            · obtain rfl := Option.some.inj h
              exact .nothing
            · obtain rfl := Option.some.inj h
              exact .nothing
          · obtain rfl := Option.some.inj h
            exact .nothing
      | updateDocument =>
          simp only [hawaits] at h
          obtain rfl := Option.some.inj h
          exact .nothing
      | insertAudit =>
          simp only [hawaits] at h
          obtain rfl := Option.some.inj h
          exact .nothing
      | commit =>
          simp only [hawaits] at h
          obtain rfl := Option.some.inj h
          exact .commit tx htx
  | throwTransaction =>
      obtain ⟨tx, -, rfl⟩ := Option.map_eq_some_iff.mp h
      exact .nothing

/-! ## A restore that nothing interleaves with -/

omit [DecidableEq W] [DecidableEq K] in
lemma restoreAt_restoreAt (s : HistoryPool W K R) (r : R) (params : RestoreParams)
    (stage stage' : RestoreStage) :
    (s.restoreAt r params stage).restoreAt r params stage' = s.restoreAt r params stage' := by
  simp [restoreAt]

omit [DecidableEq W] [DecidableEq K] in
@[simp] lemma restores_restoreAt (s : HistoryPool W K R) (r : R) (params : RestoreParams)
    (stage : RestoreStage) : (s.restoreAt r params stage).restores r = some ⟨params, stage⟩ :=
  Function.update_self ..

/-- The next step of a restore, taken. -/
lemma Reach.advanceRestore {s₀ : HistoryPool W K R} {r : R} {params : RestoreParams}
    {stage : RestoreStage} (h : Reach step (fun _ _ => True) s₀ (s.restoreAt r params stage))
    (hnext : (s.restoreAt r params stage).advanceRestore r ⟨params, stage⟩ = some s') :
    Reach step (fun _ _ => True) s₀ s' := by
  refine h.tail (.advanceRestore r) trivial ?_
  rw [step, restores_restoreAt]
  exact hnext

lemma reach_appending {r : R} (hr : s.restores r = none) (params : RestoreParams) :
    Reach step (fun _ _ => True) s
      (s.restoreAt r params (.appending (s.db.reconstructAtSeq params.targetSeq).1)) := by
  have hcalled : Reach step (fun _ _ => True) s (s.restoreAt r params .awaitSnapshot) :=
    .tail (.restoreToRevision r params) .refl trivial (by simp [step, hr])
  have hread := Reach.advanceRestore hcalled rfl
  rw [restoreAt_restoreAt] at hread
  rw [Database.reconstructAtSeq_eq]
  change Reach step _ s (s.restoreAt r params
    (if snapshotSeq (s.db.loadSnapshotBefore params.targetSeq) + 1 ≤ params.targetSeq then
      .awaitOperations (s.db.loadSnapshotBefore params.targetSeq)
    else .appending (snapshotDoc (s.db.loadSnapshotBefore params.targetSeq)))) at hread
  split at hread
  · have hreplayed := Reach.advanceRestore hread rfl
    rwa [restoreAt_restoreAt] at hreplayed
  · rename_i hempty
    rwa [Database.readRevision, if_neg hempty]

lemma Reach.advanceTransaction {s₀ : HistoryPool W K R} {tx : RestoreTransaction R}
    (h : Reach step (fun _ _ => True) s₀ s) (htx : s.transaction = some tx)
    (hnext : s.advanceTransaction tx = some s') : Reach step (fun _ _ => True) s₀ s' := by
  refine h.tail .advanceTransaction trivial ?_
  rw [step, htx]
  exact hnext

/-- A transaction that has its snapshot commits. -/
lemma reach_commit {tx : RestoreTransaction R} (htx : s.transaction = some tx)
    (hawaits : tx.awaits = .updateDocument) :
    ∃ s', Reach step (fun _ _ => True) s s' ∧
      s'.tables = (OpenTransaction.insertAudit ⟨s.tables, tx.client⟩
        (tx.params.audit tx.envelope.seq)).commit ∧
      s'.restores tx.restore =
        some ⟨tx.params, .done (.ok ⟨tx.envelope, tx.doc.toText, tx.envelope.seq⟩)⟩ := by
  obtain ⟨r, params, doc, client, envelope, awaits⟩ := tx
  obtain rfl : awaits = .updateDocument := hawaits
  have hupdated := Reach.advanceTransaction .refl htx rfl
  have haudited := Reach.advanceTransaction hupdated rfl rfl
  have hcommitted := Reach.advanceTransaction haudited rfl rfl
  exact ⟨_, hcommitted, rfl, Function.update_self ..⟩

/-- A restore opens its transaction. -/
lemma reach_transaction {r : R} (hfree : s.transaction = none) (hr : s.restores r = none)
    (params : RestoreParams) :
    ∃ s', Reach step (fun _ _ => True) s s' ∧ s'.tables = s.tables ∧
      s'.transaction = some ⟨r, params, (s.db.reconstructAtSeq params.targetSeq).1,
        (OpenTransaction.appendOperation ⟨s.tables, s.tables⟩ params.rollback).1.client,
        (OpenTransaction.appendOperation ⟨s.tables, s.tables⟩ params.rollback).2,
        .insertSnapshot⟩ := by
  have hread := reach_appending hr params
  generalize (s.db.reconstructAtSeq params.targetSeq).1 = doc at hread ⊢
  have hfree' : (s.restoreAt r params (.appending doc)).transaction = none := hfree
  have hbegin : (s.restoreAt r params (.appending doc)).beginTransaction r params doc = some
      { (s.restoreAt r params (.appending doc)).restoreAt r params .locked with
        transaction := some ⟨r, params, doc,
          (OpenTransaction.appendOperation ⟨s.tables, s.tables⟩ params.rollback).1.client,
          (OpenTransaction.appendOperation ⟨s.tables, s.tables⟩ params.rollback).2,
          .insertSnapshot⟩ } := by
    rw [beginTransaction, hfree']
    rfl
  exact ⟨_, Reach.advanceRestore hread hbegin, rfl, rfl⟩

omit [DecidableEq W] [DecidableEq K] in
lemma advanceTransaction_reloadSnapshot (s : HistoryPool W K R) (r : R) (params : RestoreParams)
    (doc : RGADocument) (client : DocumentTables) (envelope : OperationEnvelope) :
    let tx : RestoreTransaction R := ⟨r, params, doc, client, envelope, .reloadSnapshot⟩
    s.advanceTransaction tx =
      match s.db.loadLatestSnapshot with
      | some existing =>
          if existing.seq = envelope.seq then some (s.awaiting tx .updateDocument)
          else some (s.endTransaction tx (.error (.conflict params.docId envelope.seq)))
      | none => some (s.endTransaction tx (.error (.conflict params.docId envelope.seq))) := rfl

/-- It stores its snapshot and ends. -/
lemma reach_done {tx : RestoreTransaction R} (htx : s.transaction = some tx)
    (hawaits : tx.awaits = .insertSnapshot) :
    ∃ s', Reach step (fun _ _ => True) s s' ∧
      match saveSnapshot none tx.params tx.doc tx.envelope.seq ⟨s.tables, tx.client⟩ with
      | (saved, .ok _) =>
          s'.tables = (saved.insertAudit (tx.params.audit tx.envelope.seq)).commit ∧
            s'.restores tx.restore =
              some ⟨tx.params, .done (.ok ⟨tx.envelope, tx.doc.toText, tx.envelope.seq⟩)⟩
      | (saved, .error e) =>
          s'.tables = saved.committed ∧
            s'.restores tx.restore = some ⟨tx.params, .done (.error e)⟩ := by
  obtain ⟨r, params, doc, client, envelope, awaits⟩ := tx
  obtain rfl : awaits = .insertSnapshot := hawaits
  rcases hsaved : OpenTransaction.insertSnapshot ⟨s.tables, client⟩
    ⟨envelope.seq, doc.serialize⟩ with ⟨saved, stored⟩
  have hclient : saved.client = client := congrArg (fun p => p.1.client) hsaved.symm
  have hinsert : s.advanceTransaction ⟨r, params, doc, client, envelope, .insertSnapshot⟩ =
      some ((s.withTables saved.committed).awaiting
        ⟨r, params, doc, client, envelope, .insertSnapshot⟩
        (if stored then .updateDocument else .reloadSnapshot)) := by
    simp only [HistoryPool.advanceTransaction, hsaved]
  have hinserted := Reach.advanceTransaction .refl htx hinsert
  -- both ways to the commit end alike: the row was stored, or one of that seq was there
  have hcommit : ∀ {s₁ : HistoryPool W K R}, Reach step (fun _ _ => True) s s₁ →
      s₁.transaction = some ⟨r, params, doc, client, envelope, .updateDocument⟩ →
      s₁.tables = saved.committed →
      ∃ s', Reach step (fun _ _ => True) s s' ∧
        s'.tables = (saved.insertAudit (params.audit envelope.seq)).commit ∧
        s'.restores r = some ⟨params, .done (.ok ⟨envelope, doc.toText, envelope.seq⟩)⟩ := by
    intro s₁ hreach htx₁ htables
    obtain ⟨s', hended, htables', hdone⟩ := reach_commit htx₁ rfl
    refine ⟨s', hreach.trans hended, htables'.trans ?_, hdone⟩
    simp only [htables, ← hclient]
  cases stored with
  | true =>
      have hsave : saveSnapshot none params doc envelope.seq ⟨s.tables, client⟩ =
          (saved, .ok ⟨envelope.seq, doc.serialize⟩) := by simp [saveSnapshot, hsaved]
      rw [hsave]
      exact hcommit hinserted rfl rfl
  | false =>
      obtain ⟨s₁, hreach, htx₁, htables⟩ : ∃ s₁, Reach step (fun _ _ => True) s s₁ ∧
          s₁.transaction = some ⟨r, params, doc, client, envelope, .reloadSnapshot⟩ ∧
          s₁.tables = saved.committed := ⟨_, hinserted, rfl, rfl⟩
      have hreload := s₁.advanceTransaction_reloadSnapshot r params doc client envelope
      have hdb : s₁.db = saved.committed.db := congrArg DocumentTables.db htables
      rw [hdb] at hreload
      cases hlatest : saved.committed.db.loadLatestSnapshot with
      | none =>
          have hsave : saveSnapshot none params doc envelope.seq ⟨s.tables, client⟩ =
              (saved, .error (.conflict params.docId envelope.seq)) := by
            simp [saveSnapshot, hsaved, hlatest]
          rw [hsave]
          simp only [hlatest] at hreload
          exact ⟨_, Reach.advanceTransaction hreach htx₁ hreload, htables, Function.update_self ..⟩
      | some existing =>
          simp only [hlatest] at hreload
          by_cases hseq : existing.seq = envelope.seq
          · have hsave : saveSnapshot none params doc envelope.seq ⟨s.tables, client⟩ =
                (saved, .ok existing) := by simp [saveSnapshot, hsaved, hlatest, hseq]
            rw [hsave]
            simp only [hseq, if_true] at hreload
            exact hcommit (Reach.advanceTransaction hreach htx₁ hreload) rfl htables
          · have hsave : saveSnapshot none params doc envelope.seq ⟨s.tables, client⟩ =
                (saved, .error (.conflict params.docId envelope.seq)) := by
              simp [saveSnapshot, hsaved, hlatest, hseq]
            rw [hsave]
            simp only [hseq, if_false] at hreload
            exact ⟨_, Reach.advanceTransaction hreach htx₁ hreload, htables,
              Function.update_self ..⟩

/-- **A restore alone** does what `restoreToRevision` does. -/
theorem reach_restoreToRevision {r : R} (hfree : s.transaction = none) (hr : s.restores r = none)
    (params : RestoreParams) :
    ∃ s', Reach step (fun _ _ => True) s s' ∧
      s'.tables = (restoreToRevision none params s.tables).1 ∧
      s'.restores r = some ⟨params, .done (restoreToRevision none params s.tables).2⟩ := by
  obtain ⟨s₁, hopened, htables, htx⟩ := reach_transaction hfree hr params
  obtain ⟨s₂, hended, hresult⟩ := reach_done htx rfl
  refine ⟨s₂, hopened.trans hended, ?_⟩
  have hrestore : restoreToRevision none params s.tables = withTransaction false
    (restoreIn none params (s.db.reconstructAtSeq params.targetSeq).1) s.tables := rfl
  have hclient : (⟨s.tables, (OpenTransaction.appendOperation ⟨s.tables, s.tables⟩
      params.rollback).1.client⟩ : OpenTransaction) =
    (OpenTransaction.appendOperation ⟨s.tables, s.tables⟩ params.rollback).1 := rfl
  simp only [htables] at hresult
  rw [hclient] at hresult
  rw [hrestore, withTransaction]
  simp only [restoreIn, reduceCtorEq, if_false]
  rcases hsave : saveSnapshot none params (s.db.reconstructAtSeq params.targetSeq).1 _
    (OpenTransaction.appendOperation ⟨s.tables, s.tables⟩ params.rollback).1 with ⟨saved, _ | _⟩
  · rw [hsave] at hresult
    simpa [hsave] using hresult
  · rw [hsave] at hresult
    simpa [hsave] using hresult

end HistoryPool

end SyncEngine
