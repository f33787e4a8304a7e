import SyncEngine.Server.DocumentCache

/-!
# Revisions

Reading and restoring old revisions of a document (`server/persistence/history-service.ts`, with
`withTransaction` of `server/persistence/db.ts` and `saveSnapshot` of
`server/persistence/snapshot-store.ts`).

`reconstructAtSeq` replays the log from the nearest snapshot.  `restoreToRevision` stores a
ROLLBACK operation and a snapshot of the reconstructed document at its seq, in a transaction:
a connection of its own sees what the transaction has written so far, everybody else sees it at
the commit.  `saveSnapshot` is not given that connection, so its statements are executed on the
pool, outside the transaction.

A `RestorePoint` says which statement throws.
-/

namespace SyncEngine

/-! ## Reading a revision -/

namespace Database

/-- `WHERE seq <= $2 ORDER BY seq DESC LIMIT 1`. -/
def loadSnapshotBefore (db : Database) (targetSeq : Nat) : Option SnapshotRecord :=
  (db.latestSnapshots.filter fun s => s.seq ≤ targetSeq).head?

/-- `WHERE seq >= $2 AND seq <= $3 ORDER BY seq ASC`. -/
def loadOperationsInRange (db : Database) (fromSeq toSeq : Nat) : List OperationEnvelope :=
  orderBySeq (db.operations.filter fun row => fromSeq ≤ row.seq ∧ row.seq ≤ toSeq)

/-- The document at a seq. -/
def reconstructAtSeq (db : Database) (targetSeq : Nat) : RGADocument × Option SnapshotRecord :=
  let snapshot := db.loadSnapshotBefore targetSeq
  let doc := snapshotDoc snapshot
  let fromSeq := snapshotSeq snapshot + 1
  if fromSeq ≤ targetSeq then
    let ops := db.loadOperationsInRange fromSeq targetSeq
    (doc.applyOperations (ops.map OperationEnvelope.op), snapshot)
  else (doc, snapshot)

end Database

/-! ## Transactions -/

/-- A row of `audit_log` that a restore writes. -/
structure AuditEntry where
  docId : JSString
  userId : JSString
  action : JSString
  targetSeq : Nat
  newSeq : Nat
deriving DecidableEq, Repr

/-- The tables that a restore writes. -/
structure DocumentTables where
  db : Database
  auditLog : List AuditEntry
deriving DecidableEq

/-- The statements at which a restore can fail. -/
inductive RestorePoint where
  | append
  | insertSnapshot
  /-- The `loadLatestSnapshot` of `saveSnapshot` after a conflict. -/
  | reloadSnapshot
  | updateDocument
  | insertAudit
  | commit
deriving DecidableEq, Repr

/-- What a restore throws. -/
inductive RestoreError where
  | statement (point : RestorePoint)
  /-- `saveSnapshot` found a snapshot with the seq, but it is not the latest one. -/
  | conflict (docId : JSString) (seq : Nat)
deriving DecidableEq

/-- The message of the error that `saveSnapshot` makes itself. -/
def RestoreError.message : RestoreError → Option JSString
  | .statement _ => none
  | .conflict docId seq =>
      some (JSString.lit "saveSnapshot: conflict on (" ++ docId ++ JSString.lit ", " ++
        JSString.ofNat seq ++ JSString.lit ") but could not reload existing")

/-- The tables, as the transaction and as everybody else sees them. -/
structure OpenTransaction where
  /-- What everybody else sees, and the queries of the pool change. -/
  committed : DocumentTables
  /-- What the connection of the transaction sees. -/
  client : DocumentTables

namespace OpenTransaction

/-- The connection has written operations, seqs and audit rows, the pool snapshots. -/
def commit (tx : OpenTransaction) : DocumentTables where
  db :=
    { operations := tx.client.db.operations
      documentSeq := tx.client.db.documentSeq
      snapshots := tx.committed.db.snapshots
      operations_unique := tx.client.db.operations_unique
      operations_le := tx.client.db.operations_le
      snapshots_unique := tx.committed.db.snapshots_unique }
  auditLog := tx.client.auditLog

/-- `appendOperation` on the connection. -/
def appendOperation (tx : OpenTransaction) (params : OperationEnvelope) :
    OpenTransaction × OperationEnvelope :=
  let (db, envelope) := tx.client.db.appendOperation params
  ({ tx with client := { tx.client with db := db } }, envelope)

/-- The INSERT of `saveSnapshot`, on the pool. -/
def insertSnapshot (tx : OpenTransaction) (snapshot : SnapshotRecord) : OpenTransaction × Bool :=
  let (db, stored) := tx.committed.db.insertSnapshot snapshot
  ({ tx with committed := { tx.committed with db := db } }, stored)

/-- The INSERT into `audit_log`. -/
def insertAudit (tx : OpenTransaction) (entry : AuditEntry) : OpenTransaction :=
  { tx with client := { tx.client with auditLog := tx.client.auditLog ++ [entry] } }

end OpenTransaction

/-- Commits what the body has written, unless it throws or the COMMIT does. -/
def withTransaction {α : Type*} (commitThrows : Bool)
    (body : OpenTransaction → OpenTransaction × Except RestoreError α) (t : DocumentTables) :
    DocumentTables × Except RestoreError α :=
  match body ⟨t, t⟩ with
  | (tx, .error e) => (tx.committed, .error e)
  | (tx, .ok result) =>
      if commitThrows then (tx.committed, .error (.statement .commit)) else (tx.commit, .ok result)

/-! ## Restoring a revision -/

/-- The parameters of `restoreToRevision`. -/
structure RestoreParams where
  docId : JSString
  targetSeq : Nat
  userId : JSString
  sessionId : JSString
  /-- The UUID that the call draws for its row. -/
  nonce : JSString

/-- The nil UUID. -/
def rollbackUID : UID := ⟨0, JSString.lit "00000000-0000-0000-0000-000000000000"⟩

namespace RestoreParams

/-- The ROLLBACK operation; the store assigns the seq. -/
def rollback (params : RestoreParams) : OperationEnvelope where
  docId := params.docId
  sessionId := params.sessionId
  userId := params.userId
  op := .rollback ⟨rollbackUID⟩
  seq := 0
  clientSeq := 0
  nonce := params.nonce

/-- The row of a restore. -/
def audit (params : RestoreParams) (newSeq : Nat) : AuditEntry :=
  ⟨params.docId, params.userId, JSString.lit "restore", params.targetSeq, newSeq⟩

end RestoreParams

/-- What `restoreToRevision` returns. -/
structure RestoreResult where
  envelope : OperationEnvelope
  restoredText : JSString
  newSeq : Nat
deriving DecidableEq

section Restore

variable (throws : Option RestorePoint) (params : RestoreParams)

/-- `saveSnapshot`; an existing snapshot with the seq is left as it is. -/
def saveSnapshot (doc : RGADocument) (seq : Nat) (tx : OpenTransaction) :
    OpenTransaction × Except RestoreError SnapshotRecord :=
  if throws = some .insertSnapshot then (tx, .error (.statement .insertSnapshot))
  else
    let snapshot : SnapshotRecord := ⟨seq, doc.serialize⟩
    let (tx, stored) := tx.insertSnapshot snapshot
    if stored then (tx, .ok snapshot)
    else if throws = some .reloadSnapshot then (tx, .error (.statement .reloadSnapshot))
    else
      match tx.committed.db.loadLatestSnapshot with
      | some existing =>
          if existing.seq = seq then (tx, .ok existing)
          else (tx, .error (.conflict params.docId seq))
      | none => (tx, .error (.conflict params.docId seq))

/-- What a restore does in its transaction, with the reconstructed document. -/
def restoreIn (doc : RGADocument) (tx : OpenTransaction) :
    OpenTransaction × Except RestoreError RestoreResult :=
  if throws = some .append then (tx, .error (.statement .append))
  else
    let (tx, envelope) := tx.appendOperation params.rollback
    match saveSnapshot throws params doc envelope.seq tx with
    | (tx, .error e) => (tx, .error e)
    | (tx, .ok _) =>
        if throws = some .updateDocument then (tx, .error (.statement .updateDocument))
        else if throws = some .insertAudit then (tx, .error (.statement .insertAudit))
        else (tx.insertAudit (params.audit envelope.seq), .ok ⟨envelope, doc.toText, envelope.seq⟩)

/-- Rebuilds the document and stores it in one transaction, with a statement that throws, if any. -/
def restoreToRevision (t : DocumentTables) : DocumentTables × Except RestoreError RestoreResult :=
  let (doc, _) := t.db.reconstructAtSeq params.targetSeq
  withTransaction (throws = some .commit) (restoreIn throws params doc) t

end Restore

end SyncEngine
