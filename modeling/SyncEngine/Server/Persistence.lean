import Mathlib.Data.List.Sort
import SyncEngine.Shared.Operation

/-!
# The tables of a document

What PostgreSQL stores about one document, and the statements the stores issue against it
(`server/persistence/operation-store.ts`, `server/persistence/snapshot-store.ts`, with the
tables and `next_doc_seq` of `server/persistence/schema.sql`).  Every statement is one function:
it is executed atomically, and what it returns is what the caller continues with.

The `UNIQUE (doc_id, seq)` constraints of both tables, and the fact that `document_sequences` is
ahead of every stored seq, are fields of `Database`.

* `appendOperation` assigns the next seq and stores the row;
* `loadOperationsAfterSeq` reads the rows behind a seq, in ascending order and up to a limit.
  What a truncated read still guarantees is `mem_loadOperationsAfterSeq_of_le`: the rows it
  leaves out come after all the rows it returns.
-/

namespace SyncEngine

/-- A row of the snapshots table. -/
structure SnapshotRecord where
  seq : Nat
  data : List SerializedRGANode
deriving DecidableEq, Repr

/-- The rows of one document. -/
structure Database where
  operations : List OperationEnvelope
  /-- The counter of `document_sequences`. -/
  documentSeq : Nat
  snapshots : List SnapshotRecord
  operations_unique : (operations.map OperationEnvelope.seq).Nodup
  operations_le : ∀ row ∈ operations, row.seq ≤ documentSeq
  snapshots_unique : (snapshots.map SnapshotRecord.seq).Nodup
deriving DecidableEq

namespace Database

/-- A document nobody has edited. -/
def empty : Database := ⟨[], 0, [], by simp, by simp, by simp⟩

/-! ## Operations -/

/-- `INSERT INTO operations … next_doc_seq($1)`; the returned envelope carries the seq. -/
def appendOperation (db : Database) (params : OperationEnvelope) : Database × OperationEnvelope :=
  let envelope := { params with seq := db.documentSeq + 1 }
  ({ db with
      operations := db.operations ++ [envelope]
      documentSeq := db.documentSeq + 1
      operations_unique := by
        rw [List.map_append, List.nodup_append]
        refine ⟨db.operations_unique, by simp, fun s hs t ht hst => ?_⟩
        obtain ⟨row, hrow, rfl⟩ := List.mem_map.mp hs
        have hle := db.operations_le row hrow
        have ht' : t = db.documentSeq + 1 := by simpa [envelope] using ht
        omega
      operations_le := fun row hrow => by
        rcases List.mem_append.mp hrow with hrow | hrow
        · exact Nat.le_succ_of_le (db.operations_le row hrow)
        · rw [List.mem_singleton.mp hrow] },
    envelope)

/-- `ORDER BY seq ASC`. -/
def orderBySeq (rows : List OperationEnvelope) : List OperationEnvelope :=
  rows.insertionSort fun a b => a.seq ≤ b.seq

/-- `WHERE seq > $2 ORDER BY seq ASC LIMIT $3`. -/
def loadOperationsAfterSeq (db : Database) (afterSeq : Nat) (limit : Nat := 10000) :
    List OperationEnvelope :=
  (orderBySeq (db.operations.filter fun row => row.seq > afterSeq)).take limit

/-- `SELECT MAX(seq)`, `0` without rows. -/
def getMaxSeq (db : Database) : Nat := (db.operations.map OperationEnvelope.seq).foldr max 0

lemma mem_orderBySeq {rows : List OperationEnvelope} {row : OperationEnvelope} :
    row ∈ orderBySeq rows ↔ row ∈ rows := List.mem_insertionSort _

lemma length_orderBySeq (rows : List OperationEnvelope) :
    (orderBySeq rows).length = rows.length := List.length_insertionSort _ rows

/-- Rows with distinct seqs are listed in strictly ascending order. -/
lemma pairwise_orderBySeq {rows : List OperationEnvelope}
    (h : (rows.map OperationEnvelope.seq).Nodup) :
    (orderBySeq rows).Pairwise fun a b => a.seq < b.seq := by
  have hsorted : (orderBySeq rows).Pairwise fun a b => a.seq ≤ b.seq :=
    List.pairwise_insertionSort (fun a b : OperationEnvelope => a.seq ≤ b.seq) rows
  have hnodup : ((orderBySeq rows).map OperationEnvelope.seq).Nodup :=
    ((List.perm_insertionSort _ rows).map OperationEnvelope.seq).nodup_iff.mpr h
  exact (hsorted.and (List.pairwise_map.mp hnodup)).imp fun h => lt_of_le_of_ne h.1 h.2

lemma filter_unique (db : Database) (p : OperationEnvelope → Bool) :
    ((db.operations.filter p).map OperationEnvelope.seq).Nodup :=
  (List.filter_sublist.map OperationEnvelope.seq).nodup db.operations_unique

lemma eq_of_seq_eq (db : Database) {row row' : OperationEnvelope} (h : row ∈ db.operations)
    (h' : row' ∈ db.operations) (hseq : row.seq = row'.seq) : row = row' :=
  List.inj_on_of_nodup_map db.operations_unique h h' hseq

lemma mem_of_mem_loadOperationsAfterSeq {db : Database} {afterSeq limit : Nat}
    {row : OperationEnvelope} (h : row ∈ db.loadOperationsAfterSeq afterSeq limit) :
    row ∈ db.operations ∧ afterSeq < row.seq := by
  have hrow := mem_orderBySeq.mp (List.mem_of_mem_take h)
  simpa using List.mem_filter.mp hrow

lemma pairwise_loadOperationsAfterSeq (db : Database) (afterSeq limit : Nat) :
    (db.loadOperationsAfterSeq afterSeq limit).Pairwise fun a b => a.seq < b.seq :=
  (pairwise_orderBySeq (db.filter_unique _)).sublist (List.take_sublist _ _)

/-- The number of rows behind a seq. -/
def countAfterSeq (db : Database) (afterSeq : Nat) : Nat :=
  db.operations.countP fun row => row.seq > afterSeq

lemma length_loadOperationsAfterSeq (db : Database) (afterSeq limit : Nat) :
    (db.loadOperationsAfterSeq afterSeq limit).length = min limit (db.countAfterSeq afterSeq) := by
  rw [loadOperationsAfterSeq, List.length_take, length_orderBySeq, countAfterSeq,
    List.countP_eq_length_filter]

/-- Within the limit a read returns every row. -/
lemma mem_loadOperationsAfterSeq {db : Database} {afterSeq limit : Nat}
    (hlimit : db.countAfterSeq afterSeq ≤ limit) {row : OperationEnvelope} :
    row ∈ db.loadOperationsAfterSeq afterSeq limit ↔
      row ∈ db.operations ∧ afterSeq < row.seq := by
  refine ⟨mem_of_mem_loadOperationsAfterSeq, fun h => ?_⟩
  rw [loadOperationsAfterSeq, List.take_of_length_le]
  · exact mem_orderBySeq.mpr (List.mem_filter.mpr ⟨h.1, by simpa using h.2⟩)
  · rwa [length_orderBySeq, ← List.countP_eq_length_filter]

/-- Beyond the limit some row is left out. -/
lemma exists_notMem_loadOperationsAfterSeq {db : Database} {afterSeq limit : Nat}
    (hlimit : limit < db.countAfterSeq afterSeq) :
    ∃ row ∈ db.operations, afterSeq < row.seq ∧
      row ∉ db.loadOperationsAfterSeq afterSeq limit := by
  by_contra hall
  have hsub : db.operations.filter (fun row => row.seq > afterSeq) ⊆
      db.loadOperationsAfterSeq afterSeq limit := by
    intro row hrow
    obtain ⟨hmem, hseq⟩ := List.mem_filter.mp hrow
    by_contra hout
    exact hall ⟨row, hmem, by simpa using hseq, hout⟩
  have hnodup := List.Nodup.of_map _ (db.filter_unique fun row => row.seq > afterSeq)
  have hle := (List.subperm_of_subset hnodup hsub).length_le
  rw [length_loadOperationsAfterSeq, ← List.countP_eq_length_filter] at hle
  rw [countAfterSeq] at hlimit hle
  omega

/-- The rows a read leaves out come after those it returns. -/
lemma mem_loadOperationsAfterSeq_of_le {db : Database} {afterSeq limit : Nat}
    {row row' : OperationEnvelope} (h' : row' ∈ db.loadOperationsAfterSeq afterSeq limit)
    (h : row ∈ db.operations) (hafter : afterSeq < row.seq) (hle : row.seq ≤ row'.seq) :
    row ∈ db.loadOperationsAfterSeq afterSeq limit := by
  have hsorted := pairwise_orderBySeq (db.filter_unique fun row => row.seq > afterSeq)
  have hmem : row ∈ orderBySeq (db.operations.filter fun row => row.seq > afterSeq) :=
    mem_orderBySeq.mpr (List.mem_filter.mpr ⟨h, by simpa using hafter⟩)
  rw [← List.take_append_drop limit (orderBySeq _)] at hsorted hmem
  rcases List.mem_append.mp hmem with hmem | hmem
  · exact hmem
  · have hlt := (List.pairwise_append.mp hsorted).2.2 row' h' row hmem
    omega

lemma seq_le_getMaxSeq {db : Database} {row : OperationEnvelope} (h : row ∈ db.operations) :
    row.seq ≤ db.getMaxSeq := by
  have key : ∀ l : List Nat, ∀ s ∈ l, s ≤ l.foldr max 0 := by
    intro l
    induction l with
    | nil => simp
    | cons t l ih =>
        intro s hs
        rw [List.foldr_cons]
        rcases List.mem_cons.mp hs with rfl | hs
        · exact Nat.le_max_left ..
        · exact (ih s hs).trans (Nat.le_max_right ..)
  exact key _ _ (List.mem_map_of_mem h)

lemma getMaxSeq_le_of_forall {db : Database} {n : Nat} (h : ∀ row ∈ db.operations, row.seq ≤ n) :
    db.getMaxSeq ≤ n := by
  have key : ∀ l : List Nat, (∀ s ∈ l, s ≤ n) → l.foldr max 0 ≤ n := by
    intro l
    induction l with
    | nil => simp
    | cons t l ih =>
        intro hl
        rw [List.foldr_cons]
        exact Nat.max_le.mpr ⟨hl t (by simp), ih fun s hs => hl s (by simp [hs])⟩
  refine key _ fun s hs => ?_
  obtain ⟨row, hrow, rfl⟩ := List.mem_map.mp hs
  exact h row hrow

lemma getMaxSeq_le (db : Database) : db.getMaxSeq ≤ db.documentSeq :=
  getMaxSeq_le_of_forall db.operations_le

/-! ## Snapshots -/

/-- `ORDER BY seq DESC`. -/
def latestSnapshots (db : Database) : List SnapshotRecord :=
  db.snapshots.insertionSort fun a b => b.seq ≤ a.seq

/-- `ORDER BY seq DESC LIMIT 1`. -/
def loadLatestSnapshot (db : Database) : Option SnapshotRecord := db.latestSnapshots.head?

lemma loadLatestSnapshot_mem {db : Database} {snapshot : SnapshotRecord}
    (h : db.loadLatestSnapshot = some snapshot) : snapshot ∈ db.snapshots :=
  (List.mem_insertionSort _).mp (List.mem_of_head? h)

/-- The latest snapshot has the greatest seq. -/
lemma seq_le_loadLatestSnapshot {db : Database} {snapshot latest : SnapshotRecord}
    (h : db.loadLatestSnapshot = some latest) (hmem : snapshot ∈ db.snapshots) :
    snapshot.seq ≤ latest.seq := by
  have hsorted : db.latestSnapshots.Pairwise fun a b => b.seq ≤ a.seq :=
    List.pairwise_insertionSort (fun a b : SnapshotRecord => b.seq ≤ a.seq) db.snapshots
  have hmem' : snapshot ∈ db.latestSnapshots := (List.mem_insertionSort _).mpr hmem
  obtain ⟨rest, hrest⟩ := List.head?_eq_some_iff.mp h
  rw [hrest] at hsorted hmem'
  rcases List.mem_cons.mp hmem' with rfl | hmem'
  · exact Nat.le_refl _
  · exact (List.pairwise_cons.mp hsorted).1 snapshot hmem'

lemma loadLatestSnapshot_eq_none {db : Database} :
    db.loadLatestSnapshot = none ↔ db.snapshots = [] := by
  rw [loadLatestSnapshot, List.head?_eq_none_iff, latestSnapshots,
    ← List.length_eq_zero_iff, List.length_insertionSort, List.length_eq_zero_iff]

/-- `INSERT INTO snapshots … ON CONFLICT (doc_id, seq) DO NOTHING`; reports whether the row was
stored. -/
def insertSnapshot (db : Database) (snapshot : SnapshotRecord) : Database × Bool :=
  if h : snapshot.seq ∈ db.snapshots.map SnapshotRecord.seq then (db, false)
  else
    ({ db with
        snapshots := db.snapshots ++ [snapshot]
        snapshots_unique := by
          rw [List.map_append, List.nodup_append]
          refine ⟨db.snapshots_unique, by simp, fun s hs t ht hst => h ?_⟩
          have ht' : t = snapshot.seq := by simpa using ht
          rwa [← ht', ← hst] },
      true)

/-- `DELETE … WHERE id NOT IN (SELECT … ORDER BY seq DESC LIMIT $2)`. -/
def pruneSnapshots (db : Database) (keep : Nat) : Database :=
  { db with
    snapshots := db.snapshots.filter fun s => s ∈ db.latestSnapshots.take keep
    snapshots_unique :=
      (List.filter_sublist.map SnapshotRecord.seq).nodup db.snapshots_unique }

lemma pruneSnapshots_subset (db : Database) (keep : Nat) :
    (db.pruneSnapshots keep).snapshots ⊆ db.snapshots := List.filter_sublist.subset

lemma mem_insertSnapshot {db : Database} {snapshot s : SnapshotRecord}
    (h : s ∈ (db.insertSnapshot snapshot).1.snapshots) : s ∈ db.snapshots ∨ s = snapshot := by
  rw [insertSnapshot] at h
  split at h
  · exact Or.inl h
  · simpa using h

end Database

end SyncEngine
