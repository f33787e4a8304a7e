import SyncEngine.Server.HandleOperation
import SyncEngine.Server.OfflineMerger

/-!
# Loading a document from the database

`loadDocumentFromDB` (`server/sync/document-cache.ts`) replays the operations behind the latest
snapshot.  It asks `loadOperationsAfterSeq` for them without naming a limit, and the limit the
query then has is 10000.

* A load that no write comes between builds this entry (`load_eq_loadDocumentFromDB`).
* It replays the whole tail, and `lastSeq` is the last seq of the document, exactly when at most
  10000 operations follow the snapshot (`loadDocumentFromDB_whole_iff`).
* Past the limit `lastSeq` stays behind (`lastSeq_lt_of_truncated`).  A snapshot taken of the
  entry is filed under the maximum seq nevertheless, so the next load replays nothing
  (`loadDocumentFromDB_insertSnapshot`): the rows that were left out are left out for good.
-/

namespace SyncEngine

namespace Database

/-- The seq of the latest snapshot, `0` without one. -/
def savedSeq (db : Database) : Nat := snapshotSeq db.loadLatestSnapshot

/-- The rows behind the latest snapshot, in the order of their seqs. -/
def tail (db : Database) : List OperationEnvelope :=
  orderBySeq (db.operations.filter fun row => row.seq > db.savedSeq)

/-- The last seq of the document, whether a row or the snapshot carries it. -/
def lastSeq (db : Database) : Nat := max db.savedSeq db.getMaxSeq

lemma mem_tail {db : Database} {row : OperationEnvelope} :
    row ∈ db.tail ↔ row ∈ db.operations ∧ db.savedSeq < row.seq := by
  rw [tail, mem_orderBySeq, List.mem_filter]
  simp

lemma length_tail (db : Database) : db.tail.length = db.countAfterSeq db.savedSeq := by
  rw [tail, length_orderBySeq, countAfterSeq, List.countP_eq_length_filter]

/-- A read behind the snapshot returns the first rows of the tail. -/
lemma loadOperationsAfterSeq_savedSeq (db : Database) (limit : Nat) :
    db.loadOperationsAfterSeq db.savedSeq limit = db.tail.take limit := rfl

end Database

/-! ## One load -/

/-- `loadDocumentFromDB` over a database that does not change meanwhile. -/
def loadDocumentFromDB (db : Database) : CachedDocument :=
  let snapshot := db.loadLatestSnapshot
  let deltaOps := db.loadOperationsAfterSeq (snapshotSeq snapshot)
  replayDelta snapshot deltaOps

/-- A load goes through its three stages and resolves with this entry. -/
theorem load_eq_loadDocumentFromDB (db : Database) :
    ((LoadStage.awaitSnapshot.next db).bind fun stage =>
        (stage.next db).bind fun stage => stage.next db) =
      some (.resolved ⟨db.loadLatestSnapshot,
        db.loadOperationsAfterSeq db.savedSeq, loadDocumentFromDB db⟩) :=
  rfl

/-- The entry holds the snapshot's document with every later operation applied in the order of
the seqs, and is at the last seq of the document. -/
structure LoadsWholeTail (db : Database) : Prop where
  doc_eq : (loadDocumentFromDB db).doc =
    (snapshotDoc db.loadLatestSnapshot).applyOperations (db.tail.map OperationEnvelope.op)
  lastSeq_eq : (loadDocumentFromDB db).lastSeq = db.lastSeq

/-- What `lastSeq` reaches: the snapshot's seq or that of a row that was read. -/
lemma le_lastSeq_loadDocumentFromDB {db : Database} {x : Nat} :
    x ≤ (loadDocumentFromDB db).lastSeq ↔
      x ≤ db.savedSeq ∨ ∃ row ∈ db.tail.take 10000, x ≤ row.seq :=
  le_foldl_max_seq

/-! ## Within the limit and beyond it -/

lemma loadsWholeTail_of_le {db : Database} (h : db.countAfterSeq db.savedSeq ≤ 10000) :
    LoadsWholeTail db := by
  have htake : db.tail.take 10000 = db.tail :=
    List.take_of_length_le (by rwa [db.length_tail])
  have hrows : db.loadOperationsAfterSeq (snapshotSeq db.loadLatestSnapshot) = db.tail :=
    (db.loadOperationsAfterSeq_savedSeq 10000).trans htake
  refine ⟨?_, ?_⟩
  · rw [loadDocumentFromDB, replayDelta, hrows]
  · apply le_antisymm
    · rcases le_lastSeq_loadDocumentFromDB.mp le_rfl with hle | ⟨row, hrow, hle⟩
      · exact hle.trans (Nat.le_max_left ..)
      · have hrow' := (Database.mem_tail.mp (List.mem_of_mem_take hrow)).1
        exact (hle.trans (Database.seq_le_getMaxSeq hrow')).trans (Nat.le_max_right ..)
    · refine Nat.max_le.mpr ⟨le_lastSeq_loadDocumentFromDB.mpr (Or.inl le_rfl), ?_⟩
      refine Database.getMaxSeq_le_of_forall fun row hrow => ?_
      rw [le_lastSeq_loadDocumentFromDB, htake]
      rcases Nat.lt_or_ge db.savedSeq row.seq with hlt | hge
      · exact Or.inr ⟨row, Database.mem_tail.mpr ⟨hrow, hlt⟩, le_rfl⟩
      · exact Or.inl hge

/-- Beyond it the rows that are left out are later than all that are read. -/
theorem lastSeq_lt_of_truncated {db : Database} (h : 10000 < db.countAfterSeq db.savedSeq) :
    (loadDocumentFromDB db).lastSeq < db.lastSeq := by
  obtain ⟨row, hrow, hafter, hout⟩ := Database.exists_notMem_loadOperationsAfterSeq h
  have hmax : row.seq ≤ db.lastSeq :=
    (Database.seq_le_getMaxSeq hrow).trans (Nat.le_max_right ..)
  refine lt_of_lt_of_le (lt_of_not_ge fun hle => ?_) hmax
  rcases le_lastSeq_loadDocumentFromDB.mp hle with hle | ⟨row', hrow', hle⟩
  · exact absurd hle (Nat.not_le.mpr hafter)
  · exact hout (Database.mem_loadOperationsAfterSeq_of_le hrow' hrow hafter hle)

/-- **A load replays the whole tail exactly** when at most 10000 operations follow the latest
snapshot. -/
theorem loadDocumentFromDB_whole_iff (db : Database) :
    LoadsWholeTail db ↔ db.countAfterSeq db.savedSeq ≤ 10000 := by
  refine ⟨fun h => ?_, loadsWholeTail_of_le⟩
  by_contra hlong
  have hlt := lastSeq_lt_of_truncated (Nat.lt_of_not_le hlong)
  exact absurd h.lastSeq_eq hlt.ne

/-- A log of 10001 typed characters and no snapshot. -/
theorem not_forall_loadsWholeTail : ¬ ∀ db : Database, LoadsWholeTail db := by
  intro h
  have hcount : 10000 < (typedLog 10001).countAfterSeq (typedLog 10001).savedSeq := by
    rw [show (typedLog 10001).savedSeq = 0 from rfl, countAfterSeq_typedLog (Nat.zero_le _)]
    decide
  exact (lastSeq_lt_of_truncated hcount).ne (h (typedLog 10001)).lastSeq_eq

/-! ## A snapshot of a truncated document -/

namespace Database

lemma seq_le_savedSeq {db : Database} {snapshot : SnapshotRecord} (h : snapshot ∈ db.snapshots) :
    snapshot.seq ≤ db.savedSeq := by
  rw [savedSeq]
  cases hlatest : db.loadLatestSnapshot with
  | none => simp [loadLatestSnapshot_eq_none.mp hlatest] at h
  | some latest => exact seq_le_loadLatestSnapshot hlatest h

/-- A snapshot behind all others is the latest one from then on. -/
lemma loadLatestSnapshot_insertSnapshot {db : Database} {snapshot : SnapshotRecord}
    (h : db.savedSeq < snapshot.seq) :
    (db.insertSnapshot snapshot).1.loadLatestSnapshot = some snapshot := by
  have hnew : snapshot.seq ∉ db.snapshots.map SnapshotRecord.seq := by
    intro hmem
    obtain ⟨s, hs, hseq⟩ := List.mem_map.mp hmem
    have hle := seq_le_savedSeq hs
    omega
  have hrows : (db.insertSnapshot snapshot).1.snapshots = db.snapshots ++ [snapshot] := by
    rw [insertSnapshot, dif_neg hnew]
  cases hlatest : (db.insertSnapshot snapshot).1.loadLatestSnapshot with
  | none =>
      rw [loadLatestSnapshot_eq_none, hrows] at hlatest
      simp at hlatest
  | some latest =>
      have hmem : snapshot ∈ (db.insertSnapshot snapshot).1.snapshots := by simp [hrows]
      have hle := seq_le_loadLatestSnapshot hlatest hmem
      rcases mem_insertSnapshot (loadLatestSnapshot_mem hlatest) with hold | rfl
      · have hle' := seq_le_savedSeq hold
        omega
      · rfl

lemma operations_insertSnapshot (db : Database) (snapshot : SnapshotRecord) :
    (db.insertSnapshot snapshot).1.operations = db.operations := by
  rw [insertSnapshot]
  split <;> rfl

end Database

/-- **The loss is permanent**: once the compactor has filed a document under the maximum seq,
the next load starts from that document and replays nothing. -/
theorem loadDocumentFromDB_insertSnapshot {db : Database} (doc : RGADocument)
    (h : db.savedSeq < db.getMaxSeq) :
    loadDocumentFromDB (db.insertSnapshot ⟨db.getMaxSeq, doc.serialize⟩).1 =
      ⟨RGADocument.deserialize doc.serialize, db.getMaxSeq, 0⟩ := by
  set db' := (db.insertSnapshot ⟨db.getMaxSeq, doc.serialize⟩).1 with hdb'
  have hlatest : db'.loadLatestSnapshot = some ⟨db.getMaxSeq, doc.serialize⟩ :=
    Database.loadLatestSnapshot_insertSnapshot h
  have hnone : db'.loadOperationsAfterSeq db.getMaxSeq = [] := by
    refine List.eq_nil_iff_forall_not_mem.mpr fun row hrow => ?_
    obtain ⟨hmem, hlt⟩ := Database.mem_of_mem_loadOperationsAfterSeq hrow
    rw [hdb', Database.operations_insertSnapshot] at hmem
    have hle := Database.seq_le_getMaxSeq hmem
    omega
  rw [loadDocumentFromDB, hlatest]
  simp only [snapshotSeq, hnone]
  rfl

end SyncEngine
