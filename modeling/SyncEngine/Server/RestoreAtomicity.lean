import SyncEngine.Crdt.Cells
import SyncEngine.Server.History

/-!
# Is a restore atomic?

A restore that throws has to leave the tables as they were, and one that succeeds has to leave the
restored document as the snapshot at its seq.  `restoreToRevision` puts both at risk by writing
the snapshot outside its transaction: when a later statement throws, the snapshot stays, and the
next restore is given the same seq, finds it there and keeps it.

`restoreToRevision_of_new` and `restoreToRevision_of_stored` compute a restore from whether its
seq has a snapshot already; `restore_atomic_iff` says exactly when it is atomic, for any contents
of the tables and any statement that throws.
-/

namespace SyncEngine

/-! ## Snapshots -/

namespace Database

variable {db : Database} {seq : Nat} {snapshot : SnapshotRecord}

/-- The snapshot with a seq. -/
def snapshotAt (db : Database) (seq : Nat) : Option SnapshotRecord :=
  db.snapshots.find? fun s => s.seq = seq

lemma snapshotAt_eq_none :
    db.snapshotAt seq = none ↔ seq ∉ db.snapshots.map SnapshotRecord.seq := by
  rw [snapshotAt, List.find?_eq_none]
  simp [eq_comm]

lemma snapshotAt_eq_some :
    db.snapshotAt seq = some snapshot ↔ snapshot ∈ db.snapshots ∧ snapshot.seq = seq := by
  constructor
  · intro h
    exact ⟨List.mem_of_find?_eq_some h, by simpa using List.find?_some h⟩
  · rintro ⟨hmem, rfl⟩
    cases hfind : db.snapshotAt snapshot.seq with
    | none => exact absurd (List.mem_map_of_mem hmem) (snapshotAt_eq_none.mp hfind)
    | some s =>
        have hs : s ∈ db.snapshots := List.mem_of_find?_eq_some hfind
        have hseq : s.seq = snapshot.seq := by simpa using List.find?_some hfind
        rw [List.inj_on_of_nodup_map db.snapshots_unique hs hmem hseq]

/-- A snapshot with the seq is the latest one, or a newer one is. -/
lemma loadLatestSnapshot_cases (h : db.snapshotAt seq = some snapshot) :
    (db.loadLatestSnapshot = some snapshot ∧ ∀ s ∈ db.snapshots, s.seq ≤ seq) ∨
      ∃ latest, db.loadLatestSnapshot = some latest ∧ latest.seq ≠ seq ∧
        ∃ s ∈ db.snapshots, seq < s.seq := by
  obtain ⟨hmem, rfl⟩ := snapshotAt_eq_some.mp h
  cases hlatest : db.loadLatestSnapshot with
  | none => simp [loadLatestSnapshot_eq_none.mp hlatest] at hmem
  | some latest =>
      have hle := seq_le_loadLatestSnapshot hlatest hmem
      have hlatestmem := loadLatestSnapshot_mem hlatest
      rcases Nat.eq_or_lt_of_le hle with heq | hlt
      · obtain rfl : latest = snapshot :=
          List.inj_on_of_nodup_map db.snapshots_unique hlatestmem hmem heq.symm
        exact Or.inl ⟨rfl, fun s hs => seq_le_loadLatestSnapshot hlatest hs⟩
      · exact Or.inr ⟨latest, rfl, hlt.ne', latest, hlatestmem, hlt⟩

lemma insertSnapshot_of_new (h : db.snapshotAt snapshot.seq = none) :
    (db.insertSnapshot snapshot).1.snapshots = db.snapshots ++ [snapshot] ∧
      (db.insertSnapshot snapshot).2 = true := by
  rw [insertSnapshot, dif_neg (snapshotAt_eq_none.mp h)]
  exact ⟨rfl, rfl⟩

lemma insertSnapshot_of_stored {existing : SnapshotRecord}
    (h : db.snapshotAt snapshot.seq = some existing) :
    db.insertSnapshot snapshot = (db, false) := by
  obtain ⟨hmem, hseq⟩ := snapshotAt_eq_some.mp h
  rw [insertSnapshot, dif_pos (hseq ▸ List.mem_map_of_mem hmem)]

end Database

/-! ## A restore -/

section Restore

variable {throws : Option RestorePoint} {params : RestoreParams} {t : DocumentTables}

/-- The seq that a restore is given. -/
def DocumentTables.newSeq (t : DocumentTables) : Nat := t.db.documentSeq + 1

/-- The document that a restore restores. -/
def DocumentTables.restored (t : DocumentTables) (params : RestoreParams) : RGADocument :=
  (t.db.reconstructAtSeq params.targetSeq).1

/-- The tables with the snapshot of a restore. -/
def DocumentTables.withSnapshot (t : DocumentTables) (params : RestoreParams) : DocumentTables :=
  { t with db := (t.db.insertSnapshot ⟨t.newSeq, (t.restored params).serialize⟩).1 }

/-- The tables with everything that a restore writes on its connection. -/
def DocumentTables.withRollback (t : DocumentTables) (params : RestoreParams) : DocumentTables where
  db := (t.db.appendOperation params.rollback).1
  auditLog := t.auditLog ++ [params.audit t.newSeq]

/-- What a restore that goes through returns. -/
def RestoreParams.result (params : RestoreParams) (t : DocumentTables) : RestoreResult where
  envelope := { params.rollback with seq := t.newSeq }
  restoredText := (t.restored params).toText
  newSeq := t.newSeq

/-- `saveSnapshot` without a conflict. -/
lemma saveSnapshot_of_new {doc : RGADocument} {seq : Nat} {tx : OpenTransaction}
    (h : tx.committed.db.snapshotAt seq = none) (hthrows : throws ≠ some .insertSnapshot) :
    saveSnapshot throws params doc seq tx =
      ({ tx with committed := { tx.committed with
          db := (tx.committed.db.insertSnapshot ⟨seq, doc.serialize⟩).1 } },
        .ok ⟨seq, doc.serialize⟩) := by
  have hstored : (tx.committed.db.insertSnapshot ⟨seq, doc.serialize⟩).2 = true :=
    (Database.insertSnapshot_of_new h).2
  simp [saveSnapshot, hthrows, OpenTransaction.insertSnapshot, hstored]

/-- `saveSnapshot` on a conflict changes nothing; it returns the snapshot that is there, if that is
the latest one. -/
lemma saveSnapshot_of_stored {doc : RGADocument} {seq : Nat} {tx : OpenTransaction}
    {existing : SnapshotRecord} (h : tx.committed.db.snapshotAt seq = some existing) :
    saveSnapshot throws params doc seq tx = (tx,
      if throws = some .insertSnapshot then .error (.statement .insertSnapshot)
      else if throws = some .reloadSnapshot then .error (.statement .reloadSnapshot)
      else if tx.committed.db.loadLatestSnapshot = some existing then .ok existing
      else .error (.conflict params.docId seq)) := by
  have hinsert : tx.committed.db.insertSnapshot ⟨seq, doc.serialize⟩ = (tx.committed.db, false) :=
    Database.insertSnapshot_of_stored h
  have hseq := (Database.snapshotAt_eq_some.mp h).2
  simp only [saveSnapshot, OpenTransaction.insertSnapshot, hinsert]
  rcases Database.loadLatestSnapshot_cases h with ⟨hlatest, -⟩ | ⟨latest, hlatest, hne, -⟩
  · rw [hlatest]
    split_ifs <;> simp_all
  · rw [hlatest]
    have hne' : latest ≠ existing := fun heq => hne (heq ▸ hseq)
    split_ifs <;> simp_all

/-- A restore from its `saveSnapshot` on. -/
lemma restoreIn_eq (hthrows : throws ≠ some .append) :
    restoreIn throws params (t.restored params) ⟨t, t⟩ =
      match saveSnapshot throws params (t.restored params) t.newSeq
          (OpenTransaction.appendOperation ⟨t, t⟩ params.rollback).1 with
      | (tx, .error e) => (tx, .error e)
      | (tx, .ok _) =>
          if throws = some .updateDocument then (tx, .error (.statement .updateDocument))
          else if throws = some .insertAudit then (tx, .error (.statement .insertAudit))
          else (tx.insertAudit (params.audit t.newSeq), .ok (params.result t)) := by
  rw [restoreIn, if_neg hthrows]
  rfl

/-- A restore whose seq has no snapshot yet stores one, whatever happens afterwards. -/
lemma restoreToRevision_of_new (h : t.db.snapshotAt t.newSeq = none) :
    restoreToRevision throws params t =
      match throws with
      | some .append => (t, .error (.statement .append))
      | some .insertSnapshot => (t, .error (.statement .insertSnapshot))
      | some .updateDocument => (t.withSnapshot params, .error (.statement .updateDocument))
      | some .insertAudit => (t.withSnapshot params, .error (.statement .insertAudit))
      | some .commit => (t.withSnapshot params, .error (.statement .commit))
      | none => (OpenTransaction.commit ⟨t.withSnapshot params, t.withRollback params⟩,
          .ok (params.result t))
      | some .reloadSnapshot =>
          (OpenTransaction.commit ⟨t.withSnapshot params, t.withRollback params⟩,
          .ok (params.result t)) := by
  have hsave : throws ≠ some .insertSnapshot → ∀ tx : OpenTransaction, tx.committed = t →
      saveSnapshot throws params (t.restored params) t.newSeq tx =
        ({ tx with committed := t.withSnapshot params },
          .ok ⟨t.newSeq, (t.restored params).serialize⟩) := by
    rintro hthrows tx rfl
    exact saveSnapshot_of_new h hthrows
  have hrestore : restoreToRevision throws params t =
      withTransaction (throws = some .commit) (restoreIn throws params (t.restored params)) t := rfl
  rw [hrestore, withTransaction]
  cases throws with
  | none =>
      rw [restoreIn_eq (by simp), hsave (by simp) _ rfl]
      rfl
  | some point =>
      cases point with
      | append => rfl
      | insertSnapshot => rw [restoreIn_eq (by simp), saveSnapshot, if_pos rfl]; rfl
      | reloadSnapshot =>
          rw [restoreIn_eq (by simp), hsave (by simp) _ rfl]
          rfl
      | updateDocument =>
          rw [restoreIn_eq (by simp), hsave (by simp) _ rfl]
          rfl
      | insertAudit =>
          rw [restoreIn_eq (by simp), hsave (by simp) _ rfl]
          rfl
      | commit =>
          rw [restoreIn_eq (by simp), hsave (by simp) _ rfl]
          rfl

/-- A restore whose seq has a snapshot already stores none: it succeeds when that is the latest
snapshot and nothing throws, and changes nothing otherwise. -/
lemma restoreToRevision_of_stored (throws : Option RestorePoint) (params : RestoreParams)
    {existing : SnapshotRecord} (h : t.db.snapshotAt t.newSeq = some existing) :
    (throws = none ∧ t.db.loadLatestSnapshot = some existing ∧
        restoreToRevision throws params t =
          (OpenTransaction.commit ⟨t, t.withRollback params⟩, .ok (params.result t))) ∨
      ((throws.isSome = true ∨ t.db.loadLatestSnapshot ≠ some existing) ∧
        ∃ e, restoreToRevision throws params t = (t, .error e)) := by
  have hrestore : restoreToRevision throws params t =
      withTransaction (throws = some .commit) (restoreIn throws params (t.restored params)) t := rfl
  rw [hrestore, withTransaction]
  by_cases happend : throws = some .append
  · subst happend
    exact Or.inr ⟨Or.inl rfl, _, rfl⟩
  have hstored : (OpenTransaction.appendOperation ⟨t, t⟩ params.rollback).1.committed.db.snapshotAt
      t.newSeq = some existing := h
  rw [restoreIn_eq happend, saveSnapshot_of_stored hstored]
  by_cases hlatest : t.db.loadLatestSnapshot = some existing
  · have hlatest' : (OpenTransaction.appendOperation ⟨t, t⟩
        params.rollback).1.committed.db.loadLatestSnapshot = some existing := hlatest
    cases throws with
    | none =>
        rw [if_neg (by simp), if_neg (by simp), if_pos hlatest']
        exact Or.inl ⟨rfl, hlatest, rfl⟩
    | some point =>
        refine Or.inr ⟨Or.inl rfl, .statement point, ?_⟩
        cases point with
        | append => exact absurd rfl happend
        | insertSnapshot => rfl
        | reloadSnapshot => rfl
        | updateDocument =>
            rw [if_neg (by simp), if_neg (by simp), if_pos hlatest']
            rfl
        | insertAudit =>
            rw [if_neg (by simp), if_neg (by simp), if_pos hlatest']
            rfl
        | commit =>
            rw [if_neg (by simp), if_neg (by simp), if_pos hlatest']
            rfl
  · have hlatest' : ¬ (OpenTransaction.appendOperation ⟨t, t⟩
        params.rollback).1.committed.db.loadLatestSnapshot = some existing := hlatest
    refine Or.inr ⟨Or.inr hlatest, ?_⟩
    obtain ⟨e, he⟩ : ∃ e, (if throws = some .insertSnapshot then
          Except.error (RestoreError.statement .insertSnapshot)
        else if throws = some .reloadSnapshot then .error (.statement .reloadSnapshot)
        else .error (.conflict params.docId t.newSeq) : Except RestoreError SnapshotRecord) =
          .error e := by
      split_ifs <;> exact ⟨_, rfl⟩
    rw [if_neg hlatest', he]
    exact ⟨e, rfl⟩

/-! ## Atomicity -/

/-- A restore that throws leaves the tables as they were; one that succeeds leaves the nodes that
it restored as the snapshot at its seq. -/
def RestoreAtomic (throws : Option RestorePoint) (params : RestoreParams) (t : DocumentTables) :
    Prop :=
  match restoreToRevision throws params t with
  | (t', .error _) => t' = t
  | (t', .ok result) => ∃ snapshot ∈ t'.db.snapshots, snapshot.seq = result.newSeq ∧
      (RGADocument.deserialize snapshot.data).nodes =
        (t.db.reconstructAtSeq params.targetSeq).1.nodes

/-- Where the snapshot of the restore goes there is none, and what follows it does not throw; or
there is one, and it has the restored nodes unless the restore fails anyway. -/
def SnapshotAgrees (throws : Option RestorePoint) (params : RestoreParams) (t : DocumentTables) :
    Prop :=
  match t.db.snapshotAt (t.db.documentSeq + 1) with
  | none =>
      throws ≠ some .updateDocument ∧ throws ≠ some .insertAudit ∧ throws ≠ some .commit
  | some existing =>
      throws.isSome = true ∨ (∃ newer ∈ t.db.snapshots, t.db.documentSeq + 1 < newer.seq) ∨
        (RGADocument.deserialize existing.data).nodes =
          (t.db.reconstructAtSeq params.targetSeq).1.nodes

lemma withSnapshot_ne (h : t.db.snapshotAt t.newSeq = none) : t.withSnapshot params ≠ t := by
  intro heq
  have hsnapshots : t.db.snapshots ++ [⟨t.newSeq, (t.restored params).serialize⟩] =
      t.db.snapshots := by
    rw [← (Database.insertSnapshot_of_new h).1]
    exact congrArg (fun t => t.db.snapshots) heq
  simp at hsnapshots

/-- **A restore is atomic exactly when** the seq it is given has no snapshot yet and nothing
throws once it has stored one, or that seq has the snapshot of the restored document already, or
it has another one and the restore fails for some reason. -/
theorem restore_atomic_iff (throws : Option RestorePoint) (params : RestoreParams)
    (t : DocumentTables) : RestoreAtomic throws params t ↔ SnapshotAgrees throws params t := by
  cases hat : t.db.snapshotAt t.newSeq with
  | none =>
      have hnew : (t.withSnapshot params).db.snapshots =
          t.db.snapshots ++ [⟨t.newSeq, (t.restored params).serialize⟩] :=
        (Database.insertSnapshot_of_new hat).1
      have hsuccess : ∃ snapshot ∈ (t.withSnapshot params).db.snapshots,
          snapshot.seq = t.newSeq ∧
          (RGADocument.deserialize snapshot.data).nodes = (t.restored params).nodes :=
        ⟨⟨t.newSeq, (t.restored params).serialize⟩, by simp [hnew], rfl,
          RGADocument.nodes_deserialize_serialize _⟩
      have hagrees : SnapshotAgrees throws params t ↔
          throws ≠ some .updateDocument ∧ throws ≠ some .insertAudit ∧ throws ≠ some .commit := by
        rw [DocumentTables.newSeq] at hat
        rw [SnapshotAgrees, hat]
      rw [hagrees, RestoreAtomic, restoreToRevision_of_new hat]
      cases throws with
      | none => exact ⟨fun _ => by simp, fun _ => hsuccess⟩
      | some point =>
          cases point with
          | append => simp
          | insertSnapshot => simp
          | reloadSnapshot => exact ⟨fun _ => by simp, fun _ => hsuccess⟩
          | updateDocument => simpa using withSnapshot_ne hat
          | insertAudit => simpa using withSnapshot_ne hat
          | commit => simpa using withSnapshot_ne hat
  | some existing =>
      obtain ⟨hmem, hseq⟩ := Database.snapshotAt_eq_some.mp hat
      have hagrees : SnapshotAgrees throws params t ↔
          throws.isSome = true ∨ (∃ newer ∈ t.db.snapshots, t.newSeq < newer.seq) ∨
            (RGADocument.deserialize existing.data).nodes = (t.restored params).nodes := by
        have hat' := hat
        rw [DocumentTables.newSeq] at hat'
        rw [SnapshotAgrees, hat']
        rfl
      rw [hagrees, RestoreAtomic]
      rcases restoreToRevision_of_stored throws params hat with
        ⟨rfl, hlatest, heq⟩ | ⟨hfails, e, heq⟩
      · rw [heq]
        -- the restore succeeded, so the latest snapshot is the one of its own seq
        have hnewer : ¬ ∃ newer ∈ t.db.snapshots, t.newSeq < newer.seq := by
          rintro ⟨newer, hnewer, hlt⟩
          have hle := Database.seq_le_loadLatestSnapshot hlatest hnewer
          omega
        have hstored : (∃ snapshot ∈ t.db.snapshots, snapshot.seq = t.newSeq ∧
              (RGADocument.deserialize snapshot.data).nodes = (t.restored params).nodes) ↔
            (RGADocument.deserialize existing.data).nodes = (t.restored params).nodes := by
          refine ⟨?_, fun hnodes => ⟨existing, hmem, hseq, hnodes⟩⟩
          rintro ⟨snapshot, hsnapshot, hseq', hnodes⟩
          have hat' := Database.snapshotAt_eq_some.mpr ⟨hsnapshot, hseq'⟩
          obtain rfl : existing = snapshot := Option.some.inj (hat.symm.trans hat')
          exact hnodes
        have hcondition : ((none : Option RestorePoint).isSome = true ∨
              (∃ newer ∈ t.db.snapshots, t.newSeq < newer.seq) ∨
              (RGADocument.deserialize existing.data).nodes = (t.restored params).nodes) ↔
            (RGADocument.deserialize existing.data).nodes = (t.restored params).nodes := by
          simp [hnewer]
        exact hstored.trans hcondition.symm
      · rw [heq]
        have hfails' : throws.isSome = true ∨ ∃ newer ∈ t.db.snapshots, t.newSeq < newer.seq := by
          refine hfails.imp_right fun hlatest => ?_
          rcases Database.loadLatestSnapshot_cases hat with ⟨hlatest', -⟩ | ⟨-, -, -, hnewer⟩
          · exact absurd hlatest' hlatest
          · exact hnewer
        simp only [true_iff]
        exact hfails'.imp_right Or.inl

end Restore

/-! ## Restores that throw at the end -/

section Examples

/-- A document with the rows of two typed characters. -/
private def typed : DocumentTables where
  db := ((Database.empty.appendOperation (row 1 none "x")).1.appendOperation (row 2 (some 1) "y")).1
  auditLog := []
where
  row (clock : Nat) (after : Option Nat) (char : String) : OperationEnvelope :=
    ⟨JSString.lit "d", JSString.lit "s", JSString.lit "u",
      .insert ⟨⟨clock, JSString.lit "a"⟩, after.map fun c => ⟨c, JSString.lit "a"⟩,
        .string (JSString.lit char)⟩, 0, clock, JSString.ofNat clock⟩

/-- A restore of the document `d` to a revision. -/
private def restoreTo (targetSeq : Nat) : RestoreParams :=
  ⟨JSString.lit "d", targetSeq, JSString.lit "u", JSString.lit "s", JSString.lit "n"⟩

/-- The COMMIT throws, and the snapshot stays. -/
theorem not_forall_restoreAtomic :
    ¬ ∀ (throws : Option RestorePoint) (params : RestoreParams) (t : DocumentTables),
      RestoreAtomic throws params t := by
  intro h
  have hthrown : (restoreToRevision (some .commit) (restoreTo 1) typed).1 = typed :=
    h (some .commit) (restoreTo 1) typed
  exact absurd (congrArg (fun t => t.db.snapshots) hthrown) (by decide)

-- the next restore, to the latest revision, stores the document of the one that failed
example :
    let t := (restoreToRevision (some .commit) (restoreTo 1) typed).1
    (restoreToRevision none (restoreTo 2) t).1.db.snapshots =
        [⟨3, (t.restored (restoreTo 1)).serialize⟩] ∧
      (t.restored (restoreTo 1)).nodes ≠ (t.restored (restoreTo 2)).nodes := by decide

end Examples

end SyncEngine
