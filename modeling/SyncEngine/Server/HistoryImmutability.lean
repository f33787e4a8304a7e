import SyncEngine.Crdt.TombstoneGc
import SyncEngine.Server.HistoryPool
import SyncEngine.Server.RestoreAtomicity

/-!
# Old revisions

Whether the text of a revision changes after its seq has been assigned.  What `reconstructAtSeq`
answers depends on the nearest snapshot, so appending, restoring and committing change no old
revision, but the two statements of the compactor do, unless the snapshot that is stored or
dropped stands for the rows in front of it (`Database.StandsFor`).
-/

namespace SyncEngine

open Transition ReplicatedList RGADocument

/-! ## Replaying onto a collected document -/

/-- What a FORMAT does to a node. -/
def FormatOperation.format (op : FormatOperation) (n : RGANode) : RGANode :=
  if n.uid = op.uid then { n with attributes := n.attributes.spread op.attributes } else n

namespace GcReplicas

/-- The operation does not notice the collected nodes; only an INSERT can. -/
def Unnoticed (s : GcReplicas) : RGAOperation → Prop
  | .insert op => s.Unaffected (.insert op)
  | _ => True

instance (s : GcReplicas) : DecidablePred s.Unnoticed
  | .insert op => inferInstanceAs (Decidable (s.Unaffected (.insert op)))
  | .delete _ | .format _ | .rollback _ => isTrue trivial

/-- No operation of the replay notices them. -/
def UnnoticedReplay (s : GcReplicas) : List RGAOperation → Prop
  | [] => True
  | op :: ops => s.Unnoticed op ∧ UnnoticedReplay (s.step (.operation op)) ops

instance decidableUnnoticedReplay (s : GcReplicas) : DecidablePred s.UnnoticedReplay
  | [] => isTrue trivial
  | op :: ops =>
      have := decidableUnnoticedReplay (s.step (.operation op)) ops
      inferInstanceAs
        (Decidable (s.Unnoticed op ∧ UnnoticedReplay (s.step (.operation op)) ops))

instance (s : GcReplicas) (kept : UID → Bool) : Decidable (Mirrors s kept) :=
  decidable_of_iff (((ids s.full.cells).Nodup ∧ rootUID ∉ ids s.full.cells) ∧
      s.collecting.nodes = s.full.nodes.filter (fun n => kept n.uid) ∧
      ∀ n ∈ s.full.nodes, kept n.uid = false → n.tombstoned = true)
    ⟨fun h => ⟨⟨h.1.1, h.1.2⟩, h.2.1, h.2.2⟩,
      fun h => ⟨⟨h.indexed.nodup, h.indexed.root_notMem⟩, h.nodes_eq, h.dropped⟩⟩

variable {s : GcReplicas} {kept : UID → Bool}

lemma UnnoticedReplay.of_append {ops rest : List RGAOperation}
    (h : s.UnnoticedReplay (ops ++ rest)) : s.UnnoticedReplay ops := by
  induction ops generalizing s with
  | nil => trivial
  | cons op ops ih => exact ⟨h.1, ih h.2⟩

@[simp] lemma format_uid (op : FormatOperation) (n : RGANode) : (op.format n).uid = n.uid := by
  rw [FormatOperation.format]
  split <;> rfl

@[simp] lemma format_tombstoned (op : FormatOperation) (n : RGANode) :
    (op.format n).tombstoned = n.tombstoned := by
  rw [FormatOperation.format]
  split <;> rfl

lemma nodes_applyFormat {d : RGADocument} (h : Indexed d) (op : FormatOperation) :
    (d.applyOperation (.format op)).1.nodes = d.nodes.map op.format := by
  have hmissing (hout : op.uid ∉ ids d.cells) : d.nodes.map op.format = d.nodes := by
    refine (List.map_congr_left fun n hn => if_neg fun hnu => hout ?_).trans (List.map_id' _)
    rw [ids_cells, ← hnu]
    exact List.mem_map_of_mem hn
  simp only [applyOperation, applyFormat, uidKey_inj]
  split_ifs with hroot
  · rw [hmissing (hroot ▸ h.root_notMem)]
  · cases hget : d.indexGet (uidKey op.uid) with
    | none => rw [hmissing (indexGet_eq_none.mp hget)]
    | some n =>
        simp only [updateNode, Chain.updateNode, uidKey_inj]
        rfl

lemma Mirrors.format (h : Mirrors s kept) (op : FormatOperation) :
    Mirrors (s.step (.operation (.format op))) kept := by
  refine ⟨h.indexed.applyOperation _, ?_, ?_⟩
  · show (s.collecting.applyOperation (.format op)).1.nodes =
      (s.full.applyOperation (.format op)).1.nodes.filter fun n => kept n.uid
    rw [nodes_applyFormat h.indexed_collecting, nodes_applyFormat h.indexed, h.nodes_eq,
      List.filter_map]
    congr 1
    exact List.filter_congr fun n _ => by simp
  · intro n hn hdrop
    rw [step] at hn
    simp only [nodes_applyFormat h.indexed] at hn
    obtain ⟨m, hm, rfl⟩ := List.mem_map.mp hn
    rw [format_uid] at hdrop
    rw [format_tombstoned]
    exact h.dropped m hm hdrop

/-- An operation that does not notice the collected nodes. -/
lemma Mirrors.unnoticed (h : Mirrors s kept) {op : RGAOperation} (hun : s.Unnoticed op) :
    ∃ kept', Mirrors (s.step (.operation op)) kept' := by
  cases op with
  | insert op => exact h.insert hun
  | delete op => exact ⟨kept, h.delete op⟩
  | format op => exact ⟨kept, h.format op⟩
  | rollback op => exact ⟨kept, h⟩

/-- A replay of such operations. -/
theorem Mirrors.replay (h : Mirrors s kept) {ops : List RGAOperation}
    (hun : s.UnnoticedReplay ops) :
    ∃ kept', Mirrors ⟨s.full.applyOperations ops, s.collecting.applyOperations ops⟩ kept' := by
  induction ops generalizing s kept with
  | nil => exact ⟨kept, h⟩
  | cons op ops ih =>
      obtain ⟨kept', h'⟩ := h.unnoticed hun.1
      exact ih h' hun.2

end GcReplicas

/-! ## Reading revisions -/

namespace Database

variable {db : Database} {snapshot : SnapshotRecord} {x : Nat}

lemma orderBySeq_filter (db : Database) (p : OperationEnvelope → Bool) :
    orderBySeq (db.operations.filter p) = (orderBySeq db.operations).filter p := by
  have hperm : (orderBySeq (db.operations.filter p)).Perm ((orderBySeq db.operations).filter p) :=
    (List.perm_insertionSort _ _).trans ((List.perm_insertionSort _ _).symm.filter p)
  refine hperm.eq_of_pairwise ?_ (pairwise_orderBySeq (db.filter_unique p))
    ((pairwise_orderBySeq db.operations_unique).sublist List.filter_sublist)
  intro a b _ _ hab hba
  exact absurd hab (Nat.lt_asymm hba)

lemma loadOperationsInRange_eq (db : Database) (fromSeq toSeq : Nat) :
    db.loadOperationsInRange fromSeq toSeq =
      (orderBySeq db.operations).filter fun row => fromSeq ≤ row.seq ∧ row.seq ≤ toSeq :=
  db.orderBySeq_filter _

lemma filter_seq_split {rows : List OperationEnvelope}
    (h : rows.Pairwise fun a b => a.seq < b.seq) (x : Nat) :
    rows = (rows.filter fun row => row.seq ≤ x) ++ rows.filter fun row => x < row.seq := by
  induction rows with
  | nil => rfl
  | cons row rows ih =>
      obtain ⟨hhead, htail⟩ := List.pairwise_cons.mp h
      by_cases hle : row.seq ≤ x
      · rw [List.filter_cons_of_pos (by simpa using hle),
          List.filter_cons_of_neg (by simpa using hle), List.cons_append, ← ih htail]
      · have hnone : (row :: rows).filter (fun row => decide (row.seq ≤ x)) = [] := by
          refine List.filter_eq_nil_iff.mpr fun row' hrow' => ?_
          rcases List.mem_cons.mp hrow' with rfl | hrow'
          · simpa using hle
          · have hlt := hhead row' hrow'
            simp only [decide_eq_true_eq]
            omega
        have hall : (row :: rows).filter (fun row => decide (x < row.seq)) = row :: rows := by
          refine List.filter_eq_self.mpr fun row' hrow' => ?_
          rcases List.mem_cons.mp hrow' with rfl | hrow'
          · simpa using hle
          · have hlt := hhead row' hrow'
            simp only [decide_eq_true_eq]
            omega
        rw [hnone, hall, List.nil_append]

lemma pairwise_loadOperationsInRange (db : Database) (fromSeq toSeq : Nat) :
    (db.loadOperationsInRange fromSeq toSeq).Pairwise fun a b => a.seq < b.seq :=
  pairwise_orderBySeq (db.filter_unique _)

lemma loadOperationsInRange_split {fromSeq mid toSeq : Nat} (hfrom : fromSeq ≤ mid + 1)
    (hto : mid ≤ toSeq) : db.loadOperationsInRange fromSeq toSeq =
      db.loadOperationsInRange fromSeq mid ++ db.loadOperationsInRange (mid + 1) toSeq := by
  conv_lhs => rw [filter_seq_split (db.pairwise_loadOperationsInRange fromSeq toSeq) mid]
  simp only [loadOperationsInRange_eq, List.filter_filter]
  congr 1
  · refine List.filter_congr fun row _ => ?_
    rw [← Bool.decide_and, decide_eq_decide]
    omega
  · refine List.filter_congr fun row _ => ?_
    rw [← Bool.decide_and, decide_eq_decide]
    omega

lemma loadOperationsInRange_of_lt {fromSeq toSeq : Nat} (h : toSeq < fromSeq) :
    db.loadOperationsInRange fromSeq toSeq = [] := by
  rw [loadOperationsInRange_eq]
  refine List.filter_eq_nil_iff.mpr fun row _ => ?_
  simp only [decide_eq_true_eq]
  omega

lemma readRevision_eq (db : Database) (base : Option SnapshotRecord) (x : Nat) :
    db.readRevision base x = (snapshotDoc base).applyOperations
      ((db.loadOperationsInRange (snapshotSeq base + 1) x).map OperationEnvelope.op) := by
  rw [readRevision]
  split
  · rfl
  · rename_i hempty
    rw [loadOperationsInRange_of_lt (Nat.lt_of_not_le hempty)]
    rfl

/-- A later revision is an earlier one with the rows between them. -/
lemma readRevision_append {base : Option SnapshotRecord} {mid : Nat}
    (hbase : snapshotSeq base ≤ mid) (hmid : mid ≤ x) :
    db.readRevision base x = (db.readRevision base mid).applyOperations
      ((db.loadOperationsInRange (mid + 1) x).map OperationEnvelope.op) := by
  rw [readRevision_eq, readRevision_eq, loadOperationsInRange_split (Nat.succ_le_succ hbase) hmid,
    List.map_append, applyOperations, List.foldl_append]
  rfl

lemma readRevision_congr {db' : Database} {base : Option SnapshotRecord}
    (h : ∀ row, row.seq ≤ x → (row ∈ db'.operations ↔ row ∈ db.operations)) :
    db'.readRevision base x = db.readRevision base x := by
  rw [readRevision_eq, readRevision_eq]
  have hperm : (db'.loadOperationsInRange (snapshotSeq base + 1) x).Perm
      (db.loadOperationsInRange (snapshotSeq base + 1) x) := by
    refine (List.perm_ext_iff_of_nodup ?_ ?_).mpr fun row => ?_
    · exact (db'.pairwise_loadOperationsInRange _ _).imp fun hlt heq => by simp [heq] at hlt
    · exact (db.pairwise_loadOperationsInRange _ _).imp fun hlt heq => by simp [heq] at hlt
    · simp only [loadOperationsInRange, mem_orderBySeq, List.mem_filter, decide_eq_true_eq]
      exact ⟨fun hrow => ⟨(h row hrow.2.2).mp hrow.1, hrow.2⟩,
        fun hrow => ⟨(h row hrow.2.2).mpr hrow.1, hrow.2⟩⟩
  rw [hperm.eq_of_pairwise (fun a b _ _ hab hba => absurd hab (Nat.lt_asymm hba))
    (db'.pairwise_loadOperationsInRange _ _) (db.pairwise_loadOperationsInRange _ _)]

/-! ### The nearest snapshot -/

lemma pairwise_latestSnapshots (db : Database) :
    db.latestSnapshots.Pairwise fun a b => b.seq < a.seq := by
  have hsorted : db.latestSnapshots.Pairwise fun a b => b.seq ≤ a.seq :=
    List.pairwise_insertionSort (fun a b : SnapshotRecord => b.seq ≤ a.seq) db.snapshots
  have hnodup : (db.latestSnapshots.map SnapshotRecord.seq).Nodup :=
    ((List.perm_insertionSort _ _).map SnapshotRecord.seq).nodup_iff.mpr db.snapshots_unique
  exact (hsorted.and (List.pairwise_map.mp hnodup)).imp fun h => lt_of_le_of_ne h.1 (Ne.symm h.2)

lemma mem_latestSnapshots : snapshot ∈ db.latestSnapshots ↔ snapshot ∈ db.snapshots :=
  List.mem_insertionSort _

lemma loadSnapshotBefore_eq_none :
    db.loadSnapshotBefore x = none ↔ ∀ s ∈ db.snapshots, x < s.seq := by
  rw [loadSnapshotBefore, List.head?_eq_none_iff, List.filter_eq_nil_iff]
  simp [mem_latestSnapshots]

lemma loadSnapshotBefore_eq_some : db.loadSnapshotBefore x = some snapshot ↔
    snapshot ∈ db.snapshots ∧ snapshot.seq ≤ x ∧
      ∀ s ∈ db.snapshots, s.seq ≤ x → s.seq ≤ snapshot.seq := by
  have hmax : ∀ {t}, db.loadSnapshotBefore x = some t → t ∈ db.snapshots ∧ t.seq ≤ x ∧
      ∀ s ∈ db.snapshots, s.seq ≤ x → s.seq ≤ t.seq := by
    intro t h
    have hsorted := (db.pairwise_latestSnapshots).sublist
      (List.filter_sublist (p := fun s => s.seq ≤ x))
    obtain ⟨rest, hrest⟩ := List.head?_eq_some_iff.mp h
    have hmem : ∀ s, s ∈ t :: rest ↔ s ∈ db.snapshots ∧ s.seq ≤ x := by
      intro s
      rw [← hrest, List.mem_filter, mem_latestSnapshots, decide_eq_true_eq]
    obtain ⟨ht, hle⟩ := (hmem t).mp (List.mem_cons_self ..)
    refine ⟨ht, hle, fun s hs hsx => ?_⟩
    rw [hrest] at hsorted
    rcases List.mem_cons.mp ((hmem s).mpr ⟨hs, hsx⟩) with rfl | hrest'
    · exact Nat.le_refl _
    · exact ((List.pairwise_cons.mp hsorted).1 s hrest').le
  refine ⟨hmax, fun ⟨hmem, hle, hgreatest⟩ => ?_⟩
  cases hload : db.loadSnapshotBefore x with
  | none => exact absurd hle (Nat.not_le_of_lt (loadSnapshotBefore_eq_none.mp hload _ hmem))
  | some t =>
      obtain ⟨ht, htx, hgreatest'⟩ := hmax hload
      have heq := Nat.le_antisymm (hgreatest t ht htx) (hgreatest' snapshot hmem hle)
      rw [List.inj_on_of_nodup_map db.snapshots_unique ht hmem heq]

lemma snapshotSeq_loadSnapshotBefore_le (db : Database) (x : Nat) :
    snapshotSeq (db.loadSnapshotBefore x) ≤ x := by
  cases hload : db.loadSnapshotBefore x with
  | none => exact Nat.zero_le x
  | some t => exact (loadSnapshotBefore_eq_some.mp hload).2.1

/-- The nearest snapshot depends on the snapshots up to the revision only. -/
lemma loadSnapshotBefore_congr {db' : Database}
    (h : ∀ s, s.seq ≤ x → (s ∈ db'.snapshots ↔ s ∈ db.snapshots)) :
    db'.loadSnapshotBefore x = db.loadSnapshotBefore x := by
  cases hload : db.loadSnapshotBefore x with
  | none =>
      refine loadSnapshotBefore_eq_none.mpr fun s hs => ?_
      by_contra hle
      have hle' := Nat.le_of_not_lt hle
      exact hle (loadSnapshotBefore_eq_none.mp hload s ((h s hle').mp hs))
  | some t =>
      obtain ⟨ht, htx, hgreatest⟩ := loadSnapshotBefore_eq_some.mp hload
      exact loadSnapshotBefore_eq_some.mpr
        ⟨(h t htx).mpr ht, htx, fun s hs hsx => hgreatest s ((h s hsx).mp hs) hsx⟩

/-! ### Snapshots that stand for rows -/

/-- The rows behind a seq, up to the next snapshot. -/
def rowsUntilNext (db : Database) (seq : Nat) : List OperationEnvelope :=
  (db.loadOperationsInRange (seq + 1) db.documentSeq).filter fun row =>
    ∀ s ∈ db.snapshots, s.seq ≤ seq ∨ row.seq < s.seq

/-- What the rows give on another snapshot or the empty document, next to what is stored in this
one. -/
def besideStored (db : Database) (base : Option SnapshotRecord) (snapshot : SnapshotRecord) :
    GcReplicas :=
  ⟨db.readRevision base snapshot.seq, deserialize snapshot.data⟩

/-- The snapshot holds what the rows up to its seq give on another one, but for tombstones that the
rows up to the next snapshot do not notice. -/
structure StandsFor (db : Database) (base : Option SnapshotRecord) (snapshot : SnapshotRecord) :
    Prop where
  mirrors : (db.besideStored base snapshot).Mirrors fun u =>
    (deserialize snapshot.data).indexHas (uidKey u)
  unnoticed : (db.besideStored base snapshot).UnnoticedReplay
    ((db.rowsUntilNext snapshot.seq).map OperationEnvelope.op)

instance (db : Database) (base : Option SnapshotRecord) (snapshot : SnapshotRecord) :
    Decidable (db.StandsFor base snapshot) :=
  decidable_of_iff (_ ∧ _) ⟨fun h => ⟨h.1, h.2⟩, fun h => ⟨h.mirrors, h.unnoticed⟩⟩

lemma loadOperationsInRange_isPrefix {seq : Nat} (hx : x ≤ db.documentSeq)
    (hnext : ∀ s ∈ db.snapshots, s.seq ≤ x → s.seq ≤ seq) :
    db.loadOperationsInRange (seq + 1) x <+: db.rowsUntilNext seq := by
  have hsorted : (db.rowsUntilNext seq).Pairwise fun a b => a.seq < b.seq :=
    (db.pairwise_loadOperationsInRange _ _).sublist List.filter_sublist
  have hupTo : (db.rowsUntilNext seq).filter (fun row => row.seq ≤ x) =
      db.loadOperationsInRange (seq + 1) x := by
    simp only [rowsUntilNext, loadOperationsInRange_eq, List.filter_filter]
    refine List.filter_congr fun row _ => ?_
    rw [← Bool.decide_and, ← Bool.decide_and, decide_eq_decide]
    constructor
    · rintro ⟨hrowx, -, hrow, -⟩
      exact ⟨hrow, hrowx⟩
    · rintro ⟨hrow, hrowx⟩
      refine ⟨hrowx, fun s hs => ?_, hrow, hrowx.trans hx⟩
      by_cases hsrow : s.seq ≤ row.seq
      · exact Or.inl (hnext s hs (hsrow.trans hrowx))
      · exact Or.inr (Nat.lt_of_not_le hsrow)
  rw [filter_seq_split hsorted x, hupTo]
  exact List.prefix_append ..

/-- **What a snapshot that stands for the rows shows**: the same text as they do, up to the next
snapshot. -/
theorem StandsFor.toText_eq {base : Option SnapshotRecord} (h : db.StandsFor base snapshot)
    (hbase : snapshotSeq base ≤ snapshot.seq) (hle : snapshot.seq ≤ x) (hx : x ≤ db.documentSeq)
    (hnext : ∀ s ∈ db.snapshots, s.seq ≤ x → s.seq ≤ snapshot.seq) :
    (db.readRevision (some snapshot) x).toText = (db.readRevision base x).toText := by
  obtain ⟨rest, hrest⟩ := loadOperationsInRange_isPrefix hx hnext
  have hun := h.unnoticed
  rw [← hrest, List.map_append] at hun
  obtain ⟨kept, hmirrors⟩ := h.mirrors.replay hun.of_append
  rw [readRevision_append hbase hle, readRevision_eq]
  exact hmirrors.toText_eq

/-! ### The statements -/

/-- The text of a revision is the same in both tables. -/
def SameRevision (db db' : Database) (x : Nat) : Prop :=
  (db'.reconstructAtSeq x).1.toText = (db.reconstructAtSeq x).1.toText

lemma sameRevision_of_mem_iff {db' : Database}
    (hrows : ∀ row, row.seq ≤ x → (row ∈ db'.operations ↔ row ∈ db.operations))
    (hsnapshots : ∀ s, s.seq ≤ x → (s ∈ db'.snapshots ↔ s ∈ db.snapshots)) :
    SameRevision db db' x := by
  rw [SameRevision, reconstructAtSeq_eq, reconstructAtSeq_eq, loadSnapshotBefore_congr hsnapshots,
    readRevision_congr hrows]

@[simp] lemma insertSnapshot_operations (db : Database) (snapshot : SnapshotRecord) :
    (db.insertSnapshot snapshot).1.operations = db.operations := by
  rw [insertSnapshot]
  split <;> rfl

@[simp] lemma insertSnapshot_documentSeq (db : Database) (snapshot : SnapshotRecord) :
    (db.insertSnapshot snapshot).1.documentSeq = db.documentSeq := by
  rw [insertSnapshot]
  split <;> rfl

lemma sameRevision_insertSnapshot_of_lt (h : x < snapshot.seq) :
    SameRevision db (db.insertSnapshot snapshot).1 x := by
  refine sameRevision_of_mem_iff (fun row _ => by rw [insertSnapshot_operations]) fun s hs => ?_
  cases hat : db.snapshotAt snapshot.seq with
  | some existing => rw [insertSnapshot_of_stored hat]
  | none =>
      rw [(insertSnapshot_of_new hat).1, List.mem_append, List.mem_singleton]
      refine ⟨fun hmem => hmem.resolve_right ?_, Or.inl⟩
      rintro rfl
      omega

/-- The INSERT of the compactor. -/
lemma sameRevision_insertSnapshot (hx : x ≤ db.documentSeq)
    (h : db.snapshotAt snapshot.seq = none →
      db.StandsFor (db.loadSnapshotBefore snapshot.seq) snapshot) :
    SameRevision db (db.insertSnapshot snapshot).1 x := by
  rcases Nat.lt_or_ge x snapshot.seq with hlt | hle
  · exact sameRevision_insertSnapshot_of_lt hlt
  cases hat : db.snapshotAt snapshot.seq with
  | some existing =>
      rw [insertSnapshot_of_stored hat]
      rfl
  | none =>
      have hstands := h hat
      have hmem : ∀ s, s ∈ (db.insertSnapshot snapshot).1.snapshots ↔
          s ∈ db.snapshots ∨ s = snapshot := by
        intro s
        rw [(insertSnapshot_of_new hat).1, List.mem_append, List.mem_singleton]
      have hrows : ∀ base, (db.insertSnapshot snapshot).1.readRevision base x =
          db.readRevision base x :=
        fun base => readRevision_congr fun row _ => by rw [insertSnapshot_operations]
      rw [SameRevision, reconstructAtSeq_eq, reconstructAtSeq_eq, hrows]
      by_cases hnewer : ∃ s ∈ db.snapshots, s.seq ≤ x ∧ snapshot.seq < s.seq
      · -- another snapshot is nearer
        obtain ⟨s, hs, hsx, hlt⟩ := hnewer
        cases hload : db.loadSnapshotBefore x with
        | none => exact absurd hsx (Nat.not_le_of_lt (loadSnapshotBefore_eq_none.mp hload s hs))
        | some t =>
            obtain ⟨ht, htx, hgreatest⟩ := loadSnapshotBefore_eq_some.mp hload
            have hload' : (db.insertSnapshot snapshot).1.loadSnapshotBefore x = some t := by
              refine loadSnapshotBefore_eq_some.mpr
                ⟨(hmem t).mpr (Or.inl ht), htx, fun u hu hux => ?_⟩
              rcases (hmem u).mp hu with hu | rfl
              · exact hgreatest u hu hux
              · exact hlt.le.trans (hgreatest s hs hsx)
            rw [hload']
      · -- the new snapshot is the nearest: the revision is read from it now, from its base before
        have hnext : ∀ s ∈ db.snapshots, s.seq ≤ x → s.seq ≤ snapshot.seq := fun s hs hsx =>
          Nat.le_of_not_lt fun hlt => hnewer ⟨s, hs, hsx, hlt⟩
        have hload' : (db.insertSnapshot snapshot).1.loadSnapshotBefore x = some snapshot := by
          refine loadSnapshotBefore_eq_some.mpr ⟨(hmem snapshot).mpr (Or.inr rfl), hle, ?_⟩
          intro u hu hux
          rcases (hmem u).mp hu with hu | rfl
          · exact hnext u hu hux
          · exact Nat.le_refl _
        have hload : db.loadSnapshotBefore x = db.loadSnapshotBefore snapshot.seq := by
          cases hbase : db.loadSnapshotBefore snapshot.seq with
          | none =>
              refine loadSnapshotBefore_eq_none.mpr fun s hs => ?_
              by_contra hsx
              have hlt := loadSnapshotBefore_eq_none.mp hbase s hs
              have hle' := hnext s hs (Nat.le_of_not_lt hsx)
              omega
          | some t =>
              obtain ⟨ht, hts, hgreatest⟩ := loadSnapshotBefore_eq_some.mp hbase
              exact loadSnapshotBefore_eq_some.mpr ⟨ht, hts.trans hle, fun s hs hsx =>
                hgreatest s hs (hnext s hs hsx)⟩
        rw [hload', hload]
        exact hstands.toText_eq (db.snapshotSeq_loadSnapshotBefore_le _) hle hx hnext

lemma lt_of_pruned {keep : Nat} {s t : SnapshotRecord}
    (hs : s ∈ (db.pruneSnapshots keep).snapshots) (ht : t ∈ db.snapshots)
    (hpruned : t ∉ (db.pruneSnapshots keep).snapshots) : t.seq < s.seq := by
  obtain ⟨-, hkept⟩ := List.mem_filter.mp hs
  have hsplit := List.take_append_drop keep db.latestSnapshots
  have hsorted := db.pairwise_latestSnapshots
  have htmem : t ∈ db.latestSnapshots := mem_latestSnapshots.mpr ht
  rw [← hsplit] at hsorted htmem
  rcases List.mem_append.mp htmem with htake | hdrop
  · exact absurd (List.mem_filter.mpr ⟨ht, by simpa using htake⟩) hpruned
  · exact (List.pairwise_append.mp hsorted).2.2 s (by simpa using hkept) t hdrop

lemma sameRevision_pruneSnapshots {keep : Nat} (hx : x ≤ db.documentSeq)
    (h : ∀ s ∈ db.snapshots, s ∉ (db.pruneSnapshots keep).snapshots → db.StandsFor none s) :
    SameRevision db (db.pruneSnapshots keep) x := by
  have hrows : ∀ base, (db.pruneSnapshots keep).readRevision base x = db.readRevision base x :=
    fun base => readRevision_congr fun _ _ => Iff.rfl
  rw [SameRevision, reconstructAtSeq_eq, reconstructAtSeq_eq, hrows]
  cases hload : db.loadSnapshotBefore x with
  | none =>
      have hload' : (db.pruneSnapshots keep).loadSnapshotBefore x = none :=
        loadSnapshotBefore_eq_none.mpr fun s hs =>
          loadSnapshotBefore_eq_none.mp hload s (db.pruneSnapshots_subset keep hs)
      rw [hload']
  | some t =>
      obtain ⟨ht, htx, hgreatest⟩ := loadSnapshotBefore_eq_some.mp hload
      by_cases hkept : t ∈ (db.pruneSnapshots keep).snapshots
      · have hload' : (db.pruneSnapshots keep).loadSnapshotBefore x = some t :=
          loadSnapshotBefore_eq_some.mpr ⟨hkept, htx, fun s hs hsx =>
            hgreatest s (db.pruneSnapshots_subset keep hs) hsx⟩
        rw [hload']
      · have hload' : (db.pruneSnapshots keep).loadSnapshotBefore x = none := by
          refine loadSnapshotBefore_eq_none.mpr fun s hs => ?_
          by_contra hsx
          have hlt := lt_of_pruned hs ht hkept
          have hle := hgreatest s (db.pruneSnapshots_subset keep hs) (Nat.le_of_not_lt hsx)
          omega
        rw [hload']
        exact ((h t ht hkept).toText_eq (Nat.zero_le _) htx hx hgreatest).symm

lemma sameRevision_appendOperation (hx : x ≤ db.documentSeq) (params : OperationEnvelope) :
    SameRevision db (db.appendOperation params).1 x := by
  refine sameRevision_of_mem_iff (fun row hrow => ?_) fun _ _ => Iff.rfl
  rw [appendOperation, List.mem_append, List.mem_singleton]
  refine ⟨fun hmem => hmem.resolve_right ?_, Or.inl⟩
  rintro rfl
  simp only at hrow
  omega

end Database

/-! ## Runs -/

/-- The statement of a job keeps the old revisions. -/
def Database.KeepsRevisions (db : Database) : JobStage → Prop
  | .saving _ snapshot =>
      db.snapshotAt snapshot.seq = none →
        db.StandsFor (db.loadSnapshotBefore snapshot.seq) snapshot
  | .pruning =>
      ∀ s ∈ db.snapshots, s ∉ (db.pruneSnapshots maxSnapshotsPerDoc).snapshots →
        db.StandsFor none s
  | _ => True

instance (db : Database) : DecidablePred db.KeepsRevisions
  | .saving _ snapshot =>
      inferInstanceAs (Decidable (db.snapshotAt snapshot.seq = none →
        db.StandsFor (db.loadSnapshotBefore snapshot.seq) snapshot))
  | .pruning =>
      inferInstanceAs (Decidable (∀ s ∈ db.snapshots,
        s ∉ (db.pruneSnapshots maxSnapshotsPerDoc).snapshots → db.StandsFor none s))
  | .awaitDocument _ | .awaitMaxSeq _ | .maxSeq _ _ | .conflict _ | .saved | .done => isTrue trivial

namespace HistoryPool

variable {W K R : Type*} [DecidableEq W] [DecidableEq K] [DecidableEq R]
variable {s s' : HistoryPool W K R} {a : HistoryAction W K R}

/-- Whatever the compactor stores or drops stands for the rows in front of it. -/
def KeepsRevisions (s : HistoryPool W K R) : HistoryAction W K R → Prop
  | .pool (.job i) => ∀ job ∈ s.pool.jobs[i]?, s.db.KeepsRevisions job.stage
  | _ => True

instance (s : HistoryPool W K R) : DecidablePred s.KeepsRevisions := fun a =>
  match a with
  | .pool (.job i) =>
      inferInstanceAs (Decidable (∀ job ∈ s.pool.jobs[i]?, s.db.KeepsRevisions job.stage))
  | .pool (.begin ..) | .pool (.advance _) | .pool (.refuse ..) | .pool (.throwAppend _)
  | .pool (.join _) | .pool (.load ..) | .pool (.evict _) | .pool (.deliver _)
  | .pool (.forceSnapshot _) | .pool (.skipJob _) | .restoreToRevision .. | .advanceRestore _
  | .advanceTransaction | .throwTransaction => isTrue trivial

/-- The open transaction has appended its row to the operations that everybody sees. -/
def Locked (s : HistoryPool W K R) : Prop :=
  ∀ tx ∈ s.transaction, tx.client.db.operations = s.db.operations ++ [tx.envelope] ∧
    tx.client.db.documentSeq = s.db.documentSeq + 1 ∧ tx.envelope.seq = s.db.documentSeq + 1

omit [DecidableEq W] [DecidableEq K] [DecidableEq R] in
lemma Writes.of_transaction {db : Database} (h : Writes s a db) {tx : RestoreTransaction R}
    (htx : s.transaction = some tx) (ha : a ≠ .advanceTransaction) :
    db.operations = s.db.operations ∧ db.documentSeq = s.db.documentSeq := by
  cases h with
  | nothing => exact ⟨rfl, rfl⟩
  | append params hfree => simp [hfree] at htx
  | saveSnapshot job n snapshot => simp
  | prune => exact ⟨rfl, rfl⟩
  | saveRestored => exact absurd rfl ha
  | commit => exact absurd rfl ha

omit [DecidableEq W] [DecidableEq K] [DecidableEq R] in
lemma locked_start (snapshotOpsThreshold : Nat) :
    (start snapshotOpsThreshold : HistoryPool W K R).Locked := by simp [Locked, start]

lemma Locked.step (h : s.Locked) (hstep : s.step a = some s') : s'.Locked := by
  cases a with
  | pool action =>
      have hwrites := step_writes hstep
      rw [HistoryPool.step] at hstep
      split at hstep
      · simp at hstep
      · obtain ⟨pool, -, rfl⟩ := Option.map_eq_some_iff.mp hstep
        intro tx htx
        -- the pool waits with its appends, so the tables the transaction read are still the same
        obtain ⟨hoperations, hseq⟩ := hwrites.of_transaction htx (by simp)
        rw [hoperations, hseq]
        exact h tx htx
  | restoreToRevision r params =>
      rw [HistoryPool.step] at hstep
      split at hstep
      · obtain rfl := Option.some.inj hstep
        exact h
      · simp at hstep
  | advanceRestore r =>
      obtain ⟨call, -, hstep⟩ := Option.bind_eq_some_iff.mp hstep
      rw [HistoryPool.advanceRestore] at hstep
      split at hstep
      · obtain rfl := Option.some.inj hstep
        exact h
      · obtain rfl := Option.some.inj hstep
        exact h
      · rw [beginTransaction] at hstep
        split at hstep
        · simp at hstep
        · obtain rfl := Option.some.inj hstep
          intro tx htx
          obtain rfl := Option.some.inj htx
          -- what BEGIN reads is what the tables hold
          exact ⟨rfl, rfl, rfl⟩
      · simp at hstep
      · simp at hstep
  | advanceTransaction =>
      obtain ⟨tx, htx, hstep⟩ := Option.bind_eq_some_iff.mp hstep
      have hlocked := h tx htx
      rw [HistoryPool.advanceTransaction] at hstep
      cases hawaits : tx.awaits with
      | append => simp [hawaits] at hstep
      | insertSnapshot =>
          simp only [hawaits] at hstep
          obtain rfl := Option.some.inj hstep
          intro tx' htx'
          obtain rfl := Option.some.inj htx'
          simpa [awaiting, withTables, OpenTransaction.insertSnapshot, db, tables] using hlocked
      | reloadSnapshot =>
          simp only [hawaits] at hstep
          split at hstep
          · split at hstep
            · obtain rfl := Option.some.inj hstep
              intro tx' htx'
              obtain rfl := Option.some.inj htx'
              exact hlocked
            · obtain rfl := Option.some.inj hstep
              simp [Locked, endTransaction]
          · obtain rfl := Option.some.inj hstep
            simp [Locked, endTransaction]
      | updateDocument =>
          simp only [hawaits] at hstep
          obtain rfl := Option.some.inj hstep
          intro tx' htx'
          obtain rfl := Option.some.inj htx'
          exact hlocked
      | insertAudit =>
          simp only [hawaits] at hstep
          obtain rfl := Option.some.inj hstep
          intro tx' htx'
          obtain rfl := Option.some.inj htx'
          exact hlocked
      | commit =>
          simp only [hawaits] at hstep
          obtain rfl := Option.some.inj hstep
          simp [Locked, endTransaction]
  | throwTransaction =>
      obtain ⟨tx, -, rfl⟩ := Option.map_eq_some_iff.mp hstep
      simp [Locked, endTransaction]

/-- **One step**: a seq that has been assigned keeps its row and its text. -/
lemma step_keeps (h : s.Locked) (ha : s.KeepsRevisions a) (hstep : s.step a = some s') {x : Nat}
    (hx : x ≤ s.db.documentSeq) : Database.SameRevision s.db s'.db x ∧ x ≤ s'.db.documentSeq ∧
      ∀ row, row.seq ≤ x → (row ∈ s'.db.operations ↔ row ∈ s.db.operations) := by
  have happended : ∀ (operations : List OperationEnvelope) (envelope row : OperationEnvelope),
      envelope.seq = s.db.documentSeq + 1 → row.seq ≤ x →
      (row ∈ operations ++ [envelope] ↔ row ∈ operations) := by
    intro operations envelope row henvelope hrow
    rw [List.mem_append, List.mem_singleton]
    refine ⟨fun hmem => hmem.resolve_right ?_, Or.inl⟩
    rintro rfl
    omega
  have hwrites := step_writes hstep
  generalize s'.db = db' at hwrites ⊢
  cases hwrites with
  | nothing => exact ⟨rfl, hx, fun _ _ => Iff.rfl⟩
  | append params hfree =>
      exact ⟨Database.sameRevision_appendOperation hx params, Nat.le_succ_of_le hx,
        fun row => happended _ _ row rfl⟩
  | saveSnapshot job n snapshot hjob hstage =>
      have hkeeps : s.db.KeepsRevisions (.saving n snapshot) := hstage ▸ ha job hjob
      refine ⟨Database.sameRevision_insertSnapshot hx hkeeps, ?_, fun row _ => ?_⟩
      · rwa [Database.insertSnapshot_documentSeq]
      · rw [Database.insertSnapshot_operations]
  | prune job hjob hstage =>
      have hkeeps : s.db.KeepsRevisions .pruning := hstage ▸ ha job hjob
      exact ⟨Database.sameRevision_pruneSnapshots hx hkeeps, hx, fun _ _ => Iff.rfl⟩
  | saveRestored tx htx =>
      obtain ⟨-, -, hseq⟩ := h tx htx
      refine ⟨Database.sameRevision_insertSnapshot_of_lt ?_, ?_, fun row _ => ?_⟩
      · simp only [hseq]
        omega
      · rwa [Database.insertSnapshot_documentSeq]
      · rw [Database.insertSnapshot_operations]
  | commit tx htx =>
      obtain ⟨hoperations, hdocumentSeq, hseq⟩ := h tx htx
      have hrows : ∀ row, row.seq ≤ x →
          (row ∈ (OpenTransaction.commit ⟨s.tables, tx.client⟩).db.operations ↔
            row ∈ s.db.operations) := by
        intro row hrow
        show row ∈ tx.client.db.operations ↔ _
        rw [hoperations]
        exact happended _ _ row hseq hrow
      refine ⟨Database.sameRevision_of_mem_iff hrows fun _ _ => Iff.rfl, ?_, hrows⟩
      show x ≤ tx.client.db.documentSeq
      omega

/-- A run of such steps. -/
lemma reach_keeps (h : s.Locked) (hreach : Reach step KeepsRevisions s s') {x : Nat}
    (hx : x ≤ s.db.documentSeq) : s'.Locked ∧ Database.SameRevision s.db s'.db x ∧
      x ≤ s'.db.documentSeq ∧
      ∀ row, row.seq ≤ x → (row ∈ s'.db.operations ↔ row ∈ s.db.operations) := by
  induction hreach with
  | refl => exact ⟨h, rfl, hx, fun _ _ => Iff.rfl⟩
  | tail a _ ha hstep ih =>
      obtain ⟨hlocked, hsame, hle, hrows⟩ := ih
      obtain ⟨hsame', hle', hrows'⟩ := step_keeps hlocked ha hstep hle
      exact ⟨hlocked.step hstep, hsame'.trans hsame, hle',
        fun row hrow => (hrows' row hrow).trans (hrows row hrow)⟩

/-- **History is immutable** as long as the compactor keeps the revisions.  Once a seq has been
assigned, and whatever happened before, the text that a call of `reconstructAtSeq` gets for it, from
a snapshot and from rows that it reads at any later moments, stays what it was. -/
theorem revision_immutable {snapshotOpsThreshold : Nat} {s₁ s₂ : HistoryPool W K R}
    (h : Reach step (fun _ _ => True) (start snapshotOpsThreshold) s)
    (h₁ : Reach step KeepsRevisions s s₁) (h₂ : Reach step KeepsRevisions s₁ s₂) {x : Nat}
    (hx : x ≤ s.db.documentSeq) :
    (s₂.db.readRevision (s₁.db.loadSnapshotBefore x) x).toText =
      (s.db.reconstructAtSeq x).1.toText := by
  have hlocked := h.invariant (locked_start _) fun _ _ _ h _ hstep => h.step hstep
  obtain ⟨hlocked₁, hsame, hx₁, -⟩ := reach_keeps hlocked h₁ hx
  obtain ⟨-, -, -, hrows⟩ := reach_keeps hlocked₁ h₂ hx₁
  rw [Database.readRevision_congr hrows, ← Database.reconstructAtSeq_eq]
  exact hsame

section Examples

/-- A worker stores one character; its compactor has read the seq. -/
def oneStored : HistoryPool Unit Bool Unit :=
  (runAllowed step (fun _ _ => True) (start 1)
    ((WorkerPool.beginAndLoad true () .siteA ++ List.replicate 5 (PoolAction.advance true) ++
      List.replicate 2 (PoolAction.job 0)).map .pool)).get (by decide)

/-- The compactor stores its snapshot. -/
def snapshotStored : HistoryPool Unit Bool Unit :=
  (runAllowed step KeepsRevisions oneStored
    ((List.replicate 2 (PoolAction.job 0)).map .pool)).get (by decide)

/-- The empty document is restored, and old snapshots are pruned. -/
def emptyRestored : HistoryPool Unit Bool Unit :=
  (runAllowed step KeepsRevisions snapshotStored
    ([.restoreToRevision () ⟨JSString.lit "d", 0, JSString.lit "u", JSString.lit "s",
        JSString.lit "n"⟩, .advanceRestore (), .advanceRestore ()] ++
      List.replicate 4 HistoryAction.advanceTransaction ++
      (List.replicate 2 (PoolAction.job 0)).map .pool)).get (by decide)

/-- The first revision, read across all of it. -/
theorem revision_immutable_restored :
    (emptyRestored.db.readRevision (snapshotStored.db.loadSnapshotBefore 1) 1).toText =
      (oneStored.db.reconstructAtSeq 1).1.toText :=
  revision_immutable (reach_get _) (reach_get _) (reach_get _) (by decide)

-- the restore has changed the latest revision
example : (emptyRestored.db.reconstructAtSeq 2).1.toText = [] := by decide

/-- Another session's character has been applied when the snapshot is made. -/
def snapshotAhead : HistoryPool Unit Bool Unit :=
  (runAllowed step (fun _ _ => True) oneStored
    ((PoolAction.begin false () Site.siteB.session Site.siteB.first ::
      List.replicate 3 (PoolAction.advance false) ++
      List.replicate 2 (PoolAction.job 0)).map .pool)).get (by decide)

/-- The first revision shows that character from then on. -/
theorem not_forall_revision_immutable :
    ¬ ∀ s s' : HistoryPool Unit Bool Unit, Reach step (fun _ _ => True) (start 1) s →
      Reach step (fun _ _ => True) s s' → ∀ x ≤ s.db.documentSeq,
        (s'.db.reconstructAtSeq x).1.toText = (s.db.reconstructAtSeq x).1.toText := by
  intro h
  have htext := h oneStored snapshotAhead (reach_get _) (reach_get _) 1 (by decide)
  exact absurd htext (by decide)

/-- A character, a rollback to the empty document, and newer snapshots. -/
private def rolledBack (newer : Nat) : Database :=
  (List.range (newer + 1)).foldl
    (fun db _ =>
      let (db, envelope) := db.appendOperation rollback
      (db.insertSnapshot ⟨envelope.seq, []⟩).1)
    oneStored.db
where
  rollback : OperationEnvelope := RestoreParams.rollback
    ⟨JSString.lit "d", 0, JSString.lit "u", JSString.lit "s", JSString.lit "n"⟩

-- the rollback exists in its snapshot only, and ten newer ones are enough to lose it
example :
    let db := rolledBack 10
    (db.reconstructAtSeq 2).1.toText = [] ∧
      ((db.pruneSnapshots maxSnapshotsPerDoc).reconstructAtSeq 2).1.toText ≠ [] := by decide

end Examples

end HistoryPool

end SyncEngine
