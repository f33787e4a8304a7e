import SyncEngine.Crdt.Cells

/-!
# `HistoryManager`

Undo and redo of a user's own operations (`crdt/history-manager.ts`).  Operations are recorded
into a batch, batches go to the undo stack, and `undo` returns inverse operations for the last
batch: a DELETE for every INSERT, and for every DELETE an INSERT of the same value behind the node
that precedes the deleted one.  The inverses are computed from the document as it is then
(`createInverseOps`), all at once, and applied by the caller, who puts a fresh UID into every
INSERT (`AppliedFresh`).

`LocalBatch` is what a batch is made of: operations generated on the visible nodes of the document
they were applied to.  `LocalBatch.before_eq` says how much of the document before the batch is
left in the one after it: dropping what the batch inserted and reviving what it deleted gives the
old document back.

The timer that closes a batch after a pause is the call of `commitBatch`; the head of a list
stands for the top of a stack.
-/

namespace SyncEngine

open ReplicatedList

/-! ## The model -/

/-- The stacks of batches, the newest first, and the batch that is being recorded. -/
structure HistoryManager where
  undoStack : List (List RGAOperation)
  redoStack : List (List RGAOperation)
  currentBatch : List RGAOperation
deriving DecidableEq, Repr

namespace RGADocument

/-- The node under `key`, with the UID of the node in front of it; the chain starts behind the
node `prev`. -/
def nodeBehind (key : JSString) (prev : UID) : List RGANode → Option (UID × RGANode)
  | [] => none
  | n :: rest => if uidKey n.uid = key then some (prev, n) else nodeBehind key n.uid rest

/-- What `getNode` is asked for: the UID of `node.prev`, if there is one, and `node.value`.  The
sentinel has no node in front of it and the value `null`. -/
def getNode (d : RGADocument) (uid : UID) : Option (Option UID × JsValue) :=
  if uidKey uid = uidKey rootUID then some (none, .object (JSString.lit "null"))
  else (nodeBehind (uidKey uid) rootUID d.nodes).map fun p => (some p.1, p.2.value)

end RGADocument

namespace HistoryManager

/-- `new HistoryManager(doc, localUserId)`. -/
def new : HistoryManager := ⟨[], [], []⟩

/-- An operation joins the batch; there is nothing to redo after that. -/
def recordLocalOperation (h : HistoryManager) (op : RGAOperation) : HistoryManager :=
  { h with currentBatch := h.currentBatch ++ [op], redoStack := [] }

/-- A batch that holds anything becomes the one to be undone. -/
def commitBatch (h : HistoryManager) : HistoryManager :=
  if 0 < h.currentBatch.length then
    { h with undoStack := h.currentBatch :: h.undoStack, currentBatch := [] }
  else h

/-- The inverse of one operation, in the document as it is now. -/
def inverse (doc : RGADocument) : RGAOperation → List RGAOperation
  | .insert op => [.delete ⟨op.uid⟩]
  | .delete op =>
      match doc.getNode op.uid with
      | some (after, value) => [.insert ⟨op.uid, after, value⟩]
      | none => []
  | .format _ => []
  | .rollback _ => []

/-- The inverses of a batch, from its last operation to its first. -/
def createInverseOps (doc : RGADocument) (ops : List RGAOperation) : List RGAOperation :=
  ops.reverse.flatMap (inverse doc)

/-- The inverse operations of the last batch, or `null`. -/
def undo (h : HistoryManager) (doc : RGADocument) : HistoryManager × Option (List RGAOperation) :=
  match h.commitBatch.undoStack with
  | [] => (h.commitBatch, none)
  | batch :: rest =>
      ({ h.commitBatch with undoStack := rest, redoStack := batch :: h.commitBatch.redoStack },
        some (createInverseOps doc batch))

/-- The last batch undone, to be generated anew. -/
def redo (h : HistoryManager) : HistoryManager × Option (List RGAOperation) :=
  match h.commitBatch.redoStack with
  | [] => (h.commitBatch, none)
  | batch :: rest =>
      ({ h.commitBatch with redoStack := rest, undoStack := batch :: h.commitBatch.undoStack },
        some batch)

/-- The operations of a batch, recorded one by one. -/
def recordLocalOperations (h : HistoryManager) (batch : List RGAOperation) : HistoryManager :=
  batch.foldl recordLocalOperation h

lemma currentBatch_recordLocalOperations (h : HistoryManager) (batch : List RGAOperation) :
    (h.recordLocalOperations batch).currentBatch = h.currentBatch ++ batch ∧
      (h.recordLocalOperations batch).undoStack = h.undoStack := by
  induction batch generalizing h with
  | nil => simp [recordLocalOperations]
  | cons op batch ih =>
      obtain ⟨hbatch, hstack⟩ := ih (h.recordLocalOperation op)
      exact ⟨hbatch.trans (by simp [recordLocalOperation]), hstack⟩

/-- **`undo` returns the inverse of the batch recorded last.** -/
theorem undo_recordLocalOperations {h : HistoryManager} (hempty : h.currentBatch = [])
    {batch : List RGAOperation} (hne : batch ≠ []) (doc : RGADocument) :
    ((h.recordLocalOperations batch).undo doc).2 = some (createInverseOps doc batch) := by
  obtain ⟨hbatch, -⟩ := h.currentBatch_recordLocalOperations batch
  rw [hempty, List.nil_append] at hbatch
  have hpos : 0 < (h.recordLocalOperations batch).currentBatch.length := by
    rw [hbatch]
    exact List.length_pos_of_ne_nil hne
  rw [undo, commitBatch, if_pos hpos, hbatch]

end HistoryManager

/-! ## What a batch does -/

/-- A batch of local operations: an INSERT brings a new node in behind a visible one or at the
beginning, a DELETE takes a visible node away. -/
inductive LocalBatch : RGADocument → List RGAOperation → RGADocument → Prop
  | nil (d : RGADocument) : LocalBatch d [] d
  | insert {d d' : RGADocument} {ops : List RGAOperation} (op : InsertOperation)
      (hroot : op.uid ≠ rootUID) (hnew : op.uid ∉ ids d.cells) (hafter : ∀ a ∈ op.after, d.Shows a)
      (h : LocalBatch (d.applyOperation (.insert op)).1 ops d') :
      LocalBatch d (.insert op :: ops) d'
  | delete {d d' : RGADocument} {ops : List RGAOperation} (op : DeleteOperation)
      (hshown : d.Shows op.uid) (h : LocalBatch (d.applyOperation (.delete op)).1 ops d') :
      LocalBatch d (.delete op :: ops) d'

/-- The caller applies the operations in order, with a fresh UID in every INSERT. -/
inductive AppliedFresh : RGADocument → List RGAOperation → RGADocument → Prop
  | nil (d : RGADocument) : AppliedFresh d [] d
  | insert {d d' : RGADocument} {ops : List RGAOperation} (op : InsertOperation) (uid : UID)
      (hroot : uid ≠ rootUID) (hfresh : ∀ u ∈ ids d.cells, u < uid)
      (h : AppliedFresh (d.applyOperation (.insert { op with uid := uid })).1 ops d') :
      AppliedFresh d (.insert op :: ops) d'
  | delete {d d' : RGADocument} {ops : List RGAOperation} (op : DeleteOperation)
      (h : AppliedFresh (d.applyOperation (.delete op)).1 ops d') :
      AppliedFresh d (.delete op :: ops) d'

/-- The UIDs a list of operations inserts. -/
def insertedUids (ops : List RGAOperation) : List UID := ops.filterMap RGAOperation.inserted

/-- The node an operation deletes. -/
def RGAOperation.deleted : RGAOperation → Option UID
  | .delete op => some op.uid
  | _ => none

/-- The UIDs a list of operations deletes. -/
def deletedUids (ops : List RGAOperation) : List UID := ops.filterMap RGAOperation.deleted

/-- The cell as it was before the deletions. -/
def revive (deleted : List UID) (c : Cell UID JsValue) : Cell UID JsValue :=
  if c.id ∈ deleted then { c with dead := false } else c

lemma revive_of_mem {deleted : List UID} {c : Cell UID JsValue} (h : c.id ∈ deleted) :
    revive deleted c = { c with dead := false } := if_pos h

lemma revive_of_notMem {deleted : List UID} {c : Cell UID JsValue} (h : c.id ∉ deleted) :
    revive deleted c = c := if_neg h

@[simp] lemma revive_id (deleted : List UID) (c : Cell UID JsValue) :
    (revive deleted c).id = c.id := by
  rw [revive]
  split <;> rfl

@[simp] lemma revive_value (deleted : List UID) (c : Cell UID JsValue) :
    (revive deleted c).value = c.value := by
  rw [revive]
  split <;> rfl

lemma revive_cons (u : UID) (deleted : List UID) (c : Cell UID JsValue) :
    revive (u :: deleted) c = revive [u] (revive deleted c) := by
  by_cases hu : c.id = u
  · have hcons : c.id ∈ u :: deleted := by simp [hu]
    have hsingle : (revive deleted c).id ∈ [u] := by simp [hu]
    rw [revive_of_mem hcons, revive_of_mem hsingle, revive_id, revive_value]
  · have hsingle : (revive deleted c).id ∉ [u] := by simp [hu]
    rw [revive_of_notMem hsingle]
    simp [revive, hu]

lemma revive_kill {d : RGADocument} (hd : d.Indexed) {u : UID} (hshown : d.Shows u) :
    (d.cells.map (Cell.kill u)).map (revive [u]) = d.cells := by
  obtain ⟨c, hc, rfl, hlive⟩ := hshown
  rw [List.map_map, List.map_congr_left (g := id), List.map_id]
  intro b hb
  by_cases hbc : b.id = c.id
  · obtain rfl : b = c := List.inj_on_of_nodup_map hd.nodup hb hc hbc
    cases b
    simp_all [revive, Cell.kill]
  · simp [revive, Cell.kill_of_ne hbc, hbc]

/-- A new node is placed behind its anchor. -/
lemma cells_applyOperation_new {d : RGADocument} (hd : d.Indexed) (op : InsertOperation)
    (hroot : op.uid ≠ rootUID) (hnew : op.uid ∉ ids d.cells) :
    (d.applyOperation (.insert op)).1.cells =
      place (anchor op.after) ⟨op.uid, op.value, false⟩ d.cells := by
  have hop : (RGAOperation.insert op).uid ≠ rootUID := hroot
  rw [RGADocument.cells_applyOperation hd.nodup hop rfl, InsertOperation.edit, Edit.step,
    if_neg hnew]

lemma cells_applyOperation_delete {d : RGADocument} (hd : d.Indexed) (op : DeleteOperation)
    (hroot : op.uid ≠ rootUID) :
    (d.applyOperation (.delete op)).1.cells = d.cells.map (Cell.kill op.uid) := by
  have hop : (RGAOperation.delete op).uid ≠ rootUID := hroot
  rw [RGADocument.cells_applyOperation hd.nodup hop rfl, Edit.step]

lemma RGADocument.Shows.ne_root {d : RGADocument} (hd : d.Indexed) {u : UID} (h : d.Shows u) :
    u ≠ rootUID := by
  obtain ⟨c, hc, rfl, -⟩ := h
  exact fun hr => hd.root_notMem (hr ▸ List.mem_map_of_mem hc)

lemma LocalBatch.indexed {d d' : RGADocument} {ops : List RGAOperation} (h : LocalBatch d ops d')
    (hd : d.Indexed) : d'.Indexed := by
  induction h with
  | nil => exact hd
  | insert op _ _ _ _ ih => exact ih (hd.applyOperation _)
  | delete op _ _ ih => exact ih (hd.applyOperation _)

/-- **The document before a batch**, in terms of the one after it: without what the batch inserted
and with what it deleted. -/
theorem LocalBatch.before_eq {d d' : RGADocument} {ops : List RGAOperation}
    (h : LocalBatch d ops d') (hd : d.Indexed) :
    d.cells =
      (d'.cells.filter fun c => c.id ∉ insertedUids ops).map (revive (deletedUids ops)) := by
  induction h with
  | nil d =>
      have hrevive : ∀ c ∈ d.cells, revive [] c = c := fun c _ => by simp [revive]
      simp [insertedUids, deletedUids, List.map_congr_left hrevive]
  | @insert d d' ops op hroot hnew hafter _ ih =>
      have ih' := ih (hd.applyOperation _)
      rw [cells_applyOperation_new hd op hroot hnew] at ih'
      have hself : d.cells.filter (fun c => c.id ≠ op.uid) = d.cells :=
        List.filter_eq_self.mpr fun c hc => decide_eq_true fun hcu =>
          hnew (hcu ▸ List.mem_map_of_mem hc)
      have hdropped := filter_place_of_neg (p := fun c : Cell UID JsValue => c.id ≠ op.uid)
        (x := ⟨op.uid, op.value, false⟩) (by simp) (anchor op.after) d.cells
      rw [hself] at hdropped
      rw [← hdropped, ih', List.filter_map, List.filter_filter]
      congr 1
      refine List.filter_congr fun c _ => ?_
      simp [insertedUids, RGAOperation.inserted, revive_id, not_or]
  | @delete d d' ops op hshown _ ih =>
      have ih' := ih (hd.applyOperation _)
      rw [cells_applyOperation_delete hd op (hshown.ne_root hd)] at ih'
      rw [← revive_kill hd hshown, ih', List.map_map]
      refine List.map_congr_left fun c _ => ?_
      simp only [Function.comp_apply]
      exact (revive_cons op.uid _ c).symm

/-! ## What a batch leaves behind -/

lemma LocalBatch.kept {d d' : RGADocument} {ops : List RGAOperation} (h : LocalBatch d ops d')
    (hd : d.Indexed) {c : Cell UID JsValue} (hc : c ∈ d.cells) :
    ∃ c' ∈ d'.cells, c'.id ∉ insertedUids ops ∧ revive (deletedUids ops) c' = c := by
  rw [h.before_eq hd] at hc
  obtain ⟨c', hc', hrevive⟩ := List.mem_map.mp hc
  obtain ⟨hmem, hnew⟩ := List.mem_filter.mp hc'
  exact ⟨c', hmem, by simpa using hnew, hrevive⟩

lemma LocalBatch.dead_notMem {d d' : RGADocument} {ops : List RGAOperation}
    (h : LocalBatch d ops d') (hd : d.Indexed) {c : Cell UID JsValue} (hc : c ∈ d.cells)
    (hdead : c.dead = true) : c.id ∉ deletedUids ops := by
  obtain ⟨c', -, -, rfl⟩ := h.kept hd hc
  intro hmem
  rw [revive_id] at hmem
  rw [revive_of_mem hmem] at hdead
  exact Bool.noConfusion hdead

lemma mem_cells_killed {d : RGADocument} (hd : d.Indexed) {op : DeleteOperation}
    (hshown : d.Shows op.uid) :
    ∃ c ∈ (d.applyOperation (.delete op)).1.cells, c.id = op.uid ∧ c.dead = true := by
  have hroot := hshown.ne_root hd
  obtain ⟨c, hc, hid, -⟩ := hshown
  refine ⟨c.kill op.uid, ?_, hid, by simp [hid]⟩
  rw [cells_applyOperation_delete hd op hroot]
  exact List.mem_map_of_mem hc

lemma LocalBatch.deleted_nodup {d d' : RGADocument} {ops : List RGAOperation}
    (h : LocalBatch d ops d') (hd : d.Indexed) : (deletedUids ops).Nodup := by
  induction h with
  | nil => exact List.nodup_nil
  | insert op _ _ _ _ ih => exact ih (hd.applyOperation _)
  | delete op hshown hrest ih =>
      obtain ⟨c, hc, hid, hdead⟩ := mem_cells_killed hd hshown
      exact List.nodup_cons.mpr
        ⟨hid ▸ hrest.dead_notMem (hd.applyOperation _) hc hdead, ih (hd.applyOperation _)⟩

lemma LocalBatch.deleted_dead {d d' : RGADocument} {ops : List RGAOperation}
    (h : LocalBatch d ops d') (hd : d.Indexed) :
    ∀ u ∈ deletedUids ops, ∃ c ∈ d'.cells, c.id = u ∧ c.dead = true := by
  induction h with
  | nil => simp [deletedUids]
  | insert op _ _ _ _ ih => exact ih (hd.applyOperation _)
  | @delete d d' ops op hshown hrest ih =>
      have hd₁ := hd.applyOperation (.delete op)
      intro u hu
      rcases List.mem_cons.mp hu with rfl | hu
      · obtain ⟨c, hc, hid, hdead⟩ := mem_cells_killed hd hshown
        have hnot := hrest.dead_notMem hd₁ hc hdead
        obtain ⟨c', hc', -, rfl⟩ := hrest.kept hd₁ hc
        rw [revive_id] at hid hnot
        rw [revive_of_notMem hnot] at hdead
        exact ⟨c', hc', hid, hdead⟩
      · exact ih hd₁ u hu

lemma LocalBatch.inserted_mem {d d' : RGADocument} {ops : List RGAOperation}
    (h : LocalBatch d ops d') (hd : d.Indexed) {i : InsertOperation} (hi : .insert i ∈ ops) :
    ∃ c ∈ d'.cells, c.id = i.uid ∧ c.value = i.value := by
  induction h with
  | nil => simp at hi
  | @insert d d' ops op hroot hnew hafter hrest ih =>
      have hd₁ := hd.applyOperation (.insert op)
      rcases List.mem_cons.mp hi with heq | hi
      · obtain rfl := RGAOperation.insert.inj heq
        have hanchor : ∀ a, anchor i.after = some a → a ∈ ids d.cells := fun a ha => by
          obtain ⟨c, hc, rfl, -⟩ := hafter a (anchor_eq_some.mp ha).1
          exact List.mem_map_of_mem hc
        have hmem : (⟨i.uid, i.value, false⟩ : Cell UID JsValue) ∈
            (d.applyOperation (.insert i)).1.cells := by
          rw [cells_applyOperation_new hd i hroot hnew]
          exact (place_perm hanchor _).mem_iff.mpr (List.mem_cons_self ..)
        obtain ⟨c', hc', -, hrevive⟩ := hrest.kept hd₁ hmem
        refine ⟨c', hc', ?_, ?_⟩
        · rw [← revive_id (deletedUids ops) c', hrevive]
        · rw [← revive_value (deletedUids ops) c', hrevive]
      · exact ih hd₁ hi
  | delete op _ _ ih =>
      rcases List.mem_cons.mp hi with heq | hi
      · exact RGAOperation.noConfusion heq
      · exact ih (hd.applyOperation _) hi

end SyncEngine
