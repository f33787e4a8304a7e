import SyncEngine.Crdt.RgaDocument

/-!
# `RGADocument` refines the replicated list

The abstract view of a document is the list of its `cells`: UID, value and tombstone flag of
every node, in document order.  An INSERT or DELETE is an edit of that list
(`RGAOperation.edit?`), and `applyOperation` computes the effect of the edit
(`cells_applyOperation`) and reports whether it could be applied (`applyOperation_insert_snd`,
`applyOperation_delete_snd`).  Everything the program's correctness rests on is then a fact
about the replicated list.

`Indexed` is the representation invariant: no UID occurs twice, and the sentinel's does not occur
at all.  In a `WellFormed` document the counters count as well; one on which nothing was
formatted is determined by its cells (`ext_of_cells`).
-/

namespace SyncEngine

open ReplicatedList CausalReplay

/-! ## Operations as edits -/

namespace RGAOperation

/-- The UID an operation inserts or names. -/
def uid : RGAOperation → UID
  | .insert op => op.uid
  | .delete op => op.uid
  | .format op => op.uid
  | .rollback op => op.uid

/-- The node an operation relies on: the anchor of an INSERT, the target of a DELETE or FORMAT. -/
def prerequisite : RGAOperation → Option UID
  | .insert op => op.after
  | .delete op => some op.uid
  | .format op => some op.uid
  | .rollback _ => none

/-- The node an operation brings in. -/
def inserted : RGAOperation → Option UID
  | .insert op => some op.uid
  | _ => none

/-- The node an operation builds on, if any. -/
def needs (op : RGAOperation) : Set UID := {d | op.prerequisite = some d}

/-- The node an operation brings in, if any. -/
def gives (op : RGAOperation) : Set UID := {d | op.inserted = some d}

lemma uid_of_inserted {op : RGAOperation} {u : UID} (h : op.inserted = some u) : op.uid = u := by
  cases op with
  | insert op => exact Option.some.inj h
  | _ => simp [inserted] at h

end RGAOperation

/-- An INSERT with a non-null anchor first occurs after the INSERT of the anchor, a DELETE (or
FORMAT) first occurs after the INSERT of its target. -/
def CausallyValid (ops : List RGAOperation) : Prop :=
  Causal RGAOperation.needs RGAOperation.gives ops

instance (op : RGAOperation) (ops : List RGAOperation) :
    Decidable (∀ d ∈ op.needs, ∃ p ∈ ops, d ∈ p.gives) :=
  decidable_of_iff (∀ d ∈ op.prerequisite, ∃ p ∈ ops, p.inserted = some d) Iff.rfl

instance : DecidablePred CausallyValid := fun ops =>
  inferInstanceAs (Decidable (Causal RGAOperation.needs RGAOperation.gives ops))

/-- The edit an INSERT stands for. -/
def InsertOperation.edit (op : InsertOperation) : Edit UID JsValue :=
  .insert op.uid (anchor op.after) op.value

/-- The edit of the replicated list an operation stands for. -/
def RGAOperation.edit? : RGAOperation → Option (Edit UID JsValue)
  | .insert op => some op.edit
  | .delete op => some (.delete op.uid)
  | _ => none

/-- The edits of a sequence of operations. -/
def edits (ops : List RGAOperation) : List (Edit UID JsValue) := ops.filterMap RGAOperation.edit?

lemma mem_edits {ops : List RGAOperation} {e : Edit UID JsValue} :
    e ∈ edits ops ↔ ∃ op ∈ ops, op.edit? = some e := List.mem_filterMap

lemma edits_append (ops ops' : List RGAOperation) :
    edits (ops ++ ops') = edits ops ++ edits ops' := List.filterMap_append ..

/-- The edits of the operations on nodes; those on the sentinel change no cell. -/
def nodeEdits (ops : List RGAOperation) : List (Edit UID JsValue) :=
  edits (ops.filter fun op => op.uid ≠ rootUID)

lemma nodeEdits_append (ops ops' : List RGAOperation) :
    nodeEdits (ops ++ ops') = nodeEdits ops ++ nodeEdits ops' := by
  rw [nodeEdits, List.filter_append, edits_append]
  rfl

lemma RGAOperation.gives_of_edit {op : RGAOperation} {e : Edit UID JsValue}
    (h : op.edit? = some e) : e.gives = op.gives := by
  cases op with
  | insert op =>
      obtain rfl : op.edit = e := by simpa [edit?] using h
      ext d
      simp [gives, inserted, InsertOperation.edit, eq_comm]
  | delete op =>
      obtain rfl : Edit.delete op.uid = e := by simpa [edit?] using h
      ext d
      simp [gives, inserted]
  | format op => simp [edit?] at h
  | rollback op => simp [edit?] at h

/-- An operation that does not name the sentinel inserts no second one. -/
lemma root_notMem_step {cells : List (Cell UID JsValue)} {op : RGAOperation}
    {e : Edit UID JsValue} (he : op.edit? = some e) (hop : op.uid ≠ rootUID)
    (hroot : rootUID ∉ ids cells) : rootUID ∉ ids (e.step cells) := by
  intro hmem
  rcases mem_ids_step hmem with hold | hnew
  · exact hroot hold
  · rw [RGAOperation.gives_of_edit he] at hnew
    exact hop (RGAOperation.uid_of_inserted hnew)

lemma RGAOperation.needs_of_edit {op : RGAOperation} {e : Edit UID JsValue}
    (h : op.edit? = some e) : e.needs ⊆ op.needs := by
  cases op with
  | insert op =>
      obtain rfl : op.edit = e := by simpa [edit?] using h
      exact fun d hd => (anchor_eq_some.mp hd).1
  | delete op =>
      obtain rfl : Edit.delete op.uid = e := by simpa [edit?] using h
      exact fun d hd => congrArg some (Eq.symm hd)
  | format op => simp [edit?] at h
  | rollback op => simp [edit?] at h

lemma exists_edit {op : RGAOperation} (h : op.IsEdit) : ∃ e, op.edit? = some e := by
  cases op with
  | insert op => exact ⟨op.edit, rfl⟩
  | delete op => exact ⟨.delete op.uid, rfl⟩
  | format _ => exact absurd h id
  | rollback _ => exact absurd h id

lemma CausallyValid.edits {ops : List RGAOperation} (h : CausallyValid ops)
    (hedit : ∀ op ∈ ops, op.IsEdit) : Causal Edit.needs Edit.gives (edits ops) := by
  induction ops using List.reverseRecOn with
  | nil => exact causal_nil
  | append_singleton ops op ih =>
      obtain ⟨hops, hnew⟩ := causal_concat.mp h
      obtain ⟨e, he⟩ := exists_edit (hedit op (by simp))
      have ih' := ih hops fun p hp => hedit p (by simp [hp])
      have hsingle : SyncEngine.edits [op] = [e] := by simp [SyncEngine.edits, he]
      rw [edits_append, hsingle]
      refine causal_concat.mpr ⟨ih', ?_⟩
      rcases hnew with hmem | hgiven
      · exact Or.inl (mem_edits.mpr ⟨op, hmem, he⟩)
      · refine Or.inr fun d hd => ?_
        obtain ⟨p, hp, hgives⟩ := hgiven d (op.needs_of_edit he hd)
        obtain ⟨e', he'⟩ := exists_edit (hedit p (by simp [hp]))
        exact ⟨e', mem_edits.mpr ⟨p, hp, he'⟩, (RGAOperation.gives_of_edit he').symm ▸ hgives⟩

lemma exists_edits_gives {ops : List RGAOperation} (hedit : ∀ op ∈ ops, op.IsEdit) {u : UID} :
    (∃ e ∈ edits ops, u ∈ e.gives) ↔ ∃ op ∈ ops, u ∈ op.gives := by
  constructor
  · rintro ⟨e, he, hu⟩
    obtain ⟨op, hop, hope⟩ := mem_edits.mp he
    exact ⟨op, hop, RGAOperation.gives_of_edit hope ▸ hu⟩
  · rintro ⟨op, hop, hu⟩
    obtain ⟨e, he⟩ := exists_edit (hedit op hop)
    exact ⟨e, mem_edits.mpr ⟨op, hop, he⟩, (RGAOperation.gives_of_edit he).symm ▸ hu⟩

/-! ## Documents as lists of cells -/

/-- A node without its attributes. -/
def RGANode.cell (n : RGANode) : Cell UID JsValue := ⟨n.uid, n.value, n.tombstoned⟩

lemma cell_id (n : RGANode) : n.cell.id = n.uid := rfl

/-- A serialized node without its attributes. -/
def SerializedRGANode.cell (n : SerializedRGANode) : Cell UID JsValue :=
  ⟨⟨n.clock, n.siteId⟩, n.value, n.tombstoned⟩

namespace RGADocument

/-- The abstract view of a document. -/
def cells (d : RGADocument) : List (Cell UID JsValue) := d.nodes.map RGANode.cell

@[simp] lemma cells_empty : empty.cells = [] := rfl

/-- The document shows a node under the UID. -/
def Shows (d : RGADocument) (u : UID) : Prop := ∃ c ∈ d.cells, c.id = u ∧ c.dead = false

instance (d : RGADocument) (u : UID) : Decidable (d.Shows u) :=
  inferInstanceAs (Decidable (∃ c ∈ d.cells, _))

lemma ids_cells (d : RGADocument) : ids d.cells = d.nodes.map RGANode.uid := by
  simp [ids, cells, RGANode.cell]

/-- A serialized document is read back with the same cells. -/
lemma cells_deserialize (nodes : List SerializedRGANode) :
    (deserialize nodes).cells = nodes.map SerializedRGANode.cell := by
  simp only [cells, deserialize, List.map_map]
  rfl

lemma cells_serialize (d : RGADocument) : d.serialize.map SerializedRGANode.cell = d.cells := by
  simp only [cells, serialize, List.map_map]
  rfl

lemma indexGet_eq_none {d : RGADocument} {u : UID} :
    d.indexGet (uidKey u) = none ↔ u ∉ ids d.cells := by
  rw [ids_cells]
  exact Chain.indexGet_eq_none

lemma indexHas_iff {d : RGADocument} {u : UID} :
    d.indexHas (uidKey u) = true ↔ u = rootUID ∨ u ∈ ids d.cells := by
  rw [ids_cells]
  exact Chain.indexHas_iff

lemma indexHas_afterKey_iff {d : RGADocument} {after : Option UID} :
    d.indexHas (afterKey after) = true ↔ ∀ a, anchor after = some a → a ∈ ids d.cells := by
  rw [ids_cells]
  exact Chain.indexHas_afterKey_iff

/-! ## One operation -/

/-- What an INSERT does: nothing when its UID is known, a splice when its anchor is there, and
nothing but a failure otherwise. -/
lemma applyOperation_insert_cases (d : RGADocument) {op : InsertOperation}
    (hroot : op.uid ≠ rootUID) :
    (op.uid ∈ ids d.cells ∧ d.applyOperation (.insert op) = (d, true)) ∨
    (op.uid ∉ ids d.cells ∧ (∀ a, anchor op.after = some a → a ∈ ids d.cells) ∧
      ∃ nodes, d.applyOperation (.insert op) =
          ({ d with nodes := nodes, length := d.length + 1, nodeCount := d.nodeCount + 1 }, true) ∧
        nodes.Perm (⟨op.uid, op.value, [], false⟩ :: d.nodes) ∧
        nodes.map RGANode.cell = place (anchor op.after) ⟨op.uid, op.value, false⟩ d.cells) ∨
    (op.uid ∉ ids d.cells ∧ (∃ a, anchor op.after = some a ∧ a ∉ ids d.cells) ∧
      d.applyOperation (.insert op) = (d, false)) := by
  by_cases hknown : op.uid ∈ ids d.cells
  · have hhas : d.indexHas (uidKey op.uid) = true := indexHas_iff.mpr (Or.inr hknown)
    exact Or.inl ⟨hknown, by simp [applyOperation, applyInsert, hhas]⟩
  · have hhas : d.indexHas (uidKey op.uid) = false := by
      rw [Bool.eq_false_iff, ne_eq, indexHas_iff]
      exact fun h => h.elim hroot hknown
    by_cases hafter : ∀ a, anchor op.after = some a → a ∈ ids d.cells
    · refine Or.inr (Or.inl ⟨hknown, hafter, _, ?_, Chain.splice_perm (ids_cells d ▸ hafter) _,
        Chain.map_cell_splice cell_id op.after ⟨op.uid, op.value, [], false⟩ d.nodes⟩)
      simp [applyOperation, applyInsert, hhas, indexHas_afterKey_iff.mpr hafter]
    · have hgap : d.indexHas (afterKey op.after) = false := by
        rw [Bool.eq_false_iff]
        exact mt indexHas_afterKey_iff.mp hafter
      refine Or.inr (Or.inr ⟨hknown, by simpa using hafter, ?_⟩)
      simp [applyOperation, applyInsert, hhas, hgap]

lemma cells_updateNode_tombstone (d : RGADocument) (u : UID) :
    (d.updateNode (uidKey u) fun n => { n with tombstoned := true }).cells =
      d.cells.map (Cell.kill u) :=
  Chain.map_cell_tombstone cell_id (fun _ => rfl) u d.nodes

/-- What a DELETE does: a failure without the node, nothing on a tombstone, and otherwise a
tombstone more. -/
lemma applyOperation_delete_cases (d : RGADocument) {op : DeleteOperation}
    (hroot : op.uid ≠ rootUID) :
    (op.uid ∉ ids d.cells ∧ d.applyOperation (.delete op) = (d, false)) ∨
    ∃ n ∈ d.nodes, n.uid = op.uid ∧
      ((n.tombstoned = true ∧ d.applyOperation (.delete op) = (d, true)) ∨
        (n.tombstoned = false ∧ d.applyOperation (.delete op) =
          ({ d.updateNode (uidKey op.uid) (fun n => { n with tombstoned := true }) with
              length := d.length - 1 }, true))) := by
  have hkey : ¬ uidKey op.uid = uidKey rootUID := by simpa using hroot
  cases hget : d.indexGet (uidKey op.uid) with
  | none =>
      refine Or.inl ⟨indexGet_eq_none.mp hget, ?_⟩
      simp [applyOperation, applyDelete, hroot, hget]
  | some n =>
      obtain ⟨hmem, hn⟩ := Chain.indexGet_some hget
      refine Or.inr ⟨n, hmem, hn, ?_⟩
      cases htomb : n.tombstoned
      · exact Or.inr ⟨rfl, by simp [applyOperation, applyDelete, hroot, hget, htomb]⟩
      · exact Or.inl ⟨rfl, by simp [applyOperation, applyDelete, hroot, hget, htomb]⟩

/-- An operation that could not be applied leaves the document as it was. -/
lemma applyOperation_of_false {d : RGADocument} {op : RGAOperation}
    (h : (d.applyOperation op).2 = false) : (d.applyOperation op).1 = d := by
  cases op with
  | insert op =>
      simp only [applyOperation] at h ⊢
      split at h
      · exact absurd h (by simp)
      · rfl
  | delete op =>
      simp only [applyOperation, applyDelete] at h ⊢
      split_ifs at h ⊢
      split at h
      · rfl
      · split_ifs at h
  | format op =>
      simp only [applyOperation, applyFormat] at h ⊢
      split_ifs at h ⊢
      split at h
      · rfl
      · exact absurd h (by simp)
  | rollback op => rfl

/-- **`applyOperation` computes the edit**, on INSERT and DELETE operations. -/
theorem cells_applyOperation {d : RGADocument} (hnd : (ids d.cells).Nodup) {op : RGAOperation}
    (hroot : op.uid ≠ rootUID) {e : Edit UID JsValue} (he : op.edit? = some e) :
    (d.applyOperation op).1.cells = e.step d.cells := by
  cases op with
  | insert op =>
      obtain rfl : op.edit = e := by simpa [RGAOperation.edit?] using he
      rw [InsertOperation.edit, Edit.step]
      rcases applyOperation_insert_cases d hroot with
        ⟨hknown, heq⟩ | ⟨hnew, -, nodes, heq, -, hcells⟩ | ⟨hnew, ⟨a, ha, hgap⟩, heq⟩
      · rw [if_pos hknown, heq]
      · rw [if_neg hnew, heq]
        exact hcells
      · rw [if_neg hnew, heq, ha]
        exact (SkipInsert.insertAfter_of_notMem hgap _).symm
  | delete op =>
      obtain rfl : Edit.delete op.uid = e := by simpa [RGAOperation.edit?] using he
      rcases applyOperation_delete_cases d hroot with
        ⟨hmissing, heq⟩ | ⟨n, hn, hnu, ⟨htomb, heq⟩ | ⟨-, heq⟩⟩
      · rw [heq, Edit.step]
        have hkill : ∀ c ∈ d.cells, c.kill op.uid = c := fun c hc =>
          Cell.kill_of_ne fun h => hmissing (h ▸ List.mem_map_of_mem hc)
        rw [List.map_congr_left hkill, List.map_id']
      · rw [heq, ← hnu]
        exact (step_of_settled (settled_delete_of_dead hnd (List.mem_map_of_mem hn) htomb)).symm
      · rw [heq, Edit.step]
        exact cells_updateNode_tombstone d op.uid
  | format op => simp [RGAOperation.edit?] at he
  | rollback op => simp [RGAOperation.edit?] at he

/-- An INSERT succeeds when its UID is known or its anchor is there. -/
theorem applyOperation_insert_snd {d : RGADocument} {op : InsertOperation}
    (hroot : op.uid ≠ rootUID) :
    (d.applyOperation (.insert op)).2 = true ↔
      op.uid ∈ ids d.cells ∨ ∀ a, anchor op.after = some a → a ∈ ids d.cells := by
  rcases applyOperation_insert_cases d hroot with
    ⟨hknown, heq⟩ | ⟨-, hafter, nodes, heq, -⟩ | ⟨hnew, ⟨a, ha, hgap⟩, heq⟩
  · simp [heq, hknown]
  · simp only [heq, true_iff]
    exact Or.inr hafter
  · simp only [heq, Bool.false_eq_true, false_iff, not_or]
    exact ⟨hnew, fun h => hgap (h a ha)⟩

/-- A DELETE succeeds when its target is there. -/
theorem applyOperation_delete_snd {d : RGADocument} {op : DeleteOperation}
    (hroot : op.uid ≠ rootUID) :
    (d.applyOperation (.delete op)).2 = true ↔ op.uid ∈ ids d.cells := by
  rcases applyOperation_delete_cases d hroot with
    ⟨hmissing, heq⟩ | ⟨n, hn, hnu, ⟨-, heq⟩ | ⟨-, heq⟩⟩
  · simp [heq, hmissing]
  all_goals
    simp only [heq, true_iff, ids_cells]
    exact hnu ▸ List.mem_map_of_mem hn

lemma cells_updateNode_format (d : RGADocument) (key : JSString) (a : Attributes) :
    (d.updateNode key fun n => { n with attributes := n.attributes.spread a }).cells =
      d.cells := by
  simp only [cells, updateNode, Chain.updateNode, List.map_map]
  refine List.map_congr_left fun n _ => ?_
  by_cases h : uidKey n.uid = key <;> simp [RGANode.cell, h]

/-- FORMAT is invisible to the abstract view and to the counters. -/
lemma applyOperation_format_cases (d : RGADocument) (op : FormatOperation) :
    (d.applyOperation (.format op)).1.cells = d.cells ∧
      (d.applyOperation (.format op)).1.length = d.length ∧
      (d.applyOperation (.format op)).1.nodeCount = d.nodeCount := by
  simp only [applyOperation, applyFormat]
  split
  · exact ⟨rfl, rfl, rfl⟩
  · split
    · exact ⟨rfl, rfl, rfl⟩
    · exact ⟨cells_updateNode_format d _ _, rfl, rfl⟩

/-- Operations on the sentinel change no node. -/
lemma cells_applyOperation_root (d : RGADocument) {op : RGAOperation} (hroot : op.uid = rootUID) :
    (d.applyOperation op).1.cells = d.cells := by
  cases op with
  | insert op =>
      have hhas : d.indexHas (uidKey op.uid) = true := indexHas_iff.mpr (Or.inl hroot)
      simp [applyOperation, applyInsert, hhas]
  | delete op =>
      have hkey : op.uid = rootUID := hroot
      simp only [applyOperation, applyDelete, hkey, if_true]
      split <;> rfl
  | format op => exact (applyOperation_format_cases d op).1
  | rollback op => rfl

/-! ## The representation invariant -/

/-- Every node has its own key in the index, and none has the sentinel's. -/
structure Indexed (d : RGADocument) : Prop where
  nodup : (ids d.cells).Nodup
  root_notMem : rootUID ∉ ids d.cells

lemma indexed_empty : Indexed empty := ⟨by simp, by simp⟩

lemma Indexed.of_cells_eq {d d' : RGADocument} (h : Indexed d) (hcells : d'.cells = d.cells) :
    Indexed d' := ⟨hcells ▸ h.nodup, hcells ▸ h.root_notMem⟩

/-- Every operation keeps the index. -/
theorem Indexed.applyOperation {d : RGADocument} (h : Indexed d) (op : RGAOperation) :
    Indexed (d.applyOperation op).1 := by
  by_cases hroot : op.uid = rootUID
  · exact ⟨d.cells_applyOperation_root hroot ▸ h.nodup,
      d.cells_applyOperation_root hroot ▸ h.root_notMem⟩
  cases he : op.edit? with
  | some e =>
      have hcells := cells_applyOperation h.nodup hroot he
      exact ⟨hcells ▸ nodup_ids_step h.nodup e, hcells ▸ root_notMem_step he hroot h.root_notMem⟩
  | none =>
      cases op with
      | insert i => simp [RGAOperation.edit?] at he
      | delete del => simp [RGAOperation.edit?] at he
      | format f =>
          have hcells := (applyOperation_format_cases d f).1
          exact ⟨hcells ▸ h.nodup, hcells ▸ h.root_notMem⟩
      | rollback r => exact h

theorem Indexed.applyOperations {d : RGADocument} (h : Indexed d) (ops : List RGAOperation) :
    Indexed (d.applyOperations ops) :=
  List.foldlRecOn ops _ h fun _ hd op _ => hd.applyOperation op

/-- The counters count as well. -/
structure WellFormed (d : RGADocument) : Prop extends Indexed d where
  length_eq : d.length = d.cells.countP fun c => !c.dead
  nodeCount_eq : d.nodeCount = d.cells.length

lemma wellFormed_empty : WellFormed empty := ⟨indexed_empty, rfl, rfl⟩

lemma WellFormed.length_applyOperation {d : RGADocument} (h : WellFormed d) {op : RGAOperation}
    (hroot : op.uid ≠ rootUID) :
    (d.applyOperation op).1.length =
      (d.applyOperation op).1.cells.countP fun c => !c.dead := by
  cases op with
  | insert op =>
      rcases applyOperation_insert_cases d hroot with
        ⟨-, heq⟩ | ⟨-, -, nodes, heq, hperm, -⟩ | ⟨-, -, heq⟩
      · rw [heq, h.length_eq]
      · have hcells : (nodes.map RGANode.cell).Perm (⟨op.uid, op.value, false⟩ :: d.cells) :=
          hperm.map RGANode.cell
        rw [heq, cells, hcells.countP_eq, List.countP_cons, h.length_eq]
        simp
      · rw [heq, h.length_eq]
  | delete op =>
      rcases applyOperation_delete_cases d hroot with
        ⟨-, heq⟩ | ⟨n, hn, hnu, ⟨-, heq⟩ | ⟨hlive, heq⟩⟩
      · rw [heq, h.length_eq]
      · rw [heq, h.length_eq]
      · have hcount := countP_live_kill h.nodup (List.mem_map_of_mem hn) hlive
        rw [show n.cell.id = op.uid from hnu] at hcount
        rw [heq]
        show d.length - 1 = ((d.updateNode (uidKey op.uid) _).cells.countP _ : ℕ)
        rw [cells_updateNode_tombstone d op.uid, h.length_eq]
        omega
  | format op =>
      obtain ⟨hcells, hlen, -⟩ := applyOperation_format_cases d op
      rw [hcells, hlen, h.length_eq]
  | rollback op => exact h.length_eq

lemma WellFormed.nodeCount_applyOperation {d : RGADocument} (h : WellFormed d) {op : RGAOperation}
    (hroot : op.uid ≠ rootUID) :
    (d.applyOperation op).1.nodeCount = (d.applyOperation op).1.cells.length := by
  cases op with
  | insert op =>
      rcases applyOperation_insert_cases d hroot with
        ⟨-, heq⟩ | ⟨-, -, nodes, heq, hperm, -⟩ | ⟨-, -, heq⟩
      · rw [heq, h.nodeCount_eq]
      · have hcells : (nodes.map RGANode.cell).Perm (⟨op.uid, op.value, false⟩ :: d.cells) :=
          hperm.map RGANode.cell
        rw [heq, cells, hcells.length_eq, List.length_cons, h.nodeCount_eq]
        simp
      · rw [heq, h.nodeCount_eq]
  | delete op =>
      rcases applyOperation_delete_cases d hroot with ⟨-, heq⟩ | ⟨n, -, -, ⟨-, heq⟩ | ⟨-, heq⟩⟩
      · rw [heq, h.nodeCount_eq]
      · rw [heq, h.nodeCount_eq]
      · rw [heq]
        show d.nodeCount = ((d.updateNode (uidKey op.uid) _).cells.length : ℕ)
        rw [cells_updateNode_tombstone d op.uid, List.length_map, h.nodeCount_eq]
  | format op =>
      obtain ⟨hcells, -, hcount⟩ := applyOperation_format_cases d op
      rw [hcells, hcount, h.nodeCount_eq]
  | rollback op => exact h.nodeCount_eq

/-- Every operation on a node of the document keeps the counters. -/
theorem WellFormed.applyOperation {d : RGADocument} (h : WellFormed d) {op : RGAOperation}
    (hroot : op.uid ≠ rootUID) : WellFormed (d.applyOperation op).1 :=
  ⟨h.toIndexed.applyOperation op, h.length_applyOperation hroot, h.nodeCount_applyOperation hroot⟩

theorem WellFormed.applyOperations {d : RGADocument} (h : WellFormed d) {ops : List RGAOperation}
    (hroot : ∀ op ∈ ops, op.uid ≠ rootUID) : WellFormed (d.applyOperations ops) :=
  List.foldlRecOn ops _ h fun _ hd op hop => hd.applyOperation (hroot op hop)

/-! ## Sequences of edits -/

lemma applyOperations_append (d : RGADocument) (ops ops' : List RGAOperation) :
    d.applyOperations (ops ++ ops') = (d.applyOperations ops).applyOperations ops' :=
  List.foldl_append ..

lemma applyOperations_concat (d : RGADocument) (ops : List RGAOperation) (op : RGAOperation) :
    d.applyOperations (ops ++ [op]) = ((d.applyOperations ops).applyOperation op).1 := by
  rw [applyOperations_append]
  rfl

/-- **A sequence of operations replays its edits.** -/
theorem cells_applyOperations {d : RGADocument} (h : WellFormed d) {ops : List RGAOperation}
    (hroot : ∀ op ∈ ops, op.uid ≠ rootUID) (hedit : ∀ op ∈ ops, op.IsEdit) :
    (d.applyOperations ops).cells = (edits ops).foldl Edit.step d.cells := by
  induction ops generalizing d with
  | nil => rfl
  | cons op ops ih =>
      have hop := hroot op (List.mem_cons_self ..)
      obtain ⟨e, he⟩ := exists_edit (hedit op (List.mem_cons_self ..))
      have ih' := ih (h.applyOperation hop) (fun p hp => hroot p (List.mem_cons_of_mem _ hp))
        fun p hp => hedit p (List.mem_cons_of_mem _ hp)
      rw [edits, List.filterMap_cons_some he, List.foldl_cons,
        ← cells_applyOperation h.nodup hop he]
      exact ih'

/-- From the empty document. -/
theorem cells_empty_applyOperations {ops : List RGAOperation}
    (hroot : ∀ op ∈ ops, op.uid ≠ rootUID) (hedit : ∀ op ∈ ops, op.IsEdit) :
    (empty.applyOperations ops).cells = replay (edits ops) :=
  cells_applyOperations wellFormed_empty hroot hedit

/-- **Any operations replay their edits**, on any indexed document. -/
theorem Indexed.cells_applyOperations {d : RGADocument} (h : Indexed d) (ops : List RGAOperation) :
    (d.applyOperations ops).cells = (nodeEdits ops).foldl Edit.step d.cells := by
  induction ops generalizing d with
  | nil => rfl
  | cons op ops ih =>
      have ih' := ih (h.applyOperation op)
      rw [← List.singleton_append, nodeEdits_append, List.foldl_append]
      refine ih'.trans (congrArg (List.foldl Edit.step · (nodeEdits ops)) ?_)
      by_cases hroot : op.uid = rootUID
      · rw [cells_applyOperation_root d hroot]
        simp [nodeEdits, edits, hroot]
      · cases he : op.edit? with
        | some e =>
            rw [RGADocument.cells_applyOperation h.nodup hroot he]
            simp [nodeEdits, edits, hroot, he]
        | none =>
            have hnone : nodeEdits [op] = [] := by simp [nodeEdits, edits, hroot, he]
            rw [hnone, List.foldl_nil]
            cases op with
            | insert i => simp [RGAOperation.edit?] at he
            | delete del => simp [RGAOperation.edit?] at he
            | format f => exact (applyOperation_format_cases d f).1
            | rollback r => rfl

lemma cells_applyOperations_empty (ops : List RGAOperation) :
    (empty.applyOperations ops).cells = replay (nodeEdits ops) :=
  indexed_empty.cells_applyOperations ops

/-! ## Documents nobody formatted -/

/-- The sentinel is as it was made and no node carries attributes. -/
structure Unformatted (d : RGADocument) : Prop where
  root_eq : d.root = ⟨[], false⟩
  attributes_eq : ∀ n ∈ d.nodes, n.attributes = []

lemma unformatted_empty : Unformatted empty := ⟨rfl, by simp [empty]⟩

lemma Unformatted.applyOperation {d : RGADocument} (h : Unformatted d) {op : RGAOperation}
    (hroot : op.uid ≠ rootUID) (hedit : op.IsEdit) : Unformatted (d.applyOperation op).1 := by
  cases op with
  | insert op =>
      rcases applyOperation_insert_cases d hroot with
        ⟨-, heq⟩ | ⟨-, -, nodes, heq, hperm, -⟩ | ⟨-, -, heq⟩
      · rwa [heq]
      · rw [heq]
        refine ⟨h.root_eq, fun n hn => ?_⟩
        rcases List.mem_cons.mp (hperm.subset hn) with rfl | hn
        · rfl
        · exact h.attributes_eq n hn
      · rwa [heq]
  | delete op =>
      rcases applyOperation_delete_cases d hroot with ⟨-, heq⟩ | ⟨n, -, -, ⟨-, heq⟩ | ⟨-, heq⟩⟩
      · rwa [heq]
      · rwa [heq]
      · rw [heq]
        refine ⟨h.root_eq, fun m hm => ?_⟩
        obtain ⟨m', hm', rfl⟩ := List.mem_map.mp hm
        have hattr := h.attributes_eq m' hm'
        split <;> exact hattr
  | format _ => exact absurd hedit id
  | rollback _ => exact absurd hedit id

lemma Unformatted.applyOperations {d : RGADocument} (h : Unformatted d) {ops : List RGAOperation}
    (hroot : ∀ op ∈ ops, op.uid ≠ rootUID) (hedit : ∀ op ∈ ops, op.IsEdit) :
    Unformatted (d.applyOperations ops) :=
  List.foldlRecOn ops _ h fun _ hd op hop => hd.applyOperation (hroot op hop) (hedit op hop)

/-- Nodes without attributes are recovered from their cells. -/
lemma map_cell_recover {l : List RGANode} (h : ∀ n ∈ l, n.attributes = []) :
    (l.map RGANode.cell).map (fun c => (⟨c.id, c.value, [], c.dead⟩ : RGANode)) = l := by
  rw [List.map_map, List.map_congr_left (g := id), List.map_id]
  intro n hn
  have hattr := h n hn
  cases n
  simp_all [RGANode.cell]

/-- A well-formed document nobody formatted is determined by its cells. -/
theorem ext_of_cells {d d' : RGADocument} (h : WellFormed d) (h' : WellFormed d')
    (hu : Unformatted d) (hu' : Unformatted d') (hcells : d.cells = d'.cells) : d = d' := by
  refine RGADocument.ext (hu.root_eq.trans hu'.root_eq.symm) ?_ ?_ ?_
  · rw [← map_cell_recover hu.attributes_eq, ← map_cell_recover hu'.attributes_eq]
    exact congrArg _ hcells
  · rw [h.length_eq, h'.length_eq, hcells]
  · rw [h.nodeCount_eq, h'.nodeCount_eq, hcells]

end RGADocument

/-! ## The text -/

/-- What `toText` takes of a value. -/
def JsValue.text : JsValue → JSString
  | .string s => s
  | .object _ => []

/-- What `toText` takes of a cell. -/
def cellText (c : Cell UID JsValue) : JSString := if c.dead then [] else c.value.text

lemma RGADocument.toText_eq_cells (d : RGADocument) : d.toText = d.cells.flatMap cellText := by
  rw [toText, Chain.textOf, cells, List.flatMap_map]
  refine List.flatMap_congr fun n _ => ?_
  rcases n with ⟨uid, value, attributes, tombstoned⟩
  cases tombstoned <;> cases value <;> rfl

end SyncEngine
