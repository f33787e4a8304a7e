import SyncEngine.Crdt.Cells

/-!
# What a document encodes

`Encodes cells op` says that an operation has taken effect in a document: the node of an INSERT
is there, the target of a DELETE is there as a tombstone.  An operation that was applied with
success is encoded, whatever was applied before, and stays so under every later operation;
a causally valid sequence, replayed from nothing, encodes all its operations.

Collecting tombstones takes nodes away again.  What is then still true of a document is stated
relative to the set `O` of all operations that have been applied anywhere: every node comes from
an INSERT of `O` and every tombstone from a DELETE of it (`Sound`), and an operation has been
reckoned with (`Accounts`) when the node of an INSERT is there unless `O` deletes it, and the
target of a DELETE is not live.
-/

namespace SyncEngine

open ReplicatedList CausalReplay

/-- The edit of the operation, if it has one, has taken effect. -/
def Encodes (cells : List (Cell UID JsValue)) (op : RGAOperation) : Prop :=
  ∀ e, op.edit? = some e → Settled cells e

instance (cells : List (Cell UID JsValue)) (op : RGAOperation) : Decidable (Encodes cells op) :=
  inferInstanceAs (Decidable (∀ e ∈ op.edit?, Settled cells e))

lemma encodes_iff {cells : List (Cell UID JsValue)} {op : RGAOperation} {e : Edit UID JsValue}
    (he : op.edit? = some e) : Encodes cells op ↔ Settled cells e := by
  simp [Encodes, he]

lemma encodes_insert {cells : List (Cell UID JsValue)} {op : InsertOperation} :
    Encodes cells (.insert op) ↔ op.uid ∈ ids cells := encodes_iff (e := op.edit) rfl

lemma encodes_delete {cells : List (Cell UID JsValue)} {op : DeleteOperation} :
    Encodes cells (.delete op) ↔
      op.uid ∈ ids cells ∧ ∀ c ∈ cells, c.id = op.uid → c.dead = true :=
  encodes_iff (e := .delete op.uid) rfl

namespace RGADocument

variable {d : RGADocument} {op : RGAOperation}

/-- What is encoded stays encoded. -/
lemma encodes_applyOperation (h : Indexed d) (henc : Encodes d.cells op) (p : RGAOperation) :
    Encodes (d.applyOperation p).1.cells op := by
  by_cases hroot : p.uid = rootUID
  · rwa [cells_applyOperation_root d hroot]
  · cases hp : p.edit? with
    | some e' =>
        intro e he
        rw [cells_applyOperation h.nodup hroot hp]
        exact settled_step e' (henc e he)
    | none =>
        cases p with
        | insert p => simp [RGAOperation.edit?] at hp
        | delete p => simp [RGAOperation.edit?] at hp
        | format p => rwa [(applyOperation_format_cases d p).1]
        | rollback p => exact henc

/-- **An operation applied with success is encoded.** -/
theorem encodes_of_applied (h : Indexed d) (hroot : op.uid ≠ rootUID)
    (happlied : (d.applyOperation op).2 = true) :
    Encodes (d.applyOperation op).1.cells op := by
  intro e he
  rw [cells_applyOperation h.nodup hroot he]
  cases op with
  | insert op =>
      obtain rfl : op.edit = e := by simpa [RGAOperation.edit?] using he
      rcases (applyOperation_insert_snd hroot).mp happlied with hknown | hafter
      · exact ids_subset_step _ _ hknown
      · exact settled_self fun a ha => hafter a ha
  | delete op =>
      obtain rfl : Edit.delete op.uid = e := by simpa [RGAOperation.edit?] using he
      refine settled_self fun u hu => ?_
      obtain rfl : u = op.uid := hu
      exact (applyOperation_delete_snd hroot).mp happlied
  | format op => simp [RGAOperation.edit?] at he
  | rollback op => simp [RGAOperation.edit?] at he

/-- **A causally valid replay encodes its operations.** -/
theorem encodes_of_causallyValid {ops : List RGAOperation} (hvalid : CausallyValid ops)
    (hroot : ∀ p ∈ ops, p.uid ≠ rootUID) (hedit : ∀ p ∈ ops, p.IsEdit) (hop : op ∈ ops) :
    Encodes (empty.applyOperations ops).cells op := by
  intro e he
  rw [cells_empty_applyOperations hroot hedit]
  exact replayable.settled_of_causal [] (hvalid.edits hedit) e (mem_edits.mpr ⟨op, hop, he⟩)

end RGADocument

/-! ## Collected documents -/

/-- Every node and every tombstone goes back to an operation. -/
structure Sound (O : Set RGAOperation) (cells : List (Cell UID JsValue)) : Prop where
  inserted : ∀ c ∈ cells, ∃ op, .insert op ∈ O ∧ op.uid = c.id ∧ op.value = c.value
  deleted : ∀ c ∈ cells, c.dead = true → .delete ⟨c.id⟩ ∈ O

/-- The operation has been reckoned with. -/
def Accounts (O : Set RGAOperation) (cells : List (Cell UID JsValue)) : RGAOperation → Prop
  | .insert op => op.uid ∈ ids cells ∨ .delete ⟨op.uid⟩ ∈ O
  | .delete op => ∀ c ∈ cells, c.id = op.uid → c.dead = true
  | _ => True

section Collected

variable {O O' : Set RGAOperation} {cells : List (Cell UID JsValue)} {d : RGADocument}
  {op p : RGAOperation}

lemma sound_nil : Sound O [] := ⟨by simp, by simp⟩

lemma Sound.mono (h : Sound O cells) (hO : O ⊆ O') : Sound O' cells where
  inserted c hc := by
    obtain ⟨op, hop, hc⟩ := h.inserted c hc
    exact ⟨op, hO hop, hc⟩
  deleted c hc hdead := hO (h.deleted c hc hdead)

lemma Accounts.mono (h : Accounts O cells p) (hO : O ⊆ O') : Accounts O' cells p := by
  cases p with
  | insert p => exact h.imp id fun hdel => hO hdel
  | delete p => exact h
  | format p => exact trivial
  | rollback p => exact trivial

/-- The cells after an operation: the old ones, possibly killed by a DELETE, and the node of an
INSERT. -/
lemma mem_cells_applyOperation (h : RGADocument.Indexed d) (hroot : op.uid ≠ rootUID)
    (hedit : op.IsEdit) {c : Cell UID JsValue} (hc : c ∈ (d.applyOperation op).1.cells) :
    (∃ c₀ ∈ d.cells, c₀.id = c.id ∧ c₀.value = c.value ∧
        (c.dead = true → c₀.dead = true ∨ op = .delete ⟨c.id⟩)) ∨
      ∃ i, op = .insert i ∧ i.uid ∉ ids d.cells ∧ c = ⟨i.uid, i.value, false⟩ := by
  cases op with
  | insert i =>
      rcases RGADocument.applyOperation_insert_cases d hroot with
        ⟨-, heq⟩ | ⟨hnew, -, nodes, heq, hperm, -⟩ | ⟨-, -, heq⟩
      · rw [heq] at hc
        exact Or.inl ⟨c, hc, rfl, rfl, Or.inl⟩
      · rw [heq] at hc
        have hcells : (nodes.map RGANode.cell).Perm (⟨i.uid, i.value, false⟩ :: d.cells) :=
          hperm.map RGANode.cell
        rcases List.mem_cons.mp (hcells.subset hc) with rfl | hc
        · exact Or.inr ⟨i, rfl, hnew, rfl⟩
        · exact Or.inl ⟨c, hc, rfl, rfl, Or.inl⟩
      · rw [heq] at hc
        exact Or.inl ⟨c, hc, rfl, rfl, Or.inl⟩
  | delete del =>
      rw [RGADocument.cells_applyOperation h.nodup hroot rfl] at hc
      obtain ⟨c₀, hc₀, rfl⟩ := List.mem_map.mp hc
      refine Or.inl ⟨c₀, hc₀, rfl, rfl, fun hdead => ?_⟩
      by_cases hid : c₀.id = del.uid
      · exact Or.inr (by rw [Cell.kill_id, hid])
      · exact Or.inl (by simpa [hid] using hdead)
  | format _ => exact absurd hedit id
  | rollback _ => exact absurd hedit id

/-- What an operation of `O` does to a list of cells is accounted for. -/
lemma Sound.step (h : Sound O cells) (hop : op ∈ O) {e : Edit UID JsValue}
    (he : op.edit? = some e) : Sound O (e.step cells) := by
  cases op with
  | insert i =>
      obtain rfl : i.edit = e := by simpa [RGAOperation.edit?] using he
      have hcells : ∀ c ∈ i.edit.step cells, c ∈ cells ∨ c = ⟨i.uid, i.value, false⟩ := by
        intro c hc
        rw [InsertOperation.edit, Edit.step] at hc
        split at hc
        · exact Or.inl hc
        · rcases place_cases (anchor i.after) ⟨i.uid, i.value, false⟩ cells with
            ⟨-, -, -, heq⟩ | ⟨-, hperm⟩
          · exact Or.inl (heq ▸ hc)
          · exact (List.mem_cons.mp (hperm.subset hc)).symm
      refine ⟨fun c hc => ?_, fun c hc hdead => ?_⟩
      · rcases hcells c hc with hc | rfl
        · exact h.inserted c hc
        · exact ⟨i, hop, rfl, rfl⟩
      · rcases hcells c hc with hc | rfl
        · exact h.deleted c hc hdead
        · simp at hdead
  | delete del =>
      obtain rfl : Edit.delete del.uid = e := by simpa [RGAOperation.edit?] using he
      refine ⟨fun c hc => ?_, fun c hc hdead => ?_⟩
      · obtain ⟨c₀, hc₀, rfl⟩ := List.mem_map.mp hc
        exact h.inserted c₀ hc₀
      · obtain ⟨c₀, hc₀, rfl⟩ := List.mem_map.mp hc
        by_cases hid : c₀.id = del.uid
        · rw [Cell.kill_id, hid]
          exact hop
        · rw [Cell.kill_of_ne hid] at hdead ⊢
          exact h.deleted c₀ hc₀ hdead
  | format _ => simp [RGAOperation.edit?] at he
  | rollback _ => simp [RGAOperation.edit?] at he

lemma Sound.applyOperation (h : Sound O d.cells) (hindexed : RGADocument.Indexed d)
    (hroot : op.uid ≠ rootUID) (hedit : op.IsEdit) (hop : op ∈ O) :
    Sound O (d.applyOperation op).1.cells := by
  obtain ⟨e, he⟩ := exists_edit hedit
  rw [RGADocument.cells_applyOperation hindexed.nodup hroot he]
  exact h.step hop he

/-- What has been reckoned with stays so, unless a deleted node is inserted again. -/
lemma Accounts.applyOperation (h : Accounts O d.cells p) (hindexed : RGADocument.Indexed d)
    (hroot : op.uid ≠ rootUID) (hedit : op.IsEdit)
    (hagain : ∀ u, op.inserted = some u → p ≠ .delete ⟨u⟩) :
    Accounts O (d.applyOperation op).1.cells p := by
  cases p with
  | insert p =>
      refine h.imp (fun hmem => ?_) id
      exact encodes_insert.mp (RGADocument.encodes_applyOperation hindexed
        (encodes_insert.mpr hmem) op)
  | delete p =>
      intro c hc hcp
      rcases mem_cells_applyOperation hindexed hroot hedit hc with
        ⟨c₀, hc₀, hid, -, -⟩ | ⟨i, rfl, -, rfl⟩
      · have hdead : c₀.dead = true := h c₀ hc₀ (hid.trans hcp)
        -- a dead cell stays dead
        by_contra hlive
        have hencoded : Encodes d.cells (.delete ⟨c₀.id⟩) :=
          encodes_delete.mpr (settled_delete_of_dead hindexed.nodup hc₀ hdead)
        have hkept := RGADocument.encodes_applyOperation hindexed hencoded op
        exact hlive ((encodes_delete.mp hkept).2 c hc hid.symm)
      · exact absurd (congrArg RGAOperation.delete (congrArg DeleteOperation.mk hcp.symm))
          (hagain i.uid rfl)
  | format p => exact trivial
  | rollback p => exact trivial

/-- A DELETE is reckoned with at once, an INSERT when it succeeds. -/
lemma accounts_self (hindexed : RGADocument.Indexed d) (hroot : op.uid ≠ rootUID)
    (hinsert : op.inserted ≠ none → (d.applyOperation op).2 = true) :
    Accounts O (d.applyOperation op).1.cells op := by
  cases op with
  | insert i =>
      exact Or.inl (encodes_insert.mp (RGADocument.encodes_of_applied hindexed hroot
        (hinsert (by simp [RGAOperation.inserted]))))
  | delete del =>
      intro c hc hid
      rw [RGADocument.cells_applyOperation hindexed.nodup hroot rfl] at hc
      obtain ⟨c₀, -, rfl⟩ := List.mem_map.mp hc
      simp only [Cell.kill_id] at hid
      simp [hid]
  | format _ => exact trivial
  | rollback _ => exact trivial

/-! ### Replays -/

/-- Every INSERT of a replay succeeds, and none of them inserts a node that an operation before
it has deleted. -/
def ReplaysInserts (d : RGADocument) (before : List RGAOperation) : List RGAOperation → Prop
  | [] => True
  | op :: ops =>
      (∀ u ∈ op.inserted, (d.applyOperation op).2 = true ∧ .delete ⟨u⟩ ∉ before) ∧
        ReplaysInserts (d.applyOperation op).1 (before ++ [op]) ops

instance decidableReplaysInserts (d : RGADocument) (before ops : List RGAOperation) :
    Decidable (ReplaysInserts d before ops) := by
  induction ops generalizing d before with
  | nil => exact isTrue trivial
  | cons op ops ih =>
      unfold ReplaysInserts
      exact instDecidableAnd

/-- **A replay reckons with all its operations**, and with those before it. -/
theorem accounts_replay {before ops : List RGAOperation} (hindexed : RGADocument.Indexed d)
    (hsound : Sound O d.cells) (hbefore : ∀ p ∈ before, Accounts O d.cells p)
    (hroot : ∀ p ∈ ops, p.uid ≠ rootUID) (hedit : ∀ p ∈ ops, p.IsEdit) (hO : ∀ p ∈ ops, p ∈ O)
    (hreplays : ReplaysInserts d before ops) :
    Sound O (d.applyOperations ops).cells ∧
      ∀ p ∈ before ++ ops, Accounts O (d.applyOperations ops).cells p := by
  induction ops generalizing d before with
  | nil => exact ⟨hsound, fun p hp => hbefore p (by simpa using hp)⟩
  | cons op ops ih =>
      obtain ⟨hop, hreplays⟩ := hreplays
      have hr := hroot op (List.mem_cons_self ..)
      have he := hedit op (List.mem_cons_self ..)
      have hstep : ∀ p ∈ before ++ [op], Accounts O (d.applyOperation op).1.cells p := by
        intro p hp
        rcases List.mem_append.mp hp with hp | hp
        · exact (hbefore p hp).applyOperation hindexed hr he
            fun u hu hpu => (hop u hu).2 (hpu ▸ hp)
        · rw [List.mem_singleton.mp hp]
          refine accounts_self hindexed hr fun hne => ?_
          obtain ⟨u, hu⟩ := Option.ne_none_iff_exists'.mp hne
          exact (hop u hu).1
      have ih' := ih (hindexed.applyOperation op)
        (hsound.applyOperation hindexed hr he (hO op (List.mem_cons_self ..))) hstep
        (fun p hp => hroot p (List.mem_cons_of_mem _ hp))
        (fun p hp => hedit p (List.mem_cons_of_mem _ hp))
        (fun p hp => hO p (List.mem_cons_of_mem _ hp)) hreplays
      rwa [List.append_assoc] at ih'

/-! ### Collection -/

lemma mem_cells_gc {c : Cell UID JsValue} :
    c ∈ d.gc.1.cells ↔ c ∈ d.cells ∧ c.dead = false := by
  simp only [RGADocument.gc, RGADocument.cells, List.mem_map, List.mem_filter]
  constructor
  · rintro ⟨n, ⟨hn, hlive⟩, rfl⟩
    exact ⟨⟨n, hn, rfl⟩, by simpa [RGANode.cell] using hlive⟩
  · rintro ⟨⟨n, hn, rfl⟩, hlive⟩
    exact ⟨n, ⟨hn, by simpa [RGANode.cell] using hlive⟩, rfl⟩

lemma indexed_gc (h : RGADocument.Indexed d) : RGADocument.Indexed d.gc.1 := by
  have hsub : (ids d.gc.1.cells).Sublist (ids d.cells) :=
    (List.filter_sublist.map RGANode.cell).map Cell.id
  exact ⟨hsub.nodup h.nodup, fun hmem => h.root_notMem (hsub.subset hmem)⟩

lemma Sound.gc (h : Sound O d.cells) : Sound O d.gc.1.cells where
  inserted c hc := h.inserted c (mem_cells_gc.mp hc).1
  deleted c hc := h.deleted c (mem_cells_gc.mp hc).1

lemma Accounts.gc (h : Accounts O d.cells p) (hsound : Sound O d.cells) :
    Accounts O d.gc.1.cells p := by
  cases p with
  | insert p =>
      rcases h with hmem | hdel
      · obtain ⟨c, hc, hid⟩ := List.mem_map.mp hmem
        cases hdead : c.dead with
        | true => exact Or.inr (hid ▸ hsound.deleted c hc hdead)
        | false => exact Or.inl (hid ▸ List.mem_map_of_mem (mem_cells_gc.mpr ⟨hc, hdead⟩))
      · exact Or.inr hdel
  | delete p => exact fun c hc => h c (mem_cells_gc.mp hc).1
  | format p => exact trivial
  | rollback p => exact trivial

end Collected

end SyncEngine
