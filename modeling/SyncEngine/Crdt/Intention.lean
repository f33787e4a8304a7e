import SyncEngine.Crdt.Convergence
import SyncEngine.Lib.SiblingForest

/-!
# Intention preservation

`applyInsert` never looks at what an anchor means; it walks right past greater UIDs.  As long as
every INSERT carries a greater UID than its anchor, as those of a client do, the list it builds is
nevertheless the preorder of the tree of anchors, with siblings in descending order: the walk
passes the subtrees of the greater siblings and stops at the next one
(`SiblingForest.Forest.preorder_insertUnder`).  One operation after the other, the forest grows
with the list (`TreeOf.insert`).

* **`intention_preserved`**: what was typed behind a character, and behind that, stands in one
  block behind it, and two runs typed at one place do not interleave.
-/

namespace SyncEngine

open ReplicatedList CausalReplay SiblingForest RGADocument

/-- A causally valid sequence of INSERTs and DELETEs in which an INSERT has a UID of its own,
greater than that of its anchor. -/
structure Typed (ops : List RGAOperation) : Prop where
  isEdit : ∀ op ∈ ops, op.IsEdit
  causal : CausallyValid ops
  distinct : ∀ i j, .insert i ∈ ops → .insert j ∈ ops → i.uid = j.uid → i = j
  ne_root : ∀ i, .insert i ∈ ops → i.uid ≠ rootUID
  above : ∀ i, .insert i ∈ ops → ∀ a, i.after = some a → compareUID i.uid a > 0

/-- The node `u` was inserted behind `q`. -/
def Anchored (ops : List RGAOperation) (q : Option UID) (u : UID) : Prop :=
  ∃ i, .insert i ∈ ops ∧ i.uid = u ∧ i.after = q

/-- What was inserted behind the node `a`, behind that, and so on. -/
abbrev TypedBehind (ops : List RGAOperation) : UID → UID → Prop :=
  Relation.TransGen fun a u => Anchored ops (some a) u

/-- Characters typed from left to right, the first one behind `q`. -/
def Run (ops : List RGAOperation) : Option UID → List UID → Prop
  | _, [] => True
  | q, u :: rest => Anchored ops q u ∧ Run ops (some u) rest

/-! ## The forest of the anchors -/

lemma Typed.of_concat {ops : List RGAOperation} {op : RGAOperation} (h : Typed (ops ++ [op])) :
    Typed ops where
  isEdit p hp := h.isEdit p (List.mem_append_left _ hp)
  causal := (causal_concat.mp h.causal).1
  distinct i j hi hj := h.distinct i j (List.mem_append_left _ hi) (List.mem_append_left _ hj)
  ne_root i hi := h.ne_root i (List.mem_append_left _ hi)
  above i hi := h.above i (List.mem_append_left _ hi)

/-- The same in terms of the inserted nodes, which can be decided. -/
lemma Typed.of_inserted {ops : List RGAOperation} (hset : EditSet {op | op ∈ ops})
    (hcausal : CausallyValid ops)
    (habove : ∀ op ∈ ops, ∀ u ∈ op.inserted, ∀ a ∈ op.prerequisite, compareUID u a > 0) :
    Typed ops where
  isEdit := hset.isEdit
  causal := hcausal
  distinct := hset.insert_inj
  ne_root := hset.uid_ne_root
  above i hi a ha := habove _ hi i.uid rfl a ha

lemma Typed.editSet {ops : List RGAOperation} (h : Typed ops) : EditSet {op | op ∈ ops} :=
  ⟨h.isEdit, h.distinct, h.ne_root⟩

lemma anchored_concat {ops : List RGAOperation} {i : InsertOperation} {u : UID} {q : Option UID} :
    Anchored (ops ++ [.insert i]) q u ↔ (u, q) = (i.uid, i.after) ∨ Anchored ops q u := by
  constructor
  · rintro ⟨j, hj, rfl, rfl⟩
    rcases List.mem_append.mp hj with hj | hj
    · exact Or.inr ⟨j, hj, rfl, rfl⟩
    · obtain rfl := RGAOperation.insert.inj (List.mem_singleton.mp hj)
      exact Or.inl rfl
  · rintro (heq | ⟨j, hj, hu, hq⟩)
    · obtain ⟨rfl, rfl⟩ := Prod.mk.inj heq
      exact ⟨i, List.mem_append_right _ (List.mem_singleton_self _), rfl, rfl⟩
    · exact ⟨j, List.mem_append_left _ hj, hu, hq⟩

/-- Another operation adds no edge, nor does an INSERT that was applied before. -/
lemma anchored_concat_of_old {ops : List RGAOperation} {op : RGAOperation}
    (hop : ∀ i, op = .insert i → .insert i ∈ ops) {u : UID} {q : Option UID} :
    Anchored (ops ++ [op]) q u ↔ Anchored ops q u := by
  constructor
  · rintro ⟨i, hi, hu, hq⟩
    rcases List.mem_append.mp hi with hi | hi
    · exact ⟨i, hi, hu, hq⟩
    · exact ⟨i, hop i (List.mem_singleton.mp hi).symm, hu, hq⟩
  · rintro ⟨i, hi, hu, hq⟩
    exact ⟨i, List.mem_append_left _ hi, hu, hq⟩

lemma ids_skipGreater (x : Cell UID JsValue) (l : List (Cell UID JsValue)) :
    ids (SkipInsert.skipGreater Cell.id x l) = SkipInsert.skipGreater id x.id (ids l) :=
  @SkipInsert.map_skipGreater _ _ _ Cell.id _ id Cell.id (fun _ => rfl) x l

lemma ids_insertAfter (a : UID) (x : Cell UID JsValue) (l : List (Cell UID JsValue)) :
    ids (SkipInsert.insertAfter Cell.id a x l) = SkipInsert.insertAfter id a x.id (ids l) :=
  @SkipInsert.map_insertAfter _ _ _ Cell.id _ id Cell.id (fun _ => rfl) a x l

/-- The forest of the anchors, and the list that is its preorder. -/
structure TreeOf (ops : List RGAOperation) (f : Forest UID) : Prop where
  preorder_eq : ids (empty.applyOperations ops).cells = f.preorder
  descending : f.Descending
  growing : f.Growing
  edges_iff : ∀ u q, (u, q) ∈ f.edges none ↔ Anchored ops q u

namespace TreeOf

variable {ops : List RGAOperation} {f : Forest UID}

lemma nil : TreeOf [] .nil := by
  refine ⟨rfl, trivial, trivial, fun u q => ?_⟩
  simp [Forest.edges, Anchored]

lemma nodup (h : TreeOf ops f) : f.preorder.Nodup :=
  h.preorder_eq ▸ (indexed_empty.applyOperations ops).nodup

/-- A DELETE, and an INSERT that was applied before, leave the forest as it is. -/
lemma congr (h : TreeOf ops f) {op : RGAOperation}
    (hids : ids (empty.applyOperations (ops ++ [op])).cells = ids (empty.applyOperations ops).cells)
    (hop : ∀ i, op = .insert i → .insert i ∈ ops) : TreeOf (ops ++ [op]) f where
  preorder_eq := hids.trans h.preorder_eq
  descending := h.descending
  growing := h.growing
  edges_iff u q := (h.edges_iff u q).trans (anchored_concat_of_old hop).symm

/-- A new INSERT grows the forest. -/
lemma insert (h : TreeOf ops f) {i : InsertOperation} (hnew : i.uid ∉ f.preorder)
    (hroot : i.uid ≠ rootUID) (habove : ∀ a, i.after = some a → compareUID i.uid a > 0)
    (hafter : ∀ a, i.after = some a → a ∈ f.preorder) :
    ∃ f', TreeOf (ops ++ [.insert i]) f' := by
  have hd : (empty.applyOperations ops).Indexed := indexed_empty.applyOperations ops
  have hnew' : i.uid ∉ ids (empty.applyOperations ops).cells := h.preorder_eq ▸ hnew
  have hop : (RGAOperation.insert i).uid ≠ rootUID := hroot
  have hcells : (empty.applyOperations (ops ++ [.insert i])).cells =
      place (anchor i.after) ⟨i.uid, i.value, false⟩ (empty.applyOperations ops).cells := by
    rw [applyOperations_concat, cells_applyOperation hd.nodup hop rfl, InsertOperation.edit,
      Edit.step, if_neg hnew']
  cases hq : i.after with
  | none =>
      refine ⟨f.insertRoot i.uid, ?_, ?_, h.growing.insertRoot i.uid, fun u q => ?_⟩
      · have hpre : SkipInsert.skipGreater id i.uid (f.preorder ++ []) =
            (f.insertRoot i.uid).preorder ++ [] := Forest.preorder_insertRoot h.growing (by simp)
        rw [List.append_nil, List.append_nil] at hpre
        rw [hcells, hq, ← hpre, ← h.preorder_eq]
        exact ids_skipGreater ⟨i.uid, i.value, false⟩ _
      · exact h.descending.insertRoot fun hr => hnew (Forest.mem_preorder_of_mem_roots hr)
      · rw [Forest.mem_edges_insertRoot, h.edges_iff, anchored_concat, hq]
  | some a =>
      have ha : a ∈ f.preorder := hafter a hq
      have hlt : a < i.uid := compareUID_pos_iff.mp (habove a hq)
      have hne : a ≠ rootUID := fun heq => hd.root_notMem (heq ▸ h.preorder_eq ▸ ha)
      refine ⟨f.insertUnder a i.uid, ?_, h.descending.insertUnder a hnew,
        h.growing.insertUnder hlt, fun u q => ?_⟩
      · have hpre : SkipInsert.insertAfter id a i.uid (f.preorder ++ []) =
            (f.insertUnder a i.uid).preorder ++ [] :=
          Forest.preorder_insertUnder h.growing h.descending h.nodup ha hlt (by simp)
        rw [List.append_nil, List.append_nil] at hpre
        rw [hcells, hq, anchor_eq_some.mpr ⟨rfl, hne⟩, ← hpre, ← h.preorder_eq]
        exact ids_insertAfter a ⟨i.uid, i.value, false⟩ _
      · rw [Forest.mem_edges_insertUnder ha h.nodup, h.edges_iff, anchored_concat, hq]

end TreeOf

/-- Every such sequence builds the forest of its anchors. -/
theorem exists_treeOf {ops : List RGAOperation} (h : Typed ops) : ∃ f, TreeOf ops f := by
  induction ops using List.reverseRecOn with
  | nil => exact ⟨_, TreeOf.nil⟩
  | append_singleton ops op ih =>
      obtain ⟨f, hf⟩ := ih h.of_concat
      have hmem : ∀ {u}, u ∈ f.preorder ↔ ∃ p ∈ ops, u ∈ p.gives := by
        intro u
        rw [← hf.preorder_eq]
        exact mem_ids_applyOperations h.of_concat.editSet (fun _ hp => hp) h.of_concat.causal
      have hlast : op ∈ ops ++ [op] := by simp
      cases op with
      | insert i =>
          by_cases hi : RGAOperation.insert i ∈ ops
          · -- a repeated INSERT does nothing
            refine ⟨f, hf.congr ?_ fun j hj => hj ▸ hi⟩
            have hknown : i.uid ∈ ids (empty.applyOperations ops).cells := by
              rw [hf.preorder_eq]
              exact hmem.mpr ⟨_, hi, rfl⟩
            have hop : (RGAOperation.insert i).uid ≠ rootUID := h.ne_root i hlast
            rw [applyOperations_concat,
              cells_applyOperation (indexed_empty.applyOperations ops).nodup hop rfl,
              InsertOperation.edit, Edit.step, if_pos hknown]
          · refine hf.insert (fun hknown => ?_) (h.ne_root i hlast) (h.above i hlast)
              fun a ha => hmem.mpr ?_
            · obtain ⟨p, hp, hgives⟩ := hmem.mp hknown
              have hpi := h.editSet.gives_unique (List.mem_append_left _ hp) hlast hgives rfl
              exact hi (hpi ▸ hp)
            · exact ((causal_concat.mp h.causal).2.resolve_left hi) a ha
      | delete del =>
          refine ⟨f, hf.congr ?_ fun j hj => by simp at hj⟩
          have hop := h.editSet.op_uid_ne_root (fun _ hp => hp) h.causal _ hlast
          rw [applyOperations_concat,
            cells_applyOperation (indexed_empty.applyOperations ops).nodup hop rfl, Edit.step,
            ids_map_kill]
      | format fo => exact absurd (h.isEdit _ hlast) id
      | rollback r => exact absurd (h.isEdit _ hlast) id

/-! ## Runs -/

/-- What belongs to a run is its first character or was typed behind it. -/
lemma Run.family {ops : List RGAOperation} {f : Forest UID} (hf : TreeOf ops f) {q : Option UID}
    {u : UID} {rest : List UID} (h : Run ops q (u :: rest)) : ∀ v ∈ u :: rest, v ∈ f.Family u := by
  induction rest generalizing q u with
  | nil =>
      intro v hv
      exact Or.inl (List.mem_singleton.mp hv)
  | cons w rest ih =>
      obtain ⟨-, hw⟩ := h
      have hstep : Forest.Child (f.edges none) u w := (hf.edges_iff w (some u)).mpr hw.1
      intro v hv
      rcases List.mem_cons.mp hv with rfl | hv
      · exact Or.inl rfl
      · rcases ih hw v hv with rfl | hbelow
        · exact Or.inr (.single hstep)
        · exact Or.inr (.head hstep hbelow)

/-- **Intentions are preserved.**  The nodes stand in the preorder of the forest of anchors, with
siblings in descending order; what was typed behind a node, and behind that, is one block right
behind it; and of two runs typed at one place one stands in front of the other. -/
theorem intention_preserved {ops : List RGAOperation} (h : Typed ops) :
    let nodes := ids (empty.applyOperations ops).cells
    nodes.Nodup ∧
    (∃ f : Forest UID, nodes = f.preorder ∧ f.Descending ∧
      ∀ u q, (u, q) ∈ f.edges none ↔ Anchored ops q u) ∧
    (∀ u ∈ nodes, ∃ before block after, nodes = before ++ u :: (block ++ after) ∧
      ∀ w, w ∈ block ↔ TypedBehind ops u w) ∧
    ∀ q u us w ws, Run ops q (u :: us) → Run ops q (w :: ws) → u ≠ w →
      ∃ l r, nodes = l ++ r ∧
        ((∀ v ∈ u :: us, v ∈ l) ∧ (∀ v ∈ w :: ws, v ∈ r) ∨
          (∀ v ∈ w :: ws, v ∈ l) ∧ ∀ v ∈ u :: us, v ∈ r) := by
  obtain ⟨f, hf⟩ := exists_treeOf h
  have hbehind : ∀ u w, f.Descendant none u w ↔ TypedBehind ops u w := by
    have heq : Forest.Child (f.edges none) = fun a u => Anchored ops (some a) u := by
      ext a u
      exact hf.edges_iff u (some a)
    intro u w
    rw [Forest.Descendant, heq]
  refine ⟨(indexed_empty.applyOperations ops).nodup,
    ⟨f, hf.preorder_eq, hf.descending, hf.edges_iff⟩, fun u hu => ?_,
    fun q u us w ws hu hw hne => ?_⟩
  · rw [hf.preorder_eq] at hu ⊢
    obtain ⟨before, block, after, heq, hblock⟩ :=
      Forest.exists_block (p := none) hf.nodup (by simp) hu
    exact ⟨before, block, after, heq, fun v => (hblock v).trans (hbehind u v)⟩
  · rw [hf.preorder_eq]
    obtain ⟨l, r, heq, hcut⟩ := Forest.exists_cut hf.growing hf.nodup hne
      ((hf.edges_iff u q).mpr hu.1) ((hf.edges_iff w q).mpr hw.1)
    refine ⟨l, r, heq, hcut.imp ?_ ?_⟩
    · rintro ⟨hl, hr⟩
      exact ⟨fun v hv => hl v (hu.family hf v hv), fun v hv => hr v (hw.family hf v hv)⟩
    · rintro ⟨hl, hr⟩
      exact ⟨fun v hv => hl v (hw.family hf v hv), fun v hv => hr v (hu.family hf v hv)⟩

/-- Two sites type two characters each at the beginning, one of which is deleted. -/
theorem intention_preserved_two_sites :
    let a (clock : Nat) : UID := ⟨clock, JSString.lit "a"⟩
    let b (clock : Nat) : UID := ⟨clock, JSString.lit "b"⟩
    let ins (u : UID) (after : Option UID) : RGAOperation :=
      .insert ⟨u, after, .string (JSString.lit "x")⟩
    let ops := [ins (a 1) none, ins (b 1) none, ins (b 2) (some (b 1)), ins (a 2) (some (a 1)),
      .delete ⟨a 1⟩]
    ∃ l r, ids (empty.applyOperations ops).cells = l ++ r ∧
      ((∀ v ∈ [a 1, a 2], v ∈ l) ∧ (∀ v ∈ [b 1, b 2], v ∈ r) ∨
        (∀ v ∈ [b 1, b 2], v ∈ l) ∧ ∀ v ∈ [a 1, a 2], v ∈ r) := by
  intro a b ins ops
  have hset : EditSet {op | op ∈ ops} := EditSet.of_inserted
    (show ∀ op ∈ ops, op.IsEdit by decide)
    (show ∀ p ∈ ops, ∀ q ∈ ops, p.inserted ≠ none → p.inserted = q.inserted → p = q by decide)
    (show ∀ p ∈ ops, p.inserted ≠ some rootUID by decide)
  have htyped : Typed ops := .of_inserted hset (by decide) (by decide)
  have hinsert : ∀ {u after}, ins u after ∈ ops → Anchored ops after u := fun h => ⟨_, h, rfl, rfl⟩
  refine (intention_preserved htyped).2.2.2 none (a 1) [a 2] (b 1) [b 2] ?_ ?_ (by decide)
  · exact ⟨hinsert (by decide), hinsert (by decide), trivial⟩
  · exact ⟨hinsert (by decide), hinsert (by decide), trivial⟩

end SyncEngine
