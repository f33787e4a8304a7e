import SyncEngine.Crdt.Convergence
import SyncEngine.Crdt.UndoText
import SyncEngine.Lib.LastWrite

/-!
# Formatting

A FORMAT merges its attributes into those of one node, and INSERTs and DELETEs leave attributes
alone.  So a replica keeps, for every node and every attribute, what the last FORMAT to arrive
wrote there (`attributeOf_applyOperations`): a register in which the last write wins, by arrival
and not by clock, unlike the chain itself.

Convergence therefore has two halves here.  Replicas that apply the same operations, FORMATs
among them, in causally valid orders have the same nodes in the same order, the same text and
the same counts; and they have the same attributes exactly if the last FORMAT of every attribute
of every node writes the same in both orders (`formatted_converge`).
-/

namespace SyncEngine

open ReplicatedList CausalReplay LastWrite

/-! ## Attributes as a record -/

namespace Attributes

/-- `attributes[key]`. -/
def property (a : Attributes) (key : JSString) : Option JSString :=
  (a.find? fun p => p.1 = key).map Prod.snd

@[simp] lemma property_nil (key : JSString) : property [] key = none := rfl

lemma property_cons (p : JSString × JSString) (a : Attributes) (key : JSString) :
    property (p :: a) key = if p.1 = key then some p.2 else property a key := by
  by_cases h : p.1 = key <;> simp [property, h]

lemma property_assign (a : Attributes) (k v key : JSString) :
    (a.assign k v).property key = if k = key then some v else a.property key := by
  induction a with
  | nil => simp [assign, property_cons]
  | cons p a ih =>
      rw [assign]
      by_cases hp : p.1 = k
      · rw [if_pos hp, property_cons, property_cons, hp]
        split <;> rfl
      · rw [if_neg hp, property_cons, property_cons, ih]
        by_cases hk : k = key
        · rw [if_pos hk, if_neg fun h => hp (h.trans hk.symm)]
          simp [hk]
        · simp [hk]

/-- What an assignment of one property writes under a key. -/
def assigned (key : JSString) (p : JSString × JSString) : Option JSString :=
  if p.1 = key then some p.2 else none

/-- A spread writes the last value its second object has under the key. -/
lemma property_spread (a b : Attributes) (key : JSString) :
    (a.spread b).property key = (lastWrite (assigned key) b).or (a.property key) := by
  refine @read_foldl _ _ _ (assigned key) _ (fun r : Attributes => r.property key) a b
    fun pre p post _ => ?_
  show (assign _ p.1 p.2).property key = _
  rw [property_assign, assigned]
  split <;> simp

end Attributes

/-- What an operation writes to the attribute `key` of the node `u`. -/
def RGAOperation.formats (u : UID) (key : JSString) : RGAOperation → Option JSString
  | .format op => if op.uid = u then lastWrite (Attributes.assigned key) op.attributes else none
  | _ => none

namespace RGADocument

/-- `getNode(uid)?.attributes[key]`. -/
def attributeOf (d : RGADocument) (u : UID) (key : JSString) : Option JSString :=
  (d.indexGet (uidKey u)).bind fun n => n.attributes.property key

/-! ## One operation -/

lemma indexGet_of_mem {d : RGADocument} (h : Indexed d) {n : RGANode} (hn : n ∈ d.nodes) :
    d.indexGet (uidKey n.uid) = some n := by
  have hnd : (d.nodes.map RGANode.uid).Nodup := by
    rw [← ids_cells]
    exact h.nodup
  cases hget : d.indexGet (uidKey n.uid) with
  | none => exact absurd (ids_cells d ▸ List.mem_map_of_mem hn) (indexGet_eq_none.mp hget)
  | some m =>
      obtain ⟨hm, huid⟩ := Chain.indexGet_some hget
      exact congrArg some (List.inj_on_of_nodup_map hnd hm hn huid)

lemma attributeOf_of_mem {d : RGADocument} (h : Indexed d) {n : RGANode} (hn : n ∈ d.nodes)
    (key : JSString) : d.attributeOf n.uid key = n.attributes.property key := by
  rw [attributeOf, indexGet_of_mem h hn, Option.bind_some]

lemma attributeOf_of_notMem {d : RGADocument} {u : UID} (h : u ∉ ids d.cells) (key : JSString) :
    d.attributeOf u key = none := by
  rw [attributeOf, indexGet_eq_none.mpr h, Option.bind_none]

/-- An INSERT or DELETE leaves the attributes of every node alone. -/
lemma attributeOf_of_edit {d : RGADocument} (h : Indexed d) {op : RGAOperation} (hedit : op.IsEdit)
    (hroot : op.uid ≠ rootUID) (u : UID) (key : JSString) :
    (d.applyOperation op).1.attributeOf u key = d.attributeOf u key := by
  have h' := h.applyOperation op
  cases op with
  | insert op =>
      rcases applyOperation_insert_cases d hroot with
        ⟨-, heq⟩ | ⟨hnew, -, nodes, heq, hperm, -⟩ | ⟨-, -, heq⟩
      · rw [heq]
      · rw [heq] at h' ⊢
        by_cases hu : u ∈ ids d.cells
        · rw [ids_cells] at hu
          obtain ⟨n, hn, rfl⟩ := List.mem_map.mp hu
          rw [attributeOf_of_mem h hn,
            attributeOf_of_mem h' (hperm.symm.subset (List.mem_cons_of_mem _ hn))]
        · rw [attributeOf_of_notMem hu]
          by_cases hop : u = op.uid
          · have hmem := hperm.symm.subset (List.mem_cons_self ..)
            rw [hop, attributeOf_of_mem h' hmem]
            rfl
          · refine attributeOf_of_notMem (fun hmem => ?_) key
            rw [ids_cells] at hmem hu
            have hmem' := (hperm.map RGANode.uid).subset hmem
            exact (List.mem_cons.mp hmem').elim hop hu
      · rw [heq]
  | delete op =>
      have hids : ids (d.applyOperation (.delete op)).1.cells = ids d.cells := by
        rw [cells_applyOperation h.nodup hroot (e := .delete op.uid) rfl, Edit.step, ids_map_kill]
      rcases applyOperation_delete_cases d hroot with ⟨-, heq⟩ | ⟨n, -, -, ⟨-, heq⟩ | ⟨-, heq⟩⟩
      · rw [heq]
      · rw [heq]
      · rw [heq] at h' hids ⊢
        by_cases hu : u ∈ ids d.cells
        · rw [ids_cells] at hu
          obtain ⟨m, hm, rfl⟩ := List.mem_map.mp hu
          have hm' := List.mem_map_of_mem (f := fun n : RGANode =>
            if uidKey n.uid = uidKey op.uid then { n with tombstoned := true } else n) hm
          rw [attributeOf_of_mem h hm]
          have hread := attributeOf_of_mem h' hm' key
          split at hread <;> exact hread
        · rw [attributeOf_of_notMem hu]
          exact attributeOf_of_notMem (hids ▸ hu) key
  | format op => exact absurd hedit id
  | rollback op => exact absurd hedit id

/-- A FORMAT writes to its node and leaves the other nodes alone. -/
lemma attributeOf_format {d : RGADocument} (h : Indexed d) {op : FormatOperation}
    (hmem : op.uid ∈ ids d.cells) (u : UID) (key : JSString) :
    (d.applyOperation (.format op)).1.attributeOf u key =
      ((RGAOperation.format op).formats u key).or (d.attributeOf u key) := by
  have hroot : op.uid ≠ rootUID := fun heq => h.root_notMem (heq ▸ hmem)
  have h' := h.applyOperation (.format op)
  have hids : ids (d.applyOperation (.format op)).1.cells = ids d.cells := by
    rw [(applyOperation_format_cases d op).1]
  have heq : (d.applyOperation (.format op)).1 =
      d.updateNode (uidKey op.uid) fun n =>
        { n with attributes := n.attributes.spread op.attributes } := by
    cases hget : d.indexGet (uidKey op.uid) with
    | none => exact absurd hmem (indexGet_eq_none.mp hget)
    | some n => simp [applyOperation, applyFormat, hroot, hget]
  rw [heq] at h' hids ⊢
  by_cases hu : u ∈ ids d.cells
  · rw [ids_cells] at hu
    obtain ⟨m, hm, rfl⟩ := List.mem_map.mp hu
    have hm' := List.mem_map_of_mem (f := fun n : RGANode =>
      if uidKey n.uid = uidKey op.uid then
        { n with attributes := n.attributes.spread op.attributes } else n) hm
    have hread := attributeOf_of_mem h' hm' key
    rw [attributeOf_of_mem h hm, RGAOperation.formats]
    by_cases hop : op.uid = m.uid
    · simp only [hop, if_true] at hread ⊢
      rw [hread, Attributes.property_spread]
    · rw [if_neg hop, Option.none_or]
      rwa [if_neg fun hkey => hop (uidKey_injective hkey).symm] at hread
  · have hop : op.uid ≠ u := fun h => hu (h ▸ hmem)
    rw [attributeOf_of_notMem hu, attributeOf_of_notMem (hids ▸ hu), RGAOperation.formats,
      if_neg hop, Option.none_or]

/-! ## Sequences with FORMATs -/

/-- Operations of any kind whose INSERTs carry pairwise distinct UIDs, none of them the
sentinel's. -/
structure InsertsDistinct (ops : List RGAOperation) : Prop where
  insert_inj : ∀ i j : InsertOperation, .insert i ∈ ops → .insert j ∈ ops → i.uid = j.uid → i = j
  uid_ne_root : ∀ i : InsertOperation, .insert i ∈ ops → i.uid ≠ rootUID

namespace InsertsDistinct

variable {ops : List RGAOperation}

lemma exists_insert {op : RGAOperation} {u : UID} (h : u ∈ op.gives) :
    ∃ i : InsertOperation, op = .insert i ∧ i.uid = u := by
  cases op with
  | insert i => exact ⟨i, rfl, Option.some.inj h⟩
  | _ => simp [RGAOperation.gives, RGAOperation.inserted] at h

lemma uniqueGivers (hS : InsertsDistinct ops) : UniqueGivers Edit.gives (edits ops) := by
  intro e he e' he' u hu hu'
  obtain ⟨p, hp, hpe⟩ := mem_edits.mp he
  obtain ⟨q, hq, hqe⟩ := mem_edits.mp he'
  rw [RGAOperation.gives_of_edit hpe] at hu
  rw [RGAOperation.gives_of_edit hqe] at hu'
  obtain ⟨i, rfl, hi⟩ := exists_insert hu
  obtain ⟨j, rfl, hj⟩ := exists_insert hu'
  rw [hS.insert_inj i j hp hq (hi.trans hj.symm)] at hpe
  exact Option.some.inj (hpe.symm.trans hqe)

/-- What a causally valid sequence inserts and what it names are nodes of its own. -/
lemma op_uid_ne_root (hS : InsertsDistinct ops) (hvalid : CausallyValid ops) {op : RGAOperation}
    (hop : op ∈ ops) (hkind : ∀ r, op ≠ .rollback r) : op.uid ≠ rootUID := by
  have hgiven : op.uid ∈ op.needs → op.uid ≠ rootUID := by
    intro hneeds
    obtain ⟨p, hp, hgives⟩ := hvalid.given hop hneeds
    obtain ⟨i, rfl, hi⟩ := exists_insert hgives
    exact hi ▸ hS.uid_ne_root i hp
  cases op with
  | insert i => exact hS.uid_ne_root i hop
  | delete del => exact hgiven rfl
  | format f => exact hgiven rfl
  | rollback r => exact absurd rfl (hkind r)

lemma of_append {ops' : List RGAOperation} (hS : InsertsDistinct (ops ++ ops')) :
    InsertsDistinct ops where
  insert_inj i j hi hj := hS.insert_inj i j (by simp [hi]) (by simp [hj])
  uid_ne_root i hi := hS.uid_ne_root i (by simp [hi])

end InsertsDistinct

/-- The edits of a causally valid sequence are causal, whatever else is in it. -/
lemma causal_edits {ops : List RGAOperation} (h : CausallyValid ops) :
    Causal Edit.needs Edit.gives (edits ops) := by
  induction ops using List.reverseRecOn with
  | nil => exact causal_nil
  | append_singleton ops op ih =>
      obtain ⟨hops, hneeds⟩ := causal_concat_iff.mp h
      rw [edits_append]
      cases he : op.edit? with
      | none =>
          have hnil : edits [op] = [] := by simp [edits, he]
          rw [hnil, List.append_nil]
          exact ih hops
      | some e =>
          have hsingle : edits [op] = [e] := by simp [edits, he]
          rw [hsingle]
          refine causal_concat_iff.mpr ⟨ih hops, fun u hu => ?_⟩
          obtain ⟨p, hp, hgives⟩ := hneeds u (op.needs_of_edit he hu)
          obtain ⟨i, rfl, -⟩ := InsertsDistinct.exists_insert hgives
          exact ⟨i.edit, mem_edits.mpr ⟨_, hp, rfl⟩,
            (@RGAOperation.gives_of_edit (.insert i) i.edit rfl).symm ▸ hgives⟩

/-- What a causally valid sequence with FORMATs leaves: a well-formed document whose cells replay
the edits. -/
lemma wellFormed_cells {ops : List RGAOperation} (hS : InsertsDistinct ops)
    (hvalid : CausallyValid ops) :
    WellFormed (empty.applyOperations ops) ∧
      (empty.applyOperations ops).cells = replay (edits ops) := by
  induction ops using List.reverseRecOn with
  | nil => exact ⟨wellFormed_empty, rfl⟩
  | append_singleton ops op ih =>
      obtain ⟨hwf, hcells⟩ := ih hS.of_append hvalid.of_append
      have hop : op ∈ ops ++ [op] := by simp
      have hroot := hS.op_uid_ne_root hvalid hop
      rw [applyOperations_concat, edits_append, replay, List.foldl_append]
      cases op with
      | insert i =>
          have hne := hroot (by simp)
          exact ⟨hwf.applyOperation hne, by
            rw [cells_applyOperation hwf.nodup hne rfl, hcells]; rfl⟩
      | delete del =>
          have hne := hroot (by simp)
          exact ⟨hwf.applyOperation hne, by
            rw [cells_applyOperation hwf.nodup hne rfl, hcells]; rfl⟩
      | format f =>
          exact ⟨hwf.applyOperation (hroot (by simp)), by
            rw [(applyOperation_format_cases _ f).1, hcells]; rfl⟩
      | rollback r => exact ⟨hwf, hcells⟩

lemma mem_ids_of_given {ops : List RGAOperation} (hS : InsertsDistinct ops)
    (hvalid : CausallyValid ops) {u : UID} (h : ∃ op ∈ ops, u ∈ op.gives) :
    u ∈ ids (empty.applyOperations ops).cells := by
  obtain ⟨op, hop, hu⟩ := h
  obtain ⟨i, rfl, -⟩ := InsertsDistinct.exists_insert hu
  rw [(wellFormed_cells hS hvalid).2, mem_ids_replay (causal_edits hvalid)]
  exact ⟨i.edit, mem_edits.mpr ⟨_, hop, rfl⟩,
    (@RGAOperation.gives_of_edit (.insert i) i.edit rfl).symm ▸ hu⟩

/-- **A replica keeps the last FORMAT to arrive**, for every node and every attribute. -/
lemma attributeOf_applyOperations {ops : List RGAOperation} (hS : InsertsDistinct ops)
    (hvalid : CausallyValid ops) (u : UID) (key : JSString) :
    (empty.applyOperations ops).attributeOf u key =
      lastWrite (RGAOperation.formats u key) ops := by
  have hread := @read_foldl _ _ _ (RGAOperation.formats u key)
    (fun d op => (d.applyOperation op).1) (fun d => d.attributeOf u key) empty ops
  rw [show empty.attributeOf u key = none from rfl, Option.or_none] at hread
  refine hread fun pre op post hsplit => ?_
  have hsplit' : ops = (pre ++ [op]) ++ post := by rw [hsplit]; simp
  have hpreS : InsertsDistinct (pre ++ [op]) := (hsplit' ▸ hS).of_append
  have hprevalid : CausallyValid (pre ++ [op]) := (hsplit' ▸ hvalid).of_append
  have hwf := (wellFormed_cells hpreS.of_append hprevalid.of_append).1
  have hop : op ∈ pre ++ [op] := by simp
  have hroot := hpreS.op_uid_ne_root hprevalid hop
  have hneeds := (causal_concat_iff.mp hprevalid).2
  cases op with
  | insert i =>
      have hedit : (RGAOperation.insert i).IsEdit := trivial
      exact attributeOf_of_edit hwf.toIndexed hedit (hroot (by simp)) u key
  | delete del =>
      have hedit : (RGAOperation.delete del).IsEdit := trivial
      exact attributeOf_of_edit hwf.toIndexed hedit (hroot (by simp)) u key
  | format f =>
      exact attributeOf_format hwf.toIndexed
        (mem_ids_of_given hpreS.of_append hprevalid.of_append (hneeds f.uid rfl)) u key
  | rollback r => rfl

/-! ## Convergence with FORMATs -/

/-- **Convergence of formatted documents.**  Two causally valid sequences of the same operations,
of any kind and with any repetitions, lead to the same nodes, text and counts; and an attribute
of a node comes out the same exactly if its last FORMAT writes the same in both. -/
theorem formatted_converge {σ τ : List RGAOperation} (hS : InsertsDistinct σ)
    (hmem : ∀ op, op ∈ σ ↔ op ∈ τ) (hσ : CausallyValid σ) (hτ : CausallyValid τ) :
    (empty.applyOperations σ).cells = (empty.applyOperations τ).cells ∧
      (empty.applyOperations σ).toText = (empty.applyOperations τ).toText ∧
      (empty.applyOperations σ).length = (empty.applyOperations τ).length ∧
      (empty.applyOperations σ).nodeCount = (empty.applyOperations τ).nodeCount ∧
      ∀ u key,
        (empty.applyOperations σ).attributeOf u key = (empty.applyOperations τ).attributeOf u key ↔
          lastWrite (RGAOperation.formats u key) σ = lastWrite (RGAOperation.formats u key) τ := by
  have hS' : InsertsDistinct τ :=
    ⟨fun i j hi hj => hS.insert_inj i j ((hmem _).mpr hi) ((hmem _).mpr hj),
      fun i hi => hS.uid_ne_root i ((hmem _).mpr hi)⟩
  obtain ⟨hwf, hcells⟩ := wellFormed_cells hS hσ
  obtain ⟨hwf', hcells'⟩ := wellFormed_cells hS' hτ
  have heq : (empty.applyOperations σ).cells = (empty.applyOperations τ).cells := by
    rw [hcells, hcells']
    refine replay_eq (causal_edits hσ) (causal_edits hτ) (fun e => ?_) hS.uniqueGivers
    simp only [mem_edits, hmem]
  refine ⟨heq, ?_, ?_, ?_, fun u key => ?_⟩
  · rw [toText_eq_cells, toText_eq_cells, heq]
  · rw [hwf.length_eq, hwf'.length_eq, heq]
  · rw [hwf.nodeCount_eq, hwf'.nodeCount_eq, heq]
  · rw [attributeOf_applyOperations hS hσ, attributeOf_applyOperations hS' hτ]

/-- Two sites format the same character, and a third deletes it; the second replica hears of the
FORMATs the other way round, and of the INSERT twice. -/
theorem formatted_converge_two_sites :
    let a : UID := ⟨1, JSString.lit "alice"⟩
    let bold := JSString.lit "bold"
    let italic := JSString.lit "italic"
    let ia := RGAOperation.insert ⟨a, none, .string (JSString.lit "x")⟩
    let f := RGAOperation.format ⟨a, [(bold, JSString.lit "true"), (italic, JSString.lit "true")]⟩
    let g := RGAOperation.format ⟨a, [(bold, JSString.lit "false")]⟩
    let da := RGAOperation.delete ⟨a⟩
    let d := empty.applyOperations [ia, f, da, g]
    let d' := empty.applyOperations [ia, g, ia, f, da]
    d.cells = d'.cells ∧ d.toText = d'.toText ∧ d.length = d'.length ∧
      d.nodeCount = d'.nodeCount ∧
      ∀ u key, d.attributeOf u key = d'.attributeOf u key ↔
        lastWrite (RGAOperation.formats u key) [ia, f, da, g] =
          lastWrite (RGAOperation.formats u key) [ia, g, ia, f, da] := by
  intro a bold italic ia f g da d d'
  refine formatted_converge ⟨fun i j hi hj _ => ?_, fun i hi => ?_⟩ (fun op => ?_) ?_ ?_
  · simp only [ia, f, g, da, List.mem_cons, List.not_mem_nil, reduceCtorEq, or_false,
      RGAOperation.insert.injEq] at hi hj
    rw [hi, hj]
  · simp only [ia, f, g, da, List.mem_cons, List.not_mem_nil, reduceCtorEq, or_false,
      RGAOperation.insert.injEq] at hi
    rw [hi]
    decide
  · exact ⟨fun h => (by decide : [ia, f, da, g] ⊆ [ia, g, ia, f, da]) h,
      fun h => (by decide : [ia, g, ia, f, da] ⊆ [ia, f, da, g]) h⟩
  · decide
  · decide

/-- The two replicas of above differ in `bold` alone. -/
example :
    let a : UID := ⟨1, JSString.lit "alice"⟩
    let ia := RGAOperation.insert ⟨a, none, .string (JSString.lit "x")⟩
    let f := RGAOperation.format ⟨a, [(JSString.lit "bold", JSString.lit "true"),
      (JSString.lit "italic", JSString.lit "true")]⟩
    let g := RGAOperation.format ⟨a, [(JSString.lit "bold", JSString.lit "false")]⟩
    let d := empty.applyOperations [ia, f, g]
    let d' := empty.applyOperations [ia, g, f]
    d.attributeOf a (JSString.lit "bold") = some (JSString.lit "false") ∧
      d'.attributeOf a (JSString.lit "bold") = some (JSString.lit "true") ∧
      d.attributeOf a (JSString.lit "italic") = d'.attributeOf a (JSString.lit "italic") := by
  decide

end RGADocument

end SyncEngine
