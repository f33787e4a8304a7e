import SyncEngine.Crdt.Cells
import SyncEngine.Shared.Protocol

/-!
# `ClientRGADocument`

The browser's replica (`client/crdt/client-rga.ts`): the chain of the server's class without
attributes, with a site id and a Lamport clock from which it makes the UIDs of its own
insertions (`localInsert`, `localDelete`).

It refines the replicated list as the server's replica does (`cells_applyOperation`), with one
difference in the interface: an INSERT whose anchor is missing is dropped silently.  Whatever is
not an INSERT is taken for a DELETE (`RGAOperation.asClient`).

`Made` is what a local edit makes: an operation that builds on the replica and, if it inserts,
carries the next value of its clock.
-/

namespace SyncEngine

open ReplicatedList

/-- A node of the client's replica, which has no attributes. -/
structure ClientNode where
  uid : UID
  value : JsValue
  tombstoned : Bool
deriving DecidableEq, Repr

/-- The replica of a client (`client/crdt/client-rga.ts`), its nodes in the order of the list. -/
structure ClientRGADocument where
  siteId : JSString
  clock : Nat
  length : Int
  /-- The flag of the sentinel, which a DELETE of `rootUID` sets. -/
  rootTombstoned : Bool
  nodes : List ClientNode
deriving DecidableEq, Repr

/-- A value as `join('')` renders it. -/
def JsValue.render : JsValue → JSString
  | .string s => s
  | .object _ => JSString.lit "[object Object]"

namespace ClientRGADocument

/-- `new ClientRGADocument(siteId, clock)`. -/
def new (siteId : JSString) (initialClock : Nat := 0) : ClientRGADocument :=
  ⟨siteId, initialClock, 0, false, []⟩

/-! ## Remote operations -/

/-- Inserts behind `after`, past the nodes with a greater UID; an INSERT whose anchor is missing is
dropped without a word. -/
def applyInsert (d : ClientRGADocument) (op : InsertOperation) : ClientRGADocument :=
  if Chain.indexHas ClientNode.uid (uidKey op.uid) d.nodes then d
  else if Chain.indexHas ClientNode.uid (afterKey op.after) d.nodes then
    { d with
      clock := if op.uid.clock > d.clock then op.uid.clock else d.clock
      nodes := Chain.splice ClientNode.uid (afterKey op.after) ⟨op.uid, op.value, false⟩ d.nodes
      length := d.length + 1 }
  else d

/-- Leaves a tombstone.  The sentinel is in the index too and can be deleted. -/
def applyDelete (d : ClientRGADocument) (op : DeleteOperation) : ClientRGADocument :=
  let key := uidKey op.uid
  if key = uidKey rootUID then
    if d.rootTombstoned then d else { d with rootTombstoned := true, length := d.length - 1 }
  else
    match Chain.indexGet ClientNode.uid key d.nodes with
    | none => d
    | some node =>
        if node.tombstoned then d
        else
          { d with
            nodes := Chain.updateNode ClientNode.uid key (fun n => { n with tombstoned := true })
              d.nodes
            length := d.length - 1 }

/-- Everything but an INSERT is taken for a DELETE of its `uid`. -/
def applyOperation (d : ClientRGADocument) : RGAOperation → ClientRGADocument
  | .insert op => d.applyInsert op
  | op => d.applyDelete ⟨op.uid⟩

/-- A sequence of operations, applied one by one. -/
def applyOperations (d : ClientRGADocument) (ops : List RGAOperation) : ClientRGADocument :=
  ops.foldl applyOperation d

/-! ## Queries -/

/-- The values of the live nodes, an object among them as JavaScript prints it. -/
def toText (d : ClientRGADocument) : JSString :=
  Chain.textOf (fun n => if n.tombstoned then [] else n.value.render) d.nodes

/-- The loop of `indexToUID`, with `idx` live nodes already passed. -/
def indexToUIDFrom (targetIdx : Nat) : Nat → List ClientNode → Option UID
  | _, [] => none
  | idx, n :: rest =>
      if n.tombstoned then indexToUIDFrom targetIdx idx rest
      else if idx + 1 = targetIdx then some n.uid
      else indexToUIDFrom targetIdx (idx + 1) rest

/-- The UID of the node at a visible index, which starts at one. -/
def indexToUID (d : ClientRGADocument) (targetIdx : Nat) : Option UID :=
  indexToUIDFrom targetIdx 0 d.nodes

/-- The anchor of an INSERT at a visible index; `null` is the beginning. -/
def getAfterUID (d : ClientRGADocument) (index : Nat) : Option UID :=
  if index = 0 then none else d.indexToUID index

/-! ## Local operations -/

/-- Makes the INSERT of `char` at the visible position `index` and applies it. -/
def localInsert (d : ClientRGADocument) (index : Nat) (char : JSString) :
    ClientRGADocument × InsertOperation :=
  let d := { d with clock := d.clock + 1 }
  let op : InsertOperation := ⟨⟨d.clock, d.siteId⟩, d.getAfterUID index, .string char⟩
  (d.applyInsert op, op)

/-- Makes the DELETE of the visible character at `index` and applies it. -/
def localDelete (d : ClientRGADocument) (index : Nat) :
    ClientRGADocument × Option DeleteOperation :=
  match d.indexToUID (index + 1) with
  | none => (d, none)
  | some uid => (d.applyDelete ⟨uid⟩, some ⟨uid⟩)

/-- How many characters two texts begin with in common. -/
def commonLength : List JSString → List JSString → Nat
  | c :: cs, c' :: cs' => if c = c' then commonLength cs cs' + 1 else 0
  | _, _ => 0

/-- Deletes the `n` visible characters from `start` on, the last one first. -/
def deleteRange (d : ClientRGADocument) (start : Nat) : Nat → ClientRGADocument × List RGAOperation
  | 0 => (d, [])
  | n + 1 =>
      let (d, op) := d.localDelete (start + n)
      let (d, ops) := d.deleteRange start n
      (d, op.toList.map .delete ++ ops)

/-- Inserts the characters one behind the other from the visible position `index` on. -/
def insertRange (d : ClientRGADocument) (index : Nat) :
    List JSString → ClientRGADocument × List RGAOperation
  | [] => (d, [])
  | char :: chars =>
      let (d, op) := d.localInsert index char
      let (d, ops) := d.insertRange (index + 1) chars
      (d, .insert op :: ops)

/-- Turns the text `before` into `after`: what lies between their common beginning and their common
end is deleted and inserted. -/
def diffToOperations (d : ClientRGADocument) (before after : JSString) :
    ClientRGADocument × List RGAOperation :=
  let prefixLen := commonLength before.codePoints after.codePoints
  let beforeChars := before.codePoints.drop prefixLen
  let afterChars := after.codePoints.drop prefixLen
  let suffixLen := commonLength beforeChars.reverse afterChars.reverse
  let (d, deletes) := d.deleteRange prefixLen (beforeChars.length - suffixLen)
  let (d, inserts) := d.insertRange prefixLen (afterChars.take (afterChars.length - suffixLen))
  (d, deletes ++ inserts)

/-! ## Serialization -/

/-- A serialized node as the client reads it. -/
def ofSerialized (n : SerializedRGANode) : ClientNode :=
  ⟨⟨n.clock, n.siteId⟩, n.value, n.tombstoned⟩

/-- The replica of a snapshot, with the greatest clock in it. -/
def deserialize (nodes : List SerializedRGANode) (siteId : JSString) (clock : Nat := 0) :
    ClientRGADocument where
  siteId := siteId
  clock := nodes.foldl (fun clock n => if n.clock > clock then n.clock else clock) clock
  length := nodes.countP fun n => !n.tombstoned
  rootTombstoned := false
  nodes := nodes.map ofSerialized

end ClientRGADocument

/-- How the client reads an operation: whatever is not an INSERT is a DELETE. -/
def RGAOperation.asClient : RGAOperation → RGAOperation
  | .insert op => .insert op
  | op => .delete ⟨op.uid⟩

/-! ## Replicas as lists of cells -/

/-- The node as an abstract list sees it. -/
def ClientNode.cell (n : ClientNode) : Cell UID JsValue := ⟨n.uid, n.value, n.tombstoned⟩

lemma ClientNode.cell_id (n : ClientNode) : n.cell.id = n.uid := rfl

/-- The visible text of a list of cells, as the client shows it. -/
def shownText (cells : List (Cell UID JsValue)) : JSString :=
  Chain.textOf (fun c => if c.dead then [] else c.value.render) cells

namespace ClientRGADocument

/-- The abstract view of a replica. -/
def cells (d : ClientRGADocument) : List (Cell UID JsValue) := d.nodes.map ClientNode.cell

lemma ids_cells (d : ClientRGADocument) : ids d.cells = d.nodes.map ClientNode.uid := by
  simp [ids, cells, ClientNode.cell]

lemma toText_eq (d : ClientRGADocument) : d.toText = shownText d.cells := by
  simp only [toText, shownText, Chain.textOf, cells, List.flatMap_map]
  rfl

lemma nodes_eq_iff_cells_eq {d d' : ClientRGADocument} :
    d.nodes = d'.nodes ↔ d.cells = d'.cells := by
  refine ⟨congrArg (List.map ClientNode.cell), fun h => ?_⟩
  refine List.map_injective_iff.mpr ?_ h
  rintro ⟨u, v, t⟩ ⟨u', v', t'⟩ hcell
  simpa [ClientNode.cell] using hcell

lemma cells_deserialize (nodes : List SerializedRGANode) (siteId : JSString) (clock : Nat) :
    (deserialize nodes siteId clock).cells = nodes.map SerializedRGANode.cell := by
  simp only [cells, deserialize, List.map_map]
  rfl

/-- What an INSERT does: nothing when its UID is known or its anchor missing, and a splice
otherwise. -/
lemma applyInsert_cases (d : ClientRGADocument) {op : InsertOperation} (hroot : op.uid ≠ rootUID) :
    (op.uid ∈ ids d.cells ∧ d.applyInsert op = d) ∨
    (op.uid ∉ ids d.cells ∧ (∀ a, anchor op.after = some a → a ∈ ids d.cells) ∧
      (d.applyInsert op).siteId = d.siteId ∧
      (d.applyInsert op).clock = max d.clock op.uid.clock ∧
      (d.applyInsert op).cells = place (anchor op.after) ⟨op.uid, op.value, false⟩ d.cells) ∨
    (op.uid ∉ ids d.cells ∧ (∃ a, anchor op.after = some a ∧ a ∉ ids d.cells) ∧
      d.applyInsert op = d) := by
  rw [applyInsert]
  by_cases hknown : op.uid ∈ ids d.cells
  · rw [if_pos (Chain.indexHas_iff.mpr (Or.inr (ids_cells d ▸ hknown)))]
    exact Or.inl ⟨hknown, rfl⟩
  · have hhas : ¬ Chain.indexHas ClientNode.uid (uidKey op.uid) d.nodes = true := by
      rw [Chain.indexHas_iff, ← ids_cells]
      exact fun h => h.elim hroot hknown
    rw [if_neg hhas]
    by_cases hafter : ∀ a, anchor op.after = some a → a ∈ ids d.cells
    · rw [if_pos (Chain.indexHas_afterKey_iff.mpr (ids_cells d ▸ hafter))]
      refine Or.inr (Or.inl ⟨hknown, hafter, rfl, ?_, ?_⟩)
      · simp only
        split <;> omega
      · exact Chain.map_cell_splice ClientNode.cell_id op.after ⟨op.uid, op.value, false⟩ d.nodes
    · have hgap : ¬ Chain.indexHas ClientNode.uid (afterKey op.after) d.nodes = true := by
        rw [Chain.indexHas_afterKey_iff, ← ids_cells]
        exact hafter
      rw [if_neg hgap]
      exact Or.inr (Or.inr ⟨hknown, by simpa using hafter, rfl⟩)

/-- **An INSERT computes its edit.** -/
theorem cells_applyInsert (d : ClientRGADocument) {op : InsertOperation}
    (hroot : op.uid ≠ rootUID) : (d.applyInsert op).cells = op.edit.step d.cells := by
  rw [InsertOperation.edit, Edit.step]
  rcases d.applyInsert_cases hroot with
    ⟨hknown, heq⟩ | ⟨hnew, -, -, -, hcells⟩ | ⟨hnew, ⟨a, ha, hgap⟩, heq⟩
  · rw [if_pos hknown, heq]
  · rw [if_neg hnew, hcells]
  · rw [if_neg hnew, heq, ha]
    exact (SkipInsert.insertAfter_of_notMem hgap _).symm

/-- **A DELETE computes its edit.** -/
theorem cells_applyDelete {d : ClientRGADocument} (hnd : (ids d.cells).Nodup)
    {op : DeleteOperation} (hroot : op.uid ≠ rootUID) :
    (d.applyDelete op).cells = Edit.step d.cells (.delete op.uid) := by
  simp only [applyDelete, uidKey_inj, hroot, if_false]
  cases hget : Chain.indexGet ClientNode.uid (uidKey op.uid) d.nodes with
  | none =>
      have hmissing : op.uid ∉ ids d.cells := ids_cells d ▸ Chain.indexGet_eq_none.mp hget
      have hkill : ∀ c ∈ d.cells, c.kill op.uid = c := fun c hc =>
        Cell.kill_of_ne fun h => hmissing (h ▸ List.mem_map_of_mem hc)
      rw [Edit.step, List.map_congr_left hkill, List.map_id']
  | some n =>
      obtain ⟨hmem, hn⟩ := Chain.indexGet_some hget
      simp only
      split
      · rename_i htomb
        rw [← hn]
        exact (step_of_settled
          (settled_delete_of_dead hnd (List.mem_map_of_mem hmem) htomb)).symm
      · exact Chain.map_cell_tombstone ClientNode.cell_id (fun _ => rfl) op.uid d.nodes

/-- **`applyOperation` computes the edit**, as on the server. -/
theorem cells_applyOperation {d : ClientRGADocument} (hnd : (ids d.cells).Nodup)
    {op : RGAOperation} (hroot : op.uid ≠ rootUID) {e : Edit UID JsValue}
    (he : op.edit? = some e) : (d.applyOperation op).cells = e.step d.cells := by
  cases op with
  | insert op =>
      obtain rfl : op.edit = e := by simpa [RGAOperation.edit?] using he
      exact d.cells_applyInsert hroot
  | delete op =>
      obtain rfl : Edit.delete op.uid = e := by simpa [RGAOperation.edit?] using he
      exact cells_applyDelete hnd hroot
  | format op => simp [RGAOperation.edit?] at he
  | rollback op => simp [RGAOperation.edit?] at he

lemma applyOperation_asClient (d : ClientRGADocument) (op : RGAOperation) :
    d.applyOperation op.asClient = d.applyOperation op := by
  cases op <;> rfl

lemma cells_applyOperation_root (d : ClientRGADocument) {op : RGAOperation}
    (hroot : op.uid = rootUID) : (d.applyOperation op).cells = d.cells := by
  have hdelete : (d.applyDelete ⟨op.uid⟩).cells = d.cells := by
    simp only [applyDelete, hroot, if_true]
    split <;> rfl
  cases op with
  | insert op =>
      have hhas : Chain.indexHas ClientNode.uid (uidKey op.uid) d.nodes = true :=
        Chain.indexHas_iff.mpr (Or.inl hroot)
      rw [applyOperation, applyInsert, if_pos hhas]
  | delete op => exact hdelete
  | format op => exact hdelete
  | rollback op => exact hdelete

/-- Whatever the replica, an operation makes the same edit of it, or none. -/
lemma cells_applyOperation_cases (op : RGAOperation) :
    (∀ d : ClientRGADocument, (d.applyOperation op).cells = d.cells) ∨
      ∃ e : Edit UID JsValue, ∀ d : ClientRGADocument, (ids d.cells).Nodup →
        (d.applyOperation op).cells = e.step d.cells := by
  have hedit : op.asClient.IsEdit := by cases op <;> trivial
  by_cases hroot : op.asClient.uid = rootUID
  · refine Or.inl fun d => ?_
    rw [← d.applyOperation_asClient, d.cells_applyOperation_root hroot]
  · obtain ⟨e, he⟩ := exists_edit hedit
    refine Or.inr ⟨e, fun d hnd => ?_⟩
    rw [← d.applyOperation_asClient, cells_applyOperation hnd hroot he]

lemma nodup_applyOperation {d : ClientRGADocument} (hnd : (ids d.cells).Nodup) (op : RGAOperation) :
    (ids (d.applyOperation op).cells).Nodup := by
  rcases cells_applyOperation_cases op with hcells | ⟨e, hcells⟩
  · rwa [hcells]
  · rw [hcells d hnd]
    exact nodup_ids_step hnd e

lemma behind_applyOperation {d : ClientRGADocument} (hnd : (ids d.cells).Nodup)
    (op : RGAOperation) : Behind d.cells (d.applyOperation op).cells := by
  rcases cells_applyOperation_cases op with hcells | ⟨e, hcells⟩
  · rw [hcells]
    exact .refl _
  · rw [hcells d hnd]
    exact behind_step _ e

/-- The replica that has seen more still has when both apply the same operation. -/
lemma behind_applyOperation_both {d d' : ClientRGADocument} (h : Behind d.cells d'.cells)
    (hnd : (ids d.cells).Nodup) (hnd' : (ids d'.cells).Nodup) (op : RGAOperation) :
    Behind (d.applyOperation op).cells (d'.applyOperation op).cells := by
  rcases cells_applyOperation_cases op with hcells | ⟨e, hcells⟩
  · rwa [hcells, hcells]
  · rw [hcells d hnd, hcells d' hnd']
    exact h.step e

/-- A sequence of INSERTs and DELETEs of nodes makes its edits. -/
lemma cells_applyOperations {d : ClientRGADocument} (hnd : (ids d.cells).Nodup)
    {ops : List RGAOperation} (hops : ∀ op ∈ ops, op.IsEdit ∧ op.uid ≠ rootUID) :
    (d.applyOperations ops).cells = (edits ops).foldl Edit.step d.cells := by
  induction ops generalizing d with
  | nil => rfl
  | cons op ops ih =>
      obtain ⟨hedit, hroot⟩ := hops op (List.mem_cons_self ..)
      obtain ⟨e, he⟩ := exists_edit hedit
      have hedits : edits (op :: ops) = e :: edits ops := by simp [edits, he]
      have hrest := ih (nodup_applyOperation hnd op) fun p hp => hops p (List.mem_cons_of_mem _ hp)
      rw [cells_applyOperation hnd hroot he] at hrest
      rw [hedits, List.foldl_cons, ← hrest]
      rfl

/-- An operation keeps the site and never turns the clock back. -/
lemma applyOperation_clock (d : ClientRGADocument) (op : RGAOperation) :
    (d.applyOperation op).siteId = d.siteId ∧ d.clock ≤ (d.applyOperation op).clock := by
  have hdelete : ∀ u, (d.applyDelete ⟨u⟩).siteId = d.siteId ∧
      d.clock ≤ (d.applyDelete ⟨u⟩).clock := by
    intro u
    simp only [applyDelete]
    split
    · split <;> exact ⟨rfl, Nat.le_refl _⟩
    · split
      · exact ⟨rfl, Nat.le_refl _⟩
      · split <;> exact ⟨rfl, Nat.le_refl _⟩
  cases op with
  | insert op =>
      simp only [applyOperation, applyInsert]
      split
      · exact ⟨rfl, Nat.le_refl _⟩
      · split
        · refine ⟨rfl, ?_⟩
          simp only
          split <;> omega
        · exact ⟨rfl, Nat.le_refl _⟩
  | delete op => exact hdelete op.uid
  | format op => exact hdelete op.uid
  | rollback op => exact hdelete op.uid

/-! ## What a local edit makes -/

lemma indexToUIDFrom_mem {targetIdx : Nat} {nodes : List ClientNode} {u : UID} :
    ∀ {idx : Nat}, indexToUIDFrom targetIdx idx nodes = some u → u ∈ nodes.map ClientNode.uid := by
  induction nodes with
  | nil => simp [indexToUIDFrom]
  | cons n rest ih =>
      intro idx h
      rw [indexToUIDFrom] at h
      split at h
      · exact List.mem_cons_of_mem _ (ih h)
      · split at h
        · obtain rfl := Option.some.inj h
          exact List.mem_cons_self ..
        · exact List.mem_cons_of_mem _ (ih h)

lemma indexToUID_mem {d : ClientRGADocument} {targetIdx : Nat} {u : UID}
    (h : d.indexToUID targetIdx = some u) : u ∈ ids d.cells := by
  rw [ids_cells]
  exact indexToUIDFrom_mem h

lemma getAfterUID_mem {d : ClientRGADocument} {index : Nat} {u : UID}
    (h : d.getAfterUID index = some u) : u ∈ ids d.cells := by
  rw [getAfterUID] at h
  split at h
  · simp at h
  · exact indexToUID_mem h

/-- The replica `d'` is `d` after it made the operation `op`: the operation builds on nodes of
`d`, a new node carries the next clock, and `d'` is what the operation makes of `d`. -/
structure Made (d : ClientRGADocument) (op : RGAOperation) (d' : ClientRGADocument) : Prop where
  isEdit : op.IsEdit
  needs_mem : ∀ u ∈ op.needs, u ∈ ids d.cells
  inserted_eq : ∀ u ∈ op.inserted, u = ⟨d.clock + 1, d.siteId⟩
  cells_eq : ∀ e, op.edit? = some e → d'.cells = e.step d.cells
  siteId_eq : d'.siteId = d.siteId
  clock_le : d.clock ≤ d'.clock
  inserted_le : ∀ u ∈ op.inserted, u.clock ≤ d'.clock

/-- What an operation names: the node it inserts and the nodes it needs. -/
lemma Made.named_ne_root {d d' : ClientRGADocument} {op : RGAOperation} (h : Made d op d')
    (hroot : rootUID ∉ ids d.cells) (hsite : d.siteId ≠ rootUID.siteId) :
    ∀ u ∈ op.named, u ≠ rootUID := by
  have hneeds : ∀ u ∈ op.needs, u ≠ rootUID := fun u hu hur => hroot (hur ▸ h.needs_mem u hu)
  cases op with
  | insert op =>
      intro u hu
      rcases List.mem_cons.mp hu with rfl | hu
      · rw [h.inserted_eq op.uid rfl]
        exact fun hur => hsite (congrArg UID.siteId hur)
      · exact hneeds u (Option.mem_toList.mp hu)
  | delete op =>
      intro u hu
      exact hneeds u (congrArg some (List.mem_singleton.mp hu).symm)
  | format _ => exact absurd h.isEdit id
  | rollback _ => exact absurd h.isEdit id

/-- **A local INSERT** is made from the replica it is applied to. -/
theorem made_localInsert (d : ClientRGADocument) (hsite : d.siteId ≠ rootUID.siteId)
    (index : Nat) (char : JSString) :
    Made d (.insert (d.localInsert index char).2) (d.localInsert index char).1 := by
  let d₁ : ClientRGADocument := { d with clock := d.clock + 1 }
  let op : InsertOperation := ⟨⟨d₁.clock, d₁.siteId⟩, d₁.getAfterUID index, .string char⟩
  have hroot : op.uid ≠ rootUID := fun h => hsite (congrArg UID.siteId h)
  have hclock := d₁.applyOperation_clock (.insert op)
  have hafter : ∀ u, op.after = some u → u ∈ ids d₁.cells := fun u hu => getAfterUID_mem hu
  refine ⟨trivial, hafter, fun u hu => (Option.some.inj hu).symm, fun e he => ?_, hclock.1,
    (Nat.le_succ _).trans hclock.2, fun u hu => ?_⟩
  · obtain rfl : op.edit = e := Option.some.inj he
    exact d₁.cells_applyInsert hroot
  · obtain rfl : op.uid = u := Option.some.inj hu
    exact hclock.2

/-- **A local DELETE**, if the position exists, likewise. -/
theorem made_localDelete {d : ClientRGADocument} (hnd : (ids d.cells).Nodup)
    (hroot : rootUID ∉ ids d.cells) {index : Nat} {d' : ClientRGADocument} {op : DeleteOperation}
    (h : d.localDelete index = (d', some op)) : Made d (.delete op) d' := by
  rw [localDelete] at h
  split at h
  · simp at h
  · rename_i u hu
    obtain ⟨rfl, rfl⟩ : d.applyDelete ⟨u⟩ = d' ∧ (⟨u⟩ : DeleteOperation) = op := by simpa using h
    have hmem := indexToUID_mem hu
    have hne : u ≠ rootUID := fun hur => hroot (hur ▸ hmem)
    have hclock := d.applyOperation_clock (.delete ⟨u⟩)
    refine ⟨trivial, fun w hw => ?_, by simp [RGAOperation.inserted], fun e he => ?_, hclock.1,
      hclock.2, by simp [RGAOperation.inserted]⟩
    · obtain rfl : u = w := Option.some.inj hw
      exact hmem
    · obtain rfl : Edit.delete u = e := by simpa [RGAOperation.edit?] using he
      exact cells_applyDelete hnd hne

/-! ## Several local edits -/

/-- The operations that some local edits make, one after the other. -/
inductive Edits : ClientRGADocument → List RGAOperation → ClientRGADocument → Prop
  | nil (d : ClientRGADocument) : Edits d [] d
  | insert {d d' : ClientRGADocument} {ops : List RGAOperation} (index : Nat) (char : JSString)
      (h : Edits (d.localInsert index char).1 ops d') :
      Edits d (.insert (d.localInsert index char).2 :: ops) d'
  | delete {d d₁ d' : ClientRGADocument} {ops : List RGAOperation} {op : DeleteOperation}
      (index : Nat) (hop : d.localDelete index = (d₁, some op)) (h : Edits d₁ ops d') :
      Edits d (.delete op :: ops) d'

lemma Edits.append {d₁ d₂ d₃ : ClientRGADocument} {ops ops' : List RGAOperation}
    (h : Edits d₁ ops d₂) (h' : Edits d₂ ops' d₃) : Edits d₁ (ops ++ ops') d₃ := by
  induction h with
  | nil => exact h'
  | insert index char _ ih => exact .insert index char (ih h')
  | delete index hop _ ih => exact .delete index hop (ih h')

lemma localDelete_none {d d' : ClientRGADocument} {index : Nat}
    (h : d.localDelete index = (d', none)) : d' = d := by
  rw [localDelete] at h
  split at h
  · exact (Prod.mk.inj h).1.symm
  · simp at h

lemma edits_deleteRange (d : ClientRGADocument) (start n : Nat) :
    Edits d (d.deleteRange start n).2 (d.deleteRange start n).1 := by
  induction n generalizing d with
  | zero => exact .nil d
  | succ n ih =>
      simp only [deleteRange]
      cases hdelete : d.localDelete (start + n) with
      | mk d₁ op? =>
          cases op? with
          | none =>
              obtain rfl := localDelete_none hdelete
              exact ih d₁
          | some op => exact .delete _ hdelete (ih d₁)

lemma edits_insertRange (d : ClientRGADocument) (index : Nat) (chars : List JSString) :
    Edits d (d.insertRange index chars).2 (d.insertRange index chars).1 := by
  induction chars generalizing d index with
  | nil => exact .nil d
  | cons char chars ih => exact .insert index char (ih _ _)

/-- The INSERT of a local edit carries the next clock. -/
lemma clock_localInsert (d : ClientRGADocument) (index : Nat) (char : JSString) :
    (d.localInsert index char).1.clock = d.clock + 1 ∧
      (d.localInsert index char).1.siteId = d.siteId ∧
        (d.localInsert index char).2.uid = ⟨d.clock + 1, d.siteId⟩ := by
  simp only [localInsert, applyInsert]
  split
  · simp
  · split <;> simp

lemma clock_localDelete {d d' : ClientRGADocument} {index : Nat} {op : Option DeleteOperation}
    (h : d.localDelete index = (d', op)) : d'.clock = d.clock ∧ d'.siteId = d.siteId := by
  have hdelete : ∀ u, (d.applyDelete ⟨u⟩).clock = d.clock ∧
      (d.applyDelete ⟨u⟩).siteId = d.siteId := by
    intro u
    simp only [applyDelete]
    split
    · split <;> exact ⟨rfl, rfl⟩
    · split
      · exact ⟨rfl, rfl⟩
      · split <;> exact ⟨rfl, rfl⟩
  rw [localDelete] at h
  split at h
  · exact (Prod.mk.inj h).1 ▸ ⟨rfl, rfl⟩
  · exact (Prod.mk.inj h).1 ▸ hdelete _

/-- **The UIDs of local edits** are consecutive, from the next clock on. -/
theorem Edits.uids {d d' : ClientRGADocument} {ops : List RGAOperation} (h : Edits d ops d') :
    ∃ n, ops.filterMap RGAOperation.inserted =
        (List.range' (d.clock + 1) n).map (fun clock => ⟨clock, d.siteId⟩) ∧
      d'.clock = d.clock + n ∧ d'.siteId = d.siteId := by
  induction h with
  | nil d => exact ⟨0, rfl, rfl, rfl⟩
  | @insert d d' ops index char _ ih =>
      obtain ⟨n, huids, hclock, hsite⟩ := ih
      obtain ⟨hclock₁, hsite₁, huid⟩ := d.clock_localInsert index char
      have hinserted : (RGAOperation.insert (d.localInsert index char).2).inserted =
          some ⟨d.clock + 1, d.siteId⟩ := congrArg some huid
      refine ⟨n + 1, ?_, by omega, hsite.trans hsite₁⟩
      rw [List.filterMap_cons_some hinserted, huids, hclock₁, hsite₁, List.range'_succ,
        List.map_cons]
  | delete index hop _ ih =>
      obtain ⟨n, huids, hclock, hsite⟩ := ih
      obtain ⟨hclock₁, hsite₁⟩ := clock_localDelete hop
      refine ⟨n, ?_, by omega, hsite.trans hsite₁⟩
      rw [List.filterMap_cons_none rfl, huids, hclock₁, hsite₁]

lemma Edits.behind {d d' : ClientRGADocument} {ops : List RGAOperation} (h : Edits d ops d')
    (hnd : (ids d.cells).Nodup) : Behind d.cells d'.cells ∧ (ids d'.cells).Nodup := by
  induction h with
  | nil d => exact ⟨.refl _, hnd⟩
  | @insert d d' ops index char _ ih =>
      let d₁ : ClientRGADocument := { d with clock := d.clock + 1 }
      have hnd₁ : (ids d₁.cells).Nodup := hnd
      obtain ⟨hbehind, hnd'⟩ := ih (nodup_applyOperation hnd₁ (.insert _))
      exact ⟨(behind_applyOperation hnd₁ (.insert _)).trans hbehind, hnd'⟩
  | delete index hdelete _ ih =>
      rw [localDelete] at hdelete
      split at hdelete
      · simp at hdelete
      · obtain ⟨rfl, -⟩ := Prod.mk.inj hdelete
        obtain ⟨hbehind, hnd'⟩ := ih (nodup_applyOperation hnd (.delete _))
        exact ⟨(behind_applyOperation hnd (.delete _)).trans hbehind, hnd'⟩

/-- A batch edit is a sequence of local edits. -/
theorem edits_diffToOperations (d : ClientRGADocument) (before after : JSString) :
    Edits d (d.diffToOperations before after).2 (d.diffToOperations before after).1 :=
  (edits_deleteRange d _ _).append (edits_insertRange _ _ _)

end ClientRGADocument

end SyncEngine
