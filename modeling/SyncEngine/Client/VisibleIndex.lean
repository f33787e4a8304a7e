import SyncEngine.Client.LocalEdits
import SyncEngine.Crdt.LinkedRuns

/-!
# Visible indices and UIDs

`indexToUID` and `uidToIndex` of both classes (`crdt/rga-document.ts`,
`client/crdt/client-rga.ts`).  The two walks of a class are inverse to each other, up to the bases
they count from: `indexToUID` counts from one, `uidToIndex` from zero on the server and from one
on the client.

All four are read off the list of the UIDs that are shown (`shownIds`): the one is a lookup, the
other the position of an element (`indexToUID_eq`, `uidToIndex_eq`).  A UID occurs once in a
document, so they are inverse (`indices_inverse`).
-/

namespace SyncEngine

open ReplicatedList

/-- The UIDs of the nodes that are shown, in the order of the document. -/
def shownIds (cells : List (Cell UID JsValue)) : List UID := ids (cells.filter fun c => !c.dead)

lemma shownIds_cons_of_live {c : Cell UID JsValue} (h : c.dead = false)
    (cells : List (Cell UID JsValue)) : shownIds (c :: cells) = c.id :: shownIds cells := by
  simp [shownIds, ids, h]

lemma shownIds_cons_of_dead {c : Cell UID JsValue} (h : c.dead = true)
    (cells : List (Cell UID JsValue)) : shownIds (c :: cells) = shownIds cells := by
  simp [shownIds, h]

lemma length_shownIds (cells : List (Cell UID JsValue)) :
    (shownIds cells).length = (visible cells).length := by
  rw [shownIds, ids, visible, List.length_map, List.length_map]

lemma nodup_shownIds {cells : List (Cell UID JsValue)} (h : (ids cells).Nodup) :
    (shownIds cells).Nodup := (List.filter_sublist.map Cell.id).nodup h

/-- A UID is shown unless it is absent or tombstoned. -/
lemma notMem_shownIds_iff {cells : List (Cell UID JsValue)} {u : UID} :
    u ∉ shownIds cells ↔ ∀ c ∈ cells, c.id = u → c.dead = true := by
  simp only [shownIds, ids, List.mem_map, List.mem_filter, not_exists, not_and, and_imp]
  refine forall₂_congr fun c _ => ⟨fun h hid => ?_, fun h hlive hid => ?_⟩
  · by_contra hlive
    exact h (by simpa using hlive) hid
  · simp [h hid] at hlive

/-- A walk that passes tombstones and stops at the shown node number `index` looks it up. -/
lemma walk_eq_lookup {ν : Type} (cell : ν → Cell UID JsValue) {index : Nat}
    {walk : Nat → List ν → Option UID} (hnil : ∀ idx, walk idx [] = none)
    (hdead : ∀ idx n rest, (cell n).dead = true → walk idx (n :: rest) = walk idx rest)
    (hlive : ∀ idx n rest, (cell n).dead = false →
      walk idx (n :: rest) = if idx + 1 = index then some (cell n).id else walk (idx + 1) rest)
    (nodes : List ν) (idx : Nat) (h : idx < index) :
    walk idx nodes = (shownIds (nodes.map cell))[index - idx - 1]? := by
  induction nodes generalizing idx with
  | nil => exact hnil idx
  | cons n nodes ih =>
      rw [List.map_cons]
      cases htomb : (cell n).dead with
      | true => rw [hdead idx n nodes htomb, ih idx h, shownIds_cons_of_dead htomb]
      | false =>
          rw [hlive idx n nodes htomb, shownIds_cons_of_live htomb]
          by_cases hhere : idx + 1 = index
          · rw [if_pos hhere, ← hhere, Nat.add_sub_cancel_left, Nat.sub_self]
            rfl
          · obtain ⟨k, hk⟩ : ∃ k, index - idx - 1 = k + 1 := ⟨index - idx - 2, by omega⟩
            rw [if_neg hhere, ih (idx + 1) (by omega), hk, List.getElem?_cons_succ]
            congr 1
            omega

/-! ## The server's class -/

namespace RGADocument

/-- The nodes that are shown. -/
def toNodes (d : RGADocument) : List RGANode := d.nodes.filter fun n => !n.tombstoned

/-- The loop of `indexToUID`, with `idx` live nodes already passed. -/
def indexToUIDFrom (index : Nat) : Nat → List RGANode → Option UID
  | _, [] => none
  | idx, n :: rest =>
      if n.tombstoned then indexToUIDFrom index idx rest
      else if idx + 1 = index then some n.uid
      else indexToUIDFrom index (idx + 1) rest

/-- The UID of the node at a visible index, which starts at one. -/
def indexToUID (d : RGADocument) (index : Nat) : Option UID :=
  if index = 0 then none else indexToUIDFrom index 0 d.nodes

/-- The anchor of an INSERT at a visible index; `null` is the beginning. -/
def getAfterUID (d : RGADocument) (index : Nat) : Option UID :=
  if index = 0 then none else d.indexToUID index

/-- The documents that a run of operations, collections and rebuilt snapshots leads to. -/
inductive Reachable : RGADocument → Prop
  | empty : Reachable empty
  | operation {d : RGADocument} (op : RGAOperation) (h : Reachable d) :
      Reachable (d.applyOperation op).1
  | gc {d : RGADocument} (h : Reachable d) : Reachable d.gc.1
  | deserialize {d : RGADocument} (h : Reachable d) : Reachable (deserialize d.serialize)

lemma Indexed.gc {d : RGADocument} (h : Indexed d) : Indexed d.gc.1 := by
  have hsub : (ids d.gc.1.cells).Sublist (ids d.cells) := by
    rw [ids_cells, ids_cells]
    exact List.Sublist.map _ List.filter_sublist
  exact ⟨hsub.nodup h.nodup, fun hmem => h.root_notMem (hsub.subset hmem)⟩

lemma Reachable.indexed {d : RGADocument} (h : Reachable d) : Indexed d := by
  induction h with
  | empty => exact indexed_empty
  | operation op _ ih => exact ih.applyOperation op
  | gc _ ih => exact ih.gc
  | deserialize _ ih =>
      exact ih.of_cells_eq (congrArg (List.map RGANode.cell) (nodes_deserialize_serialize _))

/-- `indexToUID` looks up the shown UIDs, counted from one. -/
lemma indexToUID_eq (d : RGADocument) (i : Nat) :
    d.indexToUID (i + 1) = (shownIds d.cells)[i]? := by
  rw [indexToUID, if_neg (Nat.succ_ne_zero i)]
  refine walk_eq_lookup RGANode.cell (fun _ => rfl) (fun idx n rest h => ?_)
    (fun idx n rest h => ?_) d.nodes 0 (Nat.succ_pos i)
  · exact if_pos h
  · exact if_neg (ne_true_of_eq_false h)

lemma uidToIndexFrom_eq {u : UID} (nodes : List RGANode) (idx : Int) :
    uidToIndexFrom u nodes idx =
      if u ∈ shownIds (nodes.map RGANode.cell) then
        idx + (shownIds (nodes.map RGANode.cell)).idxOf u
      else -1 := by
  induction nodes generalizing idx with
  | nil => rfl
  | cons n nodes ih =>
      rw [uidToIndexFrom, List.map_cons]
      cases htomb : n.tombstoned with
      | true => rw [if_pos rfl, ih, shownIds_cons_of_dead htomb]
      | false =>
          have hiff : (n.uid.clock = u.clock ∧ n.uid.siteId = u.siteId) ↔ n.cell.id = u := by
            show _ ↔ n.uid = u
            cases u
            cases n.uid
            simp
          rw [if_neg (by simp), shownIds_cons_of_live htomb, ih]
          simp only [hiff]
          by_cases hhere : n.cell.id = u
          · simp [hhere]
          · have hne : u ≠ n.cell.id := Ne.symm hhere
            by_cases hmem : u ∈ shownIds (nodes.map RGANode.cell)
            · simp only [if_neg hhere, if_pos hmem, List.mem_cons, hne, false_or,
                List.idxOf_cons_ne _ hhere]
              push_cast
              omega
            · simp [hhere, hne, hmem]

/-- `uidToIndex` is the position among the shown UIDs, counted from zero. -/
lemma uidToIndex_eq (d : RGADocument) (u : UID) :
    d.uidToIndex (some u) =
      if u ∈ shownIds d.cells then ((shownIds d.cells).idxOf u : Int) else -1 := by
  rw [uidToIndex, uidToIndexFrom_eq]
  simp only [Int.zero_add]
  rfl

/-- **The two walks are inverse**, and `-1` is for UIDs that are absent or tombstoned. -/
structure IndexInverse (d : RGADocument) : Prop where
  of_index : ∀ i, 1 ≤ i → i ≤ d.toNodes.length →
    ∃ u, d.indexToUID i = some u ∧ d.uidToIndex (some u) = i - 1
  of_uid : ∀ n ∈ d.toNodes, ∃ i : Nat, d.uidToIndex (some n.uid) = i ∧
    d.indexToUID (i + 1) = some n.uid
  not_found : ∀ u, d.uidToIndex (some u) = -1 ↔ ∀ n ∈ d.nodes, n.uid = u → n.tombstoned = true

lemma map_uid_toNodes (d : RGADocument) : d.toNodes.map RGANode.uid = shownIds d.cells := by
  rw [toNodes, shownIds, cells, List.filter_map, ids, List.map_map]
  rfl

theorem Indexed.indexInverse {d : RGADocument} (h : Indexed d) : IndexInverse d := by
  have hnodup := nodup_shownIds h.nodup
  refine ⟨fun i hi hle => ?_, fun n hn => ?_, fun u => ?_⟩
  · obtain ⟨j, rfl⟩ := Nat.exists_eq_succ_of_ne_zero (Nat.ne_of_gt hi)
    have hlt : j < (shownIds d.cells).length := by
      rw [← d.map_uid_toNodes, List.length_map]
      exact hle
    refine ⟨(shownIds d.cells)[j], ?_, ?_⟩
    · rw [indexToUID_eq, List.getElem?_eq_getElem hlt]
    · rw [uidToIndex_eq, if_pos (List.getElem_mem hlt), hnodup.idxOf_getElem j hlt]
      push_cast
      omega
  · have hmem : n.uid ∈ shownIds d.cells := d.map_uid_toNodes ▸ List.mem_map_of_mem hn
    refine ⟨(shownIds d.cells).idxOf n.uid, ?_, ?_⟩
    · rw [uidToIndex_eq, if_pos hmem]
    · rw [indexToUID_eq, List.getElem?_idxOf hmem]
  · have hiff : (∀ n ∈ d.nodes, n.uid = u → n.tombstoned = true) ↔ u ∉ shownIds d.cells := by
      rw [notMem_shownIds_iff, cells, List.forall_mem_map]
      rfl
    rw [hiff, uidToIndex_eq]
    split <;> rename_i hmem
    · exact iff_of_false (by omega) (not_not_intro hmem)
    · exact iff_of_true rfl hmem

end RGADocument

/-! ## The objects of the server's class -/

namespace LinkedDocument

/-- The loop of `indexToUID`, from the node `node` on. -/
def indexToUIDFrom (d : LinkedDocument) (index : Nat) :
    Nat → Option Ref → Nat → Option (Option UID)
  | _, none, _ => some none
  | 0, some _, _ => none
  | fuel + 1, some node, idx =>
      let n := d.heap node
      if n.tombstoned then indexToUIDFrom d index fuel n.next idx
      else if idx + 1 = index then some (some n.uid)
      else indexToUIDFrom d index fuel n.next (idx + 1)

/-- `none` if the walk does not come to an end. -/
def indexToUID (d : LinkedDocument) (index : Nat) : Option (Option UID) :=
  if index = 0 then some none else d.indexToUIDFrom index d.size (d.heap d.root).next 0

variable {d : LinkedDocument} {L : RGADocument} {refs post : List Ref} {a : Ref}

lemma indexToUIDFrom_eq {index : Nat} (h : LinkedList.Linked d.next d.prev a post) {fuel : Nat}
    (hfuel : post.length ≤ fuel) (idx : Nat) :
    d.indexToUIDFrom index fuel post.head? idx =
      some (RGADocument.indexToUIDFrom index idx (post.map d.node)) := by
  refine h.walk_induction (motive := fun fuel node refs => ∀ idx,
    d.indexToUIDFrom index fuel node idx =
      some (RGADocument.indexToUIDFrom index idx (refs.map d.node)))
    (fun fuel idx => ?_) (fun fuel r post hnext ih idx => ?_) hfuel idx
  · cases fuel <;> rfl
  · have hnext' : (d.heap r).next = post.head? := hnext
    rw [indexToUIDFrom, hnext', ih, ih, List.map_cons, RGADocument.indexToUIDFrom]
    cases htomb : (d.heap r).tombstoned with
    | true =>
        have htomb' : (d.node r).tombstoned = true := htomb
        rw [if_pos rfl, if_pos htomb']
    | false =>
        have htomb' : ¬ (d.node r).tombstoned = true := by simp [node, htomb]
        rw [if_neg (by simp), if_neg htomb']
        exact (apply_ite some _ _ _).symm

/-- The walk along the `next` links ends, with what the list model returns. -/
theorem Represents.indexToUID (h : Represents d L refs) (index : Nat) :
    d.indexToUID index = some (L.indexToUID index) := by
  rw [LinkedDocument.indexToUID, RGADocument.indexToUID]
  split
  · rfl
  · have hnext : (d.heap d.root).next = refs.head? := h.linked.next_eq_head?
    rw [hnext, indexToUIDFrom_eq h.linked (Nat.le_of_lt h.length_lt), ← h.nodes_eq]

/-- The objects answer like a document whose two walks are inverse, after every run. -/
theorem indices_of_reached (h : Reached d) :
    ∃ L : RGADocument, L.IndexInverse ∧ (∀ index, d.indexToUID index = some (L.indexToUID index)) ∧
      ∀ uid, d.uidToIndex uid = some (L.uidToIndex uid) := by
  obtain ⟨L, hL⟩ := stands_of_reached h
  obtain ⟨refs, hrefs⟩ := hL.represents
  exact ⟨L, hL.wellFormed.toIndexed.indexInverse, hrefs.indexToUID, hrefs.uidToIndex⟩

end LinkedDocument

/-! ## The client's class -/

namespace ClientRGADocument

/-- The loop of `uidToIndex`, with `idx` live nodes already passed. -/
def uidToIndexFrom (key : JSString) : Nat → List ClientNode → Option Nat
  | _, [] => none
  | idx, n :: rest =>
      if n.tombstoned then uidToIndexFrom key idx rest
      else if uidKey n.uid = key then some (idx + 1)
      else uidToIndexFrom key (idx + 1) rest

/-- The visible index of a node, `null` if it is not shown. -/
def uidToIndex (d : ClientRGADocument) (uid : UID) : Option Nat :=
  uidToIndexFrom (uidKey uid) 0 d.nodes

/-- `indexToUID` looks up the shown UIDs, counted from one. -/
lemma indexToUID_eq (d : ClientRGADocument) (i : Nat) :
    d.indexToUID (i + 1) = (shownIds d.cells)[i]? := by
  refine walk_eq_lookup ClientNode.cell (fun _ => rfl) (fun idx n rest h => ?_)
    (fun idx n rest h => ?_) d.nodes 0 (Nat.succ_pos i)
  · exact if_pos h
  · exact if_neg (ne_true_of_eq_false h)

lemma uidToIndexFrom_eq {u : UID} (nodes : List ClientNode) (idx : Nat) :
    uidToIndexFrom (uidKey u) idx nodes =
      if u ∈ shownIds (nodes.map ClientNode.cell) then
        some (idx + (shownIds (nodes.map ClientNode.cell)).idxOf u + 1)
      else none := by
  induction nodes generalizing idx with
  | nil => rfl
  | cons n nodes ih =>
      rw [uidToIndexFrom, List.map_cons]
      cases htomb : n.tombstoned with
      | true => rw [if_pos rfl, ih, shownIds_cons_of_dead htomb]
      | false =>
          rw [if_neg (by simp), shownIds_cons_of_live htomb, ih]
          simp only [uidKey_inj, ← ClientNode.cell_id n]
          by_cases hhere : n.cell.id = u
          · simp [hhere]
          · have hne : u ≠ n.cell.id := Ne.symm hhere
            by_cases hmem : u ∈ shownIds (nodes.map ClientNode.cell)
            · simp only [if_neg hhere, if_pos hmem, List.mem_cons, hne, false_or,
                List.idxOf_cons_ne _ hhere, Option.some.injEq]
              omega
            · simp [hhere, hne, hmem]

/-- `uidToIndex` is the position among the shown UIDs, counted from one. -/
lemma uidToIndex_eq (d : ClientRGADocument) (u : UID) :
    d.uidToIndex u =
      if u ∈ shownIds d.cells then some ((shownIds d.cells).idxOf u + 1) else none := by
  rw [uidToIndex, uidToIndexFrom_eq, Nat.zero_add]
  rfl

/-- **The two walks are inverse**, and `null` is for UIDs that are absent or tombstoned. -/
structure IndexInverse (d : ClientRGADocument) : Prop where
  of_index : ∀ i, 1 ≤ i → i ≤ (d.nodes.countP fun n => !n.tombstoned) →
    ∃ u, d.indexToUID i = some u ∧ d.uidToIndex u = some i
  of_uid : ∀ n ∈ d.nodes, n.tombstoned = false →
    ∃ i, d.uidToIndex n.uid = some i ∧ d.indexToUID i = some n.uid
  not_found : ∀ u, d.uidToIndex u = none ↔ ∀ n ∈ d.nodes, n.uid = u → n.tombstoned = true

lemma length_shownIds (d : ClientRGADocument) :
    (shownIds d.cells).length = d.nodes.countP fun n => !n.tombstoned := by
  rw [SyncEngine.length_shownIds, length_visible, cells, List.countP_map]
  rfl

lemma notMem_shownIds_iff {d : ClientRGADocument} {u : UID} :
    u ∉ shownIds d.cells ↔ ∀ n ∈ d.nodes, n.uid = u → n.tombstoned = true := by
  rw [SyncEngine.notMem_shownIds_iff, cells, List.forall_mem_map]
  rfl

theorem Consistent.indexInverse {d : ClientRGADocument} (h : Consistent d) : IndexInverse d := by
  have hnodup := nodup_shownIds h.nodup
  refine ⟨fun i hi hle => ?_, fun n hn hlive => ?_, fun u => ?_⟩
  · obtain ⟨j, rfl⟩ := Nat.exists_eq_succ_of_ne_zero (Nat.ne_of_gt hi)
    have hlt : j < (shownIds d.cells).length := by
      rw [d.length_shownIds]
      exact hle
    refine ⟨(shownIds d.cells)[j], ?_, ?_⟩
    · rw [indexToUID_eq, List.getElem?_eq_getElem hlt]
    · rw [uidToIndex_eq, if_pos (List.getElem_mem hlt), hnodup.idxOf_getElem j hlt]
  · have hmem : n.uid ∈ shownIds d.cells := by
      by_contra hout
      simp [notMem_shownIds_iff.mp hout n hn rfl] at hlive
    refine ⟨(shownIds d.cells).idxOf n.uid + 1, ?_, ?_⟩
    · rw [uidToIndex_eq, if_pos hmem]
    · rw [indexToUID_eq, List.getElem?_idxOf hmem]
  · rw [← notMem_shownIds_iff, uidToIndex_eq]
    split <;> rename_i hmem
    · exact iff_of_false (by simp) (not_not_intro hmem)
    · exact iff_of_true rfl hmem

end ClientRGADocument

/-! ## Both classes -/

/-- **Index and UID are inverse** in every replica that server or client can hold. -/
theorem indices_inverse :
    (∀ d : RGADocument, d.Reachable → d.IndexInverse) ∧
      ∀ d : ClientRGADocument, d.Reachable → d.IndexInverse :=
  ⟨fun _ h => h.indexed.indexInverse, fun _ h => h.consistent.indexInverse⟩

/-- Two characters are typed, the first is deleted, and the rest is rebuilt from a snapshot. -/
def halfDeleted : RGADocument :=
  let d := (RGADocument.empty.applyOperation
    (.insert ⟨⟨1, JSString.lit "a"⟩, none, .string (JSString.lit "x")⟩)).1
  let d := (d.applyOperation (.insert
    ⟨⟨2, JSString.lit "a"⟩, some ⟨1, JSString.lit "a"⟩, .string (JSString.lit "y")⟩)).1
  let d := (d.applyOperation (.delete ⟨⟨1, JSString.lit "a"⟩⟩)).1
  RGADocument.deserialize d.serialize

/-- The same in a browser. -/
def halfDeletedTab : ClientRGADocument :=
  let d := ((ClientRGADocument.new (JSString.lit "a")).localInsert 0 (JSString.lit "x")).1
  ((d.localInsert 1 (JSString.lit "y")).1.localDelete 0).1

theorem indices_inverse_halfDeleted :
    halfDeleted.IndexInverse ∧ halfDeletedTab.IndexInverse ∧
      halfDeleted.indexToUID 1 = some ⟨2, JSString.lit "a"⟩ ∧
      halfDeletedTab.uidToIndex ⟨1, JSString.lit "a"⟩ = none :=
  ⟨indices_inverse.1 halfDeleted (.deserialize (.operation _ (.operation _ (.operation _ .empty)))),
    indices_inverse.2 halfDeletedTab
      (.localDelete _ (.localInsert _ _ (.localInsert _ _ (.new _ _)))),
    by decide +kernel, by decide +kernel⟩

end SyncEngine
