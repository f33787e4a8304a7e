import SyncEngine.Client.ClientRga

/-!
# Local edits at visible positions

A user edits at positions of the shown text; `localInsert` and `localDelete` turn a position into
the UID of a node, past the tombstones, and an INSERT then goes through the scan-right loop as a
remote one does.  The loop leaves the new node where the user typed because the Lamport clock of
a replica is never behind the clock of one of its nodes, whatever was loaded, received or typed
(`Reachable.consistent`): the new UID is greater than every UID of the replica and the loop stops
at once.

* **`local_edits_land`**: on every reachable replica `localInsert` inserts and `localDelete`
  removes at exactly the position given, under a new greatest UID, and what they return does the
  same to every replica with the same nodes.

The counter `_length` follows the visible nodes.  The one exception is a DELETE of the sentinel's
UID, which a replica applies like any other: the counter is one behind from there on.
-/

namespace SyncEngine

open ReplicatedList

namespace ClientRGADocument

/-- The replicas a client can hold: made empty or from a snapshot, whose nodes have UIDs of their
own, and changed by remote and local edits. -/
inductive Reachable : ClientRGADocument → Prop
  | new (siteId : JSString) (initialClock : Nat) : Reachable (new siteId initialClock)
  | deserialize (nodes : List SerializedRGANode) (siteId : JSString) (clock : Nat)
      (hnd : (ids (nodes.map SerializedRGANode.cell)).Nodup)
      (hroot : rootUID ∉ ids (nodes.map SerializedRGANode.cell)) :
      Reachable (deserialize nodes siteId clock)
  | remote {d : ClientRGADocument} (op : RGAOperation) (hop : op.IsEdit) (h : Reachable d) :
      Reachable (d.applyOperation op)
  | localInsert {d : ClientRGADocument} (index : Nat) (char : JSString) (h : Reachable d) :
      Reachable (d.localInsert index char).1
  | localDelete {d : ClientRGADocument} (index : Nat) (h : Reachable d) :
      Reachable (d.localDelete index).1

/-! ## The invariant of a replica -/

/-- The counter of a replica: its visible nodes, less one when the sentinel is tombstoned. -/
def Counted (d : ClientRGADocument) : Prop :=
  d.length + (if d.rootTombstoned then 1 else 0) = (visible d.cells).length

instance (d : ClientRGADocument) : Decidable d.Counted := inferInstanceAs (Decidable (_ = _))

/-- The nodes have UIDs of their own, the clock is not behind any of them, and the counter
counts. -/
structure Consistent (d : ClientRGADocument) : Prop where
  nodup : (ids d.cells).Nodup
  root_notMem : rootUID ∉ ids d.cells
  clock_ge : ∀ u ∈ ids d.cells, u.clock ≤ d.clock
  counted : Counted d

lemma consistent_new (siteId : JSString) (initialClock : Nat) :
    Consistent (new siteId initialClock) :=
  ⟨List.nodup_nil, List.not_mem_nil, by simp [new, cells], rfl⟩

/-- Reading a snapshot leaves the clock at its greatest clock, at least. -/
lemma clock_le_foldl {nodes : List SerializedRGANode} {clock : Nat} :
    clock ≤ nodes.foldl (fun clock n => if n.clock > clock then n.clock else clock) clock ∧
      ∀ n ∈ nodes,
        n.clock ≤ nodes.foldl (fun clock n => if n.clock > clock then n.clock else clock)
          clock := by
  induction nodes generalizing clock with
  | nil => simp
  | cons n nodes ih =>
      obtain ⟨hstart, hrest⟩ := @ih (if n.clock > clock then n.clock else clock)
      have hhead : clock ≤ (if n.clock > clock then n.clock else clock) ∧
          n.clock ≤ (if n.clock > clock then n.clock else clock) := by split <;> omega
      refine ⟨hhead.1.trans hstart, fun m hm => ?_⟩
      rcases List.mem_cons.mp hm with rfl | hm
      · exact hhead.2.trans hstart
      · exact hrest m hm

lemma consistent_deserialize {nodes : List SerializedRGANode} {siteId : JSString} {clock : Nat}
    (hnd : (ids (nodes.map SerializedRGANode.cell)).Nodup)
    (hroot : rootUID ∉ ids (nodes.map SerializedRGANode.cell)) :
    Consistent (deserialize nodes siteId clock) := by
  have hcells := cells_deserialize nodes siteId clock
  refine ⟨hcells ▸ hnd, hcells ▸ hroot, fun u hu => ?_, ?_⟩
  · rw [hcells, ids, List.map_map] at hu
    obtain ⟨n, hn, rfl⟩ := List.mem_map.mp hu
    exact clock_le_foldl.2 n hn
  · rw [Counted, hcells, length_visible, List.countP_map]
    simp [deserialize, Function.comp_def, SerializedRGANode.cell]

/-- An INSERT that takes effect counts one node more. -/
lemma counters_applyInsert {d : ClientRGADocument} {op : InsertOperation} (hroot : op.uid ≠ rootUID)
    (hnew : op.uid ∉ ids d.cells) (hafter : ∀ a, anchor op.after = some a → a ∈ ids d.cells) :
    (d.applyInsert op).length = d.length + 1 ∧
      (d.applyInsert op).rootTombstoned = d.rootTombstoned := by
  rw [ids_cells] at hnew hafter
  have hhas : ¬ Chain.indexHas ClientNode.uid (uidKey op.uid) d.nodes = true := by
    rw [Chain.indexHas_iff]
    exact fun h => h.elim hroot hnew
  rw [applyInsert, if_neg hhas, if_pos (Chain.indexHas_afterKey_iff.mpr hafter)]
  exact ⟨rfl, rfl⟩

lemma Consistent.applyInsert {d : ClientRGADocument} (h : Consistent d) (op : InsertOperation) :
    Consistent (d.applyInsert op) := by
  by_cases hroot : op.uid = rootUID
  · have hhas : Chain.indexHas ClientNode.uid (uidKey op.uid) d.nodes = true :=
      Chain.indexHas_iff.mpr (Or.inl hroot)
    rwa [ClientRGADocument.applyInsert, if_pos hhas]
  rcases d.applyInsert_cases hroot with ⟨-, heq⟩ | ⟨hnew, hafter, -, hclock, hcells⟩ | ⟨-, -, heq⟩
  · rwa [heq]
  · have hperm := place_perm hafter ⟨op.uid, op.value, false⟩
    have hids : (ids (d.applyInsert op).cells).Perm (op.uid :: ids d.cells) := by
      rw [hcells]
      exact hperm.map Cell.id
    refine ⟨hids.nodup_iff.mpr (List.nodup_cons.mpr ⟨hnew, h.nodup⟩), fun hmem => ?_,
      fun u hu => ?_, ?_⟩
    · rcases List.mem_cons.mp (hids.subset hmem) with heq | hold
      · exact hroot heq.symm
      · exact h.root_notMem hold
    · rw [hclock]
      rcases List.mem_cons.mp (hids.subset hu) with rfl | hold
      · exact le_max_right ..
      · exact (h.clock_ge u hold).trans (le_max_left ..)
    · obtain ⟨hlength, hflag⟩ := counters_applyInsert hroot hnew hafter
      have hold := h.counted
      rw [Counted, length_visible] at hold
      rw [Counted, hlength, hflag, length_visible, hcells, hperm.countP_eq, List.countP_cons]
      simp only [Bool.not_false, if_true]
      push_cast
      omega
  · rwa [heq]

/-- What a DELETE does: on the sentinel it sets a flag, without its target nothing, on a tombstone
nothing, and otherwise it leaves a tombstone more. -/
lemma applyDelete_cases (d : ClientRGADocument) (op : DeleteOperation) :
    (op.uid = rootUID ∧ (d.applyDelete op = d ∨ d.rootTombstoned = false ∧
      d.applyDelete op = { d with rootTombstoned := true, length := d.length - 1 })) ∨
    (op.uid ≠ rootUID ∧ op.uid ∉ ids d.cells ∧ d.applyDelete op = d) ∨
    (op.uid ≠ rootUID ∧ ∃ n ∈ d.nodes, n.uid = op.uid ∧
      (n.tombstoned = true ∧ d.applyDelete op = d ∨ n.tombstoned = false ∧
        d.applyDelete op =
          { d with
            nodes := Chain.updateNode ClientNode.uid (uidKey op.uid)
              (fun n => { n with tombstoned := true }) d.nodes
            length := d.length - 1 })) := by
  by_cases hroot : op.uid = rootUID
  · refine Or.inl ⟨hroot, ?_⟩
    cases hflag : d.rootTombstoned
    · exact Or.inr ⟨rfl, by simp [applyDelete, hroot, hflag]⟩
    · exact Or.inl (by simp [applyDelete, hroot, hflag])
  refine Or.inr ?_
  cases hget : Chain.indexGet ClientNode.uid (uidKey op.uid) d.nodes with
  | none =>
      refine Or.inl ⟨hroot, ids_cells d ▸ Chain.indexGet_eq_none.mp hget, ?_⟩
      simp [applyDelete, hroot, hget]
  | some n =>
      obtain ⟨hmem, hn⟩ := Chain.indexGet_some hget
      refine Or.inr ⟨hroot, n, hmem, hn, ?_⟩
      cases htomb : n.tombstoned
      · exact Or.inr ⟨rfl, by simp [applyDelete, hroot, hget, htomb]⟩
      · exact Or.inl ⟨rfl, by simp [applyDelete, hroot, hget, htomb]⟩

lemma Consistent.applyDelete {d : ClientRGADocument} (h : Consistent d) (op : DeleteOperation) :
    Consistent (d.applyDelete op) := by
  rcases d.applyDelete_cases op with ⟨-, heq | ⟨hflag, heq⟩⟩ | ⟨-, -, heq⟩ |
    ⟨hroot, n, hn, hnu, ⟨-, heq⟩ | ⟨hlive, heq⟩⟩
  · rwa [heq]
  · have hlength := h.counted
    simp only [Counted, hflag, Bool.false_eq_true, if_false] at hlength
    rw [heq]
    refine ⟨h.nodup, h.root_notMem, h.clock_ge, ?_⟩
    show d.length - 1 + 1 = ((visible d.cells).length : Int)
    omega
  · rwa [heq]
  · rwa [heq]
  · have hcells : (d.applyDelete op).cells = d.cells.map (Cell.kill op.uid) :=
      cells_applyDelete h.nodup hroot
    have hcount := countP_live_kill h.nodup (List.mem_map_of_mem hn) hlive
    have hid : n.cell.id = op.uid := hnu
    have hlength := h.counted
    rw [hid] at hcount
    rw [Counted, length_visible] at hlength
    refine ⟨?_, ?_, ?_, ?_⟩
    · rw [hcells, ids_map_kill]
      exact h.nodup
    · rw [hcells, ids_map_kill]
      exact h.root_notMem
    · rw [hcells, ids_map_kill, heq]
      exact h.clock_ge
    · rw [Counted, hcells, length_visible, heq]
      show d.length - 1 + (if d.rootTombstoned then 1 else 0) = _
      omega

lemma Consistent.applyOperation {d : ClientRGADocument} (h : Consistent d) (op : RGAOperation) :
    Consistent (d.applyOperation op) := by
  cases op with
  | insert op => exact h.applyInsert op
  | delete op => exact h.applyDelete op
  | format op => exact h.applyDelete ⟨op.uid⟩
  | rollback op => exact h.applyDelete ⟨op.uid⟩

lemma Consistent.tick {d : ClientRGADocument} (h : Consistent d) :
    Consistent { d with clock := d.clock + 1 } :=
  ⟨h.nodup, h.root_notMem, fun u hu => Nat.le_succ_of_le (h.clock_ge u hu), h.counted⟩

lemma Consistent.localInsert {d : ClientRGADocument} (h : Consistent d) (index : Nat)
    (char : JSString) : Consistent (d.localInsert index char).1 :=
  h.tick.applyInsert _

lemma Consistent.localDelete {d : ClientRGADocument} (h : Consistent d) (index : Nat) :
    Consistent (d.localDelete index).1 := by
  rw [ClientRGADocument.localDelete]
  split
  · exact h
  · exact h.applyDelete _

/-- **Every replica a client can hold is consistent.** -/
theorem Reachable.consistent {d : ClientRGADocument} (h : Reachable d) : Consistent d := by
  induction h with
  | new siteId initialClock => exact consistent_new siteId initialClock
  | deserialize nodes siteId clock hnd hroot => exact consistent_deserialize hnd hroot
  | remote op _ _ ih => exact ih.applyOperation op
  | localInsert index char _ ih => exact ih.localInsert index char
  | localDelete index _ ih => exact ih.localDelete index

/-! ## From positions to nodes -/

/-- The position of a visible node: that many visible nodes are in front of it. -/
lemma indexToUIDFrom_split {targetIdx : Nat} (idx : Nat) (nodes : List ClientNode)
    (hlt : idx < targetIdx)
    (hle : targetIdx ≤ idx + (visible (nodes.map ClientNode.cell)).length) :
    ∃ pre n post, nodes = pre ++ n :: post ∧ n.tombstoned = false ∧
      idx + (visible (pre.map ClientNode.cell)).length + 1 = targetIdx ∧
      indexToUIDFrom targetIdx idx nodes = some n.uid := by
  induction nodes generalizing idx with
  | nil =>
      simp [visible] at hle
      omega
  | cons n nodes ih =>
      cases htomb : n.tombstoned
      · rw [List.map_cons, visible_cons_of_live htomb] at hle
        by_cases hhere : idx + 1 = targetIdx
        · refine ⟨[], n, nodes, rfl, htomb, by simpa [visible] using hhere, ?_⟩
          simp [indexToUIDFrom, htomb, hhere]
        · obtain ⟨pre, m, post, rfl, hm, hidx, hget⟩ :=
            ih (idx + 1) (by omega) (by simp only [List.length_cons] at hle; omega)
          refine ⟨n :: pre, m, post, rfl, hm, ?_, ?_⟩
          · rw [List.map_cons, visible_cons_of_live htomb, List.length_cons]
            omega
          · simpa [indexToUIDFrom, htomb, hhere] using hget
      · rw [List.map_cons, visible_cons_of_dead htomb] at hle
        obtain ⟨pre, m, post, rfl, hm, hidx, hget⟩ := ih idx hlt hle
        refine ⟨n :: pre, m, post, rfl, hm, ?_, ?_⟩
        · rwa [List.map_cons, visible_cons_of_dead htomb]
        · simpa [indexToUIDFrom, htomb] using hget

/-- The node shown at the position `index`. -/
lemma indexToUID_split {d : ClientRGADocument} {index : Nat}
    (hlt : index < (visible d.cells).length) :
    ∃ pre c post, d.cells = pre ++ c :: post ∧ c.dead = false ∧
      (visible pre).length = index ∧ d.indexToUID (index + 1) = some c.id := by
  obtain ⟨pre, n, post, hnodes, hlive, hidx, hget⟩ :=
    indexToUIDFrom_split 0 d.nodes (Nat.succ_pos index)
      (by rw [Nat.zero_add]; exact hlt)
  refine ⟨pre.map ClientNode.cell, n.cell, post.map ClientNode.cell, ?_, hlive, by omega, hget⟩
  rw [cells, hnodes, List.map_append, List.map_cons]

/-! ## Where an edit lands -/

/-- The operation does the same to every replica that holds the nodes of `d`, on the client and
on the server. -/
structure Reproduces (d : ClientRGADocument) (op : RGAOperation) (d' : ClientRGADocument) :
    Prop where
  client : ∀ e : ClientRGADocument, e.nodes = d.nodes → (e.applyOperation op).nodes = d'.nodes
  server : ∀ e : RGADocument, e.cells = d.cells → (e.applyOperation op).1.cells = d'.cells

/-- `char` is typed at the position `index`: under a new greatest UID it is shown there. -/
structure InsertLands (d : ClientRGADocument) (index : Nat) (char : JSString) : Prop where
  uid_notMem : (d.localInsert index char).2.uid ∉ ids d.cells
  uid_gt : ∀ u ∈ ids d.cells, u < (d.localInsert index char).2.uid
  visible_eq : visible (d.localInsert index char).1.cells =
    (visible d.cells).insertIdx index (.string char)
  reproduces : Reproduces d (.insert (d.localInsert index char).2) (d.localInsert index char).1

/-- The value at the position `index` is deleted, and no other. -/
structure DeleteLands (d : ClientRGADocument) (index : Nat) (op : DeleteOperation) : Prop where
  op_eq : (d.localDelete index).2 = some op
  visible_eq : visible (d.localDelete index).1.cells = (visible d.cells).eraseIdx index
  reproduces : Reproduces d (.delete op) (d.localDelete index).1

/-- An operation whose edit made `d'` of `d` does so on every replica with the nodes of `d`. -/
lemma reproduces_of_step {d d' : ClientRGADocument} {op : RGAOperation} {e : Edit UID JsValue}
    (hnd : (ids d.cells).Nodup) (hroot : op.uid ≠ rootUID) (he : op.edit? = some e)
    (hcells : d'.cells = e.step d.cells) : Reproduces d op d' := by
  constructor
  · intro r hr
    have hsame : r.cells = d.cells := nodes_eq_iff_cells_eq.mp hr
    rw [nodes_eq_iff_cells_eq, cells_applyOperation (hsame ▸ hnd) hroot he, hsame, hcells]
  · intro r hr
    rw [RGADocument.cells_applyOperation (hr ▸ hnd) hroot he, hr, hcells]

/-- The next UID is greater than every UID of the replica. -/
lemma Consistent.uid_lt {d : ClientRGADocument} (h : Consistent d) {u : UID}
    (hu : u ∈ ids d.cells) : u < ⟨d.clock + 1, d.siteId⟩ :=
  UID.lt_iff.mpr (Or.inl (Nat.lt_succ_of_le (h.clock_ge u hu)))

lemma Consistent.uid_notMem {d : ClientRGADocument} (h : Consistent d) :
    (⟨d.clock + 1, d.siteId⟩ : UID) ∉ ids d.cells :=
  fun hmem => lt_irrefl _ (h.uid_lt hmem)

/-- The UID of a local INSERT is not the sentinel's, whatever the site is called. -/
lemma next_ne_root (clock : Nat) (siteId : JSString) : (⟨clock + 1, siteId⟩ : UID) ≠ rootUID :=
  fun h => absurd (congrArg UID.clock h) (by simp [rootUID])

/-- The anchor of a local INSERT is the node shown in front of its position. -/
lemma visible_place_getAfterUID {d : ClientRGADocument} (h : Consistent d) {index : Nat}
    (hle : index ≤ (visible d.cells).length) {x : Cell UID JsValue} (hlive : x.dead = false)
    (hx : ∀ c ∈ d.cells, c.id ≤ x.id) :
    visible (place (anchor (d.getAfterUID index)) x d.cells) =
      (visible d.cells).insertIdx index x.value := by
  cases index with
  | zero => exact visible_place_none hx hlive
  | succ index =>
      obtain ⟨pre, c, post, hcells, hc, hlen, hget⟩ := indexToUID_split (Nat.lt_of_succ_le hle)
      have hmem : c ∈ d.cells := hcells ▸ List.mem_append_right _ (List.mem_cons_self ..)
      have hne : c.id ≠ rootUID := fun hr => h.root_notMem (hr ▸ List.mem_map_of_mem hmem)
      have hanchor : anchor (d.getAfterUID (index + 1)) = some c.id := by
        rw [getAfterUID, if_neg (Nat.succ_ne_zero index), hget]
        exact anchor_eq_some.mpr ⟨rfl, hne⟩
      have hpre : c.id ∉ ids pre := by
        have hnd : (ids pre ++ c.id :: ids post).Nodup := by
          have hids := h.nodup
          rw [hcells] at hids
          simpa [ids] using hids
        exact fun hin => (List.nodup_append.mp hnd).2.2 _ hin _ (List.mem_cons_self ..) rfl
      have hshown : (visible (pre ++ [c])).length = index + 1 := by
        rw [visible_append, visible_cons_of_live hc, List.length_append, hlen]
        rfl
      rw [hanchor, hcells, visible_place_some hpre (fun b hb => hx b ?_) hlive, hshown]
      exact hcells ▸ List.mem_append_right _ (List.mem_cons_of_mem _ hb)

/-- A local INSERT computes the edit of the operation it makes. -/
lemma cells_localInsert (d : ClientRGADocument) (index : Nat) (char : JSString) :
    (d.localInsert index char).1.cells = (d.localInsert index char).2.edit.step d.cells := by
  obtain ⟨-, -, huid⟩ := d.clock_localInsert index char
  exact cells_applyInsert { d with clock := d.clock + 1 } (huid ▸ next_ne_root _ _)

lemma Consistent.reproduces_localInsert {d : ClientRGADocument} (h : Consistent d) (index : Nat)
    (char : JSString) :
    Reproduces d (.insert (d.localInsert index char).2) (d.localInsert index char).1 := by
  obtain ⟨-, -, huid⟩ := d.clock_localInsert index char
  have hroot : (d.localInsert index char).2.uid ≠ rootUID := huid ▸ next_ne_root _ _
  exact reproduces_of_step h.nodup hroot rfl (d.cells_localInsert index char)

/-- **A local INSERT lands where it was typed.** -/
theorem Consistent.insertLands {d : ClientRGADocument} (h : Consistent d) (index : Nat)
    (hle : index ≤ (visible d.cells).length) (char : JSString) : InsertLands d index char := by
  obtain ⟨-, -, huid⟩ := d.clock_localInsert index char
  have hnew : (d.localInsert index char).2.uid ∉ ids d.cells := huid ▸ h.uid_notMem
  refine ⟨hnew, fun u hu => huid ▸ h.uid_lt hu, ?_, h.reproduces_localInsert index char⟩
  rw [d.cells_localInsert, InsertOperation.edit, Edit.step, if_neg hnew]
  exact visible_place_getAfterUID h hle rfl fun c hc =>
    (huid ▸ h.uid_lt (List.mem_map_of_mem hc)).le

/-- A local DELETE computes the edit of the operation it makes. -/
lemma Consistent.reproduces_localDelete {d d' : ClientRGADocument} (h : Consistent d) {index : Nat}
    {op : DeleteOperation} (hop : d.localDelete index = (d', some op)) :
    Reproduces d (.delete op) d' := by
  have hmade := made_localDelete h.nodup h.root_notMem hop
  have hroot : op.uid ≠ rootUID := fun hr => h.root_notMem (hr ▸ hmade.needs_mem op.uid rfl)
  exact reproduces_of_step h.nodup hroot rfl (hmade.cells_eq _ rfl)

/-- **A local DELETE takes the value at its position.** -/
theorem Consistent.deleteLands {d : ClientRGADocument} (h : Consistent d) (index : Nat)
    (hlt : index < (visible d.cells).length) : ∃ op, DeleteLands d index op := by
  obtain ⟨pre, c, post, hsplit, hc, hlen, hget⟩ := indexToUID_split hlt
  have hmem : c ∈ d.cells := hsplit ▸ List.mem_append_right _ (List.mem_cons_self ..)
  have hroot : c.id ≠ rootUID := fun hr => h.root_notMem (hr ▸ List.mem_map_of_mem hmem)
  have hdelete : d.localDelete index = (d.applyDelete ⟨c.id⟩, some ⟨c.id⟩) := by
    rw [ClientRGADocument.localDelete, hget]
  have hcells : (d.applyDelete ⟨c.id⟩).cells = d.cells.map (Cell.kill c.id) :=
    cells_applyDelete h.nodup hroot
  have hreproduces := h.reproduces_localDelete hdelete
  have hnd := h.nodup
  refine ⟨⟨c.id⟩, ?_⟩
  constructor
  · rw [hdelete]
  · rw [hsplit] at hnd
    rw [hdelete, hcells, hsplit, visible_map_kill hnd hc, hlen]
  · rwa [hdelete]

/-- **Local edits land where the user typed**, on every replica a client can hold. -/
theorem local_edits_land {d : ClientRGADocument} (h : Reachable d) :
    (∀ (index : Nat) (char : JSString), (index : Int) ≤ d.length →
      InsertLands d index char ∧ (d.localInsert index char).1.Counted) ∧
    ∀ index : Nat, (index : Int) < d.length →
      ∃ op, DeleteLands d index op ∧ (d.localDelete index).1.Counted := by
  have hd := h.consistent
  have hcount : d.length ≤ (visible d.cells).length := by
    have hcounted := hd.counted
    rw [Counted] at hcounted
    split at hcounted <;> omega
  refine ⟨fun index char hle => ⟨hd.insertLands index (by omega) char, ?_⟩, fun index hlt => ?_⟩
  · exact (hd.localInsert index char).counted
  · obtain ⟨op, hop⟩ := hd.deleteLands index (by omega)
    exact ⟨op, hop, (hd.localDelete index).counted⟩

/-- A user types `b` between an `a` of the server's and one of another user's. -/
theorem local_edits_land_between :
    InsertLands
      ((deserialize [⟨3, [7], .string [97], none, false⟩, ⟨1, [7], .string [98], none, true⟩]
        [5]).applyOperation (.insert ⟨⟨9, [8]⟩, some ⟨1, [7]⟩, .string [97]⟩)) 1 [98] :=
  ((local_edits_land (.remote (.insert ⟨⟨9, [8]⟩, some ⟨1, [7]⟩, .string [97]⟩) trivial
    (.deserialize _ [5] 0 (by decide) (by decide)))).1 1 [98] (by decide)).1

/-- A DELETE of the sentinel's UID takes the counter one below the visible nodes. -/
theorem length_behind_visible :
    ∃ d, Reachable d ∧ (0 : Int) ≤ d.length ∧
      (d.localInsert 0 [98]).1.length ≠ (visible (d.localInsert 0 [98]).1.cells).length :=
  ⟨((new [5]).localInsert 0 [97]).1.applyOperation (.delete ⟨rootUID⟩),
    .remote (.delete ⟨rootUID⟩) trivial (.localInsert 0 [97] (.new [5] 0)), by decide, by decide⟩

end ClientRGADocument

end SyncEngine
