import Mathlib.Data.List.MinMax
import Mathlib.Order.Nat
import SyncEngine.Crdt.HistoryManager

/-!
# What undo restores

Each INSERT that `undo` returns is anchored at the node in front of a deleted one and carries the
greatest UID of the document, so it lands between the two (`Undoing.insert`): the deleted node gets
a live copy directly in front of it, whatever else of the batch has been undone by then.  Each
DELETE kills a node the batch inserted.  After all of them the document is the one after the batch,
with these copies and these kills (`Undoing`), and its text can be read off cell by cell.

* **`undo_restores_iff`**: the text is that of the document before the batch exactly when the batch
  deleted no text that it had inserted itself.  A character typed and deleted again in one batch
  comes back, since its DELETE is answered by an INSERT like any other.
-/

namespace SyncEngine

open ReplicatedList

/-! ## The node in front -/

/-- A node of the chain is found with the node in front of it. -/
lemma RGADocument.nodeBehind_split {u : UID} {nodes : List RGANode} (prev : UID)
    (hu : u ∈ nodes.map RGANode.uid) :
    ∃ pre n post, nodes = pre ++ n :: post ∧ n.uid = u ∧
      nodeBehind (uidKey u) prev nodes =
        some ((pre.getLast?.map RGANode.uid).getD prev, n) := by
  induction nodes generalizing prev with
  | nil => simp at hu
  | cons n nodes ih =>
      by_cases hn : n.uid = u
      · exact ⟨[], n, nodes, rfl, hn, by simp [nodeBehind, hn]⟩
      · have hu' : u ∈ nodes.map RGANode.uid := by
          rcases List.mem_cons.mp hu with h | h
          · exact absurd h.symm hn
          · exact h
        obtain ⟨pre, m, post, rfl, hm, hfound⟩ := ih n.uid hu'
        refine ⟨n :: pre, m, post, rfl, hm, ?_⟩
        rw [nodeBehind, if_neg (by simpa using hn), hfound, List.getLast?_cons]
        cases pre.getLast? <;> rfl

/-- The inverse of a DELETE: an INSERT of the value behind the cell in front, or at the head. -/
lemma inverse_delete {doc : RGADocument} (hdoc : doc.Indexed) {u : UID} (hu : u ∈ ids doc.cells) :
    ∃ pre c post p, doc.cells = pre ++ c :: post ∧ c.id = u ∧
      HistoryManager.inverse doc (.delete ⟨u⟩) = [.insert ⟨u, some p, c.value⟩] ∧
      (pre = [] ∧ p = rootUID ∨ ∃ pre' b, pre = pre' ++ [b] ∧ p = b.id) := by
  have hroot : u ≠ rootUID := fun h => hdoc.root_notMem (h ▸ hu)
  rw [RGADocument.ids_cells] at hu
  obtain ⟨pre, n, post, hnodes, hn, hfound⟩ := RGADocument.nodeBehind_split rootUID hu
  refine ⟨pre.map RGANode.cell, n.cell, post.map RGANode.cell,
    (pre.getLast?.map RGANode.uid).getD rootUID, ?_, hn, ?_, ?_⟩
  · rw [RGADocument.cells, hnodes, List.map_append, List.map_cons]
  · have hkey : ¬ uidKey u = uidKey rootUID := by simpa using hroot
    simp only [HistoryManager.inverse, RGADocument.getNode, if_neg hkey, hfound, Option.map_some]
    rfl
  · rcases List.eq_nil_or_concat pre with rfl | ⟨pre', b, rfl⟩
    · exact Or.inl ⟨rfl, rfl⟩
    · exact Or.inr ⟨pre'.map RGANode.cell, b.cell, by simp, by simp [RGANode.cell]⟩

/-! ## Undoing step by step -/

/-- What has become of a cell: its copy in front of it, if there is one, and the cell itself. -/
def restored (copies : UID → Option UID) (killed : List UID) (c : Cell UID JsValue) :
    List (Cell UID JsValue) :=
  (copies c.id).toList.map (fun f => ⟨f, c.value, false⟩) ++
    [{ c with dead := c.dead || decide (c.id ∈ killed) }]

/-- The document in the course of undoing the batch that led to `after`. -/
structure Undoing (after : RGADocument) (copies : UID → Option UID) (killed : List UID)
    (d : RGADocument) : Prop where
  cells_eq : d.cells = after.cells.flatMap (restored copies killed)
  indexed : d.Indexed
  copies_new : ∀ u f, copies u = some f → f ∉ ids after.cells

variable {after d d' : RGADocument} {copies : UID → Option UID} {killed : List UID}

lemma undoing_start (hafter : after.Indexed) : Undoing after (fun _ => none) [] after := by
  have hself : restored (fun _ => none) [] = fun c => [c] := by
    funext c
    simp [restored]
  exact ⟨by rw [hself, List.flatMap_singleton'], hafter, by simp⟩

/-- Killing a cell of the document leaves the copies alone. -/
lemma map_kill_restored {u : UID} (hcopy : ∀ w f, copies w = some f → f ≠ u)
    (c : Cell UID JsValue) :
    (restored copies killed c).map (Cell.kill u) = restored copies (u :: killed) c := by
  have hself : ({ c with dead := c.dead || decide (c.id ∈ killed) } : Cell UID JsValue).kill u =
      { c with dead := c.dead || decide (c.id ∈ u :: killed) } := by
    simp only [Cell.kill, List.mem_cons, Bool.decide_or, Bool.or_assoc]
    rw [Bool.or_comm (decide (c.id ∈ killed))]
  have hfront : ((copies c.id).toList.map fun f => (⟨f, c.value, false⟩ : Cell UID JsValue)).map
      (Cell.kill u) = (copies c.id).toList.map fun f => ⟨f, c.value, false⟩ := by
    rw [List.map_map]
    refine List.map_congr_left fun f hf => Cell.kill_of_ne ?_
    exact hcopy c.id f (Option.mem_toList.mp hf)
  rw [restored, List.map_append, hfront, List.map_singleton, hself, restored]

lemma Undoing.delete (h : Undoing after copies killed d) (hafter : after.Indexed) {u : UID}
    (hu : u ∈ ids after.cells) :
    Undoing after copies (u :: killed) (d.applyOperation (.delete ⟨u⟩)).1 := by
  have hroot : u ≠ rootUID := fun hr => hafter.root_notMem (hr ▸ hu)
  refine ⟨?_, h.indexed.applyOperation _, h.copies_new⟩
  rw [cells_applyOperation_delete h.indexed ⟨u⟩ hroot, h.cells_eq, List.map_flatMap]
  congr 1
  funext c
  exact map_kill_restored (fun w f hf hfu => h.copies_new w f hf (hfu ▸ hu)) c

/-- A new copy is in front of its cell. -/
lemma restored_update_self {u f : UID} {c : Cell UID JsValue} (hc : c.id = u)
    (hnone : copies u = none) :
    restored (Function.update copies u (some f)) killed c =
      ⟨f, c.value, false⟩ :: restored copies killed c := by
  simp [restored, hc, hnone]

lemma flatMap_restored_update {u f : UID} {l : List (Cell UID JsValue)} (hu : u ∉ ids l) :
    l.flatMap (restored (Function.update copies u (some f)) killed) =
      l.flatMap (restored copies killed) := by
  refine List.flatMap_congr fun c hc => ?_
  have hcu : c.id ≠ u := fun h => hu (h ▸ List.mem_map_of_mem hc)
  simp [restored, hcu]

/-- A fresh cell goes directly in front of the one whose predecessor is its anchor. -/
lemma Undoing.place_eq (h : Undoing after copies killed d) (hafter : after.Indexed)
    {pre post : List (Cell UID JsValue)} {c : Cell UID JsValue} {p f : UID}
    (hsplit : after.cells = pre ++ c :: post)
    (hp : pre = [] ∧ p = rootUID ∨ ∃ pre' b, pre = pre' ++ [b] ∧ p = b.id)
    (hnone : copies c.id = none) (hfresh : ∀ u ∈ ids d.cells, u < f) :
    place (anchor (some p)) ⟨f, c.value, false⟩ d.cells =
      after.cells.flatMap (restored (Function.update copies c.id (some f)) killed) := by
  have hids : (ids pre ++ c.id :: ids post).Nodup := by
    have hnd := hafter.nodup
    rw [hsplit] at hnd
    simpa [ids] using hnd
  have hpre : c.id ∉ ids pre := fun hin =>
    (List.nodup_append.mp hids).2.2 _ hin _ (List.mem_cons_self ..) rfl
  have hpost : c.id ∉ ids post :=
    (List.nodup_cons.mp (List.nodup_append.mp hids).2.1).1
  have hle : ∀ b ∈ d.cells, b.id ≤ f := fun b hb => (hfresh b.id (List.mem_map_of_mem hb)).le
  rw [hsplit, List.flatMap_append, List.flatMap_cons, restored_update_self rfl hnone,
    flatMap_restored_update hpre, flatMap_restored_update hpost]
  have hcells := h.cells_eq
  rw [hsplit, List.flatMap_append, List.flatMap_cons] at hcells
  rcases hp with ⟨rfl, rfl⟩ | ⟨pre', b, rfl, rfl⟩
  · -- the deleted node was the first one
    rw [anchor, if_pos rfl, place, SkipInsert.skipGreater_of_forall_le hle, hcells]
    rfl
  · have hb : b ∈ after.cells := by simp [hsplit]
    have hroot : b.id ≠ rootUID := fun hr => hafter.root_notMem (hr ▸ List.mem_map_of_mem hb)
    let front : List (Cell UID JsValue) := pre'.flatMap (restored copies killed) ++
      (copies b.id).toList.map fun f => ⟨f, b.value, false⟩
    let b' : Cell UID JsValue := { b with dead := b.dead || decide (b.id ∈ killed) }
    let back : List (Cell UID JsValue) := restored copies killed c ++
      post.flatMap (restored copies killed)
    have hd : d.cells = front ++ b' :: back := by
      rw [hcells]
      simp [front, b', back, restored]
    have hfront : b'.id ∉ front.map Cell.id := by
      have hnd := h.indexed.nodup
      rw [hd, ids, List.map_append, List.map_cons] at hnd
      exact fun hin => (List.nodup_append.mp hnd).2.2 _ hin _ (List.mem_cons_self ..) rfl
    have hback : ∀ m ∈ back, m.id ≤ f := fun m hm =>
      hle m (hd ▸ List.mem_append_right _ (List.mem_cons_of_mem _ hm))
    have hanchor : anchor (some b.id) = some b'.id := anchor_eq_some.mpr ⟨rfl, hroot⟩
    rw [hanchor, hd, place, SkipInsert.insertAfter_append_cons hfront hback]
    simp [front, b', back, restored]

/-- **An INSERT puts a live copy in front of the deleted cell.** -/
lemma Undoing.insert (h : Undoing after copies killed d) (hafter : after.Indexed)
    {pre post : List (Cell UID JsValue)} {c : Cell UID JsValue} {p f : UID}
    (hsplit : after.cells = pre ++ c :: post)
    (hp : pre = [] ∧ p = rootUID ∨ ∃ pre' b, pre = pre' ++ [b] ∧ p = b.id)
    (hnone : copies c.id = none) (hroot : f ≠ rootUID) (hfresh : ∀ u ∈ ids d.cells, u < f) :
    Undoing after (Function.update copies c.id (some f)) killed
      (d.applyOperation (.insert ⟨f, some p, c.value⟩)).1 := by
  have hnew : f ∉ ids d.cells := fun hin => lt_irrefl _ (hfresh f hin)
  have hmem : ∀ b ∈ after.cells, b.id ∈ ids d.cells := by
    intro b hb
    refine List.mem_map.mpr ⟨{ b with dead := b.dead || decide (b.id ∈ killed) }, ?_, rfl⟩
    rw [h.cells_eq]
    exact List.mem_flatMap.mpr ⟨b, hb, by simp [restored]⟩
  refine ⟨?_, h.indexed.applyOperation _, fun u g hg hin => ?_⟩
  · rw [cells_applyOperation_new h.indexed ⟨f, some p, c.value⟩ hroot hnew]
    exact h.place_eq hafter hsplit hp hnone hfresh
  · by_cases hu : u = c.id
    · obtain rfl : f = g := by simpa [hu] using hg
      obtain ⟨b, hb, hid⟩ := List.mem_map.mp hin
      exact hnew (hid ▸ hmem b hb)
    · rw [Function.update_of_ne hu] at hg
      exact h.copies_new u g hg hin

/-! ## Undoing a batch -/

/-- **Applying the inverses** of operations, the last one first. -/
theorem Undoing.applied {ops : List RGAOperation} (h : Undoing after copies killed d)
    (hafter : after.Indexed) (hedit : ∀ op ∈ ops, op.IsEdit)
    (hnd : (deletedUids ops).Nodup) (hnone : ∀ u ∈ deletedUids ops, copies u = none)
    (hdeleted : ∀ u ∈ deletedUids ops, u ∈ ids after.cells)
    (hinserted : ∀ u ∈ insertedUids ops, u ∈ ids after.cells)
    (happlied : AppliedFresh d (ops.flatMap (HistoryManager.inverse after)) d') :
    ∃ copies' killed', Undoing after copies' killed' d' ∧
      (∀ u, (copies' u).isSome = true ↔ (copies u).isSome = true ∨ u ∈ deletedUids ops) ∧
      ∀ u, u ∈ killed' ↔ u ∈ killed ∨ u ∈ insertedUids ops := by
  -- on the inverses still to be applied; `copies` and `killed` are what the earlier ones have done
  induction ops generalizing d copies killed with
  | nil =>
      cases happlied
      exact ⟨copies, killed, h, by simp [deletedUids], by simp [insertedUids]⟩
  | cons op ops ih =>
      have hedit' := fun p hp => hedit p (List.mem_cons_of_mem _ hp)
      rw [List.flatMap_cons] at happlied
      cases op with
      | insert i =>
          cases happlied with
          | delete _ hrest =>
              have hi : i.uid ∈ ids after.cells := hinserted i.uid (List.mem_cons_self ..)
              obtain ⟨copies', killed', hundoing, hcopies, hkilled⟩ :=
                ih (h.delete hafter hi) hedit' hnd hnone hdeleted
                  (fun u hu => hinserted u (List.mem_cons_of_mem _ hu)) hrest
              refine ⟨copies', killed', hundoing, hcopies, fun u => ?_⟩
              rw [hkilled u]
              simp only [insertedUids, List.filterMap_cons, RGAOperation.inserted, List.mem_cons]
              tauto
      | delete del =>
          have hdel : deletedUids (.delete del :: ops) = del.uid :: deletedUids ops := rfl
          rw [hdel] at hnd hnone hdeleted
          obtain ⟨hfirst, hnd'⟩ := List.nodup_cons.mp hnd
          obtain ⟨pre, c, post, p, hsplit, hid, hinverse, hp⟩ :=
            inverse_delete hafter (hdeleted del.uid (List.mem_cons_self ..))
          rw [hinverse] at happlied
          cases happlied with
          | insert _ f hroot hfresh hrest =>
              have hnone' : copies c.id = none := hid ▸ hnone del.uid (List.mem_cons_self ..)
              have hstep := h.insert hafter hsplit hp hnone' hroot hfresh
              -- no node is deleted twice in a batch, so the copy just made is in no one's way
              have hrestNone : ∀ u ∈ deletedUids ops,
                  Function.update copies c.id (some f) u = none := by
                intro u hu
                have hne : u ≠ c.id := fun huc => hfirst (hid ▸ huc ▸ hu)
                rw [Function.update_of_ne hne]
                exact hnone u (List.mem_cons_of_mem _ hu)
              obtain ⟨copies', killed', hundoing, hcopies, hkilled⟩ :=
                ih hstep hedit' hnd' hrestNone
                  (fun u hu => hdeleted u (List.mem_cons_of_mem _ hu)) hinserted hrest
              refine ⟨copies', killed', hundoing, fun u => ?_, hkilled⟩
              rw [hcopies u, hdel, List.mem_cons]
              by_cases hu : u = c.id
              · simp [hu, hid]
              · have hu' : u ≠ del.uid := hid ▸ hu
                simp [hu, hu']
      | format _ => exact absurd (hedit _ (List.mem_cons_self ..)) id
      | rollback _ => exact absurd (hedit _ (List.mem_cons_self ..)) id

/-! ## The text -/

/-- The text of a cell and its copy. -/
lemma flatMap_restored (c : Cell UID JsValue) :
    (restored copies killed c).flatMap cellText =
      (if (copies c.id).isSome then c.value.text else []) ++
        (if c.dead = true ∨ c.id ∈ killed then [] else c.value.text) := by
  cases hc : copies c.id <;> simp [restored, hc, cellText]

/-- Texts put together of parts that are equal or missing are equal when no part is missing. -/
lemma flatMap_eq_iff {α : Type*} {f g : α → JSString} :
    ∀ {l : List α}, (∀ c ∈ l, f c = g c ∨ g c = []) →
      (l.flatMap f = l.flatMap g ↔ ∀ c ∈ l, f c = g c)
  | [], _ => by simp
  | c :: l, h => by
      have hle : ∀ l' : List α, (∀ c ∈ l', f c = g c ∨ g c = []) →
          (l'.flatMap g).length ≤ (l'.flatMap f).length := by
        intro l' h'
        induction l' with
        | nil => simp
        | cons b l' ih =>
            have ih' := ih fun c hc => h' c (List.mem_cons_of_mem _ hc)
            rw [List.flatMap_cons, List.flatMap_cons, List.length_append, List.length_append]
            rcases h' b (List.mem_cons_self ..) with heq | hnil
            · rw [heq]
              omega
            · rw [hnil, List.length_nil]
              omega
      have hrest := fun b hb => h b (List.mem_cons_of_mem c hb)
      have ih := flatMap_eq_iff hrest
      rw [List.flatMap_cons, List.flatMap_cons, List.forall_mem_cons]
      constructor
      · intro heq
        rcases h c (List.mem_cons_self ..) with hc | hnil
        · rw [hc, List.append_cancel_left_eq] at heq
          exact ⟨hc, ih.mp heq⟩
        · rw [hnil, List.nil_append] at heq
          have hlen := congrArg List.length heq
          rw [List.length_append] at hlen
          have hc : f c = [] := List.eq_nil_of_length_eq_zero (by have := hle l hrest; omega)
          rw [hc, List.nil_append] at heq
          exact ⟨hc.trans hnil.symm, ih.mp heq⟩
      · rintro ⟨hc, hl⟩
        rw [hc, ih.mpr hl]

/-- No text of its own is deleted by the batch. -/
def KeepsOwnText (batch : List RGAOperation) : Prop :=
  ∀ i del, .insert i ∈ batch → .delete del ∈ batch → del.uid = i.uid → i.value.text = []

/-- The text before a batch, off the document after it. -/
lemma LocalBatch.toText_eq {batch : List RGAOperation} (h : LocalBatch d batch after)
    (hd : d.Indexed) :
    d.toText = after.cells.flatMap fun c =>
      if c.id ∈ insertedUids batch then [] else cellText (revive (deletedUids batch) c) := by
  rw [RGADocument.toText_eq_cells, h.before_eq hd, List.flatMap_map]
  induction after.cells with
  | nil => rfl
  | cons c cells ih =>
      rw [List.flatMap_cons, ← ih]
      by_cases hc : c.id ∈ insertedUids batch <;> simp [hc]

lemma mem_insertedUids {batch : List RGAOperation} {u : UID} :
    u ∈ insertedUids batch ↔ ∃ i, .insert i ∈ batch ∧ i.uid = u := by
  rw [insertedUids, List.mem_filterMap]
  constructor
  · rintro ⟨op, hop, hu⟩
    cases op with
    | insert i => exact ⟨i, hop, Option.some.inj hu⟩
    | _ => simp [RGAOperation.inserted] at hu
  · rintro ⟨i, hi, rfl⟩
    exact ⟨_, hi, rfl⟩

lemma mem_deletedUids {batch : List RGAOperation} {u : UID} :
    u ∈ deletedUids batch ↔ ∃ del, .delete del ∈ batch ∧ del.uid = u := by
  rw [deletedUids, List.mem_filterMap]
  constructor
  · rintro ⟨op, hop, hu⟩
    cases op with
    | delete del => exact ⟨del, hop, Option.some.inj hu⟩
    | _ => simp [RGAOperation.deleted] at hu
  · rintro ⟨del, hdel, rfl⟩
    exact ⟨_, hdel, rfl⟩

lemma LocalBatch.isEdit {batch : List RGAOperation} (h : LocalBatch d batch d') :
    ∀ op ∈ batch, op.IsEdit := by
  induction h with
  | nil => simp
  | insert op _ _ _ _ ih => exact List.forall_mem_cons.mpr ⟨trivial, ih⟩
  | delete op _ _ ih => exact List.forall_mem_cons.mpr ⟨trivial, ih⟩

/-- The document once the inverses of a batch are applied. -/
lemma LocalBatch.undone {batch : List RGAOperation} (h : LocalBatch d batch after)
    (hd : d.Indexed)
    (happlied : AppliedFresh after (HistoryManager.createInverseOps after batch) d') :
    ∃ copies killed, d'.cells = after.cells.flatMap (restored copies killed) ∧
      (∀ u, (copies u).isSome = true ↔ u ∈ deletedUids batch) ∧
      ∀ u, u ∈ killed ↔ u ∈ insertedUids batch := by
  have hafter := h.indexed hd
  have hreverse : deletedUids batch.reverse = (deletedUids batch).reverse := List.filterMap_reverse
  have hreverse' : insertedUids batch.reverse = (insertedUids batch).reverse :=
    List.filterMap_reverse
  have hdeleted : ∀ u ∈ deletedUids batch.reverse, u ∈ ids after.cells := by
    intro u hu
    rw [hreverse, List.mem_reverse] at hu
    obtain ⟨c, hc, rfl, -⟩ := h.deleted_dead hd u hu
    exact List.mem_map_of_mem hc
  have hinserted : ∀ u ∈ insertedUids batch.reverse, u ∈ ids after.cells := by
    intro u hu
    rw [hreverse', List.mem_reverse] at hu
    obtain ⟨i, hi, rfl⟩ := mem_insertedUids.mp hu
    obtain ⟨c, hc, hid, -⟩ := h.inserted_mem hd hi
    exact hid ▸ List.mem_map_of_mem hc
  have hnd : (deletedUids batch.reverse).Nodup := by
    rw [hreverse]
    exact List.nodup_reverse.mpr (h.deleted_nodup hd)
  obtain ⟨copies, killed, hundoing, hcopies, hkilled⟩ := (undoing_start hafter).applied hafter
    (fun op hop => h.isEdit op (List.mem_reverse.mp hop)) hnd (fun _ _ => rfl) hdeleted hinserted
    happlied
  refine ⟨copies, killed, hundoing.cells_eq, fun u => ?_, fun u => ?_⟩
  · simpa [hreverse] using hcopies u
  · simpa [hreverse'] using hkilled u

/-- The text of a cell before the batch that has led to a document with it. -/
def textBefore (batch : List RGAOperation) (c : Cell UID JsValue) : JSString :=
  if c.id ∈ insertedUids batch then [] else cellText (revive (deletedUids batch) c)

/-- The text of a cell and its copy is the text from before the batch, unless the batch both
inserted and deleted it. -/
lemma flatMap_restored_eq {batch : List RGAOperation} {c : Cell UID JsValue}
    (hcopies : (copies c.id).isSome = true ↔ c.id ∈ deletedUids batch)
    (hkilled : c.id ∈ killed ↔ c.id ∈ insertedUids batch)
    (hdead : c.id ∈ deletedUids batch → c.dead = true) :
    (restored copies killed c).flatMap cellText =
      if c.id ∈ deletedUids batch ∧ c.id ∈ insertedUids batch then c.value.text
      else textBefore batch c := by
  rw [flatMap_restored, textBefore]
  by_cases hd : c.id ∈ deletedUids batch <;> by_cases hi : c.id ∈ insertedUids batch
  · simp [hcopies, hd, hdead hd, hi]
  · simp [hcopies, hd, hdead hd, hi, revive_of_mem hd, cellText]
  · simp [hcopies, hkilled, hd, hi]
  · simp [hcopies, hkilled, hd, hi, revive_of_notMem hd, cellText]

/-- **Undo restores the text exactly when the batch keeps its own.**  The inverses of the batch
recorded last are what `undo` returns. -/
theorem undo_restores_iff (hd : d.Indexed) {h : HistoryManager} (hempty : h.currentBatch = [])
    {batch : List RGAOperation} (hne : batch ≠ []) (hbatch : LocalBatch d batch after) :
    ∃ inverses, ((h.recordLocalOperations batch).undo after).2 = some inverses ∧
      ∀ d', AppliedFresh after inverses d' → (d'.toText = d.toText ↔ KeepsOwnText batch) := by
  refine ⟨_, HistoryManager.undo_recordLocalOperations hempty hne after, fun d' happlied => ?_⟩
  obtain ⟨copies, killed, hcells, hcopies, hkilled⟩ := hbatch.undone hd happlied
  have hnd := (hbatch.indexed hd).nodup
  have hdead : ∀ c ∈ after.cells, c.id ∈ deletedUids batch → c.dead = true := by
    intro c hc hmem
    obtain ⟨b, hb, hbc, hb'⟩ := hbatch.deleted_dead hd c.id hmem
    obtain rfl : b = c := List.inj_on_of_nodup_map hnd hb hc hbc
    exact hb'
  have hcell := fun c (hc : c ∈ after.cells) =>
    flatMap_restored_eq (hcopies c.id) (hkilled c.id) (hdead c hc)
  have hmissing : ∀ c ∈ after.cells,
      (restored copies killed c).flatMap cellText = textBefore batch c ∨
        textBefore batch c = [] := by
    intro c hc
    rw [hcell c hc]
    split
    · rename_i hboth
      exact Or.inr (if_pos hboth.2)
    · exact Or.inl rfl
  rw [RGADocument.toText_eq_cells, hcells, List.flatMap_assoc, hbatch.toText_eq hd]
  show after.cells.flatMap _ = after.cells.flatMap (textBefore batch) ↔ _
  -- node by node: after the undo each shows its former text or nothing
  rw [flatMap_eq_iff hmissing]
  constructor
  · intro heq i del hi hdel huid
    obtain ⟨c, hc, hid, hvalue⟩ := hbatch.inserted_mem hd hi
    have hinserted : c.id ∈ insertedUids batch := hid ▸ mem_insertedUids.mpr ⟨i, hi, rfl⟩
    have hdeleted : c.id ∈ deletedUids batch :=
      mem_deletedUids.mpr ⟨del, hdel, huid.trans hid.symm⟩
    have htext := heq c hc
    rwa [hcell c hc, if_pos ⟨hdeleted, hinserted⟩, textBefore, if_pos hinserted, hvalue] at htext
  · intro hkeeps c hc
    rw [hcell c hc]
    split
    · rename_i hboth
      obtain ⟨i, hi, hid⟩ := mem_insertedUids.mp hboth.2
      obtain ⟨del, hdel, hdid⟩ := mem_deletedUids.mp hboth.1
      obtain ⟨b, hb, hbid, hvalue⟩ := hbatch.inserted_mem hd hi
      obtain rfl : b = c := List.inj_on_of_nodup_map hnd hb hc (hbid.trans hid)
      rw [textBefore, if_pos hboth.2, hvalue]
      exact hkeeps i del hi hdel (hdid.trans hid.symm)
    · rfl

/-- Another character is typed behind an `a` and the `a` is deleted. -/
theorem undo_restores_iff_replaced :
    ∃ inverses, ((HistoryManager.new.recordLocalOperations
        [.insert ⟨⟨2, [5]⟩, some ⟨1, [5]⟩, .string [98]⟩, .delete ⟨⟨1, [5]⟩⟩]).undo
          (RGADocument.empty.applyOperations [.insert ⟨⟨1, [5]⟩, none, .string [97]⟩,
            .insert ⟨⟨2, [5]⟩, some ⟨1, [5]⟩, .string [98]⟩, .delete ⟨⟨1, [5]⟩⟩])).2 =
        some inverses ∧
      ∀ d', AppliedFresh (RGADocument.empty.applyOperations
          [.insert ⟨⟨1, [5]⟩, none, .string [97]⟩,
            .insert ⟨⟨2, [5]⟩, some ⟨1, [5]⟩, .string [98]⟩, .delete ⟨⟨1, [5]⟩⟩]) inverses d' →
        (d'.toText = (RGADocument.empty.applyOperations
            [.insert ⟨⟨1, [5]⟩, none, .string [97]⟩]).toText ↔
          KeepsOwnText [.insert ⟨⟨2, [5]⟩, some ⟨1, [5]⟩, .string [98]⟩, .delete ⟨⟨1, [5]⟩⟩]) :=
  undo_restores_iff (RGADocument.indexed_empty.applyOperations _) rfl (by decide)
    (.insert _ (by decide) (by decide) (by decide) (.delete _ (by decide) (.nil _)))

/-- A character typed and deleted in one batch comes back. -/
theorem undo_brings_back :
    ¬ ∀ (d after d' : RGADocument) (batch inverses : List RGAOperation), d.Indexed →
      LocalBatch d batch after →
      ((HistoryManager.new.recordLocalOperations batch).undo after).2 = some inverses →
      AppliedFresh after inverses d' → d'.toText = d.toText := by
  intro h
  have hbatch : LocalBatch .empty [.insert ⟨⟨1, [5]⟩, none, .string [97]⟩, .delete ⟨⟨1, [5]⟩⟩]
      (RGADocument.empty.applyOperations
        [.insert ⟨⟨1, [5]⟩, none, .string [97]⟩, .delete ⟨⟨1, [5]⟩⟩]) :=
    .insert _ (by decide) (by decide) (by decide) (.delete _ (by decide) (.nil _))
  have htext := h _ _ _ _ [.insert ⟨⟨1, [5]⟩, some rootUID, .string [97]⟩, .delete ⟨⟨1, [5]⟩⟩]
    RGADocument.indexed_empty hbatch (by decide)
    (.insert _ ⟨2, [5]⟩ (by decide) (by decide) (.delete _ (.nil _)))
  exact absurd htext (by decide)

/-- Fresh UIDs are there for the taking. -/
theorem exists_appliedFresh (d : RGADocument) {ops : List RGAOperation}
    (hedit : ∀ op ∈ ops, op.IsEdit) : ∃ d', AppliedFresh d ops d' := by
  induction ops generalizing d with
  | nil => exact ⟨d, .nil d⟩
  | cons op ops ih =>
      have hedit' := fun p hp => hedit p (List.mem_cons_of_mem _ hp)
      cases op with
      | insert op =>
          let uid : UID := ⟨((ids d.cells).map UID.clock).foldr max ⊥ + 1, []⟩
          have hfresh : ∀ u ∈ ids d.cells, u < uid := fun u hu =>
            UID.lt_iff.mpr (Or.inl (Nat.lt_succ_of_le
              (List.le_max_of_le (List.mem_map_of_mem hu) (Nat.le_refl _))))
          obtain ⟨d', h⟩ := ih (d.applyOperation (.insert { op with uid := uid })).1 hedit'
          refine ⟨d', .insert op uid (fun hr => ?_) hfresh h⟩
          exact absurd (congrArg UID.clock hr) (by simp [uid, rootUID])
      | delete op =>
          obtain ⟨d', h⟩ := ih (d.applyOperation (.delete op)).1 hedit'
          exact ⟨d', .delete op h⟩
      | format _ => exact absurd (hedit _ (List.mem_cons_self ..)) id
      | rollback _ => exact absurd (hedit _ (List.mem_cons_self ..)) id

end SyncEngine
