import SyncEngine.Crdt.Cells

/-!
# Tombstone collection

Two replicas of one document receive the same operations; on one of them `gc` runs at arbitrary
points.  The collecting replica keeps the chain of the other one without the nodes that were
collected (`Mirrors`), and shows the same text, as long as no INSERT notices the missing nodes
(`Unaffected`):

* the anchor of a new INSERT was not collected — an INSERT behind a collected node fails, as the
  documentation of `gc` says;
* the first remaining node behind the place where the full chain stops the scan stops it as well;
* no INSERT of a collected node is delivered again, unless its anchor is gone as well.

DELETEs are never affected.  `toText_collecting` is the result for whole runs: at every moment
of a run of unaffected operations both replicas show the same text.
-/

namespace SyncEngine

open ReplicatedList RGADocument

/-! ## What operations and collections do to the chain -/

namespace RGADocument

lemma nodes_applyInsert (d : RGADocument) (op : InsertOperation) :
    (d.applyOperation (.insert op)).1.nodes =
      if d.indexHas (uidKey op.uid) then d.nodes
      else if d.indexHas (afterKey op.after) then
        Chain.splice RGANode.uid (afterKey op.after) ⟨op.uid, op.value, [], false⟩ d.nodes
      else d.nodes := by
  simp only [applyOperation, applyInsert]
  split_ifs <;> rfl

/-- Tombstone the node with the given UID. -/
def tombstone (u : UID) (n : RGANode) : RGANode :=
  if n.uid = u then { n with tombstoned := true } else n

@[simp] lemma tombstone_uid (u : UID) (n : RGANode) : (tombstone u n).uid = n.uid := by
  rw [tombstone]
  split <;> rfl

lemma tombstone_of_ne {u : UID} {n : RGANode} (h : n.uid ≠ u) : tombstone u n = n := if_neg h

lemma tombstone_tombstoned {u : UID} {n : RGANode} (h : n.tombstoned = true) :
    (tombstone u n).tombstoned = true := by
  rw [tombstone]
  split
  · rfl
  · exact h

lemma nodes_applyDelete {d : RGADocument} (h : Indexed d) (op : DeleteOperation) :
    (d.applyOperation (.delete op)).1.nodes = d.nodes.map (tombstone op.uid) := by
  have hsame (hskip : ∀ n ∈ d.nodes, tombstone op.uid n = n) :
      d.nodes.map (tombstone op.uid) = d.nodes := by
    rw [List.map_congr_left hskip, List.map_id']
  by_cases hroot : op.uid = rootUID
  · rw [hsame fun n hn => tombstone_of_ne fun hnu => h.root_notMem ?_]
    · simp only [applyOperation, applyDelete, hroot, if_true]
      split <;> rfl
    · rw [ids_cells, ← hroot, ← hnu]
      exact List.mem_map_of_mem hn
  · rcases applyOperation_delete_cases d hroot with
      ⟨hmissing, heq⟩ | ⟨n, hn, hnu, ⟨htomb, heq⟩ | ⟨-, heq⟩⟩
    · rw [heq, hsame fun n hn => tombstone_of_ne fun hnu => hmissing ?_]
      rw [ids_cells, ← hnu]
      exact List.mem_map_of_mem hn
    · rw [heq, hsame fun m hm => ?_]
      by_cases hmu : m.uid = op.uid
      · have hnd := h.nodup
        rw [ids_cells] at hnd
        obtain rfl : m = n := List.inj_on_of_nodup_map hnd hm hn (hmu.trans hnu.symm)
        cases m
        simp_all [tombstone]
      · exact tombstone_of_ne hmu
    · rw [heq]
      simp only [updateNode, Chain.updateNode, uidKey_inj]
      rfl

lemma nodes_gc (d : RGADocument) : d.gc.1.nodes = d.nodes.filter fun n => !n.tombstoned := rfl

end RGADocument

/-! ## Runs of two replicas -/

/-- What happens to the pair: an operation reaches both, or the second one collects. -/
inductive GcEvent where
  | operation (op : RGAOperation)
  | gc
deriving DecidableEq

/-- A replica that never collects, and one that does. -/
structure GcReplicas where
  full : RGADocument
  collecting : RGADocument
deriving DecidableEq

namespace GcReplicas

/-- Both replicas apply an operation; only one collects. -/
def step (s : GcReplicas) : GcEvent → GcReplicas
  | .operation op => ⟨(s.full.applyOperation op).1, (s.collecting.applyOperation op).1⟩
  | .gc => ⟨s.full, s.collecting.gc.1⟩

/-- The replicas after some events. -/
def run (s : GcReplicas) (events : List GcEvent) : GcReplicas := events.foldl step s

/-- The nodes of the full chain the scan for a new node does not walk over. -/
def scanStop (full : RGADocument) (op : InsertOperation) : List RGANode :=
  let scanned := match anchor op.after with
    | none => full.nodes
    | some a => SkipInsert.behind RGANode.uid a full.nodes
  scanned.dropWhile fun n => op.uid < n.uid

/-- The operation does not notice the collected nodes. -/
def Unaffected (s : GcReplicas) : RGAOperation → Prop
  | .insert op =>
      if s.full.indexHas (uidKey op.uid) then
        -- delivered again
        s.collecting.indexHas (uidKey op.uid) ∨ ¬ s.collecting.indexHas (afterKey op.after)
      else
        (s.full.indexHas (afterKey op.after) → s.collecting.indexHas (afterKey op.after)) ∧
          ∀ n ∈ (scanStop s.full op).find? fun n => s.collecting.indexHas (uidKey n.uid),
            n.uid < op.uid
  | .delete _ => True
  | _ => False

instance (s : GcReplicas) : DecidablePred s.Unaffected := fun op => by
  cases op <;> unfold Unaffected <;> infer_instance

/-- Every operation of the run is unaffected when it is applied. -/
def UnaffectedRun (s : GcReplicas) : List GcEvent → Prop
  | [] => True
  | .gc :: events => UnaffectedRun (s.step .gc) events
  | .operation op :: events => s.Unaffected op ∧ UnaffectedRun (s.step (.operation op)) events

instance decidableUnaffectedRun (s : GcReplicas) : DecidablePred s.UnaffectedRun
  | [] => isTrue trivial
  | .gc :: events => decidableUnaffectedRun (s.step .gc) events
  | .operation op :: events =>
      have := decidableUnaffectedRun (s.step (.operation op)) events
      inferInstanceAs
        (Decidable (s.Unaffected op ∧ UnaffectedRun (s.step (.operation op)) events))

lemma UnaffectedRun.of_append {s : GcReplicas} {events rest : List GcEvent}
    (h : s.UnaffectedRun (events ++ rest)) : s.UnaffectedRun events := by
  induction events generalizing s with
  | nil => trivial
  | cons event events ih =>
      cases event with
      | gc => exact ih h
      | operation op => exact ⟨h.1, ih h.2⟩

/-! ## The invariant -/

/-- The collecting replica has the chain of the full one, save for some tombstones. -/
structure Mirrors (s : GcReplicas) (kept : UID → Bool) : Prop where
  indexed : Indexed s.full
  nodes_eq : s.collecting.nodes = s.full.nodes.filter fun n => kept n.uid
  dropped : ∀ n ∈ s.full.nodes, kept n.uid = false → n.tombstoned = true

variable {s : GcReplicas} {kept : UID → Bool}

lemma mirrors_refl {d : RGADocument} (h : Indexed d) : Mirrors ⟨d, d⟩ fun _ => true :=
  ⟨h, by simp, by simp⟩

lemma Mirrors.mem_ids (h : Mirrors s kept) {u : UID} :
    u ∈ ids s.collecting.cells ↔ u ∈ ids s.full.cells ∧ kept u = true := by
  rw [ids_cells, ids_cells, h.nodes_eq]
  constructor
  · intro hu
    obtain ⟨n, hn, rfl⟩ := List.mem_map.mp hu
    obtain ⟨hmem, hkept⟩ := List.mem_filter.mp hn
    exact ⟨List.mem_map_of_mem hmem, hkept⟩
  · rintro ⟨hu, hkept⟩
    obtain ⟨n, hn, rfl⟩ := List.mem_map.mp hu
    exact List.mem_map_of_mem (List.mem_filter.mpr ⟨hn, hkept⟩)

lemma Mirrors.indexed_collecting (h : Mirrors s kept) : Indexed s.collecting := by
  refine ⟨?_, fun hroot => h.indexed.root_notMem (h.mem_ids.mp hroot).1⟩
  have hnd := h.indexed.nodup
  rw [ids_cells] at hnd ⊢
  rw [h.nodes_eq]
  exact (List.filter_sublist.map RGANode.uid).nodup hnd

/-- What the collecting replica knows, the full one knows. -/
lemma Mirrors.indexHas (h : Mirrors s kept) {u : UID}
    (hu : s.collecting.indexHas (uidKey u) = true) : s.full.indexHas (uidKey u) = true := by
  rw [indexHas_iff] at hu ⊢
  exact hu.imp_right fun hu => (h.mem_ids.mp hu).1

lemma Mirrors.indexHas_afterKey (h : Mirrors s kept) {after : Option UID}
    (hafter : s.collecting.indexHas (afterKey after) = true) :
    s.full.indexHas (afterKey after) = true := by
  rw [indexHas_afterKey_iff] at hafter ⊢
  exact fun a ha => (h.mem_ids.mp (hafter a ha)).1

/-- Among the nodes of the full chain the index of the collecting replica tells the kept ones. -/
lemma Mirrors.indexHas_eq_kept (h : Mirrors s kept) {n : RGANode} (hn : n ∈ s.full.nodes) :
    s.collecting.indexHas (uidKey n.uid) = kept n.uid := by
  have hmem : n.uid ∈ ids s.full.cells := ids_cells s.full ▸ List.mem_map_of_mem hn
  have hne : n.uid ≠ rootUID := fun hr => h.indexed.root_notMem (hr ▸ hmem)
  rw [Bool.eq_iff_iff, indexHas_iff, h.mem_ids]
  simp [hne, hmem]

/-! ### A new node -/

lemma filter_splice {p : RGANode → Bool} {op : InsertOperation} {x : RGANode} {d : RGADocument}
    (hx : x.uid = op.uid) (hp : p x = true)
    (hanchor : ∀ a, anchor op.after = some a → ∀ n ∈ d.nodes, n.uid = a → p n = true)
    (hstop : ∀ n, (scanStop d op).find? p = some n → n.uid < op.uid) :
    (Chain.splice RGANode.uid (afterKey op.after) x d.nodes).filter p =
      Chain.splice RGANode.uid (afterKey op.after) x (d.nodes.filter p) := by
  have hnot : ∀ n : RGANode, n.uid < op.uid → ¬ x.uid < n.uid := fun n h => hx ▸ h.not_gt
  cases hafter : op.after with
  | none =>
      rw [Chain.splice, Chain.splice, afterKey, if_pos rfl, if_pos rfl, Chain.scanRight_eq,
        Chain.scanRight_eq]
      refine SkipInsert.filter_skipGreater hp fun n hn => hnot n (hstop n ?_)
      simpa [scanStop, anchor, hafter, hx] using hn
  | some a =>
      by_cases ha : a = rootUID
      · have hkey : afterKey (some a) = uidKey rootUID := by rw [afterKey, ha]
        rw [Chain.splice, Chain.splice, if_pos hkey, if_pos hkey, Chain.scanRight_eq,
          Chain.scanRight_eq]
        refine SkipInsert.filter_skipGreater hp fun n hn => hnot n (hstop n ?_)
        simpa [scanStop, anchor, hafter, ha, hx] using hn
      · have hkey : ¬ afterKey (some a) = uidKey rootUID := by simpa [afterKey] using ha
        rw [Chain.splice, Chain.splice, if_neg hkey, if_neg hkey, afterKey, Chain.spliceAfter_eq,
          Chain.spliceAfter_eq]
        refine SkipInsert.filter_insertAfter hp
          (hanchor a (anchor_eq_some.mpr ⟨hafter, ha⟩)) fun n hn => hnot n (hstop n ?_)
        simpa [scanStop, anchor, hafter, ha, hx] using hn

lemma Mirrors.insert (h : Mirrors s kept) {op : InsertOperation} (hun : s.Unaffected (.insert op)) :
    ∃ kept', Mirrors (s.step (.operation (.insert op))) kept' := by
  have hindexed := h.indexed.applyOperation (.insert op)
  -- an INSERT that changes neither list leaves the pair as it is
  have hsame (hfull : (s.full.applyOperation (.insert op)).1.nodes = s.full.nodes)
      (hcoll : (s.collecting.applyOperation (.insert op)).1.nodes = s.collecting.nodes) :
      Mirrors (s.step (.operation (.insert op))) kept :=
    ⟨hindexed, by rw [step, hfull, hcoll, h.nodes_eq], by rw [step, hfull]; exact h.dropped⟩
  simp only [Unaffected] at hun
  by_cases hknown : s.full.indexHas (uidKey op.uid) = true
  · rw [if_pos hknown] at hun
    refine ⟨kept, hsame (by rw [nodes_applyInsert, if_pos hknown]) ?_⟩
    rw [nodes_applyInsert]
    split_ifs with hcoll hafter
    · rfl
    · exact absurd hafter (hun.resolve_left hcoll)
    · rfl
  · rw [if_neg hknown] at hun
    obtain ⟨hanchor, hstop⟩ := hun
    have hcoll : ¬ s.collecting.indexHas (uidKey op.uid) = true := fun hc => hknown (h.indexHas hc)
    by_cases hafter : s.full.indexHas (afterKey op.after) = true
    · have hfull : (s.full.applyOperation (.insert op)).1.nodes =
          Chain.splice RGANode.uid (afterKey op.after) ⟨op.uid, op.value, [], false⟩
            s.full.nodes := by
        rw [nodes_applyInsert, if_neg hknown, if_pos hafter]
      have hcollecting : (s.collecting.applyOperation (.insert op)).1.nodes =
          Chain.splice RGANode.uid (afterKey op.after) ⟨op.uid, op.value, [], false⟩
            s.collecting.nodes := by
        rw [nodes_applyInsert, if_neg hcoll, if_pos (hanchor hafter)]
      have hne : ∀ n ∈ s.full.nodes, n.uid ≠ op.uid := by
        rintro n hn hnu
        refine hknown (indexHas_iff.mpr (Or.inr ?_))
        rw [ids_cells, ← hnu]
        exact List.mem_map_of_mem hn
      -- the new node is kept, and nothing changes for the others
      let kept' : UID → Bool := fun u => kept u || decide (u = op.uid)
      have hkept' : ∀ n ∈ s.full.nodes, kept' n.uid = kept n.uid := fun n hn => by
        simp [kept', hne n hn]
      have hfilter : s.full.nodes.filter (fun n => kept' n.uid) = s.collecting.nodes := by
        rw [h.nodes_eq]
        exact List.filter_congr hkept'
      refine ⟨kept', hindexed, ?_, ?_⟩
      · show (s.collecting.applyOperation (.insert op)).1.nodes =
          (s.full.applyOperation (.insert op)).1.nodes.filter fun n => kept' n.uid
        rw [hfull, hcollecting, filter_splice rfl (by simp [kept']), hfilter]
        · intro a ha n hn hna
          rw [hkept' n hn, ← h.indexHas_eq_kept hn, indexHas_iff, hna]
          exact Or.inr (indexHas_afterKey_iff.mp (hanchor hafter) a ha)
        · intro n hn
          refine hstop n ?_
          rw [Option.mem_def, ← hn]
          have hsub : ∀ m ∈ scanStop s.full op, m ∈ s.full.nodes := by
            intro m hm
            have hm' := List.dropWhile_sublist _ |>.subset hm
            cases hcase : anchor op.after with
            | none => simpa [hcase] using hm'
            | some a =>
                simp only [hcase, SkipInsert.behind] at hm'
                exact (List.dropWhile_sublist _).subset (List.mem_of_mem_tail hm')
          rw [← List.head?_filter, ← List.head?_filter]
          congr 1
          exact List.filter_congr fun m hm => by
            rw [h.indexHas_eq_kept (hsub m hm), hkept' m (hsub m hm)]
      · intro n hn hdrop
        rw [step] at hn
        simp only [hfull] at hn
        have hanchor : ∀ a, anchor op.after = some a → a ∈ s.full.nodes.map RGANode.uid :=
          ids_cells s.full ▸ indexHas_afterKey_iff.mp hafter
        have hperm := Chain.splice_perm hanchor ⟨op.uid, op.value, [], false⟩
        rcases List.mem_cons.mp (hperm.subset hn) with rfl | hn
        · simp [kept'] at hdrop
        · exact h.dropped n hn (hkept' n hn ▸ hdrop)
    · have hafter' : ¬ s.collecting.indexHas (afterKey op.after) = true :=
        fun hc => hafter (h.indexHas_afterKey hc)
      refine ⟨kept, hsame ?_ ?_⟩
      · rw [nodes_applyInsert, if_neg hknown, if_neg hafter]
      · rw [nodes_applyInsert, if_neg hcoll, if_neg hafter']

lemma Mirrors.delete (h : Mirrors s kept) (op : DeleteOperation) :
    Mirrors (s.step (.operation (.delete op))) kept := by
  refine ⟨h.indexed.applyOperation _, ?_, ?_⟩
  · show (s.collecting.applyOperation (.delete op)).1.nodes =
      (s.full.applyOperation (.delete op)).1.nodes.filter fun n => kept n.uid
    rw [nodes_applyDelete h.indexed_collecting, nodes_applyDelete h.indexed, h.nodes_eq,
      List.filter_map]
    congr 1
    exact List.filter_congr fun n _ => by simp
  · intro n hn hdrop
    rw [step] at hn
    simp only [nodes_applyDelete h.indexed] at hn
    obtain ⟨m, hm, rfl⟩ := List.mem_map.mp hn
    rw [tombstone_uid] at hdrop
    exact tombstone_tombstoned (h.dropped m hm hdrop)

lemma Mirrors.gc (h : Mirrors s kept) : ∃ kept', Mirrors (s.step .gc) kept' := by
  have hnd := h.indexed.nodup
  rw [ids_cells] at hnd
  let kept' : UID → Bool := fun u =>
    kept u && !(s.full.nodes.any fun n => decide (n.uid = u) && n.tombstoned)
  have hany : ∀ n ∈ s.full.nodes,
      (s.full.nodes.any fun m => decide (m.uid = n.uid) && m.tombstoned) = n.tombstoned := by
    intro n hn
    rw [Bool.eq_iff_iff, List.any_eq_true]
    constructor
    · rintro ⟨m, hm, htomb⟩
      simp only [Bool.and_eq_true, decide_eq_true_eq] at htomb
      obtain rfl : m = n := List.inj_on_of_nodup_map hnd hm hn htomb.1
      exact htomb.2
    · exact fun htomb => ⟨n, hn, by simp [htomb]⟩
  refine ⟨kept', h.indexed, ?_, fun n hn hdrop => ?_⟩
  · show s.collecting.gc.1.nodes = s.full.nodes.filter fun n => kept' n.uid
    rw [nodes_gc, h.nodes_eq, List.filter_filter]
    refine List.filter_congr fun n hn => ?_
    simp only [kept', hany n hn]
    exact Bool.and_comm ..
  · simp only [kept', hany n hn, Bool.and_eq_false_iff, Bool.not_eq_false'] at hdrop
    exact hdrop.elim (h.dropped n hn) id

/-- One operation. -/
theorem Mirrors.operation (h : Mirrors s kept) {op : RGAOperation} (hun : s.Unaffected op) :
    ∃ kept', Mirrors (s.step (.operation op)) kept' := by
  cases op with
  | insert op => exact h.insert hun
  | delete op => exact ⟨kept, h.delete op⟩
  | format op => exact absurd hun id
  | rollback op => exact absurd hun id

/-- A run of unaffected operations. -/
theorem Mirrors.run (h : Mirrors s kept) {events : List GcEvent} (hun : s.UnaffectedRun events) :
    ∃ kept', Mirrors (s.run events) kept' := by
  induction events generalizing s kept with
  | nil => exact ⟨kept, h⟩
  | cons event events ih =>
      cases event with
      | gc =>
          obtain ⟨kept', h'⟩ := h.gc
          exact ih h' hun
      | operation op =>
          obtain ⟨kept', h'⟩ := h.operation hun.1
          exact ih h' hun.2

lemma Mirrors.toText_eq (h : Mirrors s kept) : s.collecting.toText = s.full.toText := by
  rw [toText, toText, h.nodes_eq]
  refine Chain.textOf_filter fun n hn hdrop => ?_
  rw [RGANode.text, h.dropped n hn hdrop]

/-! ## Both replicas show the same text -/

/-- Two replicas of the document that the given operations build. -/
def start (ops : List RGAOperation) : GcReplicas :=
  ⟨empty.applyOperations ops, empty.applyOperations ops⟩

/-- **Tombstone collection is invisible** to operations that do not notice it.  Start two
replicas from any document reached by operations, and let both receive the same INSERTs and
DELETEs while the second one collects at arbitrary points.  If every INSERT is unaffected when it
is applied, the replicas show the same text after every event. -/
theorem toText_collecting {ops : List RGAOperation} {events : List GcEvent}
    (hun : (start ops).UnaffectedRun events) {before : List GcEvent} (hbefore : before <+: events) :
    ((start ops).run before).collecting.toText = ((start ops).run before).full.toText := by
  obtain ⟨rest, rfl⟩ := hbefore
  obtain ⟨kept, h⟩ := (mirrors_refl (indexed_empty.applyOperations ops)).run hun.of_append
  exact h.toText_eq

section Examples

/-- A node made by the first site. -/
private def ins (clock : Nat) (after : Option Nat) (char : String) : RGAOperation :=
  .insert ⟨⟨clock, JSString.lit "a"⟩, after.map fun c => ⟨c, JSString.lit "a"⟩,
    .string (JSString.lit char)⟩

/-- A DELETE of a node of site `a`. -/
private def del (clock : Nat) : RGAOperation := .delete ⟨⟨clock, JSString.lit "a"⟩⟩

/-- Typing goes on behind the remaining character, and everything is delivered twice. -/
theorem toText_collecting_typing :
    ((start [ins 1 none "x", ins 2 (some 1) "y", del 2]).run
        [.gc, .operation (ins 3 (some 1) "z"), .operation (ins 3 (some 1) "z"),
          .operation (del 2)]).collecting.toText =
      ((start [ins 1 none "x", ins 2 (some 1) "y", del 2]).run
        [.gc, .operation (ins 3 (some 1) "z"), .operation (ins 3 (some 1) "z"),
          .operation (del 2)]).full.toText :=
  toText_collecting (by decide) (List.prefix_refl _)

/-- Typing behind a deleted character fails on the replica that has collected it, although the
operation is causally valid and its UID is greater than that of its anchor. -/
theorem not_forall_toText_collecting :
    ¬ ∀ (ops : List RGAOperation) (events : List GcEvent),
      (∀ op ∈ ops, op.IsEdit) →
      (∀ before op after, events = before ++ GcEvent.operation op :: after → op.IsEdit ∧
        (∀ d ∈ op.needs, d ∈ ids ((start ops).run before).full.cells) ∧
        ∀ i a, op = .insert i → i.after = some a → a < i.uid) →
      ((start ops).run events).collecting.toText = ((start ops).run events).full.toText := by
  intro h
  have htext := h [ins 1 none "x", del 1] [.gc, .operation (ins 2 (some 1) "y")] (by decide) ?_
  · exact absurd htext (by decide)
  · intro before op after hsplit
    match before, hsplit with
    | [], hsplit => simp at hsplit
    | [event], hsplit =>
        obtain ⟨rfl, rfl, -⟩ : GcEvent.gc = event ∧ ins 2 (some 1) "y" = op ∧ [] = after := by
          simpa using hsplit
        refine ⟨trivial, ?_, ?_⟩
        · rintro d hd
          obtain rfl : (⟨1, JSString.lit "a"⟩ : UID) = d := Option.some.inj hd
          decide
        · rintro i a hi ha
          obtain rfl := RGAOperation.insert.inj hi
          obtain rfl : (⟨1, JSString.lit "a"⟩ : UID) = a := Option.some.inj ha
          decide
    | _ :: _ :: before, hsplit => simp at hsplit

-- a late INSERT walks over the remaining node, in front of which a collected one would stop it
example :
    let s := (start [ins 1 none "x", ins 3 (some 1) "t", ins 5 (some 3) "y", del 3]).run
      [.gc, .operation (ins 4 (some 1) "z")]
    s.collecting.toText ≠ s.full.toText := by decide

-- a collected character that is delivered again comes back
example :
    let s := (start [ins 1 none "x", del 1]).run [.gc, .operation (ins 1 none "x")]
    s.collecting.toText ≠ s.full.toText := by decide

end Examples

end GcReplicas

end SyncEngine
