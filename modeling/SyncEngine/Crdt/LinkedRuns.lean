import SyncEngine.Crdt.LinkedSnapshot
import SyncEngine.Lib.Transition

/-!
# Runs on the objects

A document is only ever changed by its methods, so what holds of all runs of operations,
collections and clones is what a user of the class can rely on.  Operations on the sentinel are
left out.

* **`wellFormed_of_reach`**: the `next` links lead through finitely many nodes with different
  UIDs, the `prev` links lead back, the index has exactly these nodes and the sentinel, and the
  counters count them; a method comes to an end, and an operation that returns `false` has changed
  nothing.
* **`snapshots_round_trip`**: what is rebuilt from a snapshot answers every later call like the
  document the snapshot was taken of.

Both rest on `Stands`: the objects stand for a well-formed list (`Stands.call`).
-/

namespace SyncEngine

open ReplicatedList LinkedList

/-- A call that changes a document; `clone` goes on with the copy. -/
inductive DocumentCall where
  | operation (op : RGAOperation)
  | gc
  | clone
deriving DecidableEq

/-- What a call returns. -/
inductive CallResult where
  | applied (success : Bool)
  | collected (removed : Nat)
  | cloned
deriving DecidableEq

/-- The call does not name the sentinel. -/
def DocumentCall.Regular : DocumentCall → Prop
  | .operation op => op.uid ≠ rootUID
  | _ => True

instance : DecidablePred DocumentCall.Regular := fun c =>
  match c with
  | .operation op => inferInstanceAs (Decidable (op.uid ≠ rootUID))
  | .gc => isTrue trivial
  | .clone => isTrue trivial

/-! ## The list model -/

namespace RGADocument

/-- The call on the list, where a copy is the list itself. -/
def call (d : RGADocument) : DocumentCall → RGADocument × CallResult
  | .operation op => ((d.applyOperation op).1, .applied (d.applyOperation op).2)
  | .gc => (d.gc.1, .collected d.gc.2)
  | .clone => (d, .cloned)

lemma root_applyOperation {d : RGADocument} {op : RGAOperation} (hroot : op.uid ≠ rootUID) :
    (d.applyOperation op).1.root = d.root := by
  cases op with
  | insert op =>
      rcases applyOperation_insert_cases d hroot with
        ⟨-, heq⟩ | ⟨-, -, nodes, heq, -, -⟩ | ⟨-, -, heq⟩ <;> rw [heq]
  | delete op =>
      rcases applyOperation_delete_cases d hroot with ⟨-, heq⟩ | ⟨n, -, -, ⟨-, heq⟩ | ⟨-, heq⟩⟩
      · rw [heq]
      · rw [heq]
      · rw [heq]
        rfl
  | format op =>
      have hkey : ¬ uidKey op.uid = uidKey rootUID := mt uidKey_inj.mp hroot
      simp only [applyOperation, applyFormat, if_neg hkey]
      split <;> rfl
  | rollback op => rfl

lemma WellFormed.gc {d : RGADocument} (h : d.WellFormed) : d.gc.1.WellFormed := by
  have hsub : (ids d.gc.1.cells).Sublist (ids d.cells) := by
    rw [ids_cells, ids_cells]
    exact List.Sublist.map _ List.filter_sublist
  have hlive : d.gc.1.cells.countP (fun c => !c.dead) = d.cells.countP fun c => !c.dead := by
    rw [cells, cells, List.countP_map, List.countP_map]
    show (d.nodes.filter fun n => !n.tombstoned).countP _ = _
    rw [List.countP_filter]
    refine List.countP_congr fun n _ => ?_
    simp [RGANode.cell]
  refine ⟨⟨hsub.nodup h.nodup, fun hmem => h.root_notMem (hsub.subset hmem)⟩, ?_, ?_⟩
  · rw [hlive]
    exact h.length_eq
  · have hcount := List.length_eq_countP_add_countP (fun n : RGANode => n.tombstoned) (l := d.nodes)
    have hnodes : d.nodeCount = d.nodes.length := by
      rw [h.nodeCount_eq, cells, List.length_map]
    have hkept : d.gc.1.cells.length = d.nodes.countP fun n => !n.tombstoned := by
      rw [cells, List.length_map]
      exact List.countP_eq_length_filter.symm
    show d.nodeCount - (d.nodes.countP fun n => n.tombstoned : Nat) = _
    rw [hkept, hnodes, hcount]
    simp only [Bool.not_eq_true, Bool.decide_eq_false]
    omega

end RGADocument

/-! ## The objects -/

namespace LinkedDocument

/-- A method of the class; `none` if it does not come to an end. -/
def call (d : LinkedDocument) : DocumentCall → Option (LinkedDocument × CallResult)
  | .operation op => (d.applyOperation op).map fun (d', applied) => (d', .applied applied)
  | .gc => d.gc.map fun (d', removed) => (d', .collected removed)
  | .clone => d.clone.map fun d' => (d', .cloned)

/-- The document after a call. -/
def step (d : LinkedDocument) (c : DocumentCall) : Option LinkedDocument := (d.call c).map Prod.fst

/-- The documents that regular calls lead to. -/
abbrev Reached : LinkedDocument → Prop := Transition.Reach step (fun _ c => c.Regular) empty

/-- The objects stand for a well-formed list, and nothing has touched the sentinel. -/
structure Stands (d : LinkedDocument) (L : RGADocument) : Prop where
  represents : ∃ refs, Represents d L refs
  wellFormed : L.WellFormed
  root_eq : L.root = ⟨[], false⟩

lemma stands_empty : Stands empty .empty :=
  ⟨⟨[], represents_empty⟩, RGADocument.wellFormed_empty, rfl⟩

/-- **Every call does to the objects what it does to the list.** -/
theorem Stands.call {d : LinkedDocument} {L : RGADocument} (h : Stands d L) {c : DocumentCall}
    (hc : c.Regular) :
    ∃ d', d.call c = some (d', (L.call c).2) ∧ Stands d' (L.call c).1 := by
  obtain ⟨refs, hrefs⟩ := h.represents
  cases c with
  | operation op =>
      obtain ⟨d', refs', hcall, h'⟩ := hrefs.applyOperation op
      refine ⟨d', ?_, ⟨refs', h'⟩, h.wellFormed.applyOperation hc, ?_⟩
      · rw [LinkedDocument.call, hcall]
        rfl
      · exact (RGADocument.root_applyOperation hc).trans h.root_eq
  | gc =>
      obtain ⟨d', refs', hcall, h'⟩ := hrefs.gc
      refine ⟨d', ?_, ⟨refs', h'⟩, h.wellFormed.gc, h.root_eq⟩
      rw [LinkedDocument.call, hcall]
      rfl
  | clone =>
      have h' := exists_represents_deserialize h.wellFormed h.root_eq
      refine ⟨_, ?_, h', h.wellFormed, h.root_eq⟩
      rw [LinkedDocument.call, LinkedDocument.clone, hrefs.serialize]
      rfl

lemma stands_of_reached {d : LinkedDocument} (h : Reached d) : ∃ L, Stands d L := by
  refine h.invariant (P := fun d => ∃ L, Stands d L) ⟨_, stands_empty⟩ fun d c d' hd hc hstep => ?_
  obtain ⟨L, hL⟩ := hd
  obtain ⟨e, hcall, he⟩ := hL.call hc
  rw [step, hcall] at hstep
  obtain rfl : e = d' := Option.some.inj hstep
  exact ⟨_, he⟩

/-! ## The representation invariant -/

/-- The nodes are `refs`, in this order. -/
structure WellFormed (d : LinkedDocument) (refs : List Ref) : Prop where
  /-- Following `next` from the sentinel. -/
  next_walk : Walk d.next (d.next d.root) refs
  /-- Following `prev` from the last node, back to the sentinel. -/
  prev_walk : Walk d.prev (some (refs.getLastD d.root)) (d.root :: refs).reverse
  root_uid : (d.node d.root).uid = rootUID
  nodup : ((d.root :: refs).map fun r => (d.node r).uid).Nodup
  index_iff : ∀ k r, d.index k = some r ↔ r ∈ d.root :: refs ∧ uidKey (d.node r).uid = k
  length_eq : d.length = refs.countP fun r => !(d.node r).tombstoned
  nodeCount_eq : d.nodeCount = refs.length

lemma Represents.wellFormed {d : LinkedDocument} {L : RGADocument} {refs : List Ref}
    (h : Represents d L refs) (hL : L.WellFormed) : d.WellFormed refs where
  next_walk := h.linked.walk_next
  prev_walk := h.linked.walk_prev h.prev_root
  root_uid := h.uid_root
  nodup := by
    rw [List.map_cons, h.uid_root, ← h.uids_eq]
    exact List.nodup_cons.mpr ⟨hL.root_notMem, hL.nodup⟩
  index_iff := h.index_iff
  length_eq := by
    rw [h.length_eq, hL.length_eq, RGADocument.cells, h.nodes_eq, List.countP_map, List.countP_map]
    rfl
  nodeCount_eq := by
    rw [h.nodeCount_eq, hL.nodeCount_eq, RGADocument.cells, h.nodes_eq, List.length_map,
      List.length_map]

/-- An operation that returns `false` has changed nothing. -/
lemma eq_of_applyOperation_false {d d' : LinkedDocument} {op : RGAOperation}
    (h : d.applyOperation op = some (d', false)) : d' = d := by
  cases op with
  | insert op =>
      simp only [applyOperation] at h
      split at h <;> simp_all
  | delete op =>
      simp only [applyOperation, applyDelete] at h
      split at h
      · simp_all
      · split at h <;> simp_all
  | format op =>
      simp only [applyOperation, applyFormat] at h
      split at h <;> simp_all
  | rollback op =>
      simp only [applyOperation, Option.some.injEq, Prod.mk.injEq] at h
      exact h.1.symm

/-- **The objects are well formed after every run**, every further call comes to an end, and an
operation that returns `false` leaves the document as it was. -/
theorem wellFormed_of_reached {d : LinkedDocument} (h : Reached d) :
    (∃ refs, d.WellFormed refs) ∧ (∀ c, c.Regular → (d.call c).isSome = true) ∧
      ∀ op d', d.applyOperation op = some (d', false) → d' = d := by
  obtain ⟨L, hL⟩ := stands_of_reached h
  obtain ⟨refs, hrefs⟩ := hL.represents
  refine ⟨⟨refs, hrefs.wellFormed hL.wellFormed⟩, fun c hc => ?_,
    fun op d' => eq_of_applyOperation_false⟩
  obtain ⟨d', hcall, -⟩ := hL.call hc
  rw [hcall]
  rfl

/-- A character typed at one site. -/
def typed (clock : Nat) (after : Option Nat) (text : String) : DocumentCall :=
  .operation (.insert ⟨⟨clock, JSString.lit "s"⟩, after.map fun c => ⟨c, JSString.lit "s"⟩,
    .string (JSString.lit text)⟩)

/-- A character typed behind another one, which is deleted and collected; then a copy is made. -/
def edited : LinkedDocument :=
  (Transition.runAllowed step (fun _ c => c.Regular) empty
    [typed 1 none "a", typed 2 (some 1) "b", .operation (.delete ⟨⟨1, JSString.lit "s"⟩⟩), .gc,
      .clone]).get (by decide +kernel)

theorem wellFormed_edited :
    (∃ refs, edited.WellFormed refs) ∧ (∀ c, c.Regular → (edited.call c).isSome = true) ∧
      ∀ op d', edited.applyOperation op = some (d', false) → d' = edited :=
  wellFormed_of_reached (Transition.reach_get _)

/-! ## Snapshots -/

/-- All that can be read of the two documents is the same. -/
structure SameView (d e : LinkedDocument) : Prop where
  serialize_eq : d.serialize = e.serialize
  toText_eq : d.toText = e.toText
  length_eq : d.length = e.length
  nodeCount_eq : d.nodeCount = e.nodeCount
  uidToIndex_eq : ∀ uid, d.uidToIndex uid = e.uidToIndex uid

/-- Call by call, the two documents return the same and look the same. -/
def Agree : LinkedDocument → LinkedDocument → List DocumentCall → Prop
  | d, e, [] => SameView d e
  | d, e, c :: calls => SameView d e ∧
      ∃ d' e' result, d.call c = some (d', result) ∧ e.call c = some (e', result) ∧
        Agree d' e' calls

/-- Apply operations one by one. -/
def applyOperations (d : LinkedDocument) (ops : List RGAOperation) : Option LinkedDocument :=
  ops.foldlM (fun d op => (d.applyOperation op).map Prod.fst) d

lemma Stands.sameView {d e : LinkedDocument} {L : RGADocument} (hd : Stands d L)
    (he : Stands e L) : SameView d e := by
  obtain ⟨refs, hd⟩ := hd.represents
  obtain ⟨refs', he⟩ := he.represents
  refine ⟨?_, ?_, ?_, ?_, fun uid => ?_⟩
  · rw [hd.serialize, he.serialize]
  · rw [hd.toText, he.toText]
  · rw [hd.length_eq, he.length_eq]
  · rw [hd.nodeCount_eq, he.nodeCount_eq]
  · rw [hd.uidToIndex, he.uidToIndex]

lemma Stands.agree {d e : LinkedDocument} {L : RGADocument} (hd : Stands d L) (he : Stands e L)
    {calls : List DocumentCall} (hcalls : ∀ c ∈ calls, c.Regular) : Agree d e calls := by
  induction calls generalizing d e L with
  | nil => exact hd.sameView he
  | cons c calls ih =>
      have hc : c.Regular := hcalls c (List.mem_cons_self ..)
      obtain ⟨d', hdcall, hd'⟩ := hd.call hc
      obtain ⟨e', hecall, he'⟩ := he.call hc
      refine ⟨hd.sameView he, d', e', _, hdcall, hecall, ?_⟩
      exact ih hd' he' fun c' hc' => hcalls c' (List.mem_cons_of_mem _ hc')

/-- A document that is rebuilt from a snapshot stands for the same list. -/
lemma Stands.deserialize {d : LinkedDocument} {L : RGADocument} (h : Stands d L) :
    ∃ nodes, d.serialize = some nodes ∧ Stands (deserialize nodes) L := by
  obtain ⟨refs, hrefs⟩ := h.represents
  have h' := exists_represents_deserialize h.wellFormed h.root_eq
  exact ⟨_, hrefs.serialize, h', h.wellFormed, h.root_eq⟩

lemma Stands.applyOperations {d : LinkedDocument} {L : RGADocument} (h : Stands d L)
    {ops : List RGAOperation} (hops : ∀ op ∈ ops, op.uid ≠ rootUID) :
    ∃ d', d.applyOperations ops = some d' ∧ Stands d' (L.applyOperations ops) := by
  induction ops generalizing d L with
  | nil => exact ⟨d, rfl, h⟩
  | cons op ops ih =>
      have hop : DocumentCall.Regular (.operation op) := hops op (List.mem_cons_self ..)
      obtain ⟨d₁, hcall, h₁⟩ := h.call hop
      obtain ⟨d', happly, h'⟩ := ih h₁ fun p hp => hops p (List.mem_cons_of_mem _ hp)
      have hstep : (d.applyOperation op).map Prod.fst = some d₁ := by
        obtain ⟨⟨e, applied⟩, happ, heq⟩ := Option.map_eq_some_iff.mp hcall
        rw [happ]
        exact congrArg some (congrArg Prod.fst heq)
      refine ⟨d', ?_, h'⟩
      rw [LinkedDocument.applyOperations, List.foldlM_cons, hstep]
      exact happly

/-- Serialized nodes with different UIDs and their attributes are given back. -/
lemma serialize_deserialize {nodes : List SerializedRGANode}
    (hnd : (nodes.map fun n => (⟨n.clock, n.siteId⟩ : UID)).Nodup)
    (hroot : ∀ n ∈ nodes, (⟨n.clock, n.siteId⟩ : UID) ≠ rootUID)
    (hattributes : ∀ n ∈ nodes, n.attributes.isSome = true) :
    (deserialize nodes).serialize = some nodes := by
  have hids : ids (RGADocument.deserialize nodes).cells =
      nodes.map fun n => (⟨n.clock, n.siteId⟩ : UID) := by
    rw [RGADocument.cells_deserialize, ids, List.map_map]
    rfl
  have hindexed : RGADocument.Indexed (.deserialize nodes) := by
    refine ⟨hids ▸ hnd, fun hmem => ?_⟩
    obtain ⟨n, hn, hnroot⟩ := List.mem_map.mp (hids ▸ hmem)
    exact hroot n hn hnroot
  obtain ⟨refs, hrefs⟩ := represents_deserialize hindexed
  rw [hrefs.serialize, RGADocument.serialize, RGADocument.deserialize, List.map_map]
  refine congrArg some ((List.map_congr_left fun n hn => ?_).trans (List.map_id _))
  obtain ⟨a, ha⟩ := Option.isSome_iff_exists.mp (hattributes n hn)
  cases n
  simp_all

/-- **Snapshots round-trip up to all future behaviour**: the rebuilt document answers like the one
the snapshot was taken of; serialized nodes are given back; and a snapshot of a front part of a
log, with the rest applied to it, is as good as the whole log. -/
theorem snapshots_round_trip {d : LinkedDocument} (h : Reached d) :
    (∃ nodes, d.serialize = some nodes ∧
      ∀ calls : List DocumentCall, (∀ c ∈ calls, c.Regular) → Agree d (deserialize nodes) calls) ∧
    (∀ nodes : List SerializedRGANode,
      (nodes.map fun n => (⟨n.clock, n.siteId⟩ : UID)).Nodup →
      (∀ n ∈ nodes, (⟨n.clock, n.siteId⟩ : UID) ≠ rootUID) →
      (∀ n ∈ nodes, n.attributes.isSome = true) → (deserialize nodes).serialize = some nodes) ∧
    ∀ front rest : List RGAOperation, (∀ op ∈ front ++ rest, op.uid ≠ rootUID) →
      ∃ d₁ nodes d₂ d', empty.applyOperations front = some d₁ ∧ d₁.serialize = some nodes ∧
        (deserialize nodes).applyOperations rest = some d₂ ∧
        empty.applyOperations (front ++ rest) = some d' ∧ SameView d₂ d' := by
  refine ⟨?_, fun nodes => serialize_deserialize, fun front rest hops => ?_⟩
  · obtain ⟨L, hL⟩ := stands_of_reached h
    obtain ⟨nodes, hnodes, h'⟩ := hL.deserialize
    exact ⟨nodes, hnodes, fun calls hcalls => hL.agree h' hcalls⟩
  · have hfront : ∀ op ∈ front, op.uid ≠ rootUID := fun op hop => hops op (by simp [hop])
    have hrest : ∀ op ∈ rest, op.uid ≠ rootUID := fun op hop => hops op (by simp [hop])
    obtain ⟨d₁, h₁, hs₁⟩ := stands_empty.applyOperations hfront
    obtain ⟨nodes, hnodes, hrebuilt⟩ := hs₁.deserialize
    obtain ⟨d₂, h₂, hs₂⟩ := hrebuilt.applyOperations hrest
    obtain ⟨d', hd', hs'⟩ := stands_empty.applyOperations hops
    rw [RGADocument.applyOperations_append] at hs'
    exact ⟨d₁, nodes, d₂, d', h₁, hnodes, h₂, hd', hs₂.sameView hs'⟩

/-- A snapshot of the edited document. -/
theorem snapshots_round_trip_edited :
    ∃ nodes, edited.serialize = some nodes ∧
      Agree edited (deserialize nodes) [typed 3 (some 2) "c", .gc] := by
  obtain ⟨nodes, hnodes, hagree⟩ := (snapshots_round_trip (d := edited) (Transition.reach_get _)).1
  exact ⟨nodes, hnodes, hagree _ (by decide)⟩

end LinkedDocument

end SyncEngine
