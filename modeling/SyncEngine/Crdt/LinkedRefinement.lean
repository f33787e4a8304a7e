import SyncEngine.Crdt.Cells
import SyncEngine.Crdt.LinkedDocument
import SyncEngine.Lib.LinkedList

/-!
# The objects stand for the list

`Represents d L refs` says that the node objects of `d`, in the order of `refs`, are the nodes of
the list model `L`: linked in both directions behind the sentinel, each under its own key in the
index, with the same counters.  Every method of the class keeps this and returns what the list
model returns, and its loops come to an end.

* **`Represents.applyOperation`**, **`Represents.gc`**: the methods that change a document.
-/

namespace SyncEngine

open ReplicatedList LinkedList

namespace LinkedDocument

/-- A node without its links. -/
def node (d : LinkedDocument) (r : Ref) : RGANode := (d.heap r).toRGANode

/-- The pointer forward. -/
def next (d : LinkedDocument) (r : Ref) : Option Ref := (d.heap r).next

/-- The pointer back. -/
def prev (d : LinkedDocument) (r : Ref) : Option Ref := (d.heap r).prev

/-- The list that the objects of a document stand for. -/
structure Represents (d : LinkedDocument) (L : RGADocument) (refs : List Ref) : Prop where
  linked : Linked d.next d.prev d.root refs
  prev_root : d.prev d.root = none
  allocated : ∀ r ∈ d.root :: refs, r < d.size
  uid_root : (d.node d.root).uid = rootUID
  root_eq : L.root = ⟨(d.node d.root).attributes, (d.node d.root).tombstoned⟩
  nodes_eq : L.nodes = refs.map d.node
  indexed : L.Indexed
  index_iff : ∀ k r, d.index k = some r ↔ r ∈ d.root :: refs ∧ uidKey (d.node r).uid = k
  length_eq : d.length = L.length
  nodeCount_eq : d.nodeCount = L.nodeCount

variable {d : LinkedDocument} {L : RGADocument} {refs pre post : List Ref} {r p : Ref} {u : UID}

lemma represents_empty : Represents empty .empty [] := by
  refine ⟨rfl, rfl, ?_, rfl, rfl, rfl, RGADocument.indexed_empty, fun k r => ?_, rfl, rfl⟩
  · intro r hr
    rw [List.mem_singleton.mp hr]
    exact Nat.zero_lt_one
  · have huid : (empty.node r).uid = rootUID := rfl
    have hroot : empty.root = 0 := rfl
    have hindex : empty.index k = if k = uidKey rootUID then some 0 else none := by
      show Function.update (fun _ => none) (uidKey rootUID) (some 0) k = _
      rw [Function.update_apply]
    rw [huid, hroot, hindex, List.mem_singleton]
    split
    · rename_i hk
      simp [hk, eq_comm]
    · rename_i hk
      simp [Ne.symm hk]

namespace Represents

lemma uids_eq (h : Represents d L refs) : ids L.cells = refs.map fun r => (d.node r).uid := by
  rw [RGADocument.ids_cells, h.nodes_eq, List.map_map]
  rfl

lemma nodup (h : Represents d L refs) : (d.root :: refs).Nodup := by
  have huids : (refs.map fun r => (d.node r).uid).Nodup := h.uids_eq ▸ h.indexed.nodup
  refine List.nodup_cons.mpr ⟨fun hroot => h.indexed.root_notMem ?_, huids.of_map⟩
  rw [h.uids_eq, ← h.uid_root]
  exact List.mem_map_of_mem hroot

lemma root_notMem (h : Represents d L refs) : d.root ∉ refs := (List.nodup_cons.mp h.nodup).1

lemma eq_of_uid (h : Represents d L refs) {r' : Ref} (hr : r ∈ d.root :: refs)
    (hr' : r' ∈ d.root :: refs) (huid : (d.node r).uid = (d.node r').uid) : r = r' := by
  have hkey : ∀ {x}, x ∈ d.root :: refs → d.index (uidKey (d.node x).uid) = some x :=
    fun hx => (h.index_iff _ _).mpr ⟨hx, rfl⟩
  have hsame := hkey hr
  rw [huid, hkey hr'] at hsame
  exact (Option.some.inj hsame).symm

lemma length_lt (h : Represents d L refs) : refs.length < d.size := by
  have hsub : d.root :: refs ⊆ List.range d.size := fun r hr =>
    List.mem_range.mpr (h.allocated r hr)
  have hle := (List.subperm_of_subset h.nodup hsub).length_le
  rwa [List.length_cons, List.length_range] at hle

lemma size_notMem (h : Represents d L refs) : d.size ∉ d.root :: refs :=
  fun hmem => Nat.lt_irrefl _ (h.allocated _ hmem)

/-! ## The index -/

lemma index_root (h : Represents d L refs) : d.index (uidKey rootUID) = some d.root :=
  (h.index_iff _ _).mpr ⟨List.mem_cons_self .., by rw [h.uid_root]⟩

lemma index_eq_none (h : Represents d L refs) :
    d.index (uidKey u) = none ↔ u ≠ rootUID ∧ u ∉ ids L.cells := by
  rw [h.uids_eq]
  constructor
  · intro hnone
    refine ⟨fun hu => ?_, fun hu => ?_⟩
    · rw [hu, h.index_root] at hnone
      exact absurd hnone (by simp)
    · obtain ⟨r, hr, rfl⟩ := List.mem_map.mp hu
      have hsome := (h.index_iff _ r).mpr ⟨List.mem_cons_of_mem _ hr, rfl⟩
      rw [hnone] at hsome
      exact absurd hsome (by simp)
  · rintro ⟨hroot, hu⟩
    cases hindex : d.index (uidKey u) with
    | none => rfl
    | some r =>
        obtain ⟨hr, hkey⟩ := (h.index_iff _ _).mp hindex
        rw [uidKey_inj] at hkey
        rcases List.mem_cons.mp hr with rfl | hr
        · exact absurd (hkey.symm.trans h.uid_root) hroot
        · exact absurd (hkey ▸ List.mem_map_of_mem hr) hu

lemma indexHas_eq (h : Represents d L refs) :
    L.indexHas (uidKey u) = (d.index (uidKey u)).isSome := by
  rw [Bool.eq_iff_iff, RGADocument.indexHas_iff, ← Option.ne_none_iff_isSome, ne_eq,
    h.index_eq_none]
  tauto

lemma indexGet_eq (h : Represents d L refs) (hu : u ≠ rootUID) :
    L.indexGet (uidKey u) = (d.index (uidKey u)).map d.node := by
  cases hindex : d.index (uidKey u) with
  | none =>
      rw [Option.map_none, RGADocument.indexGet_eq_none]
      exact (h.index_eq_none.mp hindex).2
  | some r =>
      obtain ⟨hr, hkey⟩ := (h.index_iff _ _).mp hindex
      rw [uidKey_inj] at hkey
      cases hget : L.indexGet (uidKey u) with
      | none =>
          have hsome := h.index_eq_none.mpr ⟨hu, RGADocument.indexGet_eq_none.mp hget⟩
          rw [hindex] at hsome
          exact absurd hsome (by simp)
      | some n =>
          obtain ⟨hn, hnu⟩ := Chain.indexGet_some hget
          rw [h.nodes_eq] at hn
          obtain ⟨r', hr', rfl⟩ := List.mem_map.mp hn
          rw [h.eq_of_uid (List.mem_cons_of_mem _ hr') hr (hnu.trans hkey.symm)]
          rfl

end Represents

/-! ## Writing fields -/

/-- Writing what concerns neither the links nor the UIDs. -/
lemma Represents.of_fields {d' : LinkedDocument} {L' : RGADocument} (h : Represents d L refs)
    (hnext : d'.next = d.next) (hprev : d'.prev = d.prev) (hsize : d'.size = d.size)
    (hroot : d'.root = d.root) (hindex : d'.index = d.index)
    (huid : ∀ y, (d'.node y).uid = (d.node y).uid)
    (hsentinel : L'.root = ⟨(d'.node d.root).attributes, (d'.node d.root).tombstoned⟩)
    (hnodes : L'.nodes = refs.map d'.node) (hlength : d'.length = L'.length)
    (hcount : d'.nodeCount = L'.nodeCount) : Represents d' L' refs := by
  refine ⟨?_, ?_, ?_, ?_, ?_, hnodes, ?_, fun k y => ?_, hlength, hcount⟩
  · rw [hnext, hprev, hroot]
    exact h.linked
  · rw [hprev, hroot]
    exact h.prev_root
  · rw [hroot, hsize]
    exact h.allocated
  · rw [hroot, huid]
    exact h.uid_root
  · rw [hroot]
    exact hsentinel
  · have hids : ids L'.cells = ids L.cells := by
      rw [RGADocument.ids_cells, hnodes, List.map_map, h.uids_eq]
      exact List.map_congr_left fun y _ => huid y
    exact ⟨hids ▸ h.indexed.nodup, hids ▸ h.indexed.root_notMem⟩
  · rw [hindex, hroot, huid]
    exact h.index_iff k y

lemma heap_modify {f : LinkedNode → LinkedNode} {y : Ref} :
    (d.modify r f).heap y = if y = r then f (d.heap y) else d.heap y := by
  rw [modify]
  by_cases h : y = r
  · subst h
    simp
  · simp [h]

lemma heap_alloc {n : LinkedNode} {y : Ref} :
    (d.alloc n).heap y = if y = d.size then n else d.heap y := by
  show Function.update d.heap d.size n y = _
  rw [Function.update_apply]

section Write

variable {g : RGANode → RGANode} {y : Ref} {k k' : Int}

/-- Write fields of a node that are not its links. -/
abbrev write (d : LinkedDocument) (r : Ref) (g : RGANode → RGANode) : LinkedDocument :=
  d.modify r fun n => { n with toRGANode := g n.toRGANode }

lemma next_write : (d.write r g).next = d.next := by
  funext y
  rw [next, heap_modify]
  split <;> rfl

lemma prev_write : (d.write r g).prev = d.prev := by
  funext y
  rw [prev, heap_modify]
  split <;> rfl

lemma node_write : (d.write r g).node y = if y = r then g (d.node y) else d.node y := by
  rw [node, heap_modify]
  split <;> rfl

lemma uid_write (hg : ∀ n, (g n).uid = n.uid) :
    ((d.write r g).node y).uid = (d.node y).uid := by
  rw [node_write]
  split
  · exact hg _
  · rfl

lemma Represents.write (h : Represents d L refs) (hg : ∀ n, (g n).uid = n.uid) (hr : r ∈ refs)
    (hk : k = k') :
    Represents { d.write r g with length := k }
      { L.updateNode (uidKey (d.node r).uid) g with length := k' } refs := by
  refine h.of_fields next_write prev_write rfl rfl rfl (fun _ => uid_write hg) ?_ ?_ hk
    h.nodeCount_eq
  · have hne : d.root ≠ r := fun heq => h.root_notMem (heq.symm ▸ hr)
    have hroot : (d.write r g).node d.root = d.node d.root := by rw [node_write, if_neg hne]
    show L.root = ⟨((d.write r g).node d.root).attributes, ((d.write r g).node d.root).tombstoned⟩
    rw [hroot]
    exact h.root_eq
  · show (L.updateNode (uidKey (d.node r).uid) g).nodes = refs.map (d.write r g).node
    rw [RGADocument.updateNode, Chain.updateNode, h.nodes_eq, List.map_map]
    refine List.map_congr_left fun y hy => ?_
    rw [Function.comp_apply, node_write]
    by_cases hyr : y = r
    · rw [if_pos hyr, if_pos (by rw [hyr])]
    · rw [if_neg hyr, if_neg]
      rw [uidKey_inj]
      exact fun heq =>
        hyr (h.eq_of_uid (List.mem_cons_of_mem _ hy) (List.mem_cons_of_mem _ hr) heq)

lemma Represents.write_root (h : Represents d L refs) (hg : ∀ n, (g n).uid = n.uid)
    (hk : k = k') :
    Represents { d.write d.root g with length := k }
      { L with
        root := ⟨(g (d.node d.root)).attributes, (g (d.node d.root)).tombstoned⟩
        length := k' } refs := by
  refine h.of_fields next_write prev_write rfl rfl rfl (fun _ => uid_write hg) ?_ ?_ hk
    h.nodeCount_eq
  · have hroot : (d.write d.root g).node d.root = g (d.node d.root) := by
      rw [node_write, if_pos rfl]
    exact hroot ▸ rfl
  · show L.nodes = refs.map (d.write d.root g).node
    rw [h.nodes_eq]
    refine List.map_congr_left fun y hy => ?_
    have hne : y ≠ d.root := fun heq => h.root_notMem (heq ▸ hy)
    rw [node_write, if_neg hne]

end Write

/-! ## DELETE, FORMAT -/

/-- Under a key that is not the sentinel's, the index has a node of the list. -/
lemma Represents.mem_of_index (h : Represents d L refs) (hu : u ≠ rootUID)
    (hindex : d.index (uidKey u) = some r) : r ∈ refs ∧ (d.node r).uid = u := by
  obtain ⟨hr, hkey⟩ := (h.index_iff _ _).mp hindex
  rw [uidKey_inj] at hkey
  refine ⟨(List.mem_cons.mp hr).resolve_left fun heq => hu ?_, hkey⟩
  rw [← hkey, heq, h.uid_root]

lemma Represents.applyDelete (h : Represents d L refs) (op : DeleteOperation) :
    (d.applyDelete op).2 = (L.applyDelete op).2 ∧
      Represents (d.applyDelete op).1 (L.applyDelete op).1 refs := by
  have hlength : d.length - 1 = L.length - 1 := by rw [h.length_eq]
  by_cases hroot : op.uid = rootUID
  · have htomb : L.root.tombstoned = (d.heap d.root).tombstoned := by rw [h.root_eq]; rfl
    simp only [LinkedDocument.applyDelete, RGADocument.applyDelete, hroot, h.index_root, if_true,
      htomb]
    split
    · exact ⟨rfl, h⟩
    · have hattributes : L.root.attributes = (d.node d.root).attributes := by rw [h.root_eq]
      rw [hattributes]
      exact ⟨rfl, h.write_root (g := fun n => { n with tombstoned := true }) (fun _ => rfl) hlength⟩
  · have hget := h.indexGet_eq hroot
    cases hindex : d.index (uidKey op.uid) with
    | none =>
        rw [hindex, Option.map_none] at hget
        simp only [LinkedDocument.applyDelete, RGADocument.applyDelete, uidKey_inj, hroot, if_false,
          hget, hindex]
        exact ⟨trivial, h⟩
    | some r =>
        obtain ⟨hr, hkey⟩ := h.mem_of_index hroot hindex
        have htomb : (d.node r).tombstoned = (d.heap r).tombstoned := rfl
        rw [hindex, Option.map_some] at hget
        simp only [LinkedDocument.applyDelete, RGADocument.applyDelete, uidKey_inj, hroot, if_false,
          hget, hindex, htomb]
        split
        · exact ⟨rfl, h⟩
        · rw [← hkey]
          exact ⟨rfl,
            h.write (g := fun n => { n with tombstoned := true }) (fun _ => rfl) hr hlength⟩

lemma Represents.applyFormat (h : Represents d L refs) (op : FormatOperation) :
    (d.applyFormat op).2 = (L.applyFormat op).2 ∧
      Represents (d.applyFormat op).1 (L.applyFormat op).1 refs := by
  by_cases hroot : op.uid = rootUID
  · have hattributes : L.root.attributes = (d.node d.root).attributes := by rw [h.root_eq]
    have htomb : L.root.tombstoned = (d.node d.root).tombstoned := by rw [h.root_eq]
    simp only [LinkedDocument.applyFormat, RGADocument.applyFormat, hroot, h.index_root, if_true]
    rw [hattributes, htomb]
    exact ⟨trivial, h.write_root
      (g := fun n => { n with attributes := n.attributes.spread op.attributes }) (fun _ => rfl)
      h.length_eq⟩
  · have hget := h.indexGet_eq hroot
    cases hindex : d.index (uidKey op.uid) with
    | none =>
        rw [hindex, Option.map_none] at hget
        simp only [LinkedDocument.applyFormat, RGADocument.applyFormat, uidKey_inj, hroot, if_false,
          hget, hindex]
        exact ⟨trivial, h⟩
    | some r =>
        obtain ⟨hr, hkey⟩ := h.mem_of_index hroot hindex
        rw [hindex, Option.map_some] at hget
        simp only [LinkedDocument.applyFormat, RGADocument.applyFormat, uidKey_inj, hroot, if_false,
          hget, hindex]
        rw [← hkey]
        exact ⟨trivial, h.write
          (g := fun n => { n with attributes := n.attributes.spread op.attributes })
          (fun _ => rfl) hr h.length_eq⟩

/-! ## INSERT -/

/-- The scan-right loop stops where the list has the new node. -/
lemma insertionPoint_eq {a : Ref} (h : Linked d.next d.prev a post) (n : RGANode) {fuel : Nat}
    (hfuel : post.length < fuel) :
    ∃ l r, post = l ++ r ∧ d.insertionPoint n.uid fuel a = some (l.getLastD a) ∧
      Chain.scanRight RGANode.uid n (post.map d.node) = l.map d.node ++ n :: r.map d.node := by
  induction post generalizing a fuel with
  | nil =>
      obtain ⟨fuel, rfl⟩ := Nat.exists_eq_succ_of_ne_zero (Nat.ne_of_gt hfuel)
      have hnext : (d.heap a).next = none := h
      exact ⟨[], [], rfl, by simp [insertionPoint, hnext], rfl⟩
  | cons b post ih =>
      obtain ⟨fuel, rfl⟩ := Nat.exists_eq_succ_of_ne_zero (Nat.ne_of_gt (Nat.zero_lt_of_lt hfuel))
      obtain ⟨hb, -, hrest⟩ := h
      have hnext : (d.heap a).next = some b := hb
      by_cases hgreater : compareUID (d.heap b).uid n.uid > 0
      · obtain ⟨l, r, rfl, hpoint, hscan⟩ := ih hrest (Nat.lt_of_succ_lt_succ hfuel)
        refine ⟨b :: l, r, rfl, ?_, ?_⟩
        · rw [insertionPoint, hnext]
          simp only [hgreater, if_true]
          rw [hpoint, List.getLastD_cons]
        · have hgreater' : compareUID (d.node b).uid n.uid > 0 := hgreater
          rw [List.map_cons, Chain.scanRight, if_pos hgreater', hscan]
          rfl
      · refine ⟨[], b :: post, rfl, ?_, ?_⟩
        · rw [insertionPoint, hnext]
          simp only [hgreater, if_false]
          rfl
        · have hgreater' : ¬ compareUID (d.node b).uid n.uid > 0 := hgreater
          rw [List.map_cons, Chain.scanRight, if_neg hgreater']
          rfl

/-- The objects after a splice. -/
lemma heap_spliceBehind {n : RGANode} (hp : p ≠ d.size)
    (hnext : ∀ y, d.next p = some y → y ≠ d.size ∧ y ≠ p) (y : Ref) :
    (d.spliceBehind p n).heap y =
      if y = d.size then ⟨n, some p, d.next p⟩
      else if y = p then { d.heap p with next := some d.size }
      else if d.next p = some y then { d.heap y with prev := some d.size }
      else d.heap y := by
  have hpnext : ((d.alloc ⟨n, some p, (d.heap p).next⟩).heap p).next = d.next p := by
    rw [heap_alloc, if_neg hp]
    rfl
  rw [spliceBehind]
  simp only [hpnext]
  cases hq : d.next p with
  | none =>
      simp only [heap_modify, heap_alloc]
      by_cases hsize : y = d.size
      · subst hsize
        simp [hp.symm, ← hq, next]
      · by_cases hyp : y = p
        · subst hyp
          simp [hp]
        · simp [hsize, hyp]
  | some q =>
      obtain ⟨hqsize, hqp⟩ := hnext q hq
      simp only [heap_modify, heap_alloc]
      by_cases hsize : y = d.size
      · subst hsize
        simp [hp.symm, hqsize.symm, ← hq, next]
      · by_cases hyp : y = p
        · subst hyp
          simp [hp, hqp.symm]
        · by_cases hyq : y = q
          · subst hyq
            simp [hsize, hyp]
          · simp [hsize, hyp, hyq, Ne.symm hyq]

lemma spliceBehind_fields (d : LinkedDocument) (p : Ref) (n : RGANode) :
    (d.spliceBehind p n).size = d.size + 1 ∧ (d.spliceBehind p n).root = d.root ∧
      (d.spliceBehind p n).index = d.index ∧ (d.spliceBehind p n).length = d.length ∧
      (d.spliceBehind p n).nodeCount = d.nodeCount := by
  simp only [spliceBehind]
  cases ((d.alloc ⟨n, some p, (d.heap p).next⟩).heap p).next <;> exact ⟨rfl, rfl, rfl, rfl, rfl⟩

/-- The links and nodes after a splice. -/
structure Spliced (d d' : LinkedDocument) (p : Ref) (n : RGANode) : Prop where
  size_eq : d'.size = d.size + 1
  root_eq : d'.root = d.root
  node_new : d'.node d.size = n
  node_old : ∀ y, y ≠ d.size → d'.node y = d.node y
  next_new : d'.next d.size = d.next p
  next_point : d'.next p = some d.size
  next_old : ∀ y, y ≠ d.size → y ≠ p → d'.next y = d.next y
  prev_new : d'.prev d.size = some p
  prev_next : ∀ y, y ≠ d.size → d.next p = some y → d'.prev y = some d.size
  prev_old : ∀ y, y ≠ d.size → d.next p ≠ some y → d'.prev y = d.prev y

lemma spliced_of_heap {d' : LinkedDocument} {n : RGANode} (hp : p ≠ d.size)
    (hnext : ∀ y, d.next p = some y → y ≠ d.size ∧ y ≠ p)
    (hheap : d'.heap = (d.spliceBehind p n).heap) (hsize : d'.size = d.size + 1)
    (hroot : d'.root = d.root) : Spliced d d' p n := by
  refine ⟨hsize, hroot, ?_, fun y hy => ?_, ?_, ?_, fun y hy hyp => ?_, ?_, fun y hy hyn => ?_,
    fun y hy hyn => ?_⟩
  · rw [node, hheap, heap_spliceBehind hp hnext, if_pos rfl]
  · rw [node, hheap, heap_spliceBehind hp hnext, if_neg hy]
    split_ifs with hyp
    · rw [hyp]
      rfl
    · rfl
    · rfl
  · rw [next, hheap, heap_spliceBehind hp hnext, if_pos rfl]
  · rw [next, hheap, heap_spliceBehind hp hnext, if_neg hp, if_pos rfl]
  · rw [next, hheap, heap_spliceBehind hp hnext, if_neg hy, if_neg hyp]
    split_ifs <;> rfl
  · rw [prev, hheap, heap_spliceBehind hp hnext, if_pos rfl]
  · rw [prev, hheap, heap_spliceBehind hp hnext, if_neg hy, if_neg (hnext y hyn).2, if_pos hyn]
  · rw [prev, hheap, heap_spliceBehind hp hnext, if_neg hy]
    split_ifs with hyp
    · rw [hyp]
      rfl
    · rfl

/-- **A new node behind a node of the list**, once the index and the counters know it. -/
lemma Represents.spliced {d' : LinkedDocument} {n : RGANode} (h : Represents d L (pre ++ post))
    (hspliced : Spliced d d' (pre.getLastD d.root) n) (hroot : n.uid ≠ rootUID)
    (hnew : n.uid ∉ ids L.cells)
    (hindex : d'.index = Function.update d.index (uidKey n.uid) (some d.size)) {length : Int}
    (hlength : d'.length = length) (hcount : d'.nodeCount = d.nodeCount + 1) :
    Represents d'
      { L with
        nodes := pre.map d.node ++ n :: post.map d.node
        length := length
        nodeCount := L.nodeCount + 1 } (pre ++ d.size :: post) := by
  have hold : ∀ {y}, y ∈ d.root :: (pre ++ post) → y ≠ d.size := fun hy heq =>
    h.size_notMem (heq ▸ hy)
  have hpnext : d.next (pre.getLastD d.root) = post.head? := h.linked.next_getLastD
  have hrootnode : d'.node d.root = d.node d.root :=
    hspliced.node_old _ (hold (List.mem_cons_self ..))
  have hmap : ∀ l : List Ref, l ⊆ pre ++ post → l.map d'.node = l.map d.node := fun l hl =>
    List.map_congr_left fun y hy =>
      hspliced.node_old y (hold (List.mem_cons_of_mem _ (hl hy)))
  have hnodes : pre.map d.node ++ n :: post.map d.node = (pre ++ d.size :: post).map d'.node := by
    rw [List.map_append, List.map_cons, hspliced.node_new, hmap pre (List.subset_append_left ..),
      hmap post (List.subset_append_right ..)]
  -- the index does not look at the order, so a permutation is enough for it
  have hperm : (pre.map d.node ++ n :: post.map d.node).Perm (n :: L.nodes) := by
    rw [h.nodes_eq, List.map_append]
    exact List.perm_middle
  refine ⟨?_, ?_, fun r hr => ?_, ?_, ?_, hnodes, ?_, fun k r => ?_, hlength, ?_⟩
  · rw [hspliced.root_eq]
    refine h.linked.insert h.nodup hspliced.next_point hspliced.next_new (fun y hy hyp => ?_)
      hspliced.prev_new (fun y hy => ?_) fun y hy hyn => ?_
    · exact hspliced.next_old y (hold hy) hyp
    · have hpost : y ∈ post := List.mem_of_mem_head? hy
      refine hspliced.prev_next y (hold ?_) (hpnext.trans hy)
      exact List.mem_cons_of_mem _ (List.mem_append_right _ hpost)
    · refine hspliced.prev_old y (hold (List.mem_cons_of_mem _ hy)) fun heq => hyn ?_
      exact hpnext.symm.trans heq
  · rw [hspliced.root_eq, hspliced.prev_old d.root (hold (List.mem_cons_self ..))]
    · exact h.prev_root
    · intro heq
      refine h.root_notMem (List.mem_append_right _ (List.mem_of_mem_head? ?_))
      exact hpnext.symm.trans heq
  · rw [hspliced.size_eq]
    rw [hspliced.root_eq] at hr
    by_cases hrs : r = d.size
    · rw [hrs]
      exact Nat.lt_succ_self _
    · refine Nat.lt_succ_of_lt (h.allocated r ?_)
      simp only [List.mem_cons, List.mem_append] at hr ⊢
      tauto
  · rw [hspliced.root_eq, hrootnode]
    exact h.uid_root
  · rw [hspliced.root_eq, hrootnode]
    exact h.root_eq
  · have hids : (ids (RGADocument.cells { L with
        nodes := pre.map d.node ++ n :: post.map d.node, length := length,
        nodeCount := L.nodeCount + 1 })).Perm (n.uid :: ids L.cells) := by
      rw [RGADocument.ids_cells, RGADocument.ids_cells]
      exact hperm.map RGANode.uid
    refine ⟨hids.nodup_iff.mpr (List.nodup_cons.mpr ⟨hnew, h.indexed.nodup⟩), fun hmem => ?_⟩
    rcases List.mem_cons.mp (hids.mem_iff.mp hmem) with heq | hmem
    · exact hroot heq.symm
    · exact h.indexed.root_notMem hmem
  · -- the index: the key of the new node leads to it, every other key where it led before
    have hmem : r ∈ d'.root :: (pre ++ d.size :: post) ↔
        r = d.size ∨ r ∈ d.root :: (pre ++ post) := by
      rw [hspliced.root_eq]
      simp only [List.mem_cons, List.mem_append]
      tauto
    rw [hindex, Function.update_apply, hmem]
    by_cases hrs : r = d.size
    · subst hrs
      rw [hspliced.node_new]
      split
      · rename_i hk
        simp [hk]
      · rename_i hk
        refine iff_of_false (fun hsome => ?_) fun hand => hk hand.2.symm
        exact h.size_notMem ((h.index_iff _ _).mp hsome).1
    · rw [hspliced.node_old r hrs]
      split
      · rename_i hk
        refine iff_of_false (fun hsome => hrs (Option.some.inj hsome).symm) ?_
        rintro ⟨hr, hkey⟩
        have hr' := hr.resolve_left hrs
        rw [hk, uidKey_inj] at hkey
        rcases List.mem_cons.mp hr' with rfl | hr'
        · exact hroot (hkey.symm.trans h.uid_root)
        · refine hnew (hkey ▸ h.uids_eq ▸ List.mem_map_of_mem hr')
      · rw [h.index_iff]
        simp [hrs]
  · rw [hcount, h.nodeCount_eq]

lemma Represents.point (h : Represents d L (pre ++ post)) :
    pre.getLastD d.root ≠ d.size ∧ ∀ y, d.next (pre.getLastD d.root) = some y →
      y ≠ d.size ∧ y ≠ pre.getLastD d.root := by
  have hmem : pre.getLastD d.root ∈ d.root :: (pre ++ post) := by
    rw [← List.cons_append]
    exact List.mem_append_left _ List.getLastD_mem_cons
  refine ⟨fun heq => h.size_notMem (heq ▸ hmem), fun y hy => ?_⟩
  have hpost : y ∈ post := List.mem_of_mem_head? (h.linked.next_getLastD.symm.trans hy)
  refine ⟨fun heq => h.size_notMem (heq ▸ ?_), fun heq => getLastD_notMem h.nodup (heq ▸ hpost)⟩
  exact List.mem_cons_of_mem _ (List.mem_append_right _ hpost)

/-- Where the scan starts, the list is split in two. -/
lemma Represents.splice_eq (h : Represents d L refs) {after : Option UID} {a : Ref}
    (hindex : d.index (afterKey after) = some a) :
    ∃ pre post, refs = pre ++ post ∧ pre.getLastD d.root = a ∧
      ∀ n, Chain.splice RGANode.uid (afterKey after) n L.nodes =
        pre.map d.node ++ Chain.scanRight RGANode.uid n (post.map d.node) := by
  have hstart : afterKey after = uidKey rootUID →
      ∃ pre post, refs = pre ++ post ∧ pre.getLastD d.root = a ∧
        ∀ n, Chain.splice RGANode.uid (afterKey after) n L.nodes =
          pre.map d.node ++ Chain.scanRight RGANode.uid n (post.map d.node) := by
    intro hkey
    rw [hkey, h.index_root] at hindex
    refine ⟨[], refs, rfl, Option.some.inj hindex, fun n => ?_⟩
    rw [Chain.splice, if_pos hkey, h.nodes_eq]
    rfl
  cases after with
  | none => exact hstart rfl
  | some u =>
      by_cases hu : u = rootUID
      · exact hstart (by rw [afterKey, hu])
      obtain ⟨ha, hau⟩ := h.mem_of_index hu hindex
      obtain ⟨front, post, rfl⟩ := List.append_of_mem ha
      refine ⟨front ++ [a], post, by simp, List.getLastD_concat, fun n => ?_⟩
      have hfront : u ∉ (front.map d.node).map RGANode.uid := by
        intro hmem
        rw [List.map_map] at hmem
        obtain ⟨y, hy, hyu⟩ := List.mem_map.mp hmem
        have hya : y = a := h.eq_of_uid (List.mem_cons_of_mem _ (List.mem_append_left _ hy))
          (List.mem_cons_of_mem _ ha) (hyu.trans hau.symm)
        have hnd := (List.nodup_cons.mp h.nodup).2
        exact (List.nodup_append.mp hnd).2.2 y hy a (List.mem_cons_self ..) hya
      rw [Chain.splice, afterKey, if_neg (by simpa using hu), Chain.spliceAfter_eq, h.nodes_eq,
        List.map_append, List.map_cons, SkipInsert.insertAfter_append hfront,
        SkipInsert.insertAfter_cons_of_eq hau, Chain.scanRight_eq]
      simp

lemma applyInsert_of_anchor {op : InsertOperation} {a : Ref}
    (hknown : d.index (uidKey op.uid) = none) (hafter : d.index (afterKey op.after) = some a)
    (hpoint : d.insertionPoint op.uid d.size a = some p) :
    d.applyInsert op = some (.ok { d.spliceBehind p ⟨op.uid, op.value, [], false⟩ with
      index := Function.update (d.spliceBehind p ⟨op.uid, op.value, [], false⟩).index
        (uidKey op.uid) (some d.size)
      length := (d.spliceBehind p ⟨op.uid, op.value, [], false⟩).length + 1
      nodeCount := (d.spliceBehind p ⟨op.uid, op.value, [], false⟩).nodeCount + 1 }) := by
  simp only [applyInsert, hknown, hafter, hpoint, Option.isSome_none, Bool.false_eq_true, if_false,
    Option.map_some]

/-- An INSERT does to the objects what it does to the list. -/
lemma Represents.applyInsert (h : Represents d L refs) (op : InsertOperation) :
    (∃ d' L' refs', d.applyInsert op = some (.ok d') ∧ L.applyInsert op = .ok L' ∧
      Represents d' L' refs') ∨
    ∃ e, d.applyInsert op = some (.error e) ∧ L.applyInsert op = .error e := by
  have hhas := h.indexHas_eq (u := op.uid)
  have hhas' : L.indexHas (afterKey op.after) = (d.index (afterKey op.after)).isSome := by
    cases op.after with
    | none => exact h.indexHas_eq (u := rootUID)
    | some a => exact h.indexHas_eq (u := a)
  cases hknown : d.index (uidKey op.uid) with
  | some r =>
      rw [hknown] at hhas
      refine Or.inl ⟨d, L, refs, ?_, ?_, h⟩
      · simp [LinkedDocument.applyInsert, hknown]
      · simp [RGADocument.applyInsert, hhas]
  | none =>
      rw [hknown] at hhas
      cases hafter : d.index (afterKey op.after) with
      | none =>
          rw [hafter] at hhas'
          refine Or.inr ⟨⟨afterKey op.after⟩, ?_, ?_⟩
          · simp [LinkedDocument.applyInsert, hknown, hafter]
          · simp [RGADocument.applyInsert, hhas, hhas']
      | some a =>
          rw [hafter] at hhas'
          obtain ⟨hroot, hnew⟩ := h.index_eq_none.mp hknown
          obtain ⟨pre, post, rfl, rfl, hsplice⟩ := h.splice_eq hafter
          -- the scan needs one step a node behind the anchor, and all of these are allocated
          have hfuel : post.length < d.size := by
            have hlt := h.length_lt
            rw [List.length_append] at hlt
            omega
          let n : RGANode := ⟨op.uid, op.value, [], false⟩
          obtain ⟨l, r, rfl, hpoint, hscan⟩ := insertionPoint_eq h.linked.of_append n hfuel
          have hlast : l.getLastD (pre.getLastD d.root) = (pre ++ l).getLastD d.root := by simp
          rw [hlast] at hpoint
          rw [← List.append_assoc] at h
          obtain ⟨hsize, hfields, hindex, hlength, hcount⟩ :=
            spliceBehind_fields d ((pre ++ l).getLastD d.root) n
          have hlink : Spliced d { d.spliceBehind ((pre ++ l).getLastD d.root) n with
              index := Function.update (d.spliceBehind ((pre ++ l).getLastD d.root) n).index
                (uidKey op.uid) (some d.size)
              length := (d.spliceBehind ((pre ++ l).getLastD d.root) n).length + 1
              nodeCount := (d.spliceBehind ((pre ++ l).getLastD d.root) n).nodeCount + 1 }
              ((pre ++ l).getLastD d.root) n :=
            spliced_of_heap h.point.1 h.point.2 rfl hsize hfields
          have hlength' : (d.spliceBehind ((pre ++ l).getLastD d.root) n).length + 1 =
              L.length + 1 := by rw [hlength, h.length_eq]
          have hspliced := h.spliced hlink hroot hnew (congrArg (Function.update · _ _) hindex)
            hlength' (congrArg (· + 1) hcount)
          refine Or.inl ⟨_, _, _, applyInsert_of_anchor hknown hafter hpoint, ?_, hspliced⟩
          simp only [RGADocument.applyInsert, hhas, hhas', Option.isSome_none, Option.isSome_some,
            Bool.false_eq_true, if_false, if_true, hsplice]
          rw [hscan, List.map_append, List.append_assoc]

/-- **Every operation does to the objects what it does to the list**, and comes to an end. -/
theorem Represents.applyOperation (h : Represents d L refs) (op : RGAOperation) :
    ∃ d' refs', d.applyOperation op = some (d', (L.applyOperation op).2) ∧
      Represents d' (L.applyOperation op).1 refs' := by
  cases op with
  | insert op =>
      rcases h.applyInsert op with ⟨d', L', refs', hd, hL, h'⟩ | ⟨e, hd, hL⟩
      · refine ⟨d', refs', ?_, ?_⟩
        · simp [LinkedDocument.applyOperation, RGADocument.applyOperation, hd, hL]
        · simpa [RGADocument.applyOperation, hL] using h'
      · refine ⟨d, refs, ?_, ?_⟩
        · simp [LinkedDocument.applyOperation, RGADocument.applyOperation, hd, hL]
        · simpa [RGADocument.applyOperation, hL] using h
  | delete op =>
      obtain ⟨hresult, h'⟩ := h.applyDelete op
      exact ⟨_, refs, congrArg some (Prod.ext rfl hresult), h'⟩
  | format op =>
      obtain ⟨hresult, h'⟩ := h.applyFormat op
      exact ⟨_, refs, congrArg some (Prod.ext rfl hresult), h'⟩
  | rollback op => exact ⟨d, refs, rfl, h⟩

/-! ## Tombstone collection -/

lemma heap_unlink (hprev : d.prev r = some p) (hnext : d.next r ≠ some p) (y : Ref) :
    (d.unlink r).heap y =
      if y = p then { d.heap p with next := d.next r }
      else if d.next r = some y then { d.heap y with prev := some p }
      else d.heap y := by
  have hrprev : (d.heap r).prev = some p := hprev
  have hmodify :
      ((d.modify p fun n => { n with next := (d.heap r).next }).heap r).prev = some p := by
    rw [heap_modify]
    split
    · exact hprev
    · exact hprev
  simp only [unlink, hrprev, hmodify]
  cases hq : (d.heap r).next with
  | none =>
      have hq' : d.next r = none := hq
      simp only [heap_modify, hq']
      by_cases hyp : y = p
      · subst hyp
        simp
      · simp [hyp]
  | some q =>
      have hq' : d.next r = some q := hq
      have hqp : q ≠ p := fun heq => hnext (hq'.trans (congrArg some heq))
      simp only [heap_modify, hq']
      by_cases hyp : y = p
      · subst hyp
        simp [hqp.symm]
      · by_cases hyq : y = q
        · subst hyq
          simp [hyp]
        · simp [hyp, hyq, Ne.symm hyq]

lemma node_modify_links {f : LinkedNode → LinkedNode} {y : Ref}
    (hf : ∀ n, (f n).toRGANode = n.toRGANode) : (d.modify p f).node y = d.node y := by
  rw [node, heap_modify]
  split
  · exact hf _
  · rfl

lemma unlink_fields (d : LinkedDocument) (r : Ref) :
    (d.unlink r).size = d.size ∧ (d.unlink r).root = d.root ∧ (d.unlink r).length = d.length ∧
      (d.unlink r).nodeCount = d.nodeCount - 1 ∧
      (d.unlink r).index = Function.update d.index (uidKey (d.node r).uid) none := by
  -- the key that is forgotten is read after the links were written
  have hkey : ∀ e : LinkedDocument, e.node r = d.node r →
      uidKey (e.heap r).uid = uidKey (d.node r).uid := fun e he => by rw [← he]; rfl
  simp only [unlink]
  cases (d.heap r).prev <;> cases (d.heap r).next <;>
    refine ⟨rfl, rfl, rfl, rfl, congrArg (Function.update d.index · none) (hkey _ ?_)⟩
  · rfl
  · exact node_modify_links fun _ => rfl
  · exact node_modify_links fun _ => rfl
  · refine (node_modify_links ?_).trans (node_modify_links ?_) <;> exact fun _ => rfl

lemma node_unlink (hprev : d.prev r = some p) (hnext : d.next r ≠ some p) :
    (d.unlink r).node = d.node := by
  funext y
  rw [node, heap_unlink hprev hnext]
  split_ifs with hyp
  · rw [hyp]
    rfl
  · rfl
  · rfl

/-- **Unlinking takes the node out of the list.** -/
lemma Represents.unlink (h : Represents d L (pre ++ r :: post)) :
    (d.unlink r).node = d.node ∧
      Represents (d.unlink r)
        { L with nodes := (pre ++ post).map d.node, nodeCount := L.nodeCount - 1 }
        (pre ++ post) := by
  have hrest : Linked d.next d.prev (pre.getLastD d.root) (r :: post) := h.linked.of_append
  have hprev : d.prev r = some (pre.getLastD d.root) := hrest.2.1
  have hnext : d.next r = post.head? := hrest.2.2.next_eq_head?
  have hlast : pre.getLastD d.root ∉ r :: post := getLastD_notMem h.nodup
  -- the two objects `unlink` writes are different ones, or the second write would undo the first
  have hne : d.next r ≠ some (pre.getLastD d.root) := fun heq =>
    hlast (List.mem_cons_of_mem _ (List.mem_of_mem_head? (hnext.symm.trans heq)))
  have hnode := node_unlink hprev hne
  obtain ⟨hsize, hroot, hlength, hcount, hindex⟩ := unlink_fields d r
  have hsub : d.root :: (pre ++ post) ⊆ d.root :: (pre ++ r :: post) := by
    intro y hy
    simp only [List.mem_cons, List.mem_append] at hy ⊢
    tauto
  have hrnotmem : r ∉ d.root :: (pre ++ post) := by
    have hnd := h.nodup
    rw [← List.cons_append] at hnd ⊢
    exact (List.nodup_cons.mp (List.perm_middle.nodup_iff.mp hnd)).1
  refine ⟨hnode, ?_, ?_, ?_, ?_, ?_, ?_, ?_, fun k y => ?_, hlength.trans h.length_eq, ?_⟩
  · rw [hroot]
    refine h.linked.erase h.nodup ?_ (fun y hy hyp => ?_) (fun y hy => ?_) fun y hy hyn => ?_
    · rw [next, heap_unlink hprev hne, if_pos rfl]
    · rw [next, heap_unlink hprev hne, if_neg hyp]
      split_ifs <;> rfl
    · have hyp : y ≠ pre.getLastD d.root := fun heq =>
        hlast (heq ▸ List.mem_cons_of_mem _ (List.mem_of_mem_head? hy))
      rw [prev, heap_unlink hprev hne, if_neg hyp, if_pos (hnext.trans hy)]
    · rw [prev, heap_unlink hprev hne, if_neg fun heq : d.next r = some y =>
        hyn (hnext.symm.trans heq)]
      split_ifs with hyp
      · rw [hyp]
        rfl
      · rfl
  · have hrootpost : d.next r ≠ some d.root := fun heq => h.root_notMem (List.mem_append_right _
      (List.mem_cons_of_mem _ (List.mem_of_mem_head? (hnext.symm.trans heq))))
    rw [hroot, prev, heap_unlink hprev hne, if_neg hrootpost]
    split_ifs with hyp
    · rw [← hyp]
      exact h.prev_root
    · exact h.prev_root
  · rw [hroot, hsize]
    exact fun y hy => h.allocated y (hsub hy)
  · rw [hroot, hnode]
    exact h.uid_root
  · rw [hroot, hnode]
    exact h.root_eq
  · rw [hnode]
  · have hids : (ids (RGADocument.cells { L with
        nodes := (pre ++ post).map d.node, nodeCount := L.nodeCount - 1 })).Sublist
        (ids L.cells) := by
      rw [RGADocument.ids_cells, RGADocument.ids_cells, h.nodes_eq]
      refine List.Sublist.map _ (List.Sublist.map _ ?_)
      exact (List.Sublist.refl pre).append (List.sublist_cons_self r post)
    exact ⟨hids.nodup h.indexed.nodup, fun hmem => h.indexed.root_notMem (hids.subset hmem)⟩
  · -- the index: the key of `r` leads nowhere, and no other object has that key
    rw [hindex, hroot, hnode, Function.update_apply]
    split
    · rename_i hk
      refine iff_of_false (by simp) ?_
      rintro ⟨hy, hkey⟩
      rw [hk, uidKey_inj] at hkey
      have hyr : y = r := h.eq_of_uid (hsub hy)
        (List.mem_cons_of_mem _ (List.mem_append_right _ (List.mem_cons_self ..))) hkey
      exact hrnotmem (hyr ▸ hy)
    · rename_i hk
      rw [h.index_iff]
      refine and_congr_left fun hkey => ⟨fun hy => ?_, fun hy => hsub hy⟩
      have hyr : y ≠ r := fun heq => hk (by rw [← hkey, heq])
      simp only [List.mem_cons, List.mem_append] at hy ⊢
      tauto
  · rw [hcount, h.nodeCount_eq]

/-- The loop of `gc` keeps what it has passed and drops the tombstones of the rest. -/
lemma Represents.gcFrom (h : Represents d L (pre ++ post)) {fuel : Nat}
    (hfuel : post.length ≤ fuel) (removed : Nat) :
    ∃ d' refs', LinkedDocument.gcFrom fuel post.head? d removed =
        some (d', removed + (post.map d.node).countP fun n => n.tombstoned) ∧
      Represents d'
        { L with
          nodes := pre.map d.node ++ (post.map d.node).filter fun n => !n.tombstoned
          nodeCount := L.nodeCount - (post.map d.node).countP fun n => n.tombstoned } refs' := by
  -- on what the loop has not passed; a kept node moves over to `pre`
  induction post generalizing pre d L fuel removed with
  | nil =>
      have hL : ({ L with
          nodes := pre.map d.node ++ (([] : List Ref).map d.node).filter fun n => !n.tombstoned
          nodeCount := L.nodeCount - (([] : List Ref).map d.node).countP fun n => n.tombstoned } :
          RGADocument) = L := by
        have hnodes : L.nodes = pre.map d.node := by rw [h.nodes_eq, List.append_nil]
        simp [← hnodes]
      refine ⟨d, pre, ?_, ?_⟩
      · cases fuel <;> rfl
      · rw [hL]
        rwa [List.append_nil] at h
  | cons r post ih =>
      obtain ⟨fuel, rfl⟩ := Nat.exists_eq_succ_of_ne_zero
        (Nat.ne_of_gt (Nat.lt_of_lt_of_le (Nat.succ_pos _) hfuel))
      have hfuel' : post.length ≤ fuel := Nat.le_of_succ_le_succ hfuel
      have hnext : (d.heap r).next = post.head? := h.linked.of_append.2.2.next_eq_head?
      rw [List.head?_cons, LinkedDocument.gcFrom, hnext, List.map_cons]
      cases htomb : (d.heap r).tombstoned with
      | true =>
          have htomb' : (d.node r).tombstoned = true := htomb
          obtain ⟨hnode, hunlink⟩ := h.unlink
          obtain ⟨d', refs', hloop, h'⟩ := ih hunlink hfuel' (removed + 1)
          rw [hnode] at hloop h'
          refine ⟨d', refs', ?_, ?_⟩
          · rw [List.countP_cons_of_pos htomb', Nat.add_comm (List.countP ..) 1, ← Nat.add_assoc]
            simpa using hloop
          · rw [List.countP_cons_of_pos htomb', List.filter_cons_of_neg (by simp [htomb'])]
            have hcount : L.nodeCount - 1 - ((post.map d.node).countP fun n => n.tombstoned : Nat) =
                L.nodeCount - ((post.map d.node).countP (fun n => n.tombstoned) + 1 : Nat) := by
              omega
            rw [← hcount]
            exact h'
      | false =>
          have htomb' : (d.node r).tombstoned = false := htomb
          have h₁ : Represents d L ((pre ++ [r]) ++ post) := by
            rwa [List.append_assoc, List.singleton_append]
          obtain ⟨d', refs', hloop, h'⟩ := ih h₁ hfuel' removed
          refine ⟨d', refs', ?_, ?_⟩
          · rw [List.countP_cons_of_neg (by simp [htomb'])]
            simpa using hloop
          · rw [List.countP_cons_of_neg (by simp [htomb']),
              List.filter_cons_of_pos (by simp [htomb'])]
            rw [List.map_append, List.append_assoc] at h'
            exact h'

/-- **A collection does to the objects what it does to the list**, and comes to an end. -/
theorem Represents.gc (h : Represents d L refs) :
    ∃ d' refs', d.gc = some (d', L.gc.2) ∧ Represents d' L.gc.1 refs' := by
  have hnext : (d.heap d.root).next = refs.head? := h.linked.next_eq_head?
  have h₀ : Represents d L ([] ++ refs) := h
  obtain ⟨d', refs', hloop, h'⟩ := h₀.gcFrom (Nat.le_of_lt h.length_lt) 0
  refine ⟨d', refs', ?_, ?_⟩
  · rw [LinkedDocument.gc, hnext, hloop, RGADocument.gc, h.nodes_eq, Nat.zero_add]
  · rw [← h.nodes_eq] at h'
    exact h'

end LinkedDocument

end SyncEngine
