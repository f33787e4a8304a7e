import SyncEngine.Crdt.LinkedRefinement

/-!
# Reading and rebuilding the objects

What the reading methods return of the objects is what the list model returns
(`Represents.serialize`, `Represents.toText`, `Represents.uidToIndex`), and a document that is
rebuilt from serialized nodes stands for the list that the list model rebuilds
(**`represents_deserialize`**).
-/

namespace SyncEngine

open ReplicatedList LinkedList

/-! ## The list model -/

namespace RGADocument

/-- The index of a live node among the live nodes, counted from `idx` on. -/
def uidToIndexFrom (uid : UID) : List RGANode → Int → Int
  | [], _ => -1
  | n :: rest, idx =>
      if n.tombstoned then uidToIndexFrom uid rest idx
      else if n.uid.clock = uid.clock ∧ n.uid.siteId = uid.siteId then idx
      else uidToIndexFrom uid rest (idx + 1)

/-- The count of live nodes up to the UID; `null` is the beginning. -/
def uidToIndex (d : RGADocument) : Option UID → Int
  | none => 0
  | some uid => uidToIndexFrom uid d.nodes 0

/-- A well-formed document whose sentinel was never touched is rebuilt as it was. -/
theorem deserialize_serialize {d : RGADocument} (h : d.WellFormed) (hroot : d.root = ⟨[], false⟩) :
    deserialize d.serialize = d := by
  have hlive : d.serialize.countP (fun n => !n.tombstoned) = d.cells.countP fun c => !c.dead := by
    rw [serialize, cells, List.countP_map, List.countP_map]
    rfl
  refine RGADocument.ext hroot.symm d.nodes_deserialize_serialize ?_ ?_
  · show ((d.serialize.countP fun n => !n.tombstoned : Nat) : Int) = d.length
    rw [hlive, h.length_eq]
  · show (d.serialize.length : Int) = d.nodeCount
    rw [h.nodeCount_eq, serialize, cells, List.length_map, List.length_map]

end RGADocument

namespace LinkedDocument

variable {d : LinkedDocument} {L : RGADocument} {refs post : List Ref} {a : Ref}

/-! ## Queries -/

/-- A loop over the nodes is a fold, and comes to an end. -/
lemma forEach_eq {β : Type} {body : β → LinkedNode → β} (h : Linked d.next d.prev a post)
    {fuel : Nat} (hfuel : post.length ≤ fuel) (acc : β) :
    d.forEach body fuel post.head? acc = some ((post.map d.heap).foldl body acc) := by
  refine h.walk_induction (motive := fun fuel node refs => ∀ acc,
    d.forEach body fuel node acc = some ((refs.map d.heap).foldl body acc))
    (fun fuel acc => ?_) (fun fuel r post hnext ih acc => ?_) hfuel acc
  · cases fuel <;> rfl
  · have hnext' : (d.heap r).next = post.head? := hnext
    rw [forEach, hnext', ih]
    rfl

lemma uidToIndexFrom_eq {uid : UID} (h : Linked d.next d.prev a post) {fuel : Nat}
    (hfuel : post.length ≤ fuel) (idx : Int) :
    d.uidToIndexFrom uid fuel post.head? idx =
      some (RGADocument.uidToIndexFrom uid (post.map d.node) idx) := by
  refine h.walk_induction (motive := fun fuel node refs => ∀ idx,
    d.uidToIndexFrom uid fuel node idx =
      some (RGADocument.uidToIndexFrom uid (refs.map d.node) idx))
    (fun fuel idx => ?_) (fun fuel r post hnext ih idx => ?_) hfuel idx
  · cases fuel <;> rfl
  · have hnext' : (d.heap r).next = post.head? := hnext
    rw [uidToIndexFrom, hnext', ih, ih, List.map_cons, RGADocument.uidToIndexFrom]
    cases htomb : (d.heap r).tombstoned with
    | true =>
        have htomb' : (d.node r).tombstoned = true := htomb
        rw [if_pos rfl, if_pos htomb']
    | false =>
        have htomb' : ¬ (d.node r).tombstoned = true := by simp [node, htomb]
        rw [if_neg (by simp), if_neg htomb']
        exact (apply_ite some _ _ _).symm

namespace Represents

lemma forEach {β : Type} (h : Represents d L refs) (body : β → LinkedNode → β) (acc : β) :
    d.forEach body d.size (d.heap d.root).next acc = some ((refs.map d.heap).foldl body acc) := by
  have hnext : (d.heap d.root).next = refs.head? := h.linked.next_eq_head?
  rw [hnext, forEach_eq h.linked (Nat.le_of_lt h.length_lt)]

theorem serialize (h : Represents d L refs) : d.serialize = some L.serialize := by
  rw [LinkedDocument.serialize, h.forEach, List.foldl_append_eq_append, List.nil_append,
    ← List.flatMap_def, RGADocument.serialize, h.nodes_eq, List.map_map, List.flatMap_map,
    List.map_eq_flatMap]
  rfl

/-- A loop that collects the texts. -/
lemma flatten_foldl {body : List JSString → LinkedNode → List JSString}
    (hbody : ∀ parts n, (body parts n).flatten = parts.flatten ++ n.toRGANode.text)
    (refs : List Ref) (parts : List JSString) :
    ((refs.map d.heap).foldl body parts).flatten =
      parts.flatten ++ Chain.textOf RGANode.text (refs.map d.node) := by
  induction refs generalizing parts with
  | nil => simp [Chain.textOf]
  | cons r refs ih =>
      rw [List.map_cons, List.foldl_cons, ih, hbody, List.append_assoc]
      rfl

theorem toText (h : Represents d L refs) : d.toText = some L.toText := by
  rw [LinkedDocument.toText, h.forEach, Option.map_some, flatten_foldl, RGADocument.toText,
    h.nodes_eq]
  · rfl
  · intro parts n
    cases htomb : n.tombstoned <;> cases hvalue : n.value <;> simp [RGANode.text, htomb, hvalue]

theorem uidToIndex (h : Represents d L refs) (uid : Option UID) :
    d.uidToIndex uid = some (L.uidToIndex uid) := by
  cases uid with
  | none => rfl
  | some uid =>
      have hnext : (d.heap d.root).next = refs.head? := h.linked.next_eq_head?
      rw [LinkedDocument.uidToIndex, hnext,
        uidToIndexFrom_eq h.linked (Nat.le_of_lt h.length_lt), ← h.nodes_eq]
      rfl

end Represents

/-! ## Rebuilding -/

/-- What `deserialize` makes of one serialized node. -/
lemma spliced_deserializeOne {p : Ref} (hp : p ≠ d.size) (hnext : d.next p = none)
    (n : SerializedRGANode) :
    Spliced d (deserializeOne (d, p) n).1 p
      ⟨⟨n.clock, n.siteId⟩, n.value, n.attributes.getD [], n.tombstoned⟩ := by
  have hheap : ∀ y, (deserializeOne (d, p) n).1.heap y =
      if y = p then { d.heap p with next := some d.size }
      else if y = d.size then
        ⟨⟨⟨n.clock, n.siteId⟩, n.value, n.attributes.getD [], n.tombstoned⟩, some p, none⟩
      else d.heap y := by
    intro y
    show ((d.alloc ⟨⟨⟨n.clock, n.siteId⟩, n.value, n.attributes.getD [], n.tombstoned⟩, some p,
      none⟩).modify p fun q => { q with next := some d.size }).heap y = _
    rw [heap_modify, heap_alloc]
    by_cases hyp : y = p
    · subst hyp
      rw [if_pos rfl, if_pos rfl, if_neg hp]
    · rw [if_neg hyp, if_neg hyp]
  refine ⟨rfl, rfl, ?_, fun y hy => ?_, ?_, ?_, fun y hy hyp => ?_, ?_, fun y hy hyn => ?_,
    fun y hy hyn => ?_⟩
  · rw [node, hheap, if_neg hp.symm, if_pos rfl]
  · rw [node, hheap]
    split_ifs with hyp
    · rw [hyp]
      rfl
    · rfl
  · rw [next, hheap, if_neg hp.symm, if_pos rfl, hnext]
  · rw [next, hheap, if_pos rfl]
  · rw [next, hheap, if_neg hyp, if_neg hy]
    rfl
  · rw [prev, hheap, if_neg hp.symm, if_pos rfl]
  · rw [hnext] at hyn
    exact absurd hyn (by simp)
  · rw [prev, hheap]
    split_ifs with hyp
    · rw [hyp]
      rfl
    · rfl

/-- **The rebuilt objects stand for the rebuilt list.** -/
theorem represents_deserialize {nodes : List SerializedRGANode}
    (h : RGADocument.Indexed (.deserialize nodes)) :
    ∃ refs, Represents (deserialize nodes) (.deserialize nodes) refs := by
  suffices hloop : ∃ refs, Represents (nodes.foldl deserializeOne (empty, empty.root)).1
      (.deserialize nodes) refs ∧ (nodes.foldl deserializeOne (empty, empty.root)).2 =
        refs.getLastD (nodes.foldl deserializeOne (empty, empty.root)).1.root by
    obtain ⟨refs, hrefs, -⟩ := hloop
    exact ⟨refs, hrefs⟩
  induction nodes using List.reverseRecOn with
  | nil => exact ⟨[], represents_empty, rfl⟩
  | append_singleton nodes n ih =>
      have hcells : ids (RGADocument.deserialize (nodes ++ [n])).cells =
          ids (RGADocument.deserialize nodes).cells ++ [⟨n.clock, n.siteId⟩] := by
        simp [RGADocument.cells_deserialize, ids, SerializedRGANode.cell]
      obtain ⟨hnd, hroot⟩ := h
      rw [hcells] at hnd hroot
      obtain ⟨hfront, -, hdisjoint⟩ := List.nodup_append.mp hnd
      have hnew : (⟨n.clock, n.siteId⟩ : UID) ∉ ids (RGADocument.deserialize nodes).cells :=
        fun hmem => hdisjoint _ hmem _ (List.mem_singleton_self _) rfl
      have hne : (⟨n.clock, n.siteId⟩ : UID) ≠ rootUID := fun heq => hroot (by simp [heq])
      obtain ⟨refs, hrefs, hlast⟩ :=
        ih ⟨hfront, fun hmem => hroot (List.mem_append_left _ hmem)⟩
      obtain ⟨s, hs⟩ : ∃ s, s = nodes.foldl deserializeOne (empty, empty.root) := ⟨_, rfl⟩
      rw [← hs] at hrefs hlast
      rw [List.foldl_concat, ← hs]
      have hpair : s = (s.1, refs.getLastD s.1.root) := Prod.ext rfl hlast
      have h₀ : Represents s.1 (.deserialize nodes) (refs ++ []) := by rwa [List.append_nil]
      have hend : s.1.next (refs.getLastD s.1.root) = none := h₀.linked.next_getLastD
      have hlength : (deserializeOne (s.1, refs.getLastD s.1.root) n).1.length =
          (RGADocument.deserialize (nodes ++ [n])).length := by
        have hold : s.1.length = ((nodes.countP fun n => !n.tombstoned : Nat) : Int) := h₀.length_eq
        show (if n.tombstoned then s.1.length else s.1.length + 1) =
          (((nodes ++ [n]).countP fun n => !n.tombstoned : Nat) : Int)
        rw [hold, List.countP_append, List.countP_singleton]
        cases n.tombstoned <;> simp
      have hspliced := h₀.spliced (spliced_deserializeOne h₀.point.1 hend n) hne hnew rfl hlength
        rfl
      have hlist : ({ RGADocument.deserialize nodes with
          nodes := refs.map s.1.node ++
            ⟨⟨n.clock, n.siteId⟩, n.value, n.attributes.getD [], n.tombstoned⟩ ::
              ([] : List Ref).map s.1.node
          length := (RGADocument.deserialize (nodes ++ [n])).length
          nodeCount := (RGADocument.deserialize nodes).nodeCount + 1 } : RGADocument) =
          .deserialize (nodes ++ [n]) := by
        rw [← hrefs.nodes_eq]
        simp [RGADocument.deserialize]
      rw [hlist] at hspliced
      rw [hpair]
      exact ⟨refs ++ [s.1.size], hspliced, List.getLastD_concat.symm⟩

/-- What is rebuilt from a snapshot stands for the same list, if the sentinel was never touched. -/
theorem exists_represents_deserialize (hwf : L.WellFormed) (hroot : L.root = ⟨[], false⟩) :
    ∃ refs, Represents (deserialize L.serialize) L refs := by
  have hL := RGADocument.deserialize_serialize hwf hroot
  have hindexed : RGADocument.Indexed (.deserialize L.serialize) := hL.symm ▸ hwf.toIndexed
  obtain ⟨refs, h⟩ := represents_deserialize hindexed
  rw [hL] at h
  exact ⟨refs, h⟩

end LinkedDocument

end SyncEngine
