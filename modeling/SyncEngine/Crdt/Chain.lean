import SyncEngine.Lib.ReplicatedList
import SyncEngine.Shared.Operation

/-!
# The chain of nodes

Server and client keep a document in the same way: a chain of nodes behind a sentinel, and an
index from UID keys to nodes.  They also place a new node in the same way, by the scan-right
loop.  This module has what the two classes share, for any type of nodes that carry a UID.

The chain is the list of its nodes in `next` order; the `prev` links are its reverse, and the
index is the look-up of a key in that list.  The sentinel is not part of the list: its key is
`uidKey rootUID`, and a node placed behind it goes to the head of the list.

The abstract view of a node is a `Cell`; `map_cell_splice` says that placing a node is `place` of
the replicated list, behind the `anchor` of the INSERT.
-/

namespace SyncEngine

open ReplicatedList

/-- The key of the node an INSERT goes behind; without an anchor that of the sentinel. -/
def afterKey : Option UID → JSString
  | some after => uidKey after
  | none => uidKey rootUID

/-- The anchor as a cell: the sentinel is the head of the list. -/
def anchor : Option UID → Option UID
  | some a => if a = rootUID then none else some a
  | none => none

lemma anchor_eq_some {after : Option UID} {a : UID} :
    anchor after = some a ↔ after = some a ∧ a ≠ rootUID := by
  cases after with
  | none => simp [anchor]
  | some b =>
      by_cases hb : b = rootUID
      · simp only [anchor, hb, if_true, Option.some.injEq, reduceCtorEq, false_iff]
        rintro ⟨rfl, h⟩
        exact h rfl
      · simp only [anchor, hb, if_false, Option.some.injEq]
        exact ⟨fun h => ⟨h, h ▸ hb⟩, fun h => h.1⟩

namespace Chain

variable {ν : Type*} (uid : ν → UID)

/-- The node of the chain the index holds under `key`. -/
def indexGet (key : JSString) (nodes : List ν) : Option ν :=
  nodes.find? fun n => uidKey (uid n) = key

/-- `index.has(key)`: the key of the sentinel or of a node of the chain. -/
def indexHas (key : JSString) (nodes : List ν) : Bool :=
  key = uidKey rootUID || (indexGet uid key nodes).isSome

/-- Replace the node the index holds under `key`. -/
def updateNode (key : JSString) (f : ν → ν) (nodes : List ν) : List ν :=
  nodes.map fun n => if uidKey (uid n) = key then f n else n

/-- The scan-right loop and the splice: the new node goes in front of the first node whose UID
is not greater than its own. -/
def scanRight (newNode : ν) : List ν → List ν
  | [] => [newNode]
  | n :: rest =>
      if compareUID (uid n) (uid newNode) > 0 then n :: scanRight newNode rest
      else newNode :: n :: rest

/-- The loop started at the node under `key`. -/
def spliceAfter (key : JSString) (newNode : ν) : List ν → List ν
  | [] => []
  | n :: rest =>
      if uidKey (uid n) = key then n :: scanRight uid newNode rest
      else n :: spliceAfter key newNode rest

/-- The chain with the new node behind the node under `key`. -/
def splice (key : JSString) (newNode : ν) (nodes : List ν) : List ν :=
  if key = uidKey rootUID then scanRight uid newNode nodes
  else spliceAfter uid key newNode nodes

/-- The texts of the nodes, in order: what is shown of a chain. -/
def textOf (text : ν → JSString) (nodes : List ν) : JSString := nodes.flatMap text

lemma textOf_filter {text : ν → JSString} {p : ν → Bool} {nodes : List ν}
    (h : ∀ n ∈ nodes, p n = false → text n = []) :
    textOf text (nodes.filter p) = textOf text nodes := by
  induction nodes with
  | nil => rfl
  | cons n nodes ih =>
      have ih' := ih fun m hm => h m (List.mem_cons_of_mem _ hm)
      simp only [textOf] at ih' ⊢
      cases hp : p n
      · rw [List.filter_cons_of_neg (by simp [hp]), List.flatMap_cons, ih',
          h n (List.mem_cons_self ..) hp, List.nil_append]
      · rw [List.filter_cons_of_pos hp, List.flatMap_cons, List.flatMap_cons, ih']

variable {uid}

/-! ## The index -/

lemma indexGet_eq_none {u : UID} {nodes : List ν} :
    indexGet uid (uidKey u) nodes = none ↔ u ∉ nodes.map uid := by
  rw [indexGet, List.find?_eq_none]
  constructor
  · intro h hu
    obtain ⟨n, hn, hnu⟩ := List.mem_map.mp hu
    exact h n hn (by simp [hnu])
  · intro h n hn hnu
    exact h (List.mem_map.mpr ⟨n, hn, by simpa using hnu⟩)

lemma indexGet_some {u : UID} {nodes : List ν} {n : ν}
    (h : indexGet uid (uidKey u) nodes = some n) : n ∈ nodes ∧ uid n = u :=
  ⟨List.mem_of_find?_eq_some h, by simpa using List.find?_some h⟩

lemma indexHas_iff {u : UID} {nodes : List ν} :
    indexHas uid (uidKey u) nodes = true ↔ u = rootUID ∨ u ∈ nodes.map uid := by
  rw [indexHas, Bool.or_eq_true, decide_eq_true_eq, uidKey_inj, ← Option.ne_none_iff_isSome,
    ne_eq, indexGet_eq_none, not_not]

lemma indexHas_afterKey_iff {after : Option UID} {nodes : List ν} :
    indexHas uid (afterKey after) nodes = true ↔
      ∀ a, anchor after = some a → a ∈ nodes.map uid := by
  cases after with
  | none => simp [afterKey, indexHas_iff, anchor]
  | some b =>
      rw [afterKey, indexHas_iff]
      constructor
      · rintro h a ha
        obtain ⟨hab, hne⟩ := anchor_eq_some.mp ha
        obtain rfl : b = a := by simpa using hab
        exact h.resolve_left hne
      · intro h
        by_cases hb : b = rootUID
        · exact Or.inl hb
        · exact Or.inr (h b (anchor_eq_some.mpr ⟨rfl, hb⟩))

/-! ## The scan-right loop -/

/-- The scan-right loop is the insertion that skips greater UIDs. -/
lemma scanRight_eq (x : ν) (l : List ν) : scanRight uid x l = SkipInsert.skipGreater uid x l := by
  induction l with
  | nil => rfl
  | cons n rest ih =>
      simp only [scanRight, SkipInsert.skipGreater, compareUID_pos_iff, ih]

lemma spliceAfter_eq (u : UID) (x : ν) (l : List ν) :
    spliceAfter uid (uidKey u) x l = SkipInsert.insertAfter uid u x l := by
  induction l with
  | nil => rfl
  | cons n rest ih =>
      simp only [spliceAfter, SkipInsert.insertAfter, uidKey_inj, scanRight_eq, ih]

lemma map_cell_splice {cell : ν → Cell UID JsValue} (hcell : ∀ n, (cell n).id = uid n)
    (after : Option UID) (x : ν) (l : List ν) :
    (splice uid (afterKey after) x l).map cell = place (anchor after) (cell x) (l.map cell) := by
  cases after with
  | none =>
      rw [splice, afterKey, if_pos rfl, scanRight_eq]
      exact SkipInsert.map_skipGreater hcell x l
  | some a =>
      by_cases ha : a = rootUID
      · rw [splice, afterKey, if_pos (by rw [ha]), scanRight_eq, anchor, if_pos ha]
        exact SkipInsert.map_skipGreater hcell x l
      · rw [splice, afterKey, if_neg (by simpa using ha), spliceAfter_eq, anchor, if_neg ha]
        exact SkipInsert.map_insertAfter hcell a x l

lemma splice_perm {after : Option UID} {l : List ν}
    (h : ∀ a, anchor after = some a → a ∈ l.map uid) (x : ν) :
    (splice uid (afterKey after) x l).Perm (x :: l) := by
  cases after with
  | none =>
      rw [splice, afterKey, if_pos rfl, scanRight_eq]
      exact SkipInsert.skipGreater_perm x l
  | some a =>
      by_cases ha : a = rootUID
      · rw [splice, afterKey, if_pos (by rw [ha]), scanRight_eq]
        exact SkipInsert.skipGreater_perm x l
      · rw [splice, afterKey, if_neg (by simpa using ha), spliceAfter_eq]
        exact SkipInsert.insertAfter_perm (h a (anchor_eq_some.mpr ⟨rfl, ha⟩)) x

lemma map_cell_tombstone {cell : ν → Cell UID JsValue} (hcell : ∀ n, (cell n).id = uid n)
    {f : ν → ν} (hf : ∀ n, cell (f n) = { cell n with dead := true }) (u : UID) (l : List ν) :
    (updateNode uid (uidKey u) f l).map cell = (l.map cell).map (Cell.kill u) := by
  rw [updateNode, List.map_map, List.map_map]
  refine List.map_congr_left fun n _ => ?_
  simp only [Function.comp_apply, uidKey_inj]
  by_cases h : uid n = u
  · simp [h, hf, Cell.kill, hcell]
  · rw [if_neg h, Cell.kill_of_ne (by rwa [hcell])]

end Chain

end SyncEngine
