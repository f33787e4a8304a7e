import Mathlib.Logic.Function.Basic
import SyncEngine.Crdt.RgaDocument

/-!
# `RGADocument`, object by object

The same class (`crdt/rga-document.ts`) as the objects it consists of: node objects that refer to
each other by `prev` and `next`, a `Map` from UID keys to node objects, and two counters, each
written by its own assignment.  `SyncEngine.RGADocument` is the list that the objects stand for;
that the two do the same is for `LinkedRefinement` to show.

Objects are reached by references, which are handed out in order and never again.  Nothing is ever
freed; what is unlinked stays where it is, out of reach.  A node's attributes are a value here,
since no method writes into an attributes object that it has not just made.

A `while` loop is given as many rounds as there are objects, and has no result when it needs more.
-/

namespace SyncEngine

/-- A reference to a node object. -/
abbrev Ref := Nat

/-- A node object with its two pointers. -/
structure LinkedNode extends RGANode where
  prev : Option Ref
  next : Option Ref
deriving DecidableEq, Repr

/-- `RGADocument` as it lies in memory: node objects, an index of them, and the sentinel they hang
on. -/
structure LinkedDocument where
  /-- The node objects under the references handed out so far. -/
  heap : Ref → LinkedNode
  /-- The next reference. -/
  size : Ref
  root : Ref
  index : JSString → Option Ref
  /-- `_length`: the count of live nodes. -/
  length : Int
  /-- `_nodeCount`: the count of all nodes. -/
  nodeCount : Int

namespace LinkedDocument

/-- The sentinel; its value is `null`. -/
def rootNode : LinkedNode :=
  ⟨⟨rootUID, .object (JSString.lit "null"), [], false⟩, none, none⟩

/-- `new RGADocument()`. -/
def empty : LinkedDocument where
  heap := fun _ => rootNode
  size := 1
  root := 0
  index := Function.update (fun _ => none) (uidKey rootUID) (some 0)
  length := 0
  nodeCount := 0

/-- A new node object, under the next reference. -/
def alloc (d : LinkedDocument) (n : LinkedNode) : LinkedDocument :=
  { d with heap := Function.update d.heap d.size n, size := d.size + 1 }

/-- Write fields of a node object. -/
def modify (d : LinkedDocument) (r : Ref) (f : LinkedNode → LinkedNode) : LinkedDocument :=
  { d with heap := Function.update d.heap r (f (d.heap r)) }

/-! ## INSERT -/

/-- The scan-right loop, from the node `p` on. -/
def insertionPoint (d : LinkedDocument) (uid : UID) : Nat → Ref → Option Ref
  | 0, _ => none
  | fuel + 1, p =>
      match (d.heap p).next with
      | some n =>
          if compareUID (d.heap n).uid uid > 0 then insertionPoint d uid fuel n else some p
      | none => some p

/-- Splice a new node object in between `p` and its `next`. -/
def spliceBehind (d : LinkedDocument) (p : Ref) (node : RGANode) : LinkedDocument :=
  let newNode := d.size
  let d := d.alloc ⟨node, some p, (d.heap p).next⟩
  let d := match (d.heap p).next with
    | some n => d.modify n fun n => { n with prev := some newNode }
    | none => d
  d.modify p fun n => { n with next := some newNode }

/-- Walks from the anchor past the nodes with a greater UID and splices the new node in; `none` if
the walk does not end. -/
def applyInsert (d : LinkedDocument) (op : InsertOperation) :
    Option (Except CausalGap LinkedDocument) :=
  let key := uidKey op.uid
  if (d.index key).isSome then some (.ok d)
  else
    match d.index (afterKey op.after) with
    | none => some (.error ⟨afterKey op.after⟩)
    | some afterNode =>
        (d.insertionPoint op.uid d.size afterNode).map fun p =>
          let newNode := d.size
          let d := d.spliceBehind p ⟨op.uid, op.value, [], false⟩
          .ok { d with
            index := Function.update d.index key (some newNode)
            length := d.length + 1
            nodeCount := d.nodeCount + 1 }

/-! ## DELETE, FORMAT -/

/-- Leaves a tombstone under the UID. -/
def applyDelete (d : LinkedDocument) (op : DeleteOperation) : LinkedDocument × Bool :=
  match d.index (uidKey op.uid) with
  | none => (d, false)
  | some node =>
      if (d.heap node).tombstoned then (d, true)
      else
        ({ d.modify node (fun n => { n with tombstoned := true }) with length := d.length - 1 },
          true)

/-- Spreads the attributes over those of the node. -/
def applyFormat (d : LinkedDocument) (op : FormatOperation) : LinkedDocument × Bool :=
  match d.index (uidKey op.uid) with
  | none => (d, false)
  | some node =>
      (d.modify node fun n => { n with attributes := n.attributes.spread op.attributes }, true)

/-- Applies any operation; `false` reports that it could not be applied. -/
def applyOperation (d : LinkedDocument) : RGAOperation → Option (LinkedDocument × Bool)
  | .insert op =>
      match d.applyInsert op with
      | some (.ok d') => some (d', true)
      | some (.error _) => some (d, false)
      | none => none
  | .delete op => some (d.applyDelete op)
  | .format op => some (d.applyFormat op)
  | .rollback _ => some (d, false)

/-! ## Queries -/

/-- A loop over the nodes that collects into `acc`, from the node `node` on. -/
def forEach {β : Type} (d : LinkedDocument) (body : β → LinkedNode → β) :
    Nat → Option Ref → β → Option β
  | _, none, acc => some acc
  | 0, some _, _ => none
  | fuel + 1, some node, acc => forEach d body fuel (d.heap node).next (body acc (d.heap node))

/-- The string values of the live nodes, along the pointers. -/
def toText (d : LinkedDocument) : Option JSString :=
  let parts := d.forEach (fun parts n =>
    match n.tombstoned, n.value with
    | false, .string s => parts ++ [s]
    | _, _ => parts) d.size (d.heap d.root).next []
  parts.map List.flatten

/-- The loop of `uidToIndex`, from the node `node` on. -/
def uidToIndexFrom (d : LinkedDocument) (uid : UID) : Nat → Option Ref → Int → Option Int
  | _, none, _ => some (-1)
  | 0, some _, _ => none
  | fuel + 1, some node, idx =>
      let n := d.heap node
      if n.tombstoned then uidToIndexFrom d uid fuel n.next idx
      else if n.uid.clock = uid.clock ∧ n.uid.siteId = uid.siteId then some idx
      else uidToIndexFrom d uid fuel n.next (idx + 1)

/-- The count of live nodes up to the UID, along the pointers. -/
def uidToIndex (d : LinkedDocument) : Option UID → Option Int
  | none => some 0
  | some uid => d.uidToIndexFrom uid d.size (d.heap d.root).next 0

/-! ## Serialization -/

/-- The nodes of a snapshot, along the pointers. -/
def serialize (d : LinkedDocument) : Option (List SerializedRGANode) :=
  d.forEach (fun nodes n =>
    nodes ++ [⟨n.uid.clock, n.uid.siteId, n.value, some n.attributes, n.tombstoned⟩])
    d.size (d.heap d.root).next []

/-- The loop body of `deserialize`, with the node object that was made last. -/
def deserializeOne (s : LinkedDocument × Ref) (n : SerializedRGANode) : LinkedDocument × Ref :=
  let (d, prev) := s
  let node := d.size
  let uid : UID := ⟨n.clock, n.siteId⟩
  let d := d.alloc ⟨⟨uid, n.value, n.attributes.getD [], n.tombstoned⟩, some prev, none⟩
  let d := d.modify prev fun p => { p with next := some node }
  ({ d with
      index := Function.update d.index (uidKey uid) (some node)
      nodeCount := d.nodeCount + 1
      length := if n.tombstoned then d.length else d.length + 1 }, node)

/-- The document a node array is rebuilt into; missing attributes become `{}`. -/
def deserialize (nodes : List SerializedRGANode) : LinkedDocument :=
  (nodes.foldl deserializeOne (empty, empty.root)).1

/-- A copy by way of a snapshot. -/
def clone (d : LinkedDocument) : Option LinkedDocument := d.serialize.map deserialize

/-! ## Tombstone collection -/

/-- Relink the neighbours of a node object, and forget its key. -/
def unlink (d : LinkedDocument) (node : Ref) : LinkedDocument :=
  let next := (d.heap node).next
  let d := match (d.heap node).prev with
    | some p => d.modify p fun n => { n with next := next }
    | none => d
  let d := match next with
    | some n => d.modify n fun m => { m with prev := (d.heap node).prev }
    | none => d
  { d with
    index := Function.update d.index (uidKey (d.heap node).uid) none
    nodeCount := d.nodeCount - 1 }

/-- The loop of `gc`, from the node `node` on. -/
def gcFrom : Nat → Option Ref → LinkedDocument → Nat → Option (LinkedDocument × Nat)
  | _, none, d, removed => some (d, removed)
  | 0, some _, _, _ => none
  | fuel + 1, some node, d, removed =>
      let next := (d.heap node).next
      if (d.heap node).tombstoned then gcFrom fuel next (d.unlink node) (removed + 1)
      else gcFrom fuel next d removed

/-- Drops the tombstoned nodes; returns how many there were. -/
def gc (d : LinkedDocument) : Option (LinkedDocument × Nat) :=
  gcFrom d.size (d.heap d.root).next d 0

end LinkedDocument

end SyncEngine
