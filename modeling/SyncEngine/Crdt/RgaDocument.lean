import SyncEngine.Crdt.Chain

/-!
# `RGADocument`

The server's replica of a document (`crdt/rga-document.ts`): a chain of nodes behind a sentinel,
an index from UID keys to nodes, and two counters.

The sentinel's own flag and attributes are kept, since a DELETE or FORMAT of `rootUID` would
write them.  Methods that mutate the document return the new one, methods that also return a
value return both.

* `applyInsert` walks right from the anchor past greater UIDs (`Chain.splice`) and throws a
  `CausalGap` when the anchor is missing; `applyOperation` turns the exception into `false`.
* `gc` drops every tombstoned node.
-/

namespace SyncEngine

/-- A character of the document. -/
structure RGANode where
  uid : UID
  value : JsValue
  attributes : Attributes
  tombstoned : Bool
deriving DecidableEq, Repr

/-- What `toText` takes of a node: the value of a live node, if it is a string. -/
def RGANode.text (n : RGANode) : JSString :=
  match n.tombstoned, n.value with
  | false, .string s => s
  | _, _ => []

/-- What can change of the node in front of the document. -/
structure Sentinel where
  attributes : Attributes
  tombstoned : Bool
deriving DecidableEq, Repr

/-- The replica of the server (`crdt/rga-document.ts`), its nodes in the order of the list. -/
@[ext]
structure RGADocument where
  root : Sentinel
  /-- The chain behind the sentinel, tombstoned nodes included. -/
  nodes : List RGANode
  /-- `_length`: the count of live nodes. -/
  length : Int
  /-- `_nodeCount`: the count of all nodes. -/
  nodeCount : Int
deriving DecidableEq, Repr

/-- The error `applyInsert` throws when the anchor is not in the replica. -/
structure CausalGap where
  afterKey : JSString
deriving DecidableEq, Repr

/-- The text of the error. -/
def CausalGap.message (e : CausalGap) : JSString :=
  JSString.lit "RGA causal gap: 'after' node " ++ e.afterKey ++ JSString.lit " not found. " ++
    JSString.lit "This operation arrived before its causal predecessor."

namespace RGADocument

/-- `new RGADocument()`. -/
def empty : RGADocument := ⟨⟨[], false⟩, [], 0, 0⟩

/-- The node of the chain the index holds under `key`. -/
def indexGet (d : RGADocument) (key : JSString) : Option RGANode :=
  Chain.indexGet RGANode.uid key d.nodes

/-- `_index.has(key)`, the sentinel included. -/
def indexHas (d : RGADocument) (key : JSString) : Bool := Chain.indexHas RGANode.uid key d.nodes

/-- Replace the node the index holds under `key`. -/
def updateNode (d : RGADocument) (key : JSString) (f : RGANode → RGANode) : RGADocument :=
  { d with nodes := Chain.updateNode RGANode.uid key f d.nodes }

/-! ## INSERT -/

/-- Inserts behind `after`, past the nodes with a greater UID; an INSERT whose anchor is missing
throws. -/
def applyInsert (d : RGADocument) (op : InsertOperation) : Except CausalGap RGADocument :=
  if d.indexHas (uidKey op.uid) then .ok d
  else
    let key := afterKey op.after
    if d.indexHas key then
      .ok { d with
        nodes := Chain.splice RGANode.uid key ⟨op.uid, op.value, [], false⟩ d.nodes
        length := d.length + 1
        nodeCount := d.nodeCount + 1 }
    else .error ⟨key⟩

/-! ## DELETE, FORMAT -/

/-- Leaves a tombstone, and says whether the UID is known.  The sentinel is in the index too. -/
def applyDelete (d : RGADocument) (op : DeleteOperation) : RGADocument × Bool :=
  let key := uidKey op.uid
  if key = uidKey rootUID then
    if d.root.tombstoned then (d, true)
    else ({ d with root := { d.root with tombstoned := true }, length := d.length - 1 }, true)
  else
    match d.indexGet key with
    | none => (d, false)
    | some node =>
        if node.tombstoned then (d, true)
        else
          ({ d.updateNode key (fun n => { n with tombstoned := true }) with
              length := d.length - 1 }, true)

/-- Spreads the attributes over those of the node, and says whether the UID is known. -/
def applyFormat (d : RGADocument) (op : FormatOperation) : RGADocument × Bool :=
  let key := uidKey op.uid
  if key = uidKey rootUID then
    ({ d with root := { d.root with attributes := d.root.attributes.spread op.attributes } }, true)
  else
    match d.indexGet key with
    | none => (d, false)
    | some _ =>
        (d.updateNode key fun n => { n with attributes := n.attributes.spread op.attributes }, true)

/-- Applies any operation; `false` reports that it could not be applied. -/
def applyOperation (d : RGADocument) : RGAOperation → RGADocument × Bool
  | .insert op =>
      match d.applyInsert op with
      | .ok d' => (d', true)
      | .error _ => (d, false)
  | .delete op => d.applyDelete op
  | .format op => d.applyFormat op
  | .rollback _ => (d, false)

/-- A sequence of operations, applied one by one. -/
def applyOperations (d : RGADocument) (ops : List RGAOperation) : RGADocument :=
  ops.foldl (fun d op => (d.applyOperation op).1) d

/-! ## Queries -/

/-- The string values of the live nodes, joined. -/
def toText (d : RGADocument) : JSString := Chain.textOf RGANode.text d.nodes

/-! ## Serialization -/

/-- The nodes of a snapshot, tombstones included. -/
def serialize (d : RGADocument) : List SerializedRGANode :=
  d.nodes.map fun n => ⟨n.uid.clock, n.uid.siteId, n.value, some n.attributes, n.tombstoned⟩

/-- The chain a node array is rebuilt into; missing attributes become `{}`. -/
def deserialize (nodes : List SerializedRGANode) : RGADocument where
  root := ⟨[], false⟩
  nodes := nodes.map fun n => ⟨⟨n.clock, n.siteId⟩, n.value, n.attributes.getD [], n.tombstoned⟩
  length := nodes.countP fun n => !n.tombstoned
  nodeCount := nodes.length

/-- A serialized document is read back with the same nodes. -/
lemma nodes_deserialize_serialize (d : RGADocument) :
    (deserialize d.serialize).nodes = d.nodes := by
  simp only [deserialize, serialize, List.map_map]
  exact List.map_id' d.nodes

/-! ## Tombstone collection -/

/-- Drops the tombstoned nodes; returns how many there were. -/
def gc (d : RGADocument) : RGADocument × Nat :=
  let removed := d.nodes.countP fun n => n.tombstoned
  ({ d with nodes := d.nodes.filter fun n => !n.tombstoned, nodeCount := d.nodeCount - removed },
    removed)

end RGADocument

end SyncEngine
