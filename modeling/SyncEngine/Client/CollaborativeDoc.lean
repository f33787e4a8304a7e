import SyncEngine.Client.ClientRga
import SyncEngine.Shared.Protocol

/-!
# The client's hook

The state that `useCollaborativeDoc` (`client/hooks/useCollaborativeDoc.ts`) keeps in its refs,
with the queue of unacknowledged operations (`client/crdt/offline-queue.ts`), and its two ways to
show it: `handleServerMessage` and the local edits.  Every function returns the new state and
the OPERATION messages it sends.

Nonces are drawn at random by the source and are arguments here.  The time stamps of queued
operations and the copy of the queue in the browser's storage are left out.
-/

namespace SyncEngine

/-- An operation that has no OP_ACK yet. -/
structure QueuedOperation where
  clientSeq : Nat
  op : RGAOperation
  nonce : JSString
  attempts : Nat
deriving DecidableEq, Repr

/-- The operations not yet acknowledged, oldest first. -/
abbrev OfflineQueue := List QueuedOperation

namespace OfflineQueue

/-- A new operation goes to the end of the queue. -/
def enqueue (queue : OfflineQueue) (op : QueuedOperation) : OfflineQueue := queue ++ [op]

/-- Removes the operation with the given `clientSeq`. -/
def acknowledge (queue : OfflineQueue) (clientSeq : Nat) : OfflineQueue :=
  queue.filter fun op => op.clientSeq ≠ clientSeq

end OfflineQueue

/-- The refs and the state of `useCollaborativeDoc`. -/
structure CollaborativeDoc where
  docId : JSString
  /-- The replica, absent until the first JOIN_ACK. -/
  docRef : Option ClientRGADocument
  queueRef : OfflineQueue
  clientSeqRef : Nat
  lastSeqRef : Nat
  /-- The text the component shows. -/
  text : JSString
deriving DecidableEq, Repr

namespace CollaborativeDoc

/-- The hook of a freshly opened page, with what the storage had queued. -/
def new (docId : JSString) (queue : OfflineQueue := []) : CollaborativeDoc :=
  ⟨docId, none, queue, 0, 0, []⟩

/-- The OPERATION of a queued operation. -/
def operationMessage (s : CollaborativeDoc) (op : QueuedOperation) : OperationMessage :=
  ⟨s.docId, op.clientSeq, op.op, op.nonce⟩

/-- `ws.onopen`: the JOIN of a new connection; the client's id comes from the browser's storage. -/
def joinMessage (s : CollaborativeDoc) (clientId : JSString) : JoinMessage :=
  ⟨s.lastSeqRef, clientId⟩

/-! ## Messages from the server -/

/-- Rebuilds the replica from the snapshot and the missed operations, and sends the queue again. -/
def handleJoinAck (s : CollaborativeDoc) (ack : JoinAckMessage) :
    CollaborativeDoc × List OperationMessage :=
  let doc := (ClientRGADocument.deserialize ack.snapshot.nodes ack.siteId).applyOperations
    (ack.missedOps.map OperationEnvelope.op)
  ({ s with
      docRef := some doc
      lastSeqRef := ack.missedOps.foldl (fun lastSeq env => max lastSeq env.seq) s.lastSeqRef
      text := doc.toText },
    s.queueRef.map s.operationMessage)

/-- Drops what the queue has under this `clientSeq`, and remembers the seq. -/
def handleOpAck (s : CollaborativeDoc) (clientSeq serverSeq : Nat) : CollaborativeDoc :=
  { s with
    queueRef := s.queueRef.acknowledge clientSeq
    lastSeqRef := max s.lastSeqRef serverSeq }

/-- Applies the operation if there is a replica; the seq is remembered in any case. -/
def handleBroadcast (s : CollaborativeDoc) (envelope : OperationEnvelope) : CollaborativeDoc :=
  let s := { s with lastSeqRef := max s.lastSeqRef envelope.seq }
  match s.docRef with
  | none => s
  | some doc =>
      let doc := doc.applyOperation envelope.op
      { s with docRef := some doc, text := doc.toText }

/-- The `switch` of `ws.onmessage`, with the messages that are sent meanwhile. -/
def handleServerMessage (s : CollaborativeDoc) :
    ServerMessage → CollaborativeDoc × List OperationMessage
  | .joinAck ack => s.handleJoinAck ack
  | .opAck clientSeq serverSeq => (s.handleOpAck clientSeq serverSeq, [])
  | .broadcast envelope => (s.handleBroadcast envelope, [])
  | .error _ => (s, [])

/-! ## Local edits -/

/-- Queues an operation that the replica `doc` has already applied, and sends it. -/
def enqueueAndSend (s : CollaborativeDoc) (doc : ClientRGADocument) (op : RGAOperation)
    (nonce : JSString) : CollaborativeDoc × List OperationMessage :=
  let queued : QueuedOperation := ⟨s.clientSeqRef, op, nonce, 1⟩
  ({ s with docRef := some doc, queueRef := s.queueRef.enqueue queued, text := doc.toText },
    [s.operationMessage queued])

/-- A character is typed: it is applied, queued and sent. -/
def localInsert (s : CollaborativeDoc) (index : Nat) (char nonce : JSString) :
    CollaborativeDoc × List OperationMessage :=
  match s.docRef with
  | none => (s, [])
  | some doc =>
      let s := { s with clientSeqRef := s.clientSeqRef + 1 }
      let (doc, op) := doc.localInsert index char
      s.enqueueAndSend doc (.insert op) nonce

/-- A character is deleted: the operation is applied, queued and sent. -/
def localDelete (s : CollaborativeDoc) (index : Nat) (nonce : JSString) :
    CollaborativeDoc × List OperationMessage :=
  match s.docRef with
  | none => (s, [])
  | some doc =>
      let s := { s with clientSeqRef := s.clientSeqRef + 1 }
      match doc.localDelete index with
      | (_, none) => (s, [])
      | (doc, some op) => s.enqueueAndSend doc (.delete op) nonce

/-- Queues and sends operations that the replica has already applied; the random nonce of each is
given by its `clientSeq`. -/
def enqueueAll (s : CollaborativeDoc) (nonces : Nat → JSString) :
    List RGAOperation → CollaborativeDoc × List OperationMessage
  | [] => (s, [])
  | op :: ops =>
      let clientSeq := s.clientSeqRef + 1
      let queued : QueuedOperation := ⟨clientSeq, op, nonces clientSeq, 1⟩
      let (s, messages) := enqueueAll
        { s with clientSeqRef := clientSeq, queueRef := s.queueRef.enqueue queued } nonces ops
      (s, s.operationMessage queued :: messages)

/-- The editor's text has changed: the operations of the difference are queued and sent in turn. -/
def localBatchEdit (s : CollaborativeDoc) (before after : JSString) (nonces : Nat → JSString) :
    CollaborativeDoc × List OperationMessage :=
  match s.docRef with
  | none => (s, [])
  | some doc =>
      let (doc, ops) := doc.diffToOperations before after
      let (s, messages) := s.enqueueAll nonces ops
      ({ s with docRef := some doc, text := doc.toText }, messages)

end CollaborativeDoc

/-- An edit the user makes. -/
inductive LocalEdit where
  | insert (index : Nat) (char nonce : JSString)
  | delete (index : Nat) (nonce : JSString)
deriving DecidableEq

/-- `localInsert` or `localDelete`. -/
def CollaborativeDoc.edit (s : CollaborativeDoc) :
    LocalEdit → CollaborativeDoc × List OperationMessage
  | .insert index char nonce => s.localInsert index char nonce
  | .delete index nonce => s.localDelete index nonce

/-- What a component can ask the hook to do. -/
inductive UserEdit where
  | single (edit : LocalEdit)
  | batch (before after : JSString) (nonces : Nat → JSString)

namespace CollaborativeDoc

/-- Any edit of the user. -/
def userEdit (s : CollaborativeDoc) : UserEdit → CollaborativeDoc × List OperationMessage
  | .single e => s.edit e
  | .batch before after nonces => s.localBatchEdit before after nonces

/-! ## What an edit does to the hook -/

/-- The hook `s'` is `s` after it has queued the operations `queued`: they come last in the queue,
their numbers are the next ones, and they are what the replica made. -/
structure Edited (s s' : CollaborativeDoc) (queued : List QueuedOperation) : Prop where
  docId_eq : s'.docId = s.docId
  lastSeqRef_eq : s'.lastSeqRef = s.lastSeqRef
  queueRef_eq : s'.queueRef = s.queueRef ++ queued
  clientSeqs : queued.map QueuedOperation.clientSeq =
    List.range' (s.clientSeqRef + 1) queued.length
  clientSeqRef_le : s.clientSeqRef + queued.length ≤ s'.clientSeqRef
  replica : (s'.docRef = s.docRef ∧ queued = []) ∨
    ∃ doc doc', s.docRef = some doc ∧ s'.docRef = some doc' ∧
      ClientRGADocument.Edits doc (queued.map QueuedOperation.op) doc'

lemma Edited.refl {s s' : CollaborativeDoc} (hdoc : s'.docId = s.docId)
    (hlast : s'.lastSeqRef = s.lastSeqRef) (hqueue : s'.queueRef = s.queueRef)
    (hseq : s.clientSeqRef ≤ s'.clientSeqRef) (hreplica : s'.docRef = s.docRef) :
    Edited s s' [] :=
  ⟨hdoc, hlast, by simpa using hqueue, rfl, by simpa using hseq, Or.inl ⟨hreplica, rfl⟩⟩

/-- What `enqueueAll` queues. -/
def toQueue (clientSeqRef : Nat) (nonces : Nat → JSString) :
    List RGAOperation → List QueuedOperation
  | [] => []
  | op :: ops =>
      ⟨clientSeqRef + 1, op, nonces (clientSeqRef + 1), 1⟩ :: toQueue (clientSeqRef + 1) nonces ops

lemma map_op_toQueue (clientSeqRef : Nat) (nonces : Nat → JSString) (ops : List RGAOperation) :
    (toQueue clientSeqRef nonces ops).map QueuedOperation.op = ops := by
  induction ops generalizing clientSeqRef with
  | nil => rfl
  | cons op ops ih => rw [toQueue, List.map_cons, ih]

lemma map_clientSeq_toQueue (clientSeqRef : Nat) (nonces : Nat → JSString)
    (ops : List RGAOperation) : (toQueue clientSeqRef nonces ops).map QueuedOperation.clientSeq =
      List.range' (clientSeqRef + 1) ops.length := by
  induction ops generalizing clientSeqRef with
  | nil => rfl
  | cons op ops ih => rw [toQueue, List.map_cons, ih, List.length_cons, List.range'_succ]

lemma length_toQueue (clientSeqRef : Nat) (nonces : Nat → JSString) (ops : List RGAOperation) :
    (toQueue clientSeqRef nonces ops).length = ops.length := by
  rw [← List.length_map (f := QueuedOperation.op), map_op_toQueue]

lemma enqueueAll_eq (s : CollaborativeDoc) (nonces : Nat → JSString) (ops : List RGAOperation) :
    s.enqueueAll nonces ops =
      ({ s with
          clientSeqRef := s.clientSeqRef + ops.length
          queueRef := s.queueRef ++ toQueue s.clientSeqRef nonces ops },
        (toQueue s.clientSeqRef nonces ops).map s.operationMessage) := by
  induction ops generalizing s with
  | nil => simp [enqueueAll, toQueue]
  | cons op ops ih =>
      simp only [enqueueAll, ih, toQueue, OfflineQueue.enqueue, List.map_cons, List.length_cons]
      refine Prod.ext ?_ rfl
      simp [Nat.add_assoc, Nat.add_comm 1]

lemma userEdit_of_none {s : CollaborativeDoc} (h : s.docRef = none) (e : UserEdit) :
    s.userEdit e = (s, []) := by
  cases e with
  | single e => cases e <;> simp [userEdit, edit, localInsert, localDelete, h]
  | batch before after nonces => simp [userEdit, localBatchEdit, h]

/-- **An edit** queues the operations it makes, and sends them. -/
theorem edited_userEdit (s : CollaborativeDoc) (e : UserEdit) :
    ∃ queued, Edited s (s.userEdit e).1 queued ∧
      (s.userEdit e).2 = queued.map s.operationMessage := by
  cases hdoc : s.docRef with
  | none =>
      rw [userEdit_of_none hdoc]
      exact ⟨[], .refl rfl rfl rfl (Nat.le_refl _) rfl, rfl⟩
  | some doc =>
      cases e with
      | single e =>
          cases e with
          | insert index char nonce =>
              refine ⟨[⟨s.clientSeqRef + 1, .insert (doc.localInsert index char).2, nonce, 1⟩],
                ⟨?_, ?_, ?_, ?_, ?_, Or.inr ⟨doc, (doc.localInsert index char).1, hdoc, ?_,
                  .insert index char (.nil _)⟩⟩, ?_⟩ <;>
              simp [userEdit, edit, localInsert, hdoc, enqueueAndSend, OfflineQueue.enqueue,
                operationMessage]
          | delete index nonce =>
              cases hdelete : doc.localDelete index with
              | mk doc' op? =>
                  cases op? with
                  | none =>
                      refine ⟨[], .refl ?_ ?_ ?_ ?_ ?_, ?_⟩ <;>
                      simp [userEdit, edit, localDelete, hdoc, hdelete]
                  | some op =>
                      refine ⟨[⟨s.clientSeqRef + 1, .delete op, nonce, 1⟩],
                        ⟨?_, ?_, ?_, ?_, ?_, Or.inr ⟨doc, doc', hdoc, ?_,
                          .delete index hdelete (.nil _)⟩⟩, ?_⟩ <;>
                      simp [userEdit, edit, localDelete, hdoc, hdelete, enqueueAndSend,
                        OfflineQueue.enqueue, operationMessage]
      | batch before after nonces =>
          -- a batch: its operations are numbered on from the counter, in the order they were made
          have hedits := doc.edits_diffToOperations before after
          refine ⟨toQueue s.clientSeqRef nonces (doc.diffToOperations before after).2,
            ⟨?_, ?_, ?_, ?_, ?_, Or.inr ⟨doc, (doc.diffToOperations before after).1, hdoc, ?_, ?_⟩⟩,
            ?_⟩
          · simp [userEdit, localBatchEdit, hdoc, enqueueAll_eq]
          · simp [userEdit, localBatchEdit, hdoc, enqueueAll_eq]
          · simp [userEdit, localBatchEdit, hdoc, enqueueAll_eq]
          · rw [map_clientSeq_toQueue, length_toQueue]
          · simp [userEdit, localBatchEdit, hdoc, enqueueAll_eq, length_toQueue]
          · simp [userEdit, localBatchEdit, hdoc, enqueueAll_eq]
          · rw [map_op_toQueue]
            exact hedits
          · simp [userEdit, localBatchEdit, hdoc, enqueueAll_eq]

end CollaborativeDoc

end SyncEngine
