import SyncEngine.Shared.Operation

/-!
# Messages

The WebSocket messages of `shared/types/protocol.ts` that carry operations or documents.
Presence, pings and notifications touch neither and are left out, as are timestamps.

`ValidatedOperationMessage` is what the server's schema lets through: INSERTs and DELETEs only,
whose site ids are UUIDs and therefore never the name of the sentinel.
-/

namespace SyncEngine

/-! ## Client to server -/

/-- JOIN, for the document of the connection. -/
structure JoinMessage where
  /-- The last seq the client received, `0` for a fresh join. -/
  lastSeq : Nat
  clientId : JSString
deriving DecidableEq, Repr

/-- OPERATION. -/
structure OperationMessage where
  docId : JSString
  clientSeq : Nat
  op : RGAOperation
  nonce : JSString
deriving DecidableEq, Repr

/-- The nodes an operation names, its own included. -/
def RGAOperation.named : RGAOperation → List UID
  | .insert op => op.uid :: op.after.toList
  | .delete op => [op.uid]
  | .format op => [op.uid]
  | .rollback op => [op.uid]

/-- `OperationMessageSchema`. -/
structure ValidatedOperationMessage extends OperationMessage where
  isEdit : op.IsEdit
  named_ne_root : ∀ u ∈ op.named, u ≠ rootUID
deriving DecidableEq

/-! ## Server to client -/

/-- The document in a JOIN_ACK. -/
structure JoinSnapshot where
  /-- "Operations through this seq are encoded in nodes." -/
  seq : Nat
  nodes : List SerializedRGANode
deriving DecidableEq, Repr

/-- JOIN_ACK. -/
structure JoinAckMessage where
  sessionId : JSString
  siteId : JSString
  snapshot : JoinSnapshot
  missedOps : List OperationEnvelope
deriving DecidableEq, Repr

/-- ERROR. -/
structure ErrorMessage where
  code : JSString
  message : JSString
  clientSeq : Option Nat
deriving DecidableEq, Repr

/-- What the server sends to a client that the replica or the queue depends on. -/
inductive ServerMessage where
  | joinAck (ack : JoinAckMessage)
  | opAck (clientSeq serverSeq : Nat)
  | broadcast (envelope : OperationEnvelope)
  | error (error : ErrorMessage)
deriving DecidableEq, Repr

/-- The message is a JOIN_ACK. -/
def ServerMessage.isJoinAck : ServerMessage → Bool
  | .joinAck _ => true
  | _ => false

/-- The OP_ACK of the operation with the given number. -/
def ServerMessage.isOpAck (clientSeq : Nat) : ServerMessage → Bool
  | .opAck clientSeq' _ => clientSeq' = clientSeq
  | _ => false

end SyncEngine
