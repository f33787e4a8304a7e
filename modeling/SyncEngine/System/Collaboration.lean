import SyncEngine.Client.CollaborativeDoc
import SyncEngine.Server.OfflineMerger
import SyncEngine.Server.WorkerPool

/-!
# Clients and workers together

A document that any number of clients edit through any number of workers.  Every client is the
hook of `Client.CollaborativeDoc`; it has one socket, FIFO in both directions, to the worker it is
connected to (`server/transport/websocket-server.ts`).  On that worker it has a session with a
message queue, from which one loop takes one operation at a time and hands it to
`handleOperation`; what comes out of Redis on a worker goes to all its sessions of the document,
once for every handler that a JOIN has subscribed.

An action is the code between two awaits, or the arrival of a message.  Every client joins once,
with `lastSeq = 0`; nobody disconnects.
-/

namespace SyncEngine

/-- Who edits the document, and where they are connected.  Site ids are UUIDs. -/
structure Participants (W C : Type*) where
  docId : JSString
  home : C → W
  clientId : C → JSString
  sessionId : C → JSString
  userId : C → JSString
  siteId_injective : Function.Injective fun c => assignSiteId (clientId c)
  siteId_ne_root : ∀ c, assignSiteId (clientId c) ≠ rootUID.siteId
  sessionId_injective : Function.Injective sessionId

namespace Participants

variable {W C : Type*} (P : Participants W C)

/-- The site id that `handleJoin` gives the client. -/
def siteId (c : C) : JSString := assignSiteId (P.clientId c)

/-- The session `registerSession` makes. -/
def session (c : C) : ClientSession := ⟨P.sessionId c, P.userId c, P.siteId c⟩

/-- The JOIN a freshly opened page sends. -/
def joinMessage (c : C) : JoinMessage := (CollaborativeDoc.new P.docId).joinMessage (P.clientId c)

/-- Two clients of one worker. -/
def pair : Participants Unit Bool where
  docId := JSString.lit "d"
  home := fun _ => ()
  clientId := fun c => if c then JSString.lit "b" else JSString.lit "a"
  sessionId := fun c => if c then JSString.lit "t" else JSString.lit "s"
  userId := fun _ => JSString.lit "u"
  siteId_injective := by
    unfold Function.Injective
    decide
  siteId_ne_root := by decide
  sessionId_injective := by
    unfold Function.Injective
    decide

end Participants

/-! ## Connections -/

/-- How far `handleJoin` has come. -/
inductive JoinStage where
  /-- The JOIN has not arrived. -/
  | connecting
  /-- Awaits `getOrLoadDocument`, on the given load. -/
  | awaitDocument (load : Nat)
  /-- The session is registered; awaits the presence updates. -/
  | registered (load : Nat)
  /-- The worker has subscribed and the JOIN_ACK has been sent. -/
  | joined
deriving DecidableEq

/-- The session is in `docSessions`. -/
def JoinStage.isRegistered : JoinStage → Bool
  | .registered _ | .joined => true
  | _ => false

/-- A client, its socket and its session. -/
structure Connection where
  hook : CollaborativeDoc
  /-- Sent by the client, oldest first. -/
  toServer : List OperationMessage
  join : JoinStage
  messageQueue : List ValidatedOperationMessage
  isProcessing : Bool
  /-- How many messages the loop is done with. -/
  processed : Nat
  /-- Sent to the client, oldest first. -/
  toClient : List ServerMessage

namespace Connection

/-- The server sends on the socket. -/
def send (conn : Connection) (messages : List ServerMessage) : Connection :=
  { conn with toClient := conn.toClient ++ messages }

/-- The client's hook has run and sent operations. -/
def runHook (conn : Connection) (result : CollaborativeDoc × List OperationMessage) : Connection :=
  { conn with hook := result.1, toServer := conn.toServer ++ result.2 }

/-- `broadcastToDocument`, by each of the handlers. -/
def broadcast (conn : Connection) (handlers : Nat) (envelope : OperationEnvelope) : Connection :=
  if conn.join.isRegistered then conn.send (List.replicate handlers (.broadcast envelope)) else conn

end Connection

/-- `OperationMessageSchema.safeParse`. -/
def validateOperation (msg : OperationMessage) : Option ValidatedOperationMessage :=
  if h : msg.op.IsEdit ∧ ∀ u ∈ msg.op.named, u ≠ rootUID then some ⟨msg, h.1, h.2⟩ else none

lemma op_of_validateOperation {msg : OperationMessage} {valid : ValidatedOperationMessage}
    (h : validateOperation msg = some valid) : valid.op = msg.op := by
  rw [validateOperation] at h
  split at h
  · obtain rfl := Option.some.inj h
    rfl
  · simp at h

/-- What a socket replies to a message that the schema refuses; its text is the schema's. -/
def invalidOperation : ErrorMessage := ⟨JSString.lit "INVALID_OPERATION", [], none⟩

/-! ## The system -/

/-- The workers with their database and Redis, and every client with its connection. -/
structure Collaboration (W C : Type*) where
  /-- The calls of a session are numbered in the order its loop makes them. -/
  pool : WorkerPool W (C × Nat)
  connections : C → Connection
  /-- The size of `opHandlers`, per worker. -/
  opHandlers : W → Nat

/-- What a client, its session, a worker or the network does. -/
inductive Action (W C : Type*) where
  /-- The JOIN arrives. -/
  | join (c : C)
  /-- The document is there: the session is registered. -/
  | register (c : C)
  /-- The presence is there: the worker subscribes and sends the JOIN_ACK. -/
  | acknowledge (c : C)
  | edit (c : C) (edit : LocalEdit)
  /-- The next message of a client reaches its session. -/
  | receive (c : C)
  /-- The loop of a session takes the next message. -/
  | process (c : C)
  /-- The next step of the call in process. -/
  | advance (c : C)
  /-- The call in process has returned, and the client is told. -/
  | reply (c : C)
  /-- The next publication reaches a worker. -/
  | deliver (w : W)
  /-- A client handles the next message from its server. -/
  | handle (c : C)
  /-- What else goes on in the workers. -/
  | background (a : PoolAction W (C × Nat))

/-- Loads, evictions, snapshot jobs and rejected calls. -/
def PoolAction.isBackground {W K : Type*} : PoolAction W K → Bool
  | .load .. | .evict _ | .forceSnapshot _ | .job _ | .skipJob _ | .refuse .. => true
  | _ => false

namespace Collaboration

variable {W C : Type*} (P : Participants W C)

/-- An empty document that nobody has opened. -/
def start (snapshotOpsThreshold : Nat) : Collaboration W C where
  pool := WorkerPool.start snapshotOpsThreshold
  connections := fun _ => ⟨CollaborativeDoc.new P.docId, [], .connecting, [], false, 0, []⟩
  opHandlers := fun _ => 0

variable [DecidableEq W] [DecidableEq C]

/-- Another state of a connection. -/
def setConnection (s : Collaboration W C) (c : C) (conn : Connection) : Collaboration W C :=
  { s with connections := Function.update s.connections c conn }

/-- The call the loop of a session is in. -/
def callInProcess (s : Collaboration W C) (c : C) : C × Nat := (c, (s.connections c).processed)

/-- `handleJoin` calls `getOrLoadDocument`. -/
def join (s : Collaboration W C) (c : C) : Option (Collaboration W C) :=
  let conn := s.connections c
  match conn.join with
  | .connecting =>
      let (pool, n) := s.pool.getOrLoadDocument (P.home c)
      some ({ s with pool := pool }.setConnection c { conn with join := .awaitDocument n })
  | _ => none

/-- The load has resolved, and `handleJoin` registers the session. -/
def register (s : Collaboration W C) (c : C) : Option (Collaboration W C) :=
  let conn := s.connections c
  match conn.join with
  | .awaitDocument n =>
      (s.pool.loaded (P.home c) n).map fun _ =>
        s.setConnection c { conn with join := .registered n }
  | _ => none

/-- The JOIN_ACK of a client, from the entry its JOIN was given. -/
def joinAckFor (s : Collaboration W C) (c : C) (loaded : Loaded) : JoinAckMessage :=
  joinAck (P.sessionId c) (P.joinMessage c) (missedReply s.pool.db (P.joinMessage c)) loaded.entry

/-- `handleJoin` subscribes the session and sends the JOIN_ACK, from the entry it was given. -/
def acknowledge (s : Collaboration W C) (c : C) : Option (Collaboration W C) :=
  let conn := s.connections c
  match conn.join with
  | .registered n =>
      (s.pool.loaded (P.home c) n).map fun loaded =>
        { s with
          opHandlers := Function.update s.opHandlers (P.home c) (s.opHandlers (P.home c) + 1)
          connections := Function.update s.connections c
            ({ conn with join := .joined }.send [.joinAck (s.joinAckFor P c loaded)]) }
  | _ => none

/-- The socket hands over an OPERATION, which is queued if it passes the schema. -/
def receive (s : Collaboration W C) (c : C) : Option (Collaboration W C) :=
  let conn := s.connections c
  match conn.toServer with
  | [] => none
  | msg :: rest =>
      let conn := { conn with toServer := rest }
      match validateOperation msg with
      | some msg =>
          some (s.setConnection c { conn with messageQueue := conn.messageQueue ++ [msg] })
      | none => some (s.setConnection c (conn.send [.error invalidOperation]))

/-- The loop takes the first message of the queue to `handleOperation`. -/
def process (s : Collaboration W C) (c : C) : Option (Collaboration W C) :=
  let conn := s.connections c
  match conn.isProcessing, conn.messageQueue with
  | false, msg :: rest =>
      (s.pool.step (.begin (s.callInProcess c) (P.home c) (P.session c) msg)).map fun pool =>
        { s with pool := pool }.setConnection c
          { conn with messageQueue := rest, isProcessing := true }
  | _, _ => none

/-- The call of the session goes one step on. -/
def advance (s : Collaboration W C) (c : C) : Option (Collaboration W C) :=
  if (s.connections c).isProcessing then
    (s.pool.step (.advance (s.callInProcess c))).map fun pool => { s with pool := pool }
  else none

/-- The reply to a call that has returned. -/
def replyTo (call : OperationCall W) : Option ServerMessage :=
  match call.stage with
  | .applied _ _ (.done envelope) => some (.opAck call.msg.clientSeq envelope.seq)
  | .failed error => some (.error ⟨error.code, error.message, some call.msg.clientSeq⟩)
  | _ => none

/-- The call is over; the session replies, and the loop goes on. -/
def reply (s : Collaboration W C) (c : C) : Option (Collaboration W C) :=
  let conn := s.connections c
  if conn.isProcessing then
    (s.pool.calls (s.callInProcess c)).bind fun call => (replyTo call).map fun message =>
      s.setConnection c
        ({ conn with isProcessing := false, processed := conn.processed + 1 }.send [message])
  else none

/-- A publication comes out of Redis at a worker, whose handlers broadcast it. -/
def deliver (s : Collaboration W C) (w : W) : Option (Collaboration W C) :=
  (s.pool.channel[s.pool.delivered w]?).bind fun envelope =>
    (s.pool.step (.deliver w)).map fun pool =>
      { s with
        pool := pool
        connections := fun c =>
          if P.home c = w then (s.connections c).broadcast (s.opHandlers w) envelope
          else s.connections c }

/-- The client handles the next message. -/
def handle (s : Collaboration W C) (c : C) : Option (Collaboration W C) :=
  let conn := s.connections c
  match conn.toClient with
  | [] => none
  | message :: rest =>
      let conn := { conn with toClient := rest }
      some (s.setConnection c (conn.runHook (conn.hook.handleServerMessage message)))

/-- One action, if it can happen. -/
def step (s : Collaboration W C) : Action W C → Option (Collaboration W C)
  | .join c => s.join P c
  | .register c => s.register P c
  | .acknowledge c => s.acknowledge P c
  | .edit c edit =>
      let conn := s.connections c
      some (s.setConnection c (conn.runHook (conn.hook.edit edit)))
  | .receive c => s.receive c
  | .process c => s.process P c
  | .advance c => s.advance c
  | .reply c => s.reply c
  | .deliver w => s.deliver P w
  | .handle c => s.handle c
  | .background a =>
      if a.isBackground then (s.pool.step a).map fun pool => { s with pool := pool } else none

end Collaboration

end SyncEngine
