import SyncEngine.System.Collaboration

/-!
# Clients that come and go

The clients of `System.Collaboration` stay connected.  Here a client may lose its connection at any
moment, go on editing, and open another one, to any worker (`client/hooks/useCollaborativeDoc.ts`,
`server/transport/websocket-server.ts`).  A connection is a `Link`: a socket with the session that
its JOIN makes on the worker.  Its two ends close separately.  What is on the way to a client that
has hung up is lost, and the session goes on with the calls that it has queued.

`handleJoin` is modelled with its awaits: the document is loaded, the log is read for a client that
has a `lastSeq`, the session is registered, and the JOIN_ACK is built when the presence is there.
A message that comes before the session is registered is taken for a second JOIN, and the socket is
closed.

A worker gets publications from the moment on at which Redis takes its SUBSCRIBE.  Handlers are
never unsubscribed: `handleDisconnect` asks for it with functions that were never subscribed.
-/

namespace SyncEngine

/-- Who edits the document.  The queue is what the browser's storage had for the page. -/
structure Visitors (C : Type*) where
  docId : JSString
  clientId : C → JSString
  userId : C → JSString
  queue : C → OfflineQueue
  /-- The id of the session that a connection gets. -/
  sessionId : Nat → JSString

/-- How far `handleJoin` has come on a connection. -/
inductive RejoinStage where
  /-- The JOIN has not arrived. -/
  | connecting
  /-- Awaits `getOrLoadDocument`, on the given load. -/
  | awaitDocument (load : Nat)
  /-- Awaits `getMissedOperations`. -/
  | awaitMissed (load : Nat)
  /-- The log has been read. -/
  | missed (load : Nat) (reply : MissedReply)
  /-- The session is registered; awaits the presence. -/
  | registered (load : Nat) (reply : MissedReply)
  /-- The JOIN_ACK has been sent. -/
  | joined
deriving DecidableEq

namespace RejoinStage

/-- The socket has a session. -/
def isRegistered : RejoinStage → Bool
  | .registered .. | .joined => true
  | _ => false

/-- What was read for the JOIN_ACK. -/
def reply? : RejoinStage → Option MissedReply
  | .missed _ reply | .registered _ reply => some reply
  | _ => none

end RejoinStage

/-- A connection of a client to a worker, and the session on it. -/
structure Link (W C : Type*) where
  worker : W
  client : C
  /-- The first message of the client. -/
  joinMessage : JoinMessage
  stage : RejoinStage
  /-- The socket has closed at the worker's end. -/
  closed : Bool
  /-- Sent by the client behind the JOIN, oldest first. -/
  toServer : List OperationMessage
  messageQueue : List ValidatedOperationMessage
  isProcessing : Bool
  /-- How many messages the loop is done with. -/
  processed : Nat
  /-- Sent to the client, oldest first. -/
  toClient : List ServerMessage

namespace Link

variable {W C : Type*}

/-- `sendToSession`: nothing is sent on a closed socket. -/
def send (link : Link W C) (messages : List ServerMessage) : Link W C :=
  if link.closed then link else { link with toClient := link.toClient ++ messages }

/-- `broadcastToDocument`, by each of the handlers. -/
def broadcast (link : Link W C) (handlers : Nat) (envelope : OperationEnvelope) : Link W C :=
  if link.stage.isRegistered then link.send (List.replicate handlers (.broadcast envelope))
  else link

end Link

/-- The page of a client; `socket` is the connection that is open at its end. -/
structure VisitorPage where
  hook : CollaborativeDoc
  socket : Option Nat

/-- The workers, the page of every client, and every connection there has been. -/
structure Rejoining (W C : Type*) where
  /-- A call is named by its connection and its number there. -/
  pool : WorkerPool W (Nat × Nat)
  tabs : C → VisitorPage
  /-- All connections so far. -/
  links : List (Link W C)
  /-- The size of `opHandlers`, per worker. -/
  opHandlers : W → Nat
  /-- Redis has taken the worker's SUBSCRIBE. -/
  subscribed : W → Bool

/-- What a client, the server's end of a connection, a worker or the network does. -/
inductive RejoinAction (W C : Type*) where
  /-- A socket opens, and the client sends its JOIN. -/
  | connect (c : C) (w : W)
  /-- The socket closes at the client's end. -/
  | hangUp (c : C)
  /-- The socket closes at the worker's end. -/
  | close (k : Nat)
  /-- The JOIN arrives. -/
  | arrive (k : Nat)
  /-- The document is there. -/
  | load (k : Nat)
  /-- The log is read. -/
  | readMissed (k : Nat)
  | register (k : Nat)
  /-- The presence is there: the worker subscribes and sends the JOIN_ACK. -/
  | acknowledge (k : Nat)
  | edit (c : C) (edit : UserEdit)
  /-- The next message of a client arrives. -/
  | receive (k : Nat)
  /-- The loop of a session takes the next message. -/
  | process (k : Nat)
  /-- The next step of the call in process. -/
  | advance (k : Nat)
  /-- Its append throws. -/
  | throwAppend (k : Nat)
  /-- The call in process is over. -/
  | reply (k : Nat)
  /-- Redis takes the SUBSCRIBE of a worker. -/
  | subscribe (w : W)
  /-- The next publication leaves Redis for a worker. -/
  | deliver (w : W)
  /-- A client handles the next message from its server. -/
  | handle (c : C)
  /-- What else goes on in the workers. -/
  | background (a : PoolAction W (Nat × Nat))

/-- What a socket replies to a message that is not the JOIN it should be. -/
def invalidJoin : ErrorMessage :=
  ⟨JSString.lit "INVALID_OPERATION", JSString.lit "Invalid JOIN message", none⟩

namespace Rejoining

variable {W C : Type*} (P : Visitors C)

/-- Pages that have just been opened, on an empty document. -/
def start (snapshotOpsThreshold : Nat) : Rejoining W C where
  pool := .start snapshotOpsThreshold
  tabs := fun c => ⟨.new P.docId (P.queue c), none⟩
  links := []
  opHandlers := fun _ => 0
  subscribed := fun _ => false

variable [DecidableEq W] [DecidableEq C]

/-- Another state of a page. -/
def setTab (s : Rejoining W C) (c : C) (tab : VisitorPage) : Rejoining W C :=
  { s with tabs := Function.update s.tabs c tab }

/-- Another state of a connection. -/
def setLink (s : Rejoining W C) (k : Nat) (link : Link W C) : Rejoining W C :=
  { s with links := s.links.set k link }

/-! ### The client's end -/

/-- `connect` of the hook: a new socket to some worker, with a JOIN from `lastSeqRef`. -/
def connect (s : Rejoining W C) (c : C) (w : W) : Option (Rejoining W C) :=
  match (s.tabs c).socket with
  | some _ => none
  | none =>
      let hook := (s.tabs c).hook
      let link : Link W C := ⟨w, c, hook.joinMessage (P.clientId c), .connecting, false, [], [],
        false, 0, []⟩
      some ({ s with links := s.links ++ [link] }.setTab c ⟨hook, some s.links.length⟩)

/-- The hook of a client has run; what it sends is lost unless a socket is open. -/
def runHook (s : Rejoining W C) (c : C) (result : CollaborativeDoc × List OperationMessage) :
    Rejoining W C :=
  { s with
    tabs := Function.update s.tabs c { s.tabs c with hook := result.1 }
    links := match (s.tabs c).socket with
      | some k => s.links.modify k fun link => { link with toServer := link.toServer ++ result.2 }
      | none => s.links }

/-- The client handles the next message on its socket. -/
def handle (s : Rejoining W C) (c : C) : Option (Rejoining W C) :=
  (s.tabs c).socket.bind fun k => s.links[k]?.bind fun link =>
    match link.toClient with
    | [] => none
    | message :: rest =>
        some ((s.setLink k { link with toClient := rest }).runHook c
          ((s.tabs c).hook.handleServerMessage message))

/-! ### `handleJoin` -/

/-- The next message of the client arrives: its JOIN, or one that is queued. -/
def arrive (s : Rejoining W C) (k : Nat) (link : Link W C) : Option (Rejoining W C) :=
  match link.stage with
  | .connecting =>
      if link.closed then none
      else
        let (pool, n) := s.pool.getOrLoadDocument link.worker
        some ({ s with pool := pool }.setLink k { link with stage := .awaitDocument n })
  | _ => none

/-- Without a `lastSeq` the log is not read, and the session is registered at once. -/
def load (s : Rejoining W C) (k : Nat) (link : Link W C) : Option (Rejoining W C) :=
  match link.stage with
  | .awaitDocument n =>
      (s.pool.loaded link.worker n).map fun _ => s.setLink k { link with
        stage := if link.joinMessage.lastSeq > 0 then .awaitMissed n
          else .registered n ⟨[], false⟩ }
  | _ => none

/-- `getMissedOperations` has read the log. -/
def readMissed (s : Rejoining W C) (k : Nat) (link : Link W C) : Option (Rejoining W C) :=
  match link.stage with
  | .awaitMissed n =>
      some (s.setLink k { link with
        stage := .missed n (missedReply s.pool.db link.joinMessage) })
  | _ => none

/-- `handleJoin` registers the session. -/
def register (s : Rejoining W C) (k : Nat) (link : Link W C) : Option (Rejoining W C) :=
  match link.stage with
  | .missed n reply => some (s.setLink k { link with stage := .registered n reply })
  | _ => none

/-- The JOIN_ACK of a connection, from the entry that its JOIN was given. -/
def joinAck? (s : Rejoining W C) (k : Nat) (link : Link W C) : Option JoinAckMessage :=
  match link.stage with
  | .registered n reply => (s.pool.loaded link.worker n).map fun loaded =>
      joinAck (P.sessionId k) link.joinMessage reply loaded.entry
  | _ => none

/-- `handleJoin` subscribes the session and sends the JOIN_ACK. -/
def acknowledge (s : Rejoining W C) (k : Nat) (link : Link W C) : Option (Rejoining W C) :=
  (s.joinAck? P k link).map fun ack =>
    { s with
      opHandlers := Function.update s.opHandlers link.worker (s.opHandlers link.worker + 1)
      links := s.links.set k ({ link with stage := .joined }.send [.joinAck ack]) }

/-! ### The message loop -/

/-- Before the session is registered, the message is taken for a JOIN. -/
def receive (s : Rejoining W C) (k : Nat) (link : Link W C) : Option (Rejoining W C) :=
  match link.closed, link.stage, link.toServer with
  | true, _, _ | _, .connecting, _ | _, _, [] => none
  | false, _, msg :: rest =>
      let link := { link with toServer := rest }
      if link.stage.isRegistered then
        match validateOperation msg with
        | some msg => some (s.setLink k { link with messageQueue := link.messageQueue ++ [msg] })
        | none => some (s.setLink k (link.send [.error invalidOperation]))
      else some (s.setLink k { link.send [.error invalidJoin] with closed := true })

/-- The session `registerSession` makes. -/
def session (k : Nat) (link : Link W C) : ClientSession :=
  ⟨P.sessionId k, P.userId link.client, assignSiteId link.joinMessage.clientId⟩

/-- The loop takes the first message of the queue to `handleOperation`. -/
def process (s : Rejoining W C) (k : Nat) (link : Link W C) : Option (Rejoining W C) :=
  match link.isProcessing, link.messageQueue with
  | false, msg :: rest =>
      (s.pool.step (.begin (k, link.processed) link.worker (session P k link) msg)).map
        fun pool => { s with pool := pool }.setLink k
          { link with messageQueue := rest, isProcessing := true }
  | _, _ => none

/-- A step of the call in process. -/
def call (s : Rejoining W C) (link : Link W C) (a : PoolAction W (Nat × Nat)) :
    Option (Rejoining W C) :=
  if link.isProcessing then (s.pool.step a).map fun pool => { s with pool := pool } else none

/-- What the client is told when a call is over; a call that has thrown tells nothing. -/
def answerTo (call : OperationCall W) : Option (List ServerMessage) :=
  match call.stage with
  | .applied _ _ .threw => some []
  | _ => (Collaboration.replyTo call).map fun message => [message]

/-- The call is over, and the session replies if there is a reply. -/
def reply (s : Rejoining W C) (k : Nat) (link : Link W C) : Option (Rejoining W C) :=
  if link.isProcessing then
    (s.pool.calls (k, link.processed)).bind fun call => (answerTo call).map fun messages =>
      s.setLink k
        ({ link with isProcessing := false, processed := link.processed + 1 }.send messages)
  else none

/-! ### Redis -/

/-- Redis has taken the SUBSCRIBE of a worker that has handlers. -/
def subscribe (s : Rejoining W C) (w : W) : Option (Rejoining W C) :=
  if 0 < s.opHandlers w then some { s with subscribed := Function.update s.subscribed w true }
  else none

/-- A worker that is not subscribed misses the publication. -/
def deliver (s : Rejoining W C) (w : W) : Option (Rejoining W C) :=
  (s.pool.channel[s.pool.delivered w]?).bind fun envelope =>
    (s.pool.step (.deliver w)).map fun pool =>
      { s with
        pool := pool
        links := if s.subscribed w then s.links.map fun link =>
            if link.worker = w then link.broadcast (s.opHandlers w) envelope else link
          else s.links }

/-- One action, if it can happen. -/
def step (s : Rejoining W C) : RejoinAction W C → Option (Rejoining W C)
  | .connect c w => s.connect P c w
  | .hangUp c => some (s.setTab c { s.tabs c with socket := none })
  | .close k => s.links[k]?.map fun link => s.setLink k { link with closed := true }
  | .arrive k => s.links[k]?.bind (s.arrive k)
  | .load k => s.links[k]?.bind (s.load k)
  | .readMissed k => s.links[k]?.bind (s.readMissed k)
  | .register k => s.links[k]?.bind (s.register k)
  | .acknowledge k => s.links[k]?.bind (s.acknowledge P k)
  | .edit c edit => some (s.runHook c ((s.tabs c).hook.userEdit edit))
  | .receive k => s.links[k]?.bind (s.receive k)
  | .process k => s.links[k]?.bind (s.process P k)
  | .advance k => s.links[k]?.bind fun link => s.call link (.advance (k, link.processed))
  | .throwAppend k => s.links[k]?.bind fun link => s.call link (.throwAppend (k, link.processed))
  | .reply k => s.links[k]?.bind (s.reply k)
  | .subscribe w => s.subscribe w
  | .deliver w => s.deliver w
  | .handle c => s.handle c
  | .background a =>
      if a.isBackground then (s.pool.step a).map fun pool => { s with pool := pool } else none

end Rejoining

end SyncEngine
