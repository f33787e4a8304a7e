import SyncEngine.Client.OfflineQueueRuns
import SyncEngine.Server.HandleOperation
import SyncEngine.System.Collaboration

/-!
# A tab and its server

The tab of `Client.OfflineQueueRuns` at a real server: one worker, its database and its cache,
which answers the messages of the tab with `handleJoin` and `handleClientOperation`
(`server/transport/websocket-server.ts`) one at a time, and meanwhile serves other clients of the
document.  Each call of `handleOperation` may be turned away, or throw, at any of its steps.

`handleJoin` holds on to the cache entry it was given, also when the cache drops it before the
JOIN_ACK is sent.
-/

namespace SyncEngine

/-- The session of a connection, with what `handleJoin` has read for it. -/
structure JoinedSession where
  session : ClientSession
  reply : MissedReply
  /-- The entry it holds, if the cache has dropped it since. -/
  held : Option CachedDocument

/-- The tab, the stores of its server, its session, and what is on the way. -/
structure ServedTab where
  tab : Tab
  /-- The client's id, in the browser's storage. -/
  clientId : JSString
  userId : JSString
  replayWindowSeconds : Nat
  stores : Stores
  /-- The JOIN of the connection. -/
  joinMessage : JoinMessage
  session : Option JoinedSession
  /-- What was published and has not come out of Redis yet. -/
  channel : List OperationEnvelope
  /-- Every operation the replica has applied since it was built, apart from its snapshot. -/
  applied : List RGAOperation

/-- What the user, the network, the server or another client does. -/
inductive ServedAction where
  | edit (e : UserEdit)
  | connect
  | disconnect
  | reload
  /-- The hook handles the next message from the server. -/
  | handle
  /-- `handleJoin` loads the document and registers the session. -/
  | register (sessionId : JSString)
  /-- It sends the JOIN_ACK. -/
  | acknowledge
  /-- The server is done with the next message of the tab. -/
  | serve (now : Nat) (faults : Faults)
  /-- It is done with a message of another client. -/
  | peer (now : Nat) (session : ClientSession) (msg : ValidatedOperationMessage) (faults : Faults)
  /-- The next publication reaches the worker, which has so many handlers subscribed. -/
  | deliver (handlers : Nat)
  /-- The cache drops the document. -/
  | evict
  /-- `maybeTakeSnapshot`, when a snapshot is due. -/
  | snapshot

/-- Collects the tombstones of the document, saves it and prunes the old snapshots. -/
def Stores.takeSnapshot (s : Stores) : Stores :=
  let cached := s.document
  let seq := s.db.getMaxSeq
  if seq = 0 then { s with cache := some cached }
  else
    let doc := cached.doc.gc.1
    { s with
      db := (s.db.insertSnapshot ⟨seq, doc.serialize⟩).1.pruneSnapshots maxSnapshotsPerDoc
      cache := some { cached with doc := doc, opsSinceSnapshot := 0 } }

/-- The envelope that a call has published. -/
def OperationOutcome.published : OperationOutcome → List OperationEnvelope
  | .success envelope => [envelope]
  | _ => []

namespace ServedTab

/-- A page opened for the first time, on a document that nobody has edited. -/
def start (docId clientId userId : JSString) (replayWindowSeconds : Nat) : ServedTab where
  tab := Tab.start docId
  clientId := clientId
  userId := userId
  replayWindowSeconds := replayWindowSeconds
  stores := Stores.start
  joinMessage := ⟨0, clientId⟩
  session := none
  channel := []
  applied := []

/-- A step of the tab. -/
def onTab (s : ServedTab) (a : TabAction) : Option ServedTab :=
  (s.tab.step a).map fun tab => { s with tab := tab }

/-- The tab has made operations. -/
def edit (s : ServedTab) (e : UserEdit) : ServedTab :=
  { s with
    tab := s.tab.edit e
    applied := s.applied ++ (s.tab.hook.userEdit e).2.map OperationMessage.op }

/-- What a message of the server makes the replica apply. -/
def appliedBy (s : ServedTab) : ServerMessage → List RGAOperation
  | .joinAck ack => ack.missedOps.map OperationEnvelope.op
  | .broadcast envelope => s.applied ++ [envelope.op]
  | _ => s.applied

/-- The hook handles the next message, and what it applies is recorded. -/
def handle (s : ServedTab) : Option ServedTab :=
  match s.tab.toClient with
  | [] => none
  | message :: rest =>
      some { s with
        tab := ({ s.tab with toClient := rest }).runHook (s.tab.hook.handleServerMessage message)
        applied := s.appliedBy message }

/-- `handleJoin` up to the registration of the session. -/
def register (s : ServedTab) (sessionId : JSString) : ServedTab :=
  { s with
    session := some ⟨⟨sessionId, s.userId, assignSiteId s.clientId⟩,
      missedReply s.stores.db s.joinMessage, none⟩
    stores := { s.stores with cache := some s.stores.document } }

/-- The document of the JOIN_ACK. -/
def joinedDocument (s : ServedTab) (joined : JoinedSession) : CachedDocument :=
  joined.held.getD s.stores.document

/-- The JOIN_ACK of a session. -/
def joinAckFor (s : ServedTab) (joined : JoinedSession) : JoinAckMessage :=
  joinAck joined.session.id s.joinMessage joined.reply (s.joinedDocument joined)

/-- The call of `handleOperation` for a message of the tab. -/
def call (s : ServedTab) (now : Nat) (faults : Faults) (joined : JoinedSession)
    (msg : ValidatedOperationMessage) : Stores × OperationOutcome :=
  handleOperation s.replayWindowSeconds now joined.session msg faults s.stores

/-- `handleClientOperation` replies to the tab; a call that throws is only logged. -/
def replyToTab (s : ServedTab) (stores : Stores) : OperationOutcome → Option Tab
  | .success envelope => s.tab.step (.accept envelope.seq)
  | .error e => s.tab.step (.reject e.code e.message)
  | .thrown => s.tab.step (.fail (stores.db.documentSeq ≠ s.stores.db.documentSeq))

/-- The server is done with the next message of the tab. -/
def serve (s : ServedTab) (now : Nat) (faults : Faults) : Option ServedTab :=
  match s.tab.toServer, s.session with
  | [], _ => none
  | _ :: _, none =>
      -- the first message on a socket is taken for a JOIN, and the socket is closed
      (s.tab.step .disconnect).map fun tab => { s with tab := tab }
  | msg :: _, some joined =>
      match validateOperation msg with
      | none => (s.tab.answer fun _ => ([.error invalidOperation], false)).map fun tab =>
          { s with tab := tab }
      | some msg =>
          let (stores, outcome) := s.call now faults joined msg
          (s.replyToTab stores outcome).map fun tab =>
            { s with tab := tab, stores := stores, channel := s.channel ++ outcome.published }

/-- It is done with a message of another client. -/
def peer (s : ServedTab) (now : Nat) (session : ClientSession) (msg : ValidatedOperationMessage)
    (faults : Faults) : ServedTab :=
  let (stores, outcome) := handleOperation s.replayWindowSeconds now session msg faults s.stores
  { s with stores := stores, channel := s.channel ++ outcome.published }

/-- `handleRedisOperation`, by each of the handlers. -/
def deliver (s : ServedTab) (handlers : Nat) : Option ServedTab :=
  match s.channel with
  | [] => none
  | envelope :: rest =>
      let broadcasts :=
        if s.session.isSome then List.replicate handlers (.broadcast envelope) else []
      some { s with
        channel := rest
        tab := { s.tab with toClient := s.tab.toClient ++ broadcasts } }

/-- The cache drops the document; the session still has its entry. -/
def evict (s : ServedTab) : ServedTab :=
  { s with
    stores := { s.stores with cache := none }
    session := s.session.map fun joined => { joined with held := some (s.joinedDocument joined) } }

/-- One action, if it can happen. -/
def step (s : ServedTab) : ServedAction → Option ServedTab
  | .edit e => some (s.edit e)
  | .connect => (s.tab.step .connect).map fun tab =>
      { s with tab := tab, session := none, joinMessage := s.tab.hook.joinMessage s.clientId }
  | .disconnect => (s.tab.step .disconnect).map fun tab => { s with tab := tab, session := none }
  | .reload => (s.tab.step .reload).map fun tab => { s with tab := tab, session := none }
  | .handle => s.handle
  | .register sessionId =>
      if s.tab.connected && s.session.isNone then some (s.register sessionId) else none
  | .acknowledge => s.session.bind fun joined => s.onTab (.joinAck (s.joinAckFor joined))
  | .serve now faults => s.serve now faults
  | .peer now session msg faults => some (s.peer now session msg faults)
  | .deliver handlers => s.deliver handlers
  | .evict => some s.evict
  | .snapshot => some { s with stores := s.stores.takeSnapshot }

end ServedTab

end SyncEngine
