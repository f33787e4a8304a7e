import SyncEngine.Server.Authorization
import SyncEngine.Server.SessionManager

/-!
# Connections and JOINs

How a worker accepts sockets and makes sessions of them (`server/transport/websocket-server.ts`):
the connection handler with its join timeout, the message and close handlers, and `handleJoin`
with each of its awaits.  The sockets of a worker are numbered in the order of their connections.

Every handler runs up to its next await and anything may happen before it goes on: other
messages of the same socket, its timeout, its close event.  In particular

* a message of a socket without a session goes to `handleJoin`, also while an earlier one is still
  in it;
* the close handler removes the session that the socket has at that moment.

What the joined session does with its messages is in `Server.MessageQueue`; here they change
nothing.  `refusals`, `registered`, `spoke` and `timedOut` only record what has happened.
-/

namespace SyncEngine

/-- `readyState` of an accepted socket. -/
inductive ReadyState where
  | opened
  | closing
  | closed
deriving DecidableEq

/-- The arguments of `socket.close`. -/
structure CloseFrame where
  code : Nat
  reason : JSString
deriving DecidableEq

/-- An accepted socket. -/
structure AcceptedSocket where
  readyState : ReadyState
  /-- The timer `joinTimeout` is armed. -/
  joinTimeout : Bool
  /-- The entry of `socketToSession`. -/
  sessionId : Option JSString
  /-- What `sendError` has sent. -/
  errors : List ErrorMessage
  closeFrame : Option CloseFrame
  /-- The socket has sent a message that could be parsed. -/
  spoke : Bool
  /-- The join timeout has fired. -/
  timedOut : Bool
deriving DecidableEq

namespace AcceptedSocket

/-- A socket that was just accepted, with its timer. -/
def accepted : AcceptedSocket := ⟨.opened, true, none, [], none, false, false⟩

/-- Open, without a parseable message so far, and still in time. -/
def isPending (c : AcceptedSocket) : Bool := c.readyState ≠ .closed && !c.spoke && !c.timedOut

/-- `sendError`. -/
def sendError (c : AcceptedSocket) (code message : String) : AcceptedSocket :=
  if c.readyState = .opened then
    { c with errors := c.errors ++ [⟨JSString.lit code, JSString.lit message, none⟩] }
  else c

/-- `socket.close`; the close event comes later. -/
def close (c : AcceptedSocket) (code : Nat) (reason : String) : AcceptedSocket :=
  if c.readyState = .opened then
    { c with readyState := .closing, closeFrame := some ⟨code, JSString.lit reason⟩ }
  else c

variable (c : AcceptedSocket) (error message reason : String) (code : Nat)

@[simp]
lemma sendError_readyState : (c.sendError error message).readyState = c.readyState := by
  rw [sendError]
  split <;> rfl

@[simp]
lemma sendError_joinTimeout : (c.sendError error message).joinTimeout = c.joinTimeout := by
  rw [sendError]
  split <;> rfl

@[simp]
lemma sendError_sessionId : (c.sendError error message).sessionId = c.sessionId := by
  rw [sendError]
  split <;> rfl

@[simp]
lemma sendError_spoke : (c.sendError error message).spoke = c.spoke := by
  rw [sendError]
  split <;> rfl

@[simp]
lemma sendError_isPending : (c.sendError error message).isPending = c.isPending := by
  rw [sendError]
  split <;> rfl

@[simp]
lemma close_joinTimeout : (c.close code reason).joinTimeout = c.joinTimeout := by
  rw [close]
  split <;> rfl

@[simp]
lemma close_sessionId : (c.close code reason).sessionId = c.sessionId := by
  rw [close]
  split <;> rfl

@[simp]
lemma close_spoke : (c.close code reason).spoke = c.spoke := by
  rw [close]
  split <;> rfl

@[simp]
lemma close_readyState_eq_closed :
    (c.close code reason).readyState = .closed ↔ c.readyState = .closed := by
  rw [close]
  split <;> simp [*]

@[simp]
lemma close_isPending : (c.close code reason).isPending = c.isPending := by
  rw [close]
  split <;> simp [isPending, *]

end AcceptedSocket

/-- What `JoinMessageSchema` lets through. -/
structure JoinPayload extends JoinRequest where
  lastSeq : Nat

/-- A message as it comes in. -/
inductive IncomingMessage where
  /-- `JSON.parse` throws. -/
  | invalid
  /-- It is parsed, with what `JoinMessageSchema` makes of it. -/
  | parsed (join : Option JoinPayload)

/-- The awaits of `handleJoin`, with the local variables that are used afterwards. -/
inductive JoinAwait where
  /-- The query of `document_permissions`, or of `users` without a document. -/
  | permissions
  /-- `getOrLoadDocument`. -/
  | document (displayName color : JSString)
  /-- `getMissedOperations`. -/
  | missedOps (displayName color : JSString) (lastSeq : Nat)
  /-- `updatePresence`, the session being registered. -/
  | presence (id : JSString)
  /-- `getAllPresence`. -/
  | allPresence (id : JSString)
  /-- The row of the session is stored. -/
  | persist (id : JSString)

/-- A call of `handleJoin` that awaits. -/
structure JoinCall where
  socket : Nat
  msg : JoinPayload
  userId : JSString
  stage : JoinAwait

/-- The parameters that `handleJoin` registers a session with. -/
def JoinCall.params (call : JoinCall) (displayName color : JSString) (lastSeq : Nat) :
    SessionParams where
  userId := call.userId
  docId := call.msg.docId
  siteId := assignSiteId call.msg.clientId
  displayName := displayName
  color := color
  lastSeq := lastSeq

/-- What an await comes back with. -/
inductive AwaitResult where
  /-- The first row of the query: `display_name` and `color`. -/
  | rows (row : Option (JSString × JSString))
  /-- The loaded document, by its `lastSeq`. -/
  | document (lastSeq : Nat)
  | done
  | failed

/-- The call registers a session when the await of its stage comes back with the result. -/
def JoinCall.registers (call : JoinCall) : JoinAwait → AwaitResult → Bool
  | .permissions, .rows (some _) => call.msg.docId.isNone
  | .document _ _, .document _ => call.msg.lastSeq = 0
  | .missedOps _ _ _, .done => true
  | _, _ => false

/-- The sockets of a worker, its counter of pending ones, and its sessions. -/
structure Transport where
  pendingAuthCount : Int
  connections : List AcceptedSocket
  table : SessionTable Nat
  /-- The calls of `handleJoin` that await. -/
  joins : List JoinCall
  /-- All sessions so far. -/
  registered : List (WorkerSession Nat)
  /-- How many sockets were pending whenever a connection was refused. -/
  refusals : List Nat

/-- What happens to a socket, or to a call that awaits. -/
inductive TransportAction where
  | connect
  | message (k : Nat) (incoming : IncomingMessage)
  /-- The timer of the join timeout fires. -/
  | timeout (k : Nat)
  | close (k : Nat)
  /-- An await of a JOIN comes back; `id` is the UUID that is drawn if it registers a session. -/
  | resume (i : Nat) (result : AwaitResult) (id : JSString)

/-- `MAX_PENDING_AUTH`. -/
def maxPendingAuth : Nat := 100

namespace Transport

/-- No socket yet. -/
def start : Transport := ⟨0, [], .empty, [], [], []⟩

/-- The accepted sockets that are pending. -/
def pending (s : Transport) : Nat := s.connections.countP AcceptedSocket.isPending

/-- `getSession` of a socket. -/
def getSession (s : Transport) (k : Nat) : Option (WorkerSession Nat) :=
  ((s.connections[k]?).bind AcceptedSocket.sessionId).bind s.table.sessions

/-- Another state of a socket. -/
def onConnection (s : Transport) (k : Nat) (f : AcceptedSocket → AcceptedSocket) : Transport :=
  { s with connections := s.connections.modify k f }

/-- The connection handler. -/
def connect (s : Transport) : Transport :=
  if (maxPendingAuth : Int) ≤ s.pendingAuthCount then
    { s with refusals := s.refusals ++ [s.pending] }
  else
    { s with
      pendingAuthCount := s.pendingAuthCount + 1
      connections := s.connections ++ [.accepted] }

/-- The join timeout of a socket. -/
def onTimeout (s : Transport) (k : Nat) (c : AcceptedSocket) : Transport :=
  let s := s.onConnection k fun c => { c with joinTimeout := false, timedOut := true }
  if c.sessionId.isNone then
    { s.onConnection k (·.close 4001 "Authentication timeout") with
      pendingAuthCount := s.pendingAuthCount - 1 }
  else s

/-- `handleJoin`, up to its first await. -/
def handleJoin (s : Transport) (k : Nat) : Option JoinPayload → Transport
  | none =>
      s.onConnection k fun c =>
        (c.sendError "INVALID_OPERATION" "Invalid JOIN message").close 4001 "Invalid JOIN"
  | some msg =>
      match msg.user with
      | none =>
          s.onConnection k fun c =>
            (c.sendError "AUTH_FAILED" "Invalid or expired token").close 4001 "Auth failed"
      | some userId => { s with joins := s.joins ++ [⟨k, msg, userId, .permissions⟩] }

/-- `clearTimeout(joinTimeout)` and `pendingAuthCount--`, after a message that was parsed. -/
def countDown (s : Transport) (k : Nat) : Transport :=
  { s.onConnection k fun c => { c with spoke := true, joinTimeout := false } with
    pendingAuthCount := s.pendingAuthCount - 1 }

/-- The message handler of a socket. -/
def onMessage (s : Transport) (k : Nat) : IncomingMessage → Transport
  | .invalid => s.onConnection k (·.sendError "INVALID_OPERATION" "Invalid JSON")
  | .parsed join =>
      match s.getSession k with
      -- the message goes to the queue of the session
      | some _ => s.onConnection k fun c => { c with spoke := true }
      | none => (s.countDown k).handleJoin k join

/-- The close handler, up to the first await of `handleDisconnect`. -/
def onClose (s : Transport) (k : Nat) : Transport :=
  { s.onConnection k fun c => { c with readyState := .closed, joinTimeout := false } with
    table :=
      match s.getSession k with
      | some session => s.table.removeSession session.id
      | none => s.table }

/-- A call of `handleJoin` comes to its next await. -/
def toStage (s : Transport) (i : Nat) (stage : JoinAwait) : Transport :=
  { s with joins := s.joins.modify i fun call => { call with stage := stage } }

/-- A call of `handleJoin` ends. -/
def finish (s : Transport) (i : Nat) : Transport := { s with joins := s.joins.eraseIdx i }

/-- A call of `handleJoin` ends with an error and closes the socket. -/
def reject (s : Transport) (i k : Nat) (error message : String) (code : Nat) (reason : String) :
    Transport :=
  (s.finish i).onConnection k fun c => (c.sendError error message).close code reason

/-- `handleJoin` from the registration to the next await, if the UUID is new. -/
def register (s : Transport) (i : Nat) (call : JoinCall) (displayName color : JSString)
    (lastSeq : Nat) (id : JSString) : Option Transport :=
  let session := (call.params displayName color lastSeq).session id call.socket
  if h : s.table.sessions session.id = none ∧ ∀ other ∈ s.registered, other.id ≠ id then
    some
      { (s.onConnection call.socket fun c => { c with sessionId := some id }).toStage i
          (if call.msg.docId.isSome then .presence id else .persist id) with
        table := s.table.registerSession session h.1
        registered := s.registered ++ [session] }
  else none

/-- `handleJoin` from one await to the next. -/
def resume (s : Transport) (i : Nat) (call : JoinCall) (id : JSString) :
    JoinAwait → AwaitResult → Option Transport
  | .permissions, .rows (some (displayName, color)) =>
      if call.msg.docId.isSome then some (s.toStage i (.document displayName color))
      else s.register i call displayName color 0 id
  | .permissions, .rows none =>
      if call.msg.docId.isSome then
        some (s.reject i call.socket "PERMISSION_DENIED" "No access to this document" 4003
          "Permission denied")
      else some (s.reject i call.socket "AUTH_FAILED" "User not found" 4001 "Auth failed")
  | .document displayName color, .document lastSeq =>
      if 0 < call.msg.lastSeq then some (s.toStage i (.missedOps displayName color lastSeq))
      else s.register i call displayName color lastSeq id
  | .document _ _, .failed =>
      some (s.reject i call.socket "DOCUMENT_NOT_FOUND" "Document not found" 4004
        "Document not found")
  | .missedOps displayName color lastSeq, .done => s.register i call displayName color lastSeq id
  | .presence id, .done => some (s.toStage i (.allPresence id))
  | .allPresence id, .done => some (s.toStage i (.persist id))
  | .persist _, .done => some (s.finish i)
  -- the error of the last query is caught, the others are not: either way the call ends
  | _, .failed => some (s.finish i)
  | _, _ => none

/-- One action, if it can happen. -/
def step (s : Transport) : TransportAction → Option Transport
  | .connect => some s.connect
  | .message k incoming =>
      (s.connections[k]?).bind fun c =>
        if c.readyState = .closed then none else some (s.onMessage k incoming)
  | .timeout k =>
      (s.connections[k]?).bind fun c => if c.joinTimeout then some (s.onTimeout k c) else none
  | .close k =>
      (s.connections[k]?).bind fun c =>
        if c.readyState = .closed then none else some (s.onClose k)
  | .resume i result id => (s.joins[i]?).bind fun call => s.resume i call id call.stage result

/-! ## What a step can do -/

variable {s s' : Transport} {k i : Nat}
variable {f : AcceptedSocket → AcceptedSocket} {c c' : AcceptedSocket}

/-- The steps, with what they require. -/
inductive Move (s : Transport) : TransportAction → Transport → Prop
  | connect : Move s .connect s.connect
  | message {k : Nat} {incoming : IncomingMessage} {c : AcceptedSocket}
      (hc : s.connections[k]? = some c) : Move s (.message k incoming) (s.onMessage k incoming)
  | timeout {k : Nat} {c : AcceptedSocket} (hc : s.connections[k]? = some c)
      (harmed : c.joinTimeout = true) : Move s (.timeout k) (s.onTimeout k c)
  | close {k : Nat} {c : AcceptedSocket} (hc : s.connections[k]? = some c) :
      Move s (.close k) (s.onClose k)
  | resume {i : Nat} {result : AwaitResult} {id : JSString} {call : JoinCall} {s' : Transport}
      (hcall : s.joins[i]? = some call) (h : s.resume i call id call.stage result = some s') :
      Move s (.resume i result id) s'

lemma move_of_step {a : TransportAction} (h : s.step a = some s') : s.Move a s' := by
  cases a with
  | connect => exact Option.some.inj h ▸ .connect
  | message k incoming =>
      obtain ⟨c, hc, h⟩ := Option.bind_eq_some_iff.mp h
      simp only [Option.ite_none_left_eq_some, Option.some.injEq] at h
      exact h.2 ▸ .message hc
  | timeout k =>
      obtain ⟨c, hc, h⟩ := Option.bind_eq_some_iff.mp h
      simp only [Option.ite_none_right_eq_some, Option.some.injEq] at h
      exact h.2 ▸ .timeout hc h.1
  | close k =>
      obtain ⟨c, hc, h⟩ := Option.bind_eq_some_iff.mp h
      simp only [Option.ite_none_left_eq_some, Option.some.injEq] at h
      exact h.2 ▸ .close hc
  | resume i result id =>
      obtain ⟨call, hcall, h⟩ := Option.bind_eq_some_iff.mp h
      exact .resume hcall h

lemma getElem?_onConnection (s : Transport) (k k' : Nat) (f : AcceptedSocket → AcceptedSocket) :
    (s.onConnection k f).connections[k']? =
      if k = k' then (s.connections[k']?).map f else s.connections[k']? := by
  rw [onConnection, List.getElem?_modify]
  split
  · rfl
  · exact Option.map_id'

lemma getElem?_onConnection_self (hc : s.connections[k]? = some c)
    (f : AcceptedSocket → AcceptedSocket) :
    (s.onConnection k f).connections[k]? = some (f c) := by
  rw [getElem?_onConnection, if_pos rfl, hc, Option.map_some]

/-- A connection that has been worked on is another one, or the one that was meant. -/
lemma onConnection_cases {k' : Nat} (h : (s.onConnection k f).connections[k']? = some c') :
    s.connections[k']? = some c' ∨ k' = k ∧ ∃ c, s.connections[k]? = some c ∧ c' = f c := by
  rw [getElem?_onConnection] at h
  split at h
  · rename_i hk
    subst hk
    obtain ⟨c, hc, heq⟩ := Option.map_eq_some_iff.mp h
    exact Or.inr ⟨rfl, c, hc, heq.symm⟩
  · exact Or.inl h

lemma mem_joins_toStage {call' : JoinCall} {stage : JoinAwait}
    (h : call' ∈ (s.toStage i stage).joins) : ∃ call ∈ s.joins, call.socket = call'.socket := by
  obtain ⟨j, hj⟩ := List.getElem?_of_mem h
  rw [toStage, List.getElem?_modify] at hj
  obtain ⟨call, hcall, heq⟩ := Option.map_eq_some_iff.mp hj
  refine ⟨call, List.mem_of_getElem? hcall, ?_⟩
  rw [← heq]
  split <;> rfl

/-- A call of `handleJoin` goes on, ends, rejects the socket or registers a session. -/
lemma resume_cases {call : JoinCall} {id : JSString} {result : AwaitResult}
    (h : s.resume i call id call.stage result = some s') :
    (∃ stage, s' = s.toStage i stage) ∨ s' = s.finish i ∨
      (∃ error message code reason, s' = s.reject i call.socket error message code reason) ∨
      call.registers call.stage result = true ∧
        ∃ displayName color lastSeq, s.register i call displayName color lastSeq id = some s' := by
  generalize call.stage = stage at h ⊢
  rw [resume.eq_def] at h
  split at h
  case h_1 displayName color =>
    split at h
    · exact Or.inl ⟨_, (Option.some.inj h).symm⟩
    · rename_i hdoc
      have hregisters : call.registers .permissions (.rows (some (displayName, color))) = true := by
        simpa [JoinCall.registers] using hdoc
      exact Or.inr (Or.inr (Or.inr ⟨hregisters, _, _, _, h⟩))
  case h_2 =>
    split at h <;> exact Or.inr (Or.inr (Or.inl ⟨_, _, _, _, (Option.some.inj h).symm⟩))
  case h_3 displayName color lastSeq =>
    split at h
    · exact Or.inl ⟨_, (Option.some.inj h).symm⟩
    · rename_i hseq
      have hregisters :
          call.registers (.document displayName color) (.document lastSeq) = true := by
        simpa [JoinCall.registers] using hseq
      exact Or.inr (Or.inr (Or.inr ⟨hregisters, _, _, _, h⟩))
  case h_4 => exact Or.inr (Or.inr (Or.inl ⟨_, _, _, _, (Option.some.inj h).symm⟩))
  case h_5 => exact Or.inr (Or.inr (Or.inr ⟨rfl, _, _, _, h⟩))
  case h_6 => exact Or.inl ⟨_, (Option.some.inj h).symm⟩
  case h_7 => exact Or.inl ⟨_, (Option.some.inj h).symm⟩
  case h_8 => exact Or.inr (Or.inl (Option.some.inj h).symm)
  case h_9 => exact Or.inr (Or.inl (Option.some.inj h).symm)
  case h_10 => simp at h

/-- What `register` does, apart from the stage of its call. -/
structure Registers (s s' : Transport) (session : WorkerSession Nat) : Prop where
  new : s.table.sessions session.id = none
  unused : ∀ other ∈ s.registered, other.id ≠ session.id
  connections : s'.connections =
    (s.onConnection session.socket fun c => { c with sessionId := some session.id }).connections
  sessions : s'.table.sessions = Function.update s.table.sessions session.id (some session)
  registered : s'.registered = s.registered ++ [session]
  joins : ∀ call' ∈ s'.joins, ∃ call ∈ s.joins, call.socket = call'.socket
  pendingAuthCount : s'.pendingAuthCount = s.pendingAuthCount
  refusals : s'.refusals = s.refusals

lemma registers_of_register {call : JoinCall} {displayName color id : JSString} {lastSeq : Nat}
    (h : s.register i call displayName color lastSeq id = some s') :
    s.Registers s' ((call.params displayName color lastSeq).session id call.socket) := by
  rw [register] at h
  split at h
  · rename_i hnew
    obtain rfl := Option.some.inj h
    exact ⟨hnew.1, hnew.2, rfl, rfl, rfl, fun call' h => mem_joins_toStage h, rfl, rfl⟩
  · simp at h

end Transport

end SyncEngine
