import SyncEngine.Server.RedisPubSub

/-!
# Presence of the sessions of a worker

How a cursor gets from a client to the others (`handleClientPresence`, `handleRedisPresence`,
`handleDisconnect` in `server/transport/websocket-server.ts`, `server/sync/presence-manager.ts`),
with every place where a presence may wait on its way:

* as a PRESENCE in the message queue of its session, which is drained also after the session has
  been removed;
* in a handler that awaits, be it of the message, of the JOIN or of the typing timer, which all
  write the presence to Redis and then publish it, the message and the timer twice;
* on the Redis channel of the document;
* in the batch of the document, until its timer of 50 ms fires.

A disconnect removes the session at once, and sends USER_LEFT after the await of `removePresence`.

Operations and pings share the queues and the channels but carry no presence; here they only take
time.  The copies of the presence that Redis keeps under its own keys are read by JOINs alone and
are left out.
-/

namespace SyncEngine

/-- A PRESENCE whose document, a UUID, has passed the schema. -/
structure ValidatedPresence extends PresenceMessage where
  colon_notMem : JSString.colon ∉ docId

/-- A presence that is published, with its document. -/
structure Publication where
  docId : JSString
  presence : UserPresence
  colon_notMem : JSString.colon ∉ docId

/-- Who calls `updatePresence` and `publishPresence`. -/
inductive PresenceCaller where
  | join
  | message
  | typingTimer
deriving DecidableEq

/-- The awaits of such a call. -/
inductive PresenceAwait where
  /-- `redis.set` in `updatePresence`. -/
  | set
  /-- `publishPresence` in `updatePresence`. -/
  | updated
  /-- `getAllPresence`, in a JOIN. -/
  | allPresence
  /-- The second `publishPresence`. -/
  | published
deriving DecidableEq

/-- A call that publishes a presence, by the await it is at. -/
structure PresenceCall extends Publication where
  caller : PresenceCaller
  stage : PresenceAwait

/-- The call publishes its presence once more. -/
def PresenceCall.publishes (call : PresenceCall) : Bool :=
  match call.stage with
  | .set => true
  | .updated => call.caller ≠ .join
  | .allPresence => false
  | .published => false

/-- The awaits of `handleDisconnect`. -/
inductive LeaveAwait where
  /-- `redis.del` in `removePresence`. -/
  | delete
  /-- `publishUserLeft` in `removePresence`. -/
  | removed
  /-- The second `publishUserLeft`. -/
  | announced
deriving DecidableEq

/-- A call of `handleDisconnect` that awaits. -/
structure LeaveCall (K : Type*) where
  session : WorkerSession K
  docId : JSString
  stage : LeaveAwait

/-- What is sent to the clients of a document. -/
inductive PresenceEvent where
  /-- PRESENCE_UPDATE. -/
  | update (presence : UserPresence)
  | userLeft (sessionId userId : JSString)
deriving DecidableEq

/-- The sessions of a worker, the calls and timers of their presence, and what is on record of them.
-/
structure PresenceFanout (K : Type*) where
  table : SessionTable K
  pubSub : PubSub
  /-- The PRESENCE messages in the queues, in the order of their arrival, with the sessions whose
  queues they are in. -/
  queued : List (WorkerSession K × ValidatedPresence)
  calls : List PresenceCall
  typingTimers : JSString → Option Publication
  /-- What has been published and not yet been delivered. -/
  redis : List (JSString × RedisMessage)
  presenceBatches : JSString → Option (List UserPresence)
  /-- The documents whose batch timer is armed. -/
  presenceTimers : JSString → Bool
  leaving : List (LeaveCall K)
  /-- All calls of `sendToSession` so far. -/
  sent : List (WorkerSession K × PresenceEvent)
  /-- The ids of all sessions so far. -/
  used : List JSString

/-- A message, a timer, a disconnect, or the end of an await. -/
inductive PresenceAction (K : Type*) where
  /-- A JOIN registers the session and goes on to `updatePresence`. -/
  | join (session : ValidatedSession K)
  /-- A PRESENCE arrives at a session. -/
  | message (id : JSString) (msg : ValidatedPresence)
  /-- The loop of a session takes a PRESENCE from its queue. -/
  | take (i : Nat)
  /-- An await of a call comes back. -/
  | resume (i : Nat) (ok : Bool)
  | typingFires (key : JSString)
  /-- The oldest message on Redis is delivered. -/
  | deliver
  /-- The oldest message on Redis is lost. -/
  | lose
  /-- The batch timer of a document fires. -/
  | flush (docId : JSString)
  /-- The socket of a session closes. -/
  | close (id : JSString)
  /-- An await of `handleDisconnect` comes back. -/
  | leave (i : Nat) (ok : Bool)

/-- `buildInitialPresence`. -/
def buildInitialPresence {K : Type*} (session : WorkerSession K) : UserPresence where
  sessionId := session.id
  userId := session.userId
  displayName := session.displayName
  color := session.color
  cursor := none
  isTyping := false

/-- The presence that `handleClientPresence` makes of a message. -/
def clientPresence {K : Type*} (session : WorkerSession K) (msg : PresenceMessage) :
    UserPresence where
  sessionId := session.id
  userId := session.userId
  displayName := session.displayName
  color := session.color
  cursor := msg.update.cursor
  isTyping := msg.update.isTyping

/-- `batch.set(presence.sessionId, presence)`. -/
def setPresence (batch : List UserPresence) (presence : UserPresence) : List UserPresence :=
  if batch.any fun p => p.sessionId = presence.sessionId then
    batch.map fun p => if p.sessionId = presence.sessionId then presence else p
  else batch ++ [presence]

namespace PresenceFanout

variable {K : Type*}

/-- No session yet. -/
def start : PresenceFanout K where
  table := .empty
  pubSub := .start
  queued := []
  calls := []
  typingTimers := fun _ => none
  redis := []
  presenceBatches := fun _ => none
  presenceTimers := fun _ => false
  leaving := []
  sent := []
  used := []

/-- The batch of a document. -/
def batch (s : PresenceFanout K) (docId : JSString) : List UserPresence :=
  (s.presenceBatches docId).getD []

/-- `broadcastToDocument`. -/
def broadcast (s : PresenceFanout K) (docId : JSString) (event : PresenceEvent) :
    PresenceFanout K :=
  { s with sent := s.sent ++ s.table.broadcastToDocument docId event }

/-- `publishPresence`. -/
def publishPresence (s : PresenceFanout K) (p : Publication) : PresenceFanout K :=
  { s with redis := s.redis ++ [(presenceChannel p.docId, .presence p.presence)] }

/-- `publishUserLeft`. -/
def publishUserLeft (s : PresenceFanout K) (docId : JSString) (session : WorkerSession K) :
    PresenceFanout K :=
  { s with
    redis := s.redis ++ [(presenceChannel docId, .userLeft docId session.id session.userId)] }

/-- A JOIN, from the registration to the first await of `updatePresence`. -/
def join (s : PresenceFanout K) (session : ValidatedSession K)
    (hnew : s.table.sessions session.id = none) : PresenceFanout K :=
  { s with
    table := s.table.registerSession session.toWorkerSession hnew
    used := s.used ++ [session.id]
    calls := s.calls ++
      match h : session.docId with
      | some docId =>
          [{ docId := docId
             presence := buildInitialPresence session.toWorkerSession
             colon_notMem := session.colon_notMem docId h
             caller := .join
             stage := .set }]
      | none => [] }

/-- `handleClientPresence`, up to the first await of `updatePresence`. -/
def handleClientPresence (s : PresenceFanout K) (session : WorkerSession K)
    (msg : ValidatedPresence) : PresenceFanout K :=
  { s with
    calls := s.calls ++
      [{ docId := msg.docId
         presence := clientPresence session msg.toPresenceMessage
         colon_notMem := msg.colon_notMem
         caller := .message
         stage := .set }] }

/-- A message is the next of its session, and the loop of the session has come to it. -/
def isNext (s : PresenceFanout K) (i : Nat) (id : JSString) : Bool :=
  ((s.queued.take i).all fun x => x.1.id ≠ id) &&
    s.calls.all fun call => call.caller ≠ .message || call.presence.sessionId ≠ id

/-- A call goes on to another await. -/
def toStage (s : PresenceFanout K) (i : Nat) (stage : PresenceAwait) : PresenceFanout K :=
  { s with calls := s.calls.modify i fun call => { call with stage := stage } }

/-- A call ends. -/
def finish (s : PresenceFanout K) (i : Nat) : PresenceFanout K :=
  { s with calls := s.calls.eraseIdx i }

/-- The key of a typing timer. -/
def timerKey (docId sessionId : JSString) : JSString := docId ++ JSString.colon :: sessionId

/-- The end of `handleClientPresence`: the typing timer is set anew, or cleared. -/
def setTypingTimer (s : PresenceFanout K) (p : Publication) : PresenceFanout K :=
  { s with
    typingTimers := Function.update s.typingTimers (timerKey p.docId p.presence.sessionId)
      (if p.presence.isTyping then some p else none) }

/-- An error in `updatePresence`: the typing timer goes on with the second `publishPresence`, the
other callers end. -/
def onUpdateFailed (s : PresenceFanout K) (i : Nat) (call : PresenceCall) : PresenceFanout K :=
  if call.caller = .typingTimer then (s.publishPresence call.toPublication).toStage i .published
  else s.finish i

/-- A call from one await to the next. -/
def resume (s : PresenceFanout K) (i : Nat) (call : PresenceCall) :
    PresenceAwait → Bool → PresenceFanout K
  | .set, true => (s.publishPresence call.toPublication).toStage i .updated
  | .set, false => s.onUpdateFailed i call
  | .updated, true =>
      if call.caller = .join then s.toStage i .allPresence
      else (s.publishPresence call.toPublication).toStage i .published
  | .updated, false => s.onUpdateFailed i call
  | .allPresence, true =>
      { s.finish i with pubSub := s.pubSub.subscribeToDocument call.docId }
  | .published, true =>
      if call.caller = .message then (s.setTypingTimer call.toPublication).finish i
      else s.finish i
  | _, false => s.finish i

/-- The typing timer of a session fires. -/
def onTyping (s : PresenceFanout K) (key : JSString) (p : Publication) : PresenceFanout K :=
  let s := { s with typingTimers := Function.update s.typingTimers key none }
  -- "Ensure session is still active"
  if (s.table.sessions p.presence.sessionId).isNone then s
  else
    { s with
      calls := s.calls ++
        [{ p with
           presence := { p.presence with isTyping := false }
           caller := .typingTimer
           stage := .set }] }

/-- `handleRedisPresence`. -/
def handleRedisPresence (s : PresenceFanout K) (docId : JSString) (presence : UserPresence) :
    PresenceFanout K :=
  { s with
    presenceBatches := Function.update s.presenceBatches docId
      (some (setPresence (s.batch docId) presence))
    presenceTimers := Function.update s.presenceTimers docId true }

/-- A handler is called. -/
def handle (s : PresenceFanout K) : HandlerCall → PresenceFanout K
  | .presence docId presence => s.handleRedisPresence docId presence
  | .operation _ _ => s

/-- The batch timer of a document fires. -/
def onBatchTimer (s : PresenceFanout K) (docId : JSString) : PresenceFanout K :=
  let s' := { s with
    presenceBatches := Function.update s.presenceBatches docId none
    presenceTimers := Function.update s.presenceTimers docId false }
  (s.batch docId).foldl (fun s p => s.broadcast docId (.update p)) s'

/-- `handleDisconnect`, up to its first await. -/
def handleDisconnect (s : PresenceFanout K) (session : WorkerSession K) : PresenceFanout K :=
  { s with
    table := s.table.removeSession session.id
    leaving := s.leaving ++
      match session.docId with
      | some docId => [⟨session, docId, .delete⟩]
      | none => [] }

/-- A disconnect goes on to another await. -/
def toLeaveStage (s : PresenceFanout K) (i : Nat) (stage : LeaveAwait) : PresenceFanout K :=
  { s with leaving := s.leaving.modify i fun call => { call with stage := stage } }

/-- A call of `handleDisconnect` ends. -/
def finishLeave (s : PresenceFanout K) (i : Nat) : PresenceFanout K :=
  { s with leaving := s.leaving.eraseIdx i }

/-- `handleDisconnect` from one await to the next. -/
def leave (s : PresenceFanout K) (i : Nat) (call : LeaveCall K) :
    LeaveAwait → Bool → PresenceFanout K
  | .delete, true => (s.publishUserLeft call.docId call.session).toLeaveStage i .removed
  | .removed, true =>
      ((s.broadcast call.docId (.userLeft call.session.id call.session.userId)).publishUserLeft
        call.docId call.session).toLeaveStage i .announced
  -- the error of the second `publishUserLeft` is caught
  | .announced, _ =>
      { s.finishLeave i with pubSub := s.pubSub.unsubscribeFromDocument call.docId }
  | _, false => s.finishLeave i

/-- One action, if it can happen. -/
def step (s : PresenceFanout K) : PresenceAction K → Option (PresenceFanout K)
  | .join session =>
      if h : s.table.sessions session.id = none ∧ session.id ∉ s.used then
        some (s.join session h.1)
      else none
  | .message id msg =>
      (s.table.sessions id).map fun session => { s with queued := s.queued ++ [(session, msg)] }
  | .take i =>
      (s.queued[i]?).bind fun x =>
        if s.isNext i x.1.id then
          some ({ s with queued := s.queued.eraseIdx i }.handleClientPresence x.1 x.2)
        else none
  | .resume i ok => (s.calls[i]?).map fun call => s.resume i call call.stage ok
  | .typingFires key => (s.typingTimers key).map (s.onTyping key)
  | .deliver =>
      match s.redis with
      | [] => none
      | (channel, message) :: redis =>
          some ((s.pubSub.receive channel message).foldl handle { s with redis := redis })
  | .lose =>
      match s.redis with
      | [] => none
      | _ :: redis => some { s with redis := redis }
  | .flush docId => if s.presenceTimers docId then some (s.onBatchTimer docId) else none
  | .close id => (s.table.sessions id).map s.handleDisconnect
  | .leave i ok => (s.leaving[i]?).map fun call => s.leave i call call.stage ok

/-! ## Batches -/

lemma mem_setPresence {batch : List UserPresence} {p q : UserPresence}
    (h : q ∈ setPresence batch p) : q ∈ batch ∨ q = p := by
  rw [setPresence] at h
  split at h
  · obtain ⟨q', hq', rfl⟩ := List.mem_map.mp h
    split
    · exact Or.inr rfl
    · exact Or.inl hq'
  · simpa using h

lemma batch_handleRedisPresence (s : PresenceFanout K) (docId docId' : JSString)
    (p : UserPresence) :
    (s.handleRedisPresence docId p).batch docId' =
      if docId' = docId then setPresence (s.batch docId) p else s.batch docId' := by
  by_cases h : docId' = docId
  · subst h
    rw [batch, handleRedisPresence, if_pos rfl]
    simp only [Function.update_self, Option.getD_some]
  · rw [batch, handleRedisPresence, if_neg h]
    simp only [Function.update_of_ne h, batch]

/-! ## What a step can do -/

/-- A call publishes its presence, goes on without doing so, subscribes to its document, sets the
typing timer or just ends. -/
lemma resume_cases (s : PresenceFanout K) (i : Nat) (call : PresenceCall) (ok : Bool) :
    (∃ stage, call.publishes = true ∧ s.resume i call call.stage ok =
        (s.publishPresence call.toPublication).toStage i stage) ∨
      s.resume i call call.stage ok = s.toStage i .allPresence ∨
      s.resume i call call.stage ok =
        { s.finish i with pubSub := s.pubSub.subscribeToDocument call.docId } ∨
      s.resume i call call.stage ok = (s.setTypingTimer call.toPublication).finish i ∨
      s.resume i call call.stage ok = s.finish i := by
  have hfailed : (call.caller = .typingTimer → call.publishes = true) →
      (∃ stage, call.publishes = true ∧ s.onUpdateFailed i call =
        (s.publishPresence call.toPublication).toStage i stage) ∨
      s.onUpdateFailed i call = s.finish i := by
    intro hpublishes
    rw [onUpdateFailed]
    split
    · rename_i hcaller
      exact Or.inl ⟨_, hpublishes hcaller, rfl⟩
    · exact Or.inr rfl
  cases hstage : call.stage with
  | set =>
      have hpublishes : call.publishes = true := by rw [PresenceCall.publishes, hstage]
      cases ok with
      | true => exact Or.inl ⟨_, hpublishes, rfl⟩
      | false =>
          rcases hfailed fun _ => hpublishes with h | h
          · exact Or.inl h
          · exact Or.inr (Or.inr (Or.inr (Or.inr h)))
  | updated =>
      have hpublishes : call.caller ≠ .join → call.publishes = true := fun hcaller => by
        simpa [PresenceCall.publishes, hstage] using hcaller
      cases ok with
      | true =>
          rw [resume]
          split
          · exact Or.inr (Or.inl rfl)
          · rename_i hcaller
            exact Or.inl ⟨_, hpublishes hcaller, rfl⟩
      | false =>
          rcases hfailed fun hcaller => hpublishes (by simp [hcaller]) with h | h
          · exact Or.inl h
          · exact Or.inr (Or.inr (Or.inr (Or.inr h)))
  | allPresence =>
      cases ok with
      | true => exact Or.inr (Or.inr (Or.inl rfl))
      | false => exact Or.inr (Or.inr (Or.inr (Or.inr rfl)))
  | published =>
      cases ok with
      | true =>
          rw [resume]
          split
          · exact Or.inr (Or.inr (Or.inr (Or.inl rfl)))
          · exact Or.inr (Or.inr (Or.inr (Or.inr rfl)))
      | false => exact Or.inr (Or.inr (Or.inr (Or.inr rfl)))

/-- A call of `handleDisconnect` publishes `user_left`, sends USER_LEFT, unsubscribes or fails. -/
lemma leave_cases (s : PresenceFanout K) (i : Nat) (call : LeaveCall K) (stage : LeaveAwait)
    (ok : Bool) :
    s.leave i call stage ok = (s.publishUserLeft call.docId call.session).toLeaveStage i .removed ∨
      (stage = .removed ∧ ok = true) ∧ s.leave i call stage ok =
        ((s.broadcast call.docId (.userLeft call.session.id call.session.userId)).publishUserLeft
          call.docId call.session).toLeaveStage i .announced ∨
      s.leave i call stage ok =
        { s.finishLeave i with pubSub := s.pubSub.unsubscribeFromDocument call.docId } ∨
      s.leave i call stage ok = s.finishLeave i := by
  cases stage with
  | delete =>
      cases ok with
      | true => exact Or.inl rfl
      | false => exact Or.inr (Or.inr (Or.inr rfl))
  | removed =>
      cases ok with
      | true => exact Or.inr (Or.inl ⟨⟨rfl, rfl⟩, rfl⟩)
      | false => exact Or.inr (Or.inr (Or.inr rfl))
  | announced => cases ok <;> exact Or.inr (Or.inr (Or.inl rfl))

/-- The steps, with what they require. -/
inductive Move (s : PresenceFanout K) : PresenceAction K → PresenceFanout K → Prop
  | join {session : ValidatedSession K} (hnew : s.table.sessions session.id = none)
      (hunused : session.id ∉ s.used) : Move s (.join session) (s.join session hnew)
  | message {id : JSString} {msg : ValidatedPresence} {session : WorkerSession K}
      (hsession : s.table.sessions id = some session) :
      Move s (.message id msg) { s with queued := s.queued ++ [(session, msg)] }
  | take {i : Nat} {x : WorkerSession K × ValidatedPresence} (hx : s.queued[i]? = some x) :
      Move s (.take i) ({ s with queued := s.queued.eraseIdx i }.handleClientPresence x.1 x.2)
  | resume {i : Nat} {ok : Bool} {call : PresenceCall} (hcall : s.calls[i]? = some call) :
      Move s (.resume i ok) (s.resume i call call.stage ok)
  | typingFires {key : JSString} {p : Publication} (hp : s.typingTimers key = some p) :
      Move s (.typingFires key) (s.onTyping key p)
  | deliver {channel : JSString} {message : RedisMessage} {redis : List (JSString × RedisMessage)}
      (hredis : s.redis = (channel, message) :: redis) :
      Move s .deliver ((s.pubSub.receive channel message).foldl handle { s with redis := redis })
  | lose {message : JSString × RedisMessage} {redis : List (JSString × RedisMessage)}
      (hredis : s.redis = message :: redis) : Move s .lose { s with redis := redis }
  | flush {docId : JSString} : Move s (.flush docId) (s.onBatchTimer docId)
  | close {id : JSString} {session : WorkerSession K}
      (hsession : s.table.sessions id = some session) :
      Move s (.close id) (s.handleDisconnect session)
  | leave {i : Nat} {ok : Bool} {call : LeaveCall K} (hcall : s.leaving[i]? = some call) :
      Move s (.leave i ok) (s.leave i call call.stage ok)

lemma move_of_step {s s' : PresenceFanout K} {a : PresenceAction K} (h : s.step a = some s') :
    s.Move a s' := by
  cases a with
  | join session =>
      rw [step] at h
      split at h
      · rename_i hnew
        exact Option.some.inj h ▸ .join hnew.1 hnew.2
      · simp at h
  | message id msg =>
      obtain ⟨session, hsession, rfl⟩ := Option.map_eq_some_iff.mp h
      exact .message hsession
  | take i =>
      obtain ⟨x, hx, h⟩ := Option.bind_eq_some_iff.mp h
      simp only [Option.ite_none_right_eq_some, Option.some.injEq] at h
      exact h.2 ▸ .take hx
  | resume i ok =>
      obtain ⟨call, hcall, rfl⟩ := Option.map_eq_some_iff.mp h
      exact .resume hcall
  | typingFires key =>
      obtain ⟨p, hp, rfl⟩ := Option.map_eq_some_iff.mp h
      exact .typingFires hp
  | deliver =>
      rw [step] at h
      split at h
      · simp at h
      · rename_i channel message redis hredis
        exact Option.some.inj h ▸ .deliver hredis
  | lose =>
      rw [step] at h
      split at h
      · simp at h
      · rename_i message redis hredis
        exact Option.some.inj h ▸ .lose hredis
  | flush docId =>
      simp only [step, Option.ite_none_right_eq_some, Option.some.injEq] at h
      exact h.2 ▸ .flush
  | close id =>
      obtain ⟨session, hsession, rfl⟩ := Option.map_eq_some_iff.mp h
      exact .close hsession
  | leave i ok =>
      obtain ⟨call, hcall, rfl⟩ := Option.map_eq_some_iff.mp h
      exact .leave hcall

end PresenceFanout

end SyncEngine
