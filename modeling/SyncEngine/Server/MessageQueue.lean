import SyncEngine.Lib.PriorityQueue
import SyncEngine.Lib.Transition
import SyncEngine.Shared.Presence
import SyncEngine.Shared.Protocol

/-!
# The message queue of a session

The queue a socket's message handler fills and the loop that drains it
(`server/transport/websocket-server.ts`).  OPERATIONs have priority over everything else.  The
loop awaits the handler of an OPERATION or a PRESENCE and goes on when it has settled, whether
it threw or not; a PING is answered at once and a JOIN of a session that has joined is dropped.

While a handler is awaited anything may arrive.  `isProcessing` keeps a second loop from
starting; that there is no second one is proved, not assumed: the state has a list of loops.

`queue_disciplined` is the discipline in every state of every run.  `Accounted` carries it: what
has arrived of a class is what was handed to its handler, followed by what is queued of it.
-/

namespace SyncEngine

open Transition

/-- A message that `ClientMessageSchema` lets through. -/
inductive ClientMessage where
  | join (msg : JoinMessage)
  | operation (msg : OperationMessage)
  | presence (msg : PresenceMessage)
  | ping (timestamp : Nat)
deriving DecidableEq

namespace ClientMessage

/-- The message is an OPERATION. -/
def isOperation : ClientMessage → Bool
  | .operation _ => true
  | _ => false

/-- A PRESENCE or a PING. -/
def isPresenceOrPing : ClientMessage → Bool
  | .presence _ => true
  | .ping _ => true
  | _ => false

/-- `0` is the highest. -/
def priority (msg : ClientMessage) : Nat := if msg.isOperation then 0 else 1

end ClientMessage

/-- An entry of `session.messageQueue`. -/
structure QueuedMessage where
  priority : Nat
  msg : ClientMessage
deriving DecidableEq

/-- A call the loop makes. -/
inductive QueuedCall where
  | handleClientOperation (msg : OperationMessage)
  | handleClientPresence (msg : PresenceMessage)
  | sendPong (timestamp : Nat)
deriving DecidableEq

/-- The message a call handles. -/
def QueuedCall.msg : QueuedCall → ClientMessage
  | .handleClientOperation msg => .operation msg
  | .handleClientPresence msg => .presence msg
  | .sendPong timestamp => .ping timestamp

/-- A call the loop has made, with what was queued then. -/
structure HandedMessage where
  call : QueuedCall
  behind : List QueuedMessage
deriving DecidableEq

/-- The queue of a session and its loops, with the arrivals and the calls on record. -/
structure SessionQueue where
  messageQueue : List QueuedMessage
  isProcessing : Bool
  /-- The loops that run, by the call they await. -/
  handling : List QueuedCall
  /-- All messages so far, in the order of their arrival. -/
  arrived : List ClientMessage
  /-- All calls so far. -/
  handed : List HandedMessage
deriving DecidableEq

/-- What happens to the queue. -/
inductive QueueAction where
  /-- A message arrives. -/
  | arrive (msg : ClientMessage)
  /-- The handler that a loop awaits settles. -/
  | settle (loop : Nat) (failed : Bool)

namespace SessionQueue

/-- A session after its JOIN. -/
def start : SessionQueue := ⟨[], false, [], [], []⟩

/-- Inserts the message in front of the first one of lower priority. -/
def enqueue (s : SessionQueue) (msg : ClientMessage) : SessionQueue :=
  { s with
    messageQueue :=
      PriorityQueue.insert QueuedMessage.priority ⟨msg.priority, msg⟩ s.messageQueue
    arrived := s.arrived ++ [msg] }

/-- Makes a call. -/
def hand (s : SessionQueue) (call : QueuedCall) : SessionQueue :=
  { s with handed := s.handed ++ [⟨call, s.messageQueue⟩] }

/-- Makes a call and awaits it. -/
def await (s : SessionQueue) (call : QueuedCall) : SessionQueue :=
  { s.hand call with handling := s.handling ++ [call] }

/-- `while (queue.length > 0)`, up to the next await. -/
def drain : List QueuedMessage → SessionQueue → SessionQueue
  | [], s => { s with messageQueue := [], isProcessing := false }
  | ⟨_, msg⟩ :: queue, s =>
      let s := { s with messageQueue := queue }
      match msg with
      | .operation msg => s.await (.handleClientOperation msg)
      | .presence msg => s.await (.handleClientPresence msg)
      | .ping timestamp => drain queue (s.hand (.sendPong timestamp))
      | .join _ => drain queue s

/-- The message handler of the socket, from the parsed message on. -/
def onMessage (s : SessionQueue) (msg : ClientMessage) : SessionQueue :=
  let s := s.enqueue msg
  if s.isProcessing then s else drain s.messageQueue { s with isProcessing := true }

/-- One action, if it can happen. -/
def step (s : SessionQueue) : QueueAction → Option SessionQueue
  | .arrive msg => some (s.onMessage msg)
  -- a failure is logged, and the loop goes on all the same
  | .settle loop _ =>
      if loop < s.handling.length then
        some (drain s.messageQueue { s with handling := s.handling.eraseIdx loop })
      else none

/-- The messages handed to their handlers. -/
def handedMessages (s : SessionQueue) : List ClientMessage := s.handed.map fun h => h.call.msg

/-- The messages in the queue. -/
def queuedMessages (s : SessionQueue) : List ClientMessage := s.messageQueue.map QueuedMessage.msg

/-- What has arrived of a class is what was handed over of it, followed by what is queued of it. -/
def Accounted (s : SessionQueue) (p : ClientMessage → Bool) : Prop :=
  s.arrived.filter p = s.handedMessages.filter p ++ s.queuedMessages.filter p

/-- The invariant of a run, apart from the loops. -/
structure Queued (s : SessionQueue) : Prop where
  ordered : PriorityQueue.Ordered QueuedMessage.priority s.messageQueue
  priority : ∀ m ∈ s.messageQueue, m.priority = m.msg.priority
  operations : s.Accounted ClientMessage.isOperation
  others : s.Accounted ClientMessage.isPresenceOrPing
  ahead : ∀ h ∈ s.handed, h.call.msg.isPresenceOrPing → ∀ m ∈ h.behind, ¬ m.msg.isOperation

variable {s s' : SessionQueue} {msg : ClientMessage}

/-- A message of a class whose members all have its priority is queued behind them. -/
lemma Accounted.enqueue {p : ClientMessage → Bool} (h : s.Accounted p) (hs : Queued s)
    (hp : ∀ m, p m → p msg → m.priority = msg.priority) : (s.enqueue msg).Accounted p := by
  have hqueued : ∀ l : List QueuedMessage, (l.map QueuedMessage.msg).filter p =
      (l.filter (p ∘ QueuedMessage.msg)).map QueuedMessage.msg := fun l => List.filter_map
  rw [Accounted, queuedMessages, hqueued] at h ⊢
  rw [SessionQueue.enqueue]
  set m : QueuedMessage := ⟨msg.priority, msg⟩
  by_cases hmsg : p msg = true
  · have hinsert : (PriorityQueue.insert QueuedMessage.priority m s.messageQueue).filter
        (p ∘ QueuedMessage.msg) = s.messageQueue.filter (p ∘ QueuedMessage.msg) ++ [m] := by
      refine PriorityQueue.filter_insert_self hs.ordered hmsg fun n hn hpn => ?_
      rw [hs.priority n hn, hp n.msg hpn hmsg]
    rw [hinsert, List.filter_append, h, List.filter_cons_of_pos hmsg, List.map_append,
      ← List.append_assoc]
    rfl
  · have hm : ¬ (p ∘ QueuedMessage.msg) m = true := hmsg
    have hinsert : (PriorityQueue.insert QueuedMessage.priority m s.messageQueue).filter
        (p ∘ QueuedMessage.msg) = s.messageQueue.filter (p ∘ QueuedMessage.msg) :=
      PriorityQueue.filter_insert_of_neg hm _
    rw [hinsert, List.filter_append, h, List.filter_cons_of_neg hmsg, List.filter_nil,
      List.append_nil]
    rfl

lemma Queued.enqueue (hs : Queued s) (msg : ClientMessage) : Queued (s.enqueue msg) where
  ordered := hs.ordered.insert _
  priority := by
    intro m hm
    rcases PriorityQueue.mem_insert.mp hm with rfl | hm
    · rfl
    · exact hs.priority m hm
  operations := by
    refine hs.operations.enqueue hs fun m hm hmsg => ?_
    rw [ClientMessage.priority, ClientMessage.priority, hm, hmsg]
  others := by
    refine hs.others.enqueue hs fun m hm hmsg => ?_
    cases m <;> cases msg <;> simp_all [ClientMessage.isPresenceOrPing, ClientMessage.priority,
      ClientMessage.isOperation]
  ahead := hs.ahead

lemma Queued.congr (hs : Queued s) (hqueue : s'.messageQueue = s.messageQueue)
    (harrived : s'.arrived = s.arrived) (hhanded : s'.handed = s.handed) : Queued s' := by
  obtain ⟨hordered, hpriority, hoperations, hothers, hahead⟩ := hs
  rw [Accounted, handedMessages, queuedMessages] at hoperations hothers
  refine ⟨?_, ?_, ?_, ?_, ?_⟩ <;>
    simp only [Accounted, handedMessages, queuedMessages, hqueue, harrived, hhanded] <;> assumption

lemma Queued.hand {call : QueuedCall} {n : Nat} {queue : List QueuedMessage} (hs : Queued s)
    (hqueue : s.messageQueue = ⟨n, call.msg⟩ :: queue) :
    Queued (hand { s with messageQueue := queue } call) := by
  have hordered := hqueue ▸ hs.ordered
  have hpriority : ∀ m ∈ (⟨n, call.msg⟩ : QueuedMessage) :: queue, m.priority = m.msg.priority :=
    fun m hm => hs.priority m (hqueue ▸ hm)
  have haccounted : ∀ p, s.Accounted p →
      Accounted (SessionQueue.hand { s with messageQueue := queue } call) p := by
    intro p h
    rw [Accounted, queuedMessages, hqueue] at h
    rw [Accounted, handedMessages, queuedMessages, SessionQueue.hand, h]
    by_cases hm : p call.msg = true <;> simp [handedMessages, hm]
  refine ⟨hordered.tail, fun m hm => hpriority m (List.mem_cons_of_mem _ hm),
    haccounted _ hs.operations, haccounted _ hs.others, fun h hh hother m hm hop => ?_⟩
  rcases List.mem_append.mp hh with hh | hh
  · exact hs.ahead h hh hother m hm hop
  · obtain rfl := List.mem_singleton.mp hh
    -- the queue is ordered, so an OPERATION behind has the priority of one
    have hle := hordered.head_le m hm
    rw [hpriority _ List.mem_cons_self, hpriority m (List.mem_cons_of_mem _ hm),
      ClientMessage.priority, ClientMessage.priority, if_pos hop] at hle
    cases call <;> simp_all [QueuedCall.msg, ClientMessage.isPresenceOrPing,
      ClientMessage.isOperation]

lemma Queued.dropJoin {msg : JoinMessage} {n : Nat} {queue : List QueuedMessage} (hs : Queued s)
    (hqueue : s.messageQueue = ⟨n, .join msg⟩ :: queue) :
    Queued { s with messageQueue := queue } := by
  have haccounted : ∀ p : ClientMessage → Bool, p (.join msg) = false → s.Accounted p →
      Accounted { s with messageQueue := queue } p := by
    intro p hp h
    rw [Accounted, queuedMessages, hqueue] at h
    rw [Accounted, queuedMessages, handedMessages, h]
    simp [handedMessages, hp]
  exact ⟨(hqueue ▸ hs.ordered).tail,
    fun m hm => hs.priority m (hqueue ▸ List.mem_cons_of_mem _ hm),
    haccounted _ rfl hs.operations, haccounted _ rfl hs.others, hs.ahead⟩

/-! ## The loops -/

/-- A loop runs to its next await, or to the end of the queue. -/
lemma drain_cases (queue : List QueuedMessage) (s : SessionQueue) :
    ((drain queue s).handling = s.handling ∧ (drain queue s).messageQueue = [] ∧
        (drain queue s).isProcessing = false) ∨
      ∃ call, (drain queue s).handling = s.handling ++ [call] ∧
        (drain queue s).handed.getLast?.map HandedMessage.call = some call ∧
        (drain queue s).isProcessing = s.isProcessing := by
  induction queue generalizing s with
  | nil => exact Or.inl ⟨rfl, rfl, rfl⟩
  | cons m queue ih =>
      obtain ⟨n, msg⟩ := m
      cases msg with
      | operation msg => exact Or.inr ⟨_, rfl, by simp [drain, await, hand], rfl⟩
      | presence msg => exact Or.inr ⟨_, rfl, by simp [drain, await, hand], rfl⟩
      | ping timestamp => exact ih _
      | join msg => exact ih _

/-- What is handed over on the way is handed over in order. -/
lemma Queued.drain {queue : List QueuedMessage} (hs : Queued s) (hqueue : s.messageQueue = queue) :
    Queued (drain queue s) := by
  induction queue generalizing s with
  | nil => exact hs.congr hqueue.symm rfl rfl
  | cons m queue ih =>
      obtain ⟨n, msg⟩ := m
      cases msg with
      | operation msg =>
          exact (@Queued.hand _ (.handleClientOperation msg) _ _ hs hqueue).congr rfl rfl rfl
      | presence msg =>
          exact (@Queued.hand _ (.handleClientPresence msg) _ _ hs hqueue).congr rfl rfl rfl
      | ping timestamp => exact ih (@Queued.hand _ (.sendPong timestamp) _ _ hs hqueue) rfl
      | join msg => exact ih (hs.dropJoin hqueue) rfl

/-- There is one loop when `isProcessing` is set, and none otherwise; then the queue is empty. -/
def OneLoop (s : SessionQueue) : Prop :=
  (s.isProcessing = false ∧ s.handling = [] ∧ s.messageQueue = []) ∨
    (s.isProcessing = true ∧
      ∃ call, s.handling = [call] ∧ s.handed.getLast?.map HandedMessage.call = some call)

/-- A loop that was started, or has got its handler back, is the only one. -/
lemma oneLoop_drain (queue : List QueuedMessage) (hprocessing : s.isProcessing = true)
    (hhandling : s.handling = []) : OneLoop (drain queue s) := by
  rcases drain_cases queue s with ⟨hh, hq, hp⟩ | ⟨call, hh, hlast, hp⟩
  · exact Or.inl ⟨hp, hh.trans hhandling, hq⟩
  · exact Or.inr ⟨hp.trans hprocessing, call, by rw [hh, hhandling, List.nil_append], hlast⟩

lemma OneLoop.onMessage (h : OneLoop s) (msg : ClientMessage) : OneLoop (s.onMessage msg) := by
  rw [SessionQueue.onMessage]
  rcases h with ⟨hp, hh, -⟩ | ⟨hp, hh⟩
  · rw [if_neg (by simp [enqueue, hp])]
    exact oneLoop_drain _ rfl hh
  · rw [if_pos (by simpa [enqueue] using hp)]
    exact Or.inr ⟨hp, hh⟩

lemma Queued.onMessage (hs : Queued s) (msg : ClientMessage) : Queued (s.onMessage msg) := by
  rw [SessionQueue.onMessage]
  have henqueue := hs.enqueue msg
  split
  · exact henqueue
  · have hstarted : Queued { s.enqueue msg with isProcessing := true } := henqueue.congr rfl rfl rfl
    exact hstarted.drain rfl

end SessionQueue

end SyncEngine
