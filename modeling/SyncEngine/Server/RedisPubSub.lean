import Mathlib.Data.List.Infix
import SyncEngine.Server.SessionManager
import SyncEngine.Shared.Presence

/-!
# Pub/sub of a worker

The handlers that a worker keeps for the channels of a document and the router that calls them
(`server/fanout/redis-pubsub.ts`), with the two handlers that `handleJoin` and `handleDisconnect`
make (`server/transport/websocket-server.ts`).

A handler is an arrow function, and every evaluation of an arrow function makes a new one; the
sets compare handlers by identity.  `closures` counts the evaluations.

Channels are named `doc:{docId}:ops` and `doc:{docId}:presence`, and the router takes the document
out of the name again.  That this gives the document back rests on what the schemas say of it: a
UUID contains no colon.
-/

namespace SyncEngine

namespace JSString

/-- `s.replace(pattern, '')`: the first occurrence is taken out. -/
def removeFirst : JSString → JSString → JSString
  | [], _ => []
  | u :: s, pattern =>
      if pattern <+: u :: s then (u :: s).drop pattern.length else u :: removeFirst s pattern

lemma removeFirst_append {pattern : JSString} (h : pattern ≠ []) (s : JSString) :
    removeFirst (pattern ++ s) pattern = s := by
  obtain ⟨u, pattern, rfl⟩ := List.exists_cons_of_ne_nil h
  rw [List.cons_append, removeFirst, ← List.cons_append, if_pos (List.prefix_append _ _),
    List.drop_left]

/-- What begins with a colon is found behind a text without colons. -/
lemma removeFirst_of_colon_notMem {s : JSString} (h : colon ∉ s) (pattern : JSString) :
    removeFirst (s ++ colon :: pattern) (colon :: pattern) = s := by
  induction s with
  | nil =>
      have hself := removeFirst_append (List.cons_ne_nil colon pattern) []
      rwa [List.append_nil] at hself
  | cons u s ih =>
      have hu : ¬ colon :: pattern <+: u :: (s ++ colon :: pattern) := fun hprefix =>
        h (List.mem_cons.mpr (Or.inl (List.cons_prefix_cons.mp hprefix).1))
      rw [List.cons_append, removeFirst, if_neg hu, ih fun hs => h (List.mem_cons_of_mem u hs)]

end JSString

/-! ## Channels -/

/-- `REDIS_KEYS.docChannel`. -/
def docChannel (docId : JSString) : JSString := JSString.lit "doc:" ++ docId ++ JSString.lit ":ops"

/-- `REDIS_KEYS.presenceChannel`. -/
def presenceChannel (docId : JSString) : JSString :=
  JSString.lit "doc:" ++ docId ++ JSString.lit ":presence"

/-- `extractDocId`. -/
def extractDocId (channel suffix : JSString) : JSString :=
  JSString.removeFirst (JSString.removeFirst channel (JSString.lit "doc:")) suffix

lemma docChannel_inj {docId docId' : JSString} :
    docChannel docId = docChannel docId' ↔ docId = docId' := by
  simp [docChannel]

lemma presenceChannel_inj {docId docId' : JSString} :
    presenceChannel docId = presenceChannel docId' ↔ docId = docId' := by
  simp [presenceChannel]

lemma getLast?_ops (s : JSString) :
    (s ++ JSString.lit ":ops").getLast? = some (JSString.codeUnit 's') := by
  rw [List.getLast?_append]
  rfl

lemma getLast?_presence (s : JSString) :
    (s ++ JSString.lit ":presence").getLast? = some (JSString.codeUnit 'e') := by
  rw [List.getLast?_append]
  rfl

/-- The two endings end in different letters. -/
lemma append_ops_ne_append_presence (s t : JSString) :
    s ++ JSString.lit ":ops" ≠ t ++ JSString.lit ":presence" := by
  intro h
  have hlast := congrArg List.getLast? h
  rw [getLast?_ops, getLast?_presence] at hlast
  exact absurd hlast (by decide)

lemma docChannel_ne_presenceChannel (docId docId' : JSString) :
    docChannel docId ≠ presenceChannel docId' :=
  append_ops_ne_append_presence _ _

/-- The head of a channel is taken off first, and then the ending. -/
lemma extractDocId_append {docId : JSString} (h : JSString.colon ∉ docId) (ending : JSString) :
    extractDocId (JSString.lit "doc:" ++ docId ++ JSString.colon :: ending)
      (JSString.colon :: ending) = docId := by
  have hhead : JSString.lit "doc:" ≠ [] := by decide
  rw [extractDocId, List.append_assoc, JSString.removeFirst_append hhead,
    JSString.removeFirst_of_colon_notMem h]

lemma extractDocId_docChannel {docId : JSString} (h : JSString.colon ∉ docId) :
    extractDocId (docChannel docId) (JSString.lit ":ops") = docId :=
  extractDocId_append h (JSString.lit "ops")

lemma extractDocId_presenceChannel {docId : JSString} (h : JSString.colon ∉ docId) :
    extractDocId (presenceChannel docId) (JSString.lit ":presence") = docId :=
  extractDocId_append h (JSString.lit "presence")

/-! ## Handlers -/

/-- `(envelope) => handleRedisOperation(docId, envelope)`, or the same for presence. -/
structure RedisHandler where
  identity : Nat
  docId : JSString
deriving DecidableEq

/-- A message on a channel. -/
inductive RedisMessage where
  | op (envelope : OperationEnvelope)
  | presence (presence : UserPresence)
  | userLeft (docId sessionId userId : JSString)
deriving DecidableEq

/-- A call of one of the two handlers, with the document that it was made for. -/
inductive HandlerCall where
  | operation (docId : JSString) (envelope : OperationEnvelope)
  | presence (docId : JSString) (presence : UserPresence)
deriving DecidableEq

/-- The handlers of a worker and its subscriptions. -/
structure PubSub where
  opHandlers : SetMap JSString RedisHandler
  presenceHandlers : SetMap JSString RedisHandler
  /-- The channels that the worker has subscribed to. -/
  channels : List JSString
  /-- The router is installed: `subscribed`. -/
  router : Bool
  closures : Nat

namespace PubSub

/-- No handler yet. -/
def start : PubSub := ⟨.empty, .empty, [], false, 0⟩

/-- `subscribeToDocument`, with two handlers that are made for the call. -/
def subscribeToDocument (p : PubSub) (docId : JSString) : PubSub where
  opHandlers := p.opHandlers.add docId ⟨p.closures, docId⟩
  presenceHandlers := p.presenceHandlers.add docId ⟨p.closures + 1, docId⟩
  channels := p.channels ++ [docChannel docId, presenceChannel docId]
  router := true
  closures := p.closures + 2

/-- `unsubscribeFromDocument`, with two handlers that are made for the call. -/
def unsubscribeFromDocument (p : PubSub) (docId : JSString) : PubSub :=
  let opHandlers := p.opHandlers.delete docId ⟨p.closures, docId⟩
  let presenceHandlers := p.presenceHandlers.delete docId ⟨p.closures + 1, docId⟩
  if opHandlers.members docId = [] ∧ presenceHandlers.members docId = [] then
    { p with
      opHandlers := opHandlers.drop docId
      presenceHandlers := presenceHandlers.drop docId
      channels := p.channels.filter fun c => c ≠ docChannel docId ∧ c ≠ presenceChannel docId
      closures := p.closures + 2 }
  else
    { p with
      opHandlers := opHandlers
      presenceHandlers := presenceHandlers
      closures := p.closures + 2 }

/-- The router, by the ending of the channel.  Nobody registers a handler for `user_left`. -/
def route (p : PubSub) (channel : JSString) (message : RedisMessage) : List HandlerCall :=
  if JSString.lit ":ops" <:+ channel then
    match message with
    | .op envelope =>
        (p.opHandlers.members (extractDocId channel (JSString.lit ":ops"))).map fun h =>
          .operation h.docId envelope
    | _ => []
  else if JSString.lit ":presence" <:+ channel then
    match message with
    | .presence presence =>
        (p.presenceHandlers.members (extractDocId channel (JSString.lit ":presence"))).map fun h =>
          .presence h.docId presence
    | _ => []
  else []

/-- A message on a channel reaches the router of a worker that has subscribed. -/
def receive (p : PubSub) (channel : JSString) (message : RedisMessage) : List HandlerCall :=
  if channel ∈ p.channels ∧ p.router = true then p.route channel message else []

/-- The handlers of a document are called with an operation on its channel. -/
lemma receive_op {p : PubSub} {docId : JSString} (h : JSString.colon ∉ docId)
    (hchannel : docChannel docId ∈ p.channels) (hrouter : p.router = true)
    (envelope : OperationEnvelope) :
    p.receive (docChannel docId) (.op envelope) =
      (p.opHandlers.members docId).map fun h => .operation h.docId envelope := by
  have hending : JSString.lit ":ops" <:+ docChannel docId := List.suffix_append _ _
  rw [receive, if_pos ⟨hchannel, hrouter⟩, route, if_pos hending, extractDocId_docChannel h]

/-- What is published with `publishOperation`. -/
def receiveOperation (p : PubSub) (envelope : OperationEnvelope) : List HandlerCall :=
  p.receive (docChannel envelope.docId) (.op envelope)

/-! ## Which handlers there are -/

/-- A handler of presence is for the document it is kept under. -/
def Keyed (p : PubSub) : Prop :=
  ∀ docId, ∀ h ∈ p.presenceHandlers.members docId, h.docId = docId

lemma keyed_start : Keyed start := by
  intro docId h hmem
  simp [start] at hmem

lemma Keyed.subscribe {p : PubSub} (hp : p.Keyed) (docId : JSString) :
    (p.subscribeToDocument docId).Keyed := by
  intro docId' h hmem
  rcases SetMap.mem_members_add.mp hmem with hmem | ⟨rfl, rfl⟩
  · exact hp docId' h hmem
  · rfl

lemma Keyed.unsubscribe {p : PubSub} (hp : p.Keyed) (docId : JSString) :
    (p.unsubscribeFromDocument docId).Keyed := by
  intro docId' h hmem
  refine hp docId' h ?_
  rw [unsubscribeFromDocument] at hmem
  split at hmem
  · by_cases hdoc : docId' = docId
    · simp [SetMap.members_drop, hdoc] at hmem
    · simpa [SetMap.members_drop, SetMap.members_delete, hdoc] using hmem
  · by_cases hdoc : docId' = docId
    · subst hdoc
      simp only [SetMap.members_delete, Function.update_self] at hmem
      exact (List.mem_filter.mp hmem).1
    · simpa [SetMap.members_delete, hdoc] using hmem

/-! ## How many handlers there are -/

/-- Every document has as many handlers of each kind as `n` says, and is subscribed to if it has
any. -/
structure Handles (p : PubSub) (n : JSString → Nat) : Prop where
  ops : ∀ docId, (p.opHandlers.members docId).length = n docId
  presence : ∀ docId, (p.presenceHandlers.members docId).length = n docId
  opHandler : ∀ docId, ∀ h ∈ p.opHandlers.members docId, h.docId = docId ∧ h.identity < p.closures
  presenceHandler : ∀ docId, ∀ h ∈ p.presenceHandlers.members docId,
    h.docId = docId ∧ h.identity < p.closures
  docChannel : ∀ docId, docChannel docId ∈ p.channels ↔ 0 < n docId
  presenceChannel : ∀ docId, presenceChannel docId ∈ p.channels ↔ 0 < n docId
  router : ∀ docId, 0 < n docId → p.router = true

lemma handles_start : Handles start fun _ => 0 := by
  constructor <;> simp [start]

/-- A handler whose identity was not used is not in a set. -/
lemma notMem_of_identity_lt {m : SetMap JSString RedisHandler} {docId : JSString} {n : Nat}
    (h : ∀ h ∈ m.members docId, h.docId = docId ∧ h.identity < n) {handler : RedisHandler}
    (hidentity : n ≤ handler.identity) : handler ∉ m.members docId :=
  fun hmem => absurd (h handler hmem).2 (not_lt.mpr hidentity)

/-- The set of a document after a new handler has been added to it, or to another one. -/
lemma length_members_add {m : SetMap JSString RedisHandler} {docId docId' : JSString} {n : Nat}
    {handler : RedisHandler} (h : (m.members docId').length = n)
    (hnew : docId' = docId → handler ∉ m.members docId) :
    ((m.add docId handler).members docId').length = if docId' = docId then n + 1 else n := by
  rw [SetMap.members_add]
  by_cases hdoc : docId' = docId
  · subst hdoc
    rw [Function.update_self, if_neg (hnew rfl), List.length_append, h, if_pos rfl]
    rfl
  · rw [Function.update_of_ne hdoc, h, if_neg hdoc]

lemma Handles.subscribe {p : PubSub} {n : JSString → Nat} (h : p.Handles n) (docId : JSString) :
    (p.subscribeToDocument docId).Handles
      fun docId' => if docId' = docId then n docId' + 1 else n docId' where
  ops docId' := length_members_add (h.ops docId') fun hdoc =>
    notMem_of_identity_lt (h.opHandler docId) le_rfl
  presence docId' := length_members_add (h.presence docId') fun hdoc =>
    notMem_of_identity_lt (h.presenceHandler docId) (Nat.le_succ _)
  opHandler := by
    intro docId' handler hmem
    rcases SetMap.mem_members_add.mp hmem with hmem | ⟨rfl, rfl⟩
    · have hold := h.opHandler docId' handler hmem
      exact ⟨hold.1, Nat.lt_add_right 2 hold.2⟩
    · exact ⟨rfl, Nat.lt_add_of_pos_right Nat.zero_lt_two⟩
  presenceHandler := by
    intro docId' handler hmem
    rcases SetMap.mem_members_add.mp hmem with hmem | ⟨rfl, rfl⟩
    · have hold := h.presenceHandler docId' handler hmem
      exact ⟨hold.1, Nat.lt_add_right 2 hold.2⟩
    · exact ⟨rfl, Nat.lt_succ_self _⟩
  docChannel := by
    intro docId'
    by_cases hdoc : docId' = docId
    · simp [subscribeToDocument, hdoc]
    · simp [subscribeToDocument, docChannel_inj, hdoc, docChannel_ne_presenceChannel,
        h.docChannel docId']
  presenceChannel := by
    intro docId'
    by_cases hdoc : docId' = docId
    · simp [subscribeToDocument, hdoc]
    · simp [subscribeToDocument, presenceChannel_inj, hdoc,
        (docChannel_ne_presenceChannel _ _).symm, h.presenceChannel docId']
  router _ _ := rfl

/-- `unsubscribeFromDocument` takes away handlers that are in no set, and thus none. -/
lemma Handles.unsubscribe {p : PubSub} {n : JSString → Nat} (h : p.Handles n) {docId : JSString}
    (hpos : 0 < n docId) : (p.unsubscribeFromDocument docId).Handles n := by
  have hops : (p.opHandlers.delete docId ⟨p.closures, docId⟩).members = p.opHandlers.members :=
    SetMap.members_delete_of_notMem (notMem_of_identity_lt (h.opHandler docId) le_rfl)
  have hpresence : (p.presenceHandlers.delete docId ⟨p.closures + 1, docId⟩).members =
      p.presenceHandlers.members :=
    SetMap.members_delete_of_notMem (notMem_of_identity_lt (h.presenceHandler docId)
      (Nat.le_succ _))
  have hsome : ¬ p.opHandlers.members docId = [] := by
    rw [← List.length_eq_zero_iff, h.ops docId]
    exact hpos.ne'
  rw [unsubscribeFromDocument, hops, hpresence, if_neg fun hempty => hsome hempty.1]
  refine ⟨?_, ?_, ?_, ?_, h.docChannel, h.presenceChannel, h.router⟩
  · rw [hops]
    exact h.ops
  · rw [hpresence]
    exact h.presence
  · intro docId' handler hmem
    rw [hops] at hmem
    have hold := h.opHandler docId' handler hmem
    exact ⟨hold.1, Nat.lt_add_right 2 hold.2⟩
  · intro docId' handler hmem
    rw [hpresence] at hmem
    have hold := h.presenceHandler docId' handler hmem
    exact ⟨hold.1, Nat.lt_add_right 2 hold.2⟩

/-- **An operation is handled as often as its document has handlers.** -/
lemma Handles.receiveOperation {p : PubSub} {n : JSString → Nat} (h : p.Handles n)
    {envelope : OperationEnvelope} (hdoc : JSString.colon ∉ envelope.docId)
    (hpos : 0 < n envelope.docId) :
    p.receiveOperation envelope =
      List.replicate (n envelope.docId) (.operation envelope.docId envelope) := by
  rw [PubSub.receiveOperation, receive_op hdoc ((h.docChannel _).mpr hpos) (h.router _ hpos),
    ← h.ops, ← List.map_const']
  refine List.map_congr_left fun handler hmem => ?_
  rw [(h.opHandler _ handler hmem).1]

end PubSub

end SyncEngine
