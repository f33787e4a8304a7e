import SyncEngine.Lib.Transition
import SyncEngine.Server.RedisPubSub
import SyncEngine.Shared.Protocol

/-!
# Fan-out to the sessions of a worker

JOINs and disconnects of the sessions of one worker, and what an operation that is published makes
the worker send (`server/transport/websocket-server.ts`, `server/fanout/redis-pubsub.ts`).

* Every JOIN of a document adds a handler, and every handler sends to all sessions of the document.
  So each of them gets an envelope as often as the document was joined (`sends_to_session`).
* A disconnect asks to remove handlers that it makes for the purpose.  They are in no set, so that
  nothing is removed and no channel is ever unsubscribed.

Hence an operation is sent exactly once, and nothing is left behind, just when every document was
joined at most once and its session has not left (`fanout_exactly_once_iff`).
-/

namespace SyncEngine

open Transition

/-- The sessions of a worker and its subscriptions, with all JOINs and disconnects on record. -/
structure Fanout (K : Type*) where
  table : SessionTable K
  pubSub : PubSub
  /-- The sessions of all JOINs so far. -/
  joined : List (ValidatedSession K)
  /-- The ids of the sessions that have been disconnected. -/
  left : List JSString

/-- A JOIN, a disconnect, or a publication. -/
inductive FanoutAction (K : Type*) where
  /-- A JOIN registers the session, whose id is a new UUID. -/
  | join (session : ValidatedSession K)
  | disconnect (id : JSString)

namespace Fanout

variable {K : Type*}

/-- No session yet. -/
def start : Fanout K := ⟨.empty, .start, [], []⟩

/-- `handleJoin`, from the registration on. -/
def join (s : Fanout K) (session : ValidatedSession K) (hnew : s.table.sessions session.id = none) :
    Fanout K where
  table := s.table.registerSession session.toWorkerSession hnew
  pubSub :=
    match session.docId with
    | some docId => s.pubSub.subscribeToDocument docId
    | none => s.pubSub
  joined := s.joined ++ [session]
  left := s.left

/-- `handleDisconnect`. -/
def disconnect (s : Fanout K) (session : WorkerSession K) : Fanout K where
  table := s.table.removeSession session.id
  pubSub :=
    match session.docId with
    | some docId => s.pubSub.unsubscribeFromDocument docId
    | none => s.pubSub
  joined := s.joined
  left := s.left ++ [session.id]

/-- One action, if it can happen. -/
def step (s : Fanout K) : FanoutAction K → Option (Fanout K)
  | .join session =>
      if h : s.table.sessions session.id = none ∧ ∀ other ∈ s.joined, other.id ≠ session.id then
        some (s.join session h.1)
      else none
  | .disconnect id => (s.table.sessions id).map s.disconnect

/-- What a call of a handler sends; presence is put off. -/
def send (s : Fanout K) : HandlerCall → List (WorkerSession K × ServerMessage)
  | .operation docId envelope => s.table.broadcastToDocument docId (.broadcast envelope)
  | .presence _ _ => []

/-- What is sent when an operation is published. -/
def sends (s : Fanout K) (envelope : OperationEnvelope) :
    List (WorkerSession K × ServerMessage) :=
  (s.pubSub.receiveOperation envelope).flatMap s.send

/-- The sends of an operation to one session. -/
def sendsTo (s : Fanout K) (envelope : OperationEnvelope) (id : JSString) :
    List (WorkerSession K × ServerMessage) :=
  (s.sends envelope).filter fun x => x.1.id = id

/-- **Exactly once**, and nothing that is left behind. -/
structure ExactlyOnce (s : Fanout K) : Prop where
  /-- A published operation is sent once to every session of its document. -/
  once : ∀ envelope session, s.table.sessions session.id = some session →
    session.docId = some envelope.docId →
      s.sendsTo envelope session.id = [(session, .broadcast envelope)]
  /-- A document without sessions has no handlers, and no channel. -/
  released : ∀ docId, s.table.getDocumentSessions docId = [] →
    s.pubSub.opHandlers.members docId = [] ∧ s.pubSub.presenceHandlers.members docId = [] ∧
      docChannel docId ∉ s.pubSub.channels ∧ presenceChannel docId ∉ s.pubSub.channels

/-- How often a document was joined. -/
def joins (s : Fanout K) (docId : JSString) : Nat :=
  s.joined.countP fun session => session.docId = some docId

/-- No document was joined twice, and no session that joined one has left. -/
structure Undisturbed (s : Fanout K) : Prop where
  once : ∀ docId, s.joins docId ≤ 1
  stays : ∀ session ∈ s.joined, session.docId.isSome = true → session.id ∉ s.left

/-! ## The invariant -/

/-- What has happened, in the table and in the handlers. -/
structure Recorded (s : Fanout K) : Prop where
  sessions : ∀ {id session}, s.table.sessions id = some session ↔
    session.id = id ∧ id ∉ s.left ∧ ∃ joined ∈ s.joined, joined.toWorkerSession = session
  unique : (s.joined.map fun session => session.id).Nodup
  left : ∀ id ∈ s.left, ∃ session ∈ s.joined, session.id = id
  handles : s.pubSub.Handles s.joins

variable {s s' : Fanout K} {session : ValidatedSession K} {docId : JSString}

lemma recorded_start : Recorded (start : Fanout K) := by
  refine ⟨?_, List.nodup_nil, ?_, PubSub.handles_start⟩ <;> simp [start, SessionTable.empty]

lemma joins_join (hnew : s.table.sessions session.id = none) :
    (s.join session hnew).joins docId =
      if session.docId = some docId then s.joins docId + 1 else s.joins docId := by
  by_cases hdoc : session.docId = some docId <;> simp [joins, join, List.countP_append, hdoc]

/-- A JOIN of a document adds a handler of each kind to it. -/
lemma Recorded.handles_join (hs : s.Recorded) (hnew : s.table.sessions session.id = none) :
    (s.join session hnew).pubSub.Handles (s.join session hnew).joins := by
  cases hdoc : session.docId with
  | none =>
      have hjoins : (s.join session hnew).joins = s.joins := by
        funext docId
        rw [joins_join, hdoc, if_neg (by simp)]
      rw [hjoins, Fanout.join, hdoc]
      exact hs.handles
  | some docId =>
      have hjoins : (s.join session hnew).joins =
          fun docId' => if docId' = docId then s.joins docId' + 1 else s.joins docId' := by
        funext docId'
        rw [joins_join, hdoc]
        by_cases heq : docId' = docId
        · rw [if_pos (by rw [heq]), if_pos heq]
        · rw [if_neg (by simpa using Ne.symm heq), if_neg heq]
      rw [hjoins, Fanout.join, hdoc]
      exact hs.handles.subscribe docId

/-- The new session is in the table, and the others are as before. -/
lemma Recorded.join (hs : s.Recorded) (hnew : s.table.sessions session.id = none)
    (hunused : ∀ other ∈ s.joined, other.id ≠ session.id) : (s.join session hnew).Recorded where
  sessions := by
    intro id other
    have hmem : ∀ joined, joined ∈ (s.join session hnew).joined ↔
        joined ∈ s.joined ∨ joined = session := by
      simp [Fanout.join]
    rw [show (s.join session hnew).table.sessions = _ from
      SessionTable.sessions_registerSession hnew]
    by_cases hid : id = session.id
    · subst hid
      have hleft : session.id ∉ s.left := fun h => by
        obtain ⟨joined, hjoined, heq⟩ := hs.left _ h
        exact hunused joined hjoined heq
      rw [Function.update_self, Option.some.injEq]
      constructor
      · rintro rfl
        exact ⟨rfl, hleft, session, (hmem session).mpr (Or.inr rfl), rfl⟩
      · rintro ⟨heq, -, joined, hjoined, rfl⟩
        rcases (hmem joined).mp hjoined with hjoined | rfl
        · exact absurd heq (hunused joined hjoined)
        · rfl
    · rw [Function.update_of_ne hid, hs.sessions]
      refine and_congr_right fun heq => and_congr_right fun _ => ⟨?_, ?_⟩
      · rintro ⟨joined, hjoined, hother⟩
        exact ⟨joined, (hmem joined).mpr (Or.inl hjoined), hother⟩
      · rintro ⟨joined, hjoined, rfl⟩
        rcases (hmem joined).mp hjoined with hjoined | rfl
        · exact ⟨joined, hjoined, rfl⟩
        · exact absurd heq.symm hid
  unique := nodup_map_append_singleton hs.unique hunused
  left := by
    intro id hid
    obtain ⟨other, hother, hid⟩ := hs.left id hid
    exact ⟨other, List.mem_append_left _ hother, hid⟩
  handles := hs.handles_join hnew

lemma Recorded.joins_pos (hs : s.Recorded) {id : JSString} {session : WorkerSession K}
    (h : s.table.sessions id = some session) (hdoc : session.docId = some docId) :
    0 < s.joins docId := by
  obtain ⟨-, -, joined, hjoined, rfl⟩ := hs.sessions.mp h
  exact List.countP_pos_iff.mpr ⟨joined, hjoined, by simpa using hdoc⟩

/-- The session leaves the table, and no handler leaves a set. -/
lemma Recorded.disconnect (hs : s.Recorded) {id : JSString} {session : WorkerSession K}
    (h : s.table.sessions id = some session) : (s.disconnect session).Recorded := by
  have hid := s.table.id_eq h
  refine ⟨?_, hs.unique, ?_, ?_⟩
  · intro id' other
    have hmem : id' ∉ (s.disconnect session).left ↔ id' ∉ s.left ∧ id' ≠ session.id := by
      simp [Fanout.disconnect]
    rw [hmem]
    rw [show (s.disconnect session).table.sessions = _ from
      SessionTable.sessions_removeSession s.table session.id]
    by_cases heq : id' = session.id
    · simp [heq]
    · rw [Function.update_of_ne heq, hs.sessions]
      simp [heq, Fanout.disconnect]
  · intro id' hid'
    rcases List.mem_append.mp hid' with hid' | hid'
    · exact hs.left id' hid'
    · obtain ⟨-, -, joined, hjoined, rfl⟩ := hs.sessions.mp h
      exact ⟨joined, hjoined, (List.mem_singleton.mp hid').symm⟩
  · have hjoins : (s.disconnect session).joins = s.joins := rfl
    rw [hjoins, Fanout.disconnect]
    cases hdoc : session.docId with
    | none => exact hs.handles
    | some docId => exact hs.handles.unsubscribe (hs.joins_pos h hdoc)

lemma recorded_step {a : FanoutAction K} (hs : s.Recorded) (h : s.step a = some s') :
    s'.Recorded := by
  cases a with
  | join session =>
      rw [step] at h
      split at h
      · rename_i hnew
        exact Option.some.inj h ▸ hs.join hnew.1 hnew.2
      · simp at h
  | disconnect id =>
      obtain ⟨session, hsession, rfl⟩ := Option.map_eq_some_iff.mp h
      exact hs.disconnect hsession

lemma recorded_of_reach (h : Reach step (fun _ _ => True) start s) : s.Recorded :=
  h.invariant recorded_start fun _ _ _ hs _ hstep => recorded_step hs hstep

/-! ## Sends -/

/-- **Every session gets an operation as often as its document was joined.** -/
theorem sends_to_session (hs : s.Recorded) {envelope : OperationEnvelope}
    {session : WorkerSession K} (h : s.table.sessions session.id = some session)
    (hdoc : session.docId = some envelope.docId) :
    s.sendsTo envelope session.id =
      List.replicate (s.joins envelope.docId) (session, .broadcast envelope) := by
  obtain ⟨-, -, joined, -, rfl⟩ := hs.sessions.mp h
  have hcolon := joined.colon_notMem _ hdoc
  rw [sendsTo, sends, hs.handles.receiveOperation hcolon (hs.joins_pos h hdoc),
    List.flatMap_replicate, send, List.filter_flatten, List.map_replicate,
    SessionTable.filter_broadcastToDocument h hdoc, List.flatten_replicate_singleton]

/-- Whoever joined a document and has not left is one of its sessions. -/
lemma Recorded.mem_getDocumentSessions (hs : s.Recorded) (hjoined : session ∈ s.joined)
    (hleft : session.id ∉ s.left) (hdoc : session.docId = some docId) :
    session.toWorkerSession ∈ s.table.getDocumentSessions docId :=
  SessionTable.mem_getDocumentSessions.mpr
    ⟨hs.sessions.mpr ⟨rfl, hleft, session, hjoined, rfl⟩, hdoc⟩

/-- A document that was joined at most once was joined by one session. -/
lemma eq_of_joins_le_one {other : ValidatedSession K} (h : s.joins docId ≤ 1)
    (hsession : session ∈ s.joined) (hdoc : session.docId = some docId)
    (hother : other ∈ s.joined) (hdoc' : other.docId = some docId) : session = other := by
  rw [joins, List.countP_eq_length_filter] at h
  have hmem : ∀ x ∈ s.joined, x.docId = some docId →
      x ∈ s.joined.filter fun session => session.docId = some docId :=
    fun x hx hdoc => List.mem_filter.mpr ⟨hx, by simpa using hdoc⟩
  have hsession := hmem session hsession hdoc
  have hother := hmem other hother hdoc'
  rcases Nat.le_one_iff_eq_zero_or_eq_one.mp h with h | h
  · rw [List.length_eq_zero_iff.mp h] at hsession
    simp at hsession
  · obtain ⟨x, hx⟩ := List.length_eq_one_iff.mp h
    rw [hx, List.mem_singleton] at hsession hother
    rw [hsession, hother]

/-- What the handlers say of a document without sessions says that it was never joined. -/
lemma ExactlyOnce.joins_eq_zero (h : s.ExactlyOnce) (hs : s.Recorded)
    (hnone : s.table.getDocumentSessions docId = []) : s.joins docId = 0 := by
  rw [← hs.handles.ops, (h.released docId hnone).1, List.length_nil]

lemma ExactlyOnce.joins_eq_one (h : s.ExactlyOnce) (hs : s.Recorded) {session : WorkerSession K}
    (hsession : session ∈ s.table.getDocumentSessions docId) : s.joins docId = 1 := by
  obtain ⟨hsession, hdoc⟩ := SessionTable.mem_getDocumentSessions.mp hsession
  let envelope : OperationEnvelope := ⟨docId, [], [], .delete ⟨rootUID⟩, 0, 0, []⟩
  have hsends : s.sendsTo envelope session.id =
      List.replicate (s.joins docId) (session, .broadcast envelope) :=
    sends_to_session hs hsession hdoc
  rw [h.once envelope session hsession hdoc] at hsends
  have hlength := congrArg List.length hsends
  rw [List.length_replicate, List.length_singleton] at hlength
  exact hlength.symm

lemma ExactlyOnce.joins_le_one (h : s.ExactlyOnce) (hs : s.Recorded) (docId : JSString) :
    s.joins docId ≤ 1 := by
  cases hsessions : s.table.getDocumentSessions docId with
  | nil => exact (h.joins_eq_zero hs hsessions).le.trans zero_le_one
  | cons session sessions =>
      exact (h.joins_eq_one hs (hsessions ▸ List.mem_cons_self)).le

lemma ExactlyOnce.undisturbed (h : s.ExactlyOnce) (hs : s.Recorded) : s.Undisturbed where
  once := h.joins_le_one hs
  stays := by
    intro session hjoined hdoc hleft
    obtain ⟨docId, hdoc⟩ := Option.isSome_iff_exists.mp hdoc
    have hpos : 0 < s.joins docId :=
      List.countP_pos_iff.mpr ⟨session, hjoined, by simpa using hdoc⟩
    -- the session that has left was the only one of its document
    have hnone : s.table.getDocumentSessions docId = [] := by
      refine List.eq_nil_iff_forall_not_mem.mpr fun other hother => ?_
      obtain ⟨hother, hdoc'⟩ := SessionTable.mem_getDocumentSessions.mp hother
      obtain ⟨-, hstays, joined, hjoined', rfl⟩ := hs.sessions.mp hother
      obtain rfl := eq_of_joins_le_one (h.joins_le_one hs docId) hjoined hdoc hjoined' hdoc'
      exact hstays hleft
    rw [h.joins_eq_zero hs hnone] at hpos
    exact absurd hpos (lt_irrefl 0)

lemma Undisturbed.exactlyOnce (h : s.Undisturbed) (hs : s.Recorded) : s.ExactlyOnce where
  once := by
    intro envelope session hsession hdoc
    have hone : s.joins envelope.docId = 1 := le_antisymm (h.once _) (hs.joins_pos hsession hdoc)
    rw [sends_to_session hs hsession hdoc, hone]
    rfl
  released := by
    intro docId hnone
    have hzero : s.joins docId = 0 := by
      refine List.countP_eq_zero.mpr fun session hjoined hdoc => ?_
      have hdoc : session.docId = some docId := by simpa using hdoc
      have hmem := hs.mem_getDocumentSessions hjoined
        (h.stays session hjoined (by rw [hdoc]; rfl)) hdoc
      rw [hnone] at hmem
      simp at hmem
    have hpos : ¬ 0 < s.joins docId := by omega
    exact ⟨List.length_eq_zero_iff.mp ((hs.handles.ops docId).trans hzero),
      List.length_eq_zero_iff.mp ((hs.handles.presence docId).trans hzero),
      mt (hs.handles.docChannel docId).mp hpos, mt (hs.handles.presenceChannel docId).mp hpos⟩

/-- **Exactly once**, after any JOINs and disconnects, just when no document was joined twice and
no session that joined one has left. -/
theorem fanout_exactly_once_iff (s : Fanout K) (h : Reach step (fun _ _ => True) start s) :
    s.ExactlyOnce ↔ s.Undisturbed :=
  ⟨fun honce => honce.undisturbed (recorded_of_reach h),
    fun hstays => hstays.exactlyOnce (recorded_of_reach h)⟩

/-- A session as it joins. -/
def joining (id : String) (docId : Option JSString)
    (h : ∀ d, docId = some d → JSString.colon ∉ d) : ValidatedSession Nat where
  id := JSString.lit id
  userId := JSString.lit "u"
  siteId := JSString.lit "c"
  docId := docId
  displayName := JSString.lit "Ann"
  color := JSString.lit "red"
  lastSeq := 0
  socket := 0
  colon_notMem := h

/-- Two documents are joined; a session without a document comes and goes. -/
def twoDocuments : Fanout Nat :=
  (runAllowed step (fun _ _ => True) start
    [.join (joining "a" (some (JSString.lit "d")) (by rintro _ ⟨⟩; decide)),
      .join (joining "b" none (by simp)),
      .join (joining "c" (some (JSString.lit "e")) (by rintro _ ⟨⟩; decide)),
      .disconnect (JSString.lit "b")]).get (by decide +kernel)

theorem fanout_exactly_once_iff_twoDocuments :
    twoDocuments.ExactlyOnce ↔ twoDocuments.Undisturbed := by
  have hreach : Reach step (fun _ _ => True) start twoDocuments := reach_get _
  exact fanout_exactly_once_iff twoDocuments hreach

/-- The only session of a document leaves. -/
def allLeft : Fanout Nat :=
  (runAllowed step (fun _ _ => True) start
    [.join (joining "a" (some (JSString.lit "d")) (by rintro _ ⟨⟩; decide)),
      .disconnect (JSString.lit "a")]).get (by decide +kernel)

/-- **A handler stays**: the document has no session any more, but still has its handler. -/
theorem not_forall_exactlyOnce :
    ¬ ∀ s : Fanout Nat, Reach step (fun _ _ => True) start s → s.ExactlyOnce := by
  intro h
  have hreach : Reach step (fun _ _ => True) start allLeft := reach_get _
  have hempty := ((h allLeft hreach).released (JSString.lit "d") (by decide +kernel)).1
  exact absurd hempty (by decide +kernel)

end Fanout

end SyncEngine
