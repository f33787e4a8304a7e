import Mathlib.Data.List.Infix
import SyncEngine.Server.Connections
import SyncEngine.Server.SessionIndexes

/-!
# Sending under backpressure

The last hop of a message, from a worker to the sockets of its sessions: `sendToSession`,
`broadcastToDocument` and `broadcastToUser` (`server/transport/session-manager.ts`), over the
maps of the session manager.

`socket.send` takes a payload of an open socket and calls back later, once for each payload,
whether it could be written or not.  `sendQueue` counts the payloads that have not called back.  A
session that has too many of them is not sent any more: its socket is closed with 4009, and a
socket that is closing is not sent anything again.

A run is any sequence of registrations, removals, sends, broadcasts, callbacks and closes.  Of
every session `calls`, `handed` and `returned` record what it was to be sent, what `socket.send`
took and how often it called back; `broadcasts` records what a document was to be sent.

* `backpressure`: a socket takes what its session is to be sent from the start and without a gap,
  the counter counts what is on its way, and a session that missed anything is no longer open.
* `document_stream`: of the broadcasts to its document a session's socket takes a segment without
  gaps, which begins where the session was registered.
-/

namespace SyncEngine

open Transition

/-- What `sendToSession` is called with, and the document when the call is part of a broadcast to
one. -/
structure Outgoing (M : Type*) where
  data : M
  document : Option JSString
deriving DecidableEq

/-- The data of a broadcast to the document. -/
def Outgoing.fromDocument {M : Type*} (docId : JSString) (out : Outgoing M) : Option M :=
  if out.document = some docId then some out.data else none

/-- What one session sends. -/
structure Outbox (M : Type*) where
  sendQueue : Int
  /-- The calls of `sendToSession`. -/
  calls : List (Outgoing M)
  /-- What `socket.send` took. -/
  handed : List (Outgoing M)
  /-- How many callbacks of `socket.send` have run. -/
  returned : Nat
  /-- How many broadcasts to its document came before the session. -/
  joinedAt : Nat
deriving DecidableEq

namespace Outbox

variable {M : Type*} {sendQueueMax : Nat} {o : Outbox M}

/-- The counter counts what is on its way, there is never too much of it, and the socket took what
came first. -/
structure Sound (sendQueueMax : Nat) (o : Outbox M) : Prop where
  sendQueue_eq : o.sendQueue = o.handed.length - o.returned
  returned_le : o.returned ≤ o.handed.length
  sendQueue_le : o.sendQueue ≤ sendQueueMax
  handed_calls : o.handed <+: o.calls

lemma sound_empty {joinedAt : Nat} :
    Sound sendQueueMax (⟨0, [], [], 0, joinedAt⟩ : Outbox M) :=
  ⟨rfl, le_refl _, Int.natCast_nonneg _, List.prefix_refl _⟩

lemma Sound.call (h : o.Sound sendQueueMax) (out : Outgoing M) :
    Sound sendQueueMax { o with calls := o.calls ++ [out] } :=
  ⟨h.sendQueue_eq, h.returned_le, h.sendQueue_le,
    h.handed_calls.trans (List.prefix_append _ _)⟩

/-- A payload that is taken, of a session that has missed nothing. -/
lemma Sound.send (h : o.Sound sendQueueMax) (hcomplete : o.handed = o.calls)
    (hlt : o.sendQueue < sendQueueMax) (out : Outgoing M) :
    Sound sendQueueMax
      { o with
        sendQueue := o.sendQueue + 1
        calls := o.calls ++ [out]
        handed := o.handed ++ [out] } where
  sendQueue_eq := by
    have heq := h.sendQueue_eq
    simp only [List.length_append, List.length_singleton]
    omega
  returned_le := by
    have hle := h.returned_le
    simp only [List.length_append]
    omega
  sendQueue_le := by
    show o.sendQueue + 1 ≤ _
    omega
  handed_calls := by rw [hcomplete]

lemma Sound.callback (h : o.Sound sendQueueMax) (hlt : o.returned < o.handed.length) :
    Sound sendQueueMax { o with sendQueue := o.sendQueue - 1, returned := o.returned + 1 } where
  sendQueue_eq := by
    have heq := h.sendQueue_eq
    show o.sendQueue - 1 = _
    push_cast
    omega
  returned_le := hlt
  sendQueue_le := by
    have hle := h.sendQueue_le
    show o.sendQueue - 1 ≤ _
    omega
  handed_calls := h.handed_calls

end Outbox

/-- The sessions of a worker and what it sends them. -/
structure SendState (K M : Type*) where
  maps : SessionMaps K
  /-- All the sessions that were made, those that were removed included. -/
  objects : JSString → Option (WorkerSession K)
  readyState : K → ReadyState
  closeFrame : K → Option CloseFrame
  outbox : JSString → Outbox M
  /-- The broadcasts to a document, each with the session that it excludes. -/
  broadcasts : JSString → List (M × Option JSString)

namespace SendState

variable {K M : Type*} [DecidableEq K]

omit [DecidableEq K] in
/-- Before the first connection. -/
def init : SendState K M where
  maps := .empty
  objects := fun _ => none
  readyState := fun _ => .opened
  closeFrame := fun _ => none
  outbox := fun _ => ⟨0, [], [], 0, 0⟩
  broadcasts := fun _ => []

/-- Changes the outbox of a session. -/
def updateOutbox (s : SendState K M) (id : JSString) (f : Outbox M → Outbox M) : SendState K M :=
  { s with outbox := Function.update s.outbox id (f (s.outbox id)) }

/-- `socket.close`. -/
def close (s : SendState K M) (socket : K) (code : Nat) (reason : String) : SendState K M :=
  if s.readyState socket = .opened then
    { s with
      readyState := Function.update s.readyState socket .closing
      closeFrame := Function.update s.closeFrame socket (some ⟨code, JSString.lit reason⟩) }
  else s

/-- `socket.send` of an open socket, after `sendQueue++`. -/
def send (s : SendState K M) (id : JSString) (out : Outgoing M) : SendState K M :=
  s.updateOutbox id fun o =>
    { o with sendQueue := o.sendQueue + 1, handed := o.handed ++ [out] }

/-- The call goes on record. -/
def recordCall (s : SendState K M) (id : JSString) (out : Outgoing M) : SendState K M :=
  s.updateOutbox id fun o => { o with calls := o.calls ++ [out] }

variable (sendQueueMax : Nat)

/-- `sendToSession`. -/
def sendToSession (s : SendState K M) (session : WorkerSession K) (out : Outgoing M) :
    SendState K M × Bool :=
  let s' := s.recordCall session.id out
  if s'.readyState session.socket ≠ .opened then (s', false)
  else if (s'.outbox session.id).sendQueue ≥ sendQueueMax then
    (s'.close session.socket 4009 "Slow consumer", false)
  else (s'.send session.id out, true)

/-- The loop of a broadcast over a list of sessions. -/
def sendToAll (s : SendState K M) (excludeSessionId : Option JSString) (out : Outgoing M)
    (sessions : List (WorkerSession K)) : SendState K M :=
  sessions.foldl (fun s session =>
    if some session.id = excludeSessionId then s
    else (s.sendToSession sendQueueMax session out).1) s

/-- `broadcastToDocument`. -/
def broadcastToDocument (s : SendState K M) (docId : JSString) (data : M)
    (excludeSessionId : Option JSString) : SendState K M :=
  { s.sendToAll sendQueueMax excludeSessionId ⟨data, some docId⟩
      (s.maps.getDocumentSessions docId) with
    broadcasts := Function.update s.broadcasts docId
      (s.broadcasts docId ++ [(data, excludeSessionId)]) }

/-- `broadcastToUser`. -/
def broadcastToUser (s : SendState K M) (userId : JSString) (data : M) : SendState K M :=
  s.sendToAll sendQueueMax none ⟨data, none⟩ (s.maps.getSessionsForUser userId)

/-- `registerSession`. -/
def registerSession (s : SendState K M) (params : SessionParams) (id : JSString) (socket : K) :
    SendState K M :=
  let s' := s.updateOutbox id fun o =>
    { o with joinedAt := (params.docId.map fun docId => (s.broadcasts docId).length).getD 0 }
  { s' with
    maps := s.maps.registerSession params id socket
    objects := Function.update s.objects id (some (params.session id socket)) }

/-! ## Runs -/

/-- What happens on the worker. -/
inductive SendEvent (K M : Type*)
  | registerSession (params : SessionParams) (id : JSString) (socket : K)
  | removeSession (sessionId : JSString)
  | sendToSession (session : WorkerSession K) (data : M)
  | broadcastToDocument (docId : JSString) (data : M) (excludeSessionId : Option JSString)
  | broadcastToUser (userId : JSString) (data : M)
  /-- A callback of `socket.send`, with an error or without. -/
  | callback (sessionId : JSString)
  /-- The server closes a socket for another reason. -/
  | close (socket : K) (code : Nat) (reason : String)
  /-- The client closes it. -/
  | closing (socket : K)
  | closed (socket : K)

/-- One event, if it can happen. -/
def step (s : SendState K M) : SendEvent K M → Option (SendState K M)
  | .registerSession params id socket => some (s.registerSession params id socket)
  | .removeSession sessionId => some { s with maps := (s.maps.removeSession sessionId).1 }
  | .sendToSession session data => some (s.sendToSession sendQueueMax session ⟨data, none⟩).1
  | .broadcastToDocument docId data excludeSessionId =>
      some (s.broadcastToDocument sendQueueMax docId data excludeSessionId)
  | .broadcastToUser userId data => some (s.broadcastToUser sendQueueMax userId data)
  | .callback sessionId =>
      if (s.outbox sessionId).returned < (s.outbox sessionId).handed.length then
        some (s.updateOutbox sessionId fun o =>
          { o with sendQueue := o.sendQueue - 1, returned := o.returned + 1 })
      else none
  | .close socket code reason => some (s.close socket code reason)
  | .closing socket =>
      if s.readyState socket = .opened then
        some { s with readyState := Function.update s.readyState socket .closing }
      else none
  | .closed socket => some { s with readyState := Function.update s.readyState socket .closed }

/-- A session id is a new UUID, a `docId` has passed the schema, and who sends to a session was
given it by the session manager. -/
def Allowed (s : SendState K M) : SendEvent K M → Prop
  | .registerSession params id _ => s.objects id = none ∧ params.docId ≠ some []
  | .sendToSession session _ => s.objects session.id = some session
  | _ => True

instance (s : SendState K M) : DecidablePred s.Allowed
  | .registerSession params id _ =>
      inferInstanceAs (Decidable (s.objects id = none ∧ params.docId ≠ some []))
  | .sendToSession session _ => inferInstanceAs (Decidable (s.objects session.id = some session))
  | .removeSession _ => isTrue trivial
  | .broadcastToDocument _ _ _ => isTrue trivial
  | .broadcastToUser _ _ => isTrue trivial
  | .callback _ => isTrue trivial
  | .close _ _ _ => isTrue trivial
  | .closing _ => isTrue trivial
  | .closed _ => isTrue trivial

/-- The states of a worker with the given limit. -/
def Reachable (s : SendState K M) : Prop := Reach (step sendQueueMax) Allowed init s

/-! ## One call -/

variable {sendQueueMax} {s s' : SendState K M} {session : WorkerSession K} {out : Outgoing M}
variable {id : JSString}

omit [DecidableEq K] in
lemma outbox_updateOutbox (s : SendState K M) (id id' : JSString) (f : Outbox M → Outbox M) :
    (s.updateOutbox id f).outbox id' = if id' = id then f (s.outbox id) else s.outbox id' := by
  by_cases h : id' = id
  · subst h
    simp [updateOutbox]
  · simp [updateOutbox, h]

lemma opened_of_close {socket k : K} {code : Nat} {reason : String}
    (h : (s.close socket code reason).readyState k = .opened) : s.readyState k = .opened := by
  unfold close at h
  split at h
  · by_cases hk : k = socket
    · subst hk
      simp at h
    · simpa [hk] using h
  · exact h

/-- The three ways a call goes: the socket is not open, the queue is full, or the payload is
taken.  The call is on record in each of them. -/
lemma sendToSession_cases (s : SendState K M) (session : WorkerSession K) (out : Outgoing M) :
    (s.readyState session.socket ≠ .opened ∧
      (s.sendToSession sendQueueMax session out).1 = s.recordCall session.id out) ∨
    (s.readyState session.socket = .opened ∧
      (s.sendToSession sendQueueMax session out).1 =
        (s.recordCall session.id out).close session.socket 4009 "Slow consumer") ∨
    (s.readyState session.socket = .opened ∧ (s.outbox session.id).sendQueue < sendQueueMax ∧
      (s.sendToSession sendQueueMax session out).1 =
        (s.recordCall session.id out).send session.id out) := by
  have hqueue : ((s.recordCall session.id out).outbox session.id).sendQueue =
      (s.outbox session.id).sendQueue := by
    rw [recordCall, outbox_updateOutbox, if_pos rfl]
  have hready : (s.recordCall session.id out).readyState = s.readyState := rfl
  simp only [sendToSession, hqueue, hready]
  split_ifs with hclosed hfull
  · exact Or.inl ⟨hclosed, rfl⟩
  · exact Or.inr (Or.inl ⟨not_not.mp hclosed, rfl⟩)
  · exact Or.inr (Or.inr ⟨not_not.mp hclosed, not_le.mp hfull, rfl⟩)

/-- What a call leaves alone. -/
structure Kept (s s' : SendState K M) : Prop where
  maps_eq : s'.maps = s.maps
  objects_eq : s'.objects = s.objects
  broadcasts_eq : s'.broadcasts = s.broadcasts
  joinedAt_eq : ∀ id, (s'.outbox id).joinedAt = (s.outbox id).joinedAt
  opened : ∀ k, s'.readyState k = .opened → s.readyState k = .opened

omit [DecidableEq K] in
lemma Kept.refl (s : SendState K M) : Kept s s := ⟨rfl, rfl, rfl, fun _ => rfl, fun _ => id⟩

omit [DecidableEq K] in
lemma Kept.trans {s'' : SendState K M} (h : Kept s s') (h' : Kept s' s'') : Kept s s'' where
  maps_eq := h'.maps_eq.trans h.maps_eq
  objects_eq := h'.objects_eq.trans h.objects_eq
  broadcasts_eq := h'.broadcasts_eq.trans h.broadcasts_eq
  joinedAt_eq id := (h'.joinedAt_eq id).trans (h.joinedAt_eq id)
  opened k hk := h.opened k (h'.opened k hk)

omit [DecidableEq K] in
lemma kept_updateOutbox {f : Outbox M → Outbox M} (hf : ∀ o, (f o).joinedAt = o.joinedAt) :
    Kept s (s.updateOutbox id f) where
  maps_eq := rfl
  objects_eq := rfl
  broadcasts_eq := rfl
  joinedAt_eq id' := by
    rw [outbox_updateOutbox]
    split_ifs with h
    · rw [hf, h]
    · rfl
  opened _ h := h

lemma kept_close {socket : K} {code : Nat} {reason : String} :
    Kept s (s.close socket code reason) := by
  refine ⟨?_, ?_, ?_, fun _ => ?_, fun _ => opened_of_close⟩
  all_goals
    unfold close
    split <;> rfl

lemma outbox_close (s : SendState K M) (socket : K) (code : Nat) (reason : String) :
    (s.close socket code reason).outbox = s.outbox := by
  unfold close
  split <;> rfl

lemma kept_sendToSession (s : SendState K M) (session : WorkerSession K) (out : Outgoing M) :
    Kept s (s.sendToSession sendQueueMax session out).1 := by
  have hrecord : Kept s (s.recordCall session.id out) := kept_updateOutbox fun _ => rfl
  rcases sendToSession_cases s session out with ⟨-, heq⟩ | ⟨-, heq⟩ | ⟨-, -, heq⟩
  · rw [heq]
    exact hrecord
  · rw [heq]
    exact hrecord.trans kept_close
  · rw [heq]
    exact hrecord.trans (kept_updateOutbox fun _ => rfl)

/-- The call is on record. -/
lemma calls_sendToSession (s : SendState K M) (session : WorkerSession K) (out : Outgoing M)
    (id : JSString) :
    ((s.sendToSession sendQueueMax session out).1.outbox id).calls =
      if id = session.id then (s.outbox id).calls ++ [out] else (s.outbox id).calls := by
  rcases sendToSession_cases s session out with ⟨-, heq⟩ | ⟨-, heq⟩ | ⟨-, -, heq⟩
  all_goals
    rw [heq]
    simp only [outbox_close, send, recordCall, outbox_updateOutbox]
    split_ifs with h
    · rw [h]
    · rfl

/-! ## The account of a session -/

/-- Accounts are in order, and who missed anything is not open any more. -/
structure Accounted (sendQueueMax : Nat) (s : SendState K M) : Prop where
  maps : s.maps.Indexed
  object_of_session : ∀ {id session}, s.maps.sessions id = some session →
    s.objects id = some session
  id_eq : ∀ {id session}, s.objects id = some session → session.id = id
  outbox_of_none : ∀ {id}, s.objects id = none → s.outbox id = ⟨0, [], [], 0, 0⟩
  sound : ∀ id, (s.outbox id).Sound sendQueueMax
  open_complete : ∀ {id session}, s.objects id = some session →
    s.readyState session.socket = .opened → (s.outbox id).handed = (s.outbox id).calls

omit [DecidableEq K] in
lemma accounted_init : (init : SendState K M).Accounted sendQueueMax where
  maps := SessionMaps.indexed_empty
  object_of_session := by simp [init, SessionMaps.empty]
  id_eq := by simp [init]
  outbox_of_none := fun _ => rfl
  sound _ := Outbox.sound_empty
  open_complete := fun _ _ => rfl

lemma Accounted.sendToSession (h : s.Accounted sendQueueMax)
    (hobject : s.objects session.id = some session) (out : Outgoing M) :
    (s.sendToSession sendQueueMax session out).1.Accounted sendQueueMax := by
  have hkept : Kept s (s.sendToSession sendQueueMax session out).1 :=
    kept_sendToSession s session out
  have hsound := h.sound session.id
  have hothers : ∀ id, id ≠ session.id →
      (s.sendToSession sendQueueMax session out).1.outbox id = s.outbox id := by
    intro id hid
    rcases sendToSession_cases s session out with ⟨-, heq⟩ | ⟨-, heq⟩ | ⟨-, -, heq⟩
    all_goals
      rw [heq]
      simp only [outbox_close, send, recordCall, outbox_updateOutbox, if_neg hid]
  -- what becomes of the account of the session itself
  have hself : ((s.sendToSession sendQueueMax session out).1.outbox session.id).Sound
        sendQueueMax ∧
      ((s.sendToSession sendQueueMax session out).1.readyState session.socket = .opened →
        ((s.sendToSession sendQueueMax session out).1.outbox session.id).handed =
          ((s.sendToSession sendQueueMax session out).1.outbox session.id).calls) := by
    rcases sendToSession_cases s session out with ⟨hclosed, heq⟩ | ⟨hopen, heq⟩ | ⟨hopen, hlt, heq⟩
    · rw [heq]
      simp only [recordCall, outbox_updateOutbox, if_true]
      exact ⟨hsound.call out, fun hopen => absurd hopen hclosed⟩
    · rw [heq]
      simp only [outbox_close, recordCall, outbox_updateOutbox, if_true]
      refine ⟨hsound.call out, fun hopen' => ?_⟩
      have hready : (s.updateOutbox session.id fun o =>
          { o with calls := o.calls ++ [out] }).readyState = s.readyState := rfl
      -- a socket that has just been closed is not open
      simp [close, hready, hopen] at hopen'
    · have hcomplete := h.open_complete hobject hopen
      rw [heq]
      simp only [send, recordCall, outbox_updateOutbox, if_true]
      exact ⟨hsound.send hcomplete hlt out, fun _ => by rw [hcomplete]⟩
  refine ⟨hkept.maps_eq ▸ h.maps, ?_, ?_, ?_, ?_, ?_⟩
  · rw [hkept.maps_eq, hkept.objects_eq]
    exact h.object_of_session
  · rw [hkept.objects_eq]
    exact h.id_eq
  · intro id hnone
    rw [hkept.objects_eq] at hnone
    have hid : id ≠ session.id := fun heq => by simp [heq, hobject] at hnone
    rw [hothers id hid]
    exact h.outbox_of_none hnone
  · intro id
    by_cases hid : id = session.id
    · rw [hid]
      exact hself.1
    · rw [hothers id hid]
      exact h.sound id
  · intro id session' hsession' hopen
    rw [hkept.objects_eq] at hsession'
    by_cases hid : id = session.id
    · subst hid
      obtain rfl : session' = session := Option.some.inj (hsession'.symm.trans hobject)
      exact hself.2 hopen
    · rw [hothers id hid]
      exact h.open_complete hsession' (hkept.opened _ hopen)

lemma kept_sendToAll (s : SendState K M) (excludeSessionId : Option JSString) (out : Outgoing M)
    (sessions : List (WorkerSession K)) :
    Kept s (s.sendToAll sendQueueMax excludeSessionId out sessions) := by
  refine List.foldlRecOn sessions _ (motive := Kept s) (Kept.refl s) fun s' h session _ => ?_
  split_ifs
  · exact h
  · exact h.trans (kept_sendToSession s' session out)

lemma Accounted.sendToAll (h : s.Accounted sendQueueMax) {excludeSessionId : Option JSString}
    {out : Outgoing M} {sessions : List (WorkerSession K)}
    (hobjects : ∀ session ∈ sessions, s.objects session.id = some session) :
    (s.sendToAll sendQueueMax excludeSessionId out sessions).Accounted sendQueueMax := by
  have hloop : (s.sendToAll sendQueueMax excludeSessionId out sessions).Accounted sendQueueMax ∧
      (s.sendToAll sendQueueMax excludeSessionId out sessions).objects = s.objects := by
    refine List.foldlRecOn sessions _
      (motive := fun s' : SendState K M => s'.Accounted sendQueueMax ∧ s'.objects = s.objects)
      ⟨h, rfl⟩ ?_
    rintro s' ⟨hs', hobj⟩ session hsession
    split_ifs
    · exact ⟨hs', hobj⟩
    · exact ⟨hs'.sendToSession (hobj ▸ hobjects session hsession) out,
        (kept_sendToSession s' session out).objects_eq.trans hobj⟩
  exact hloop.1

section

omit [DecidableEq K]

lemma Accounted.object_of_ofIds (h : s.Accounted sendQueueMax) {ids : List JSString}
    (hmem : session ∈ s.maps.ofIds ids) : s.objects session.id = some session := by
  obtain ⟨id, -, hsession⟩ := List.mem_filterMap.mp hmem
  rw [h.maps.id_eq hsession]
  exact h.object_of_session hsession

lemma outbox_registerSession (s : SendState K M) (params : SessionParams) (id id' : JSString)
    (socket : K) :
    (s.registerSession params id socket).outbox id' =
      if id' = id then
        { s.outbox id with
          joinedAt := (params.docId.map fun docId => (s.broadcasts docId).length).getD 0 }
      else s.outbox id' :=
  outbox_updateOutbox s id id' fun o =>
    { o with joinedAt := (params.docId.map fun docId => (s.broadcasts docId).length).getD 0 }

lemma Accounted.registerSession (h : s.Accounted sendQueueMax) {params : SessionParams}
    (socket : K) (hnew : s.objects id = none) (hdoc : params.docId ≠ some []) :
    (s.registerSession params id socket).Accounted sendQueueMax := by
  have hsessions : s.maps.sessions id = none := by
    cases hsome : s.maps.sessions id with
    | none => rfl
    | some session => simp [h.object_of_session hsome] at hnew
  have hbox := h.outbox_of_none hnew
  refine ⟨h.maps.registerSession socket hsessions hdoc, ?_, ?_, ?_, ?_, ?_⟩
  · intro id' session
    show Function.update s.maps.sessions id _ id' = some session →
      Function.update s.objects id _ id' = some session
    by_cases hid : id' = id
    · subst hid
      simp only [Function.update_self]
      exact fun h => h
    · simp only [Function.update_of_ne hid]
      exact h.object_of_session
  · intro id' session
    show Function.update s.objects id _ id' = some session → _
    by_cases hid : id' = id
    · subst hid
      rw [Function.update_self]
      rintro ⟨⟩
      rfl
    · rw [Function.update_of_ne hid]
      exact h.id_eq
  · intro id' hnone
    have hid : id' ≠ id := by
      rintro rfl
      exact absurd hnone (by simp [SendState.registerSession])
    have hold : s.objects id' = none := by simpa [SendState.registerSession, hid] using hnone
    rw [outbox_registerSession, if_neg hid]
    exact h.outbox_of_none hold
  · intro id'
    rw [outbox_registerSession]
    split_ifs with hid
    · rw [hbox]
      exact Outbox.sound_empty
    · exact h.sound id'
  · intro id' session hsession hopen
    rw [outbox_registerSession]
    split_ifs with hid
    · rw [hbox]
    · have hold : s.objects id' = some session := by
        simpa [SendState.registerSession, hid] using hsession
      exact h.open_complete hold hopen

/-- What changes neither sessions nor accounts and opens no socket. -/
lemma Accounted.of_opened (h : s.Accounted sendQueueMax) (hmaps : s'.maps = s.maps)
    (hobjects : s'.objects = s.objects) (houtbox : s'.outbox = s.outbox)
    (hopened : ∀ k, s'.readyState k = .opened → s.readyState k = .opened) :
    s'.Accounted sendQueueMax where
  maps := hmaps ▸ h.maps
  object_of_session := by
    rw [hmaps, hobjects]
    exact h.object_of_session
  id_eq := by
    rw [hobjects]
    exact h.id_eq
  outbox_of_none := by
    rw [hobjects, houtbox]
    exact h.outbox_of_none
  sound id := houtbox ▸ h.sound id
  open_complete := by
    rw [hobjects, houtbox]
    exact fun hsession hopen => h.open_complete hsession (hopened _ hopen)

lemma Accounted.callback (h : s.Accounted sendQueueMax)
    (hlt : (s.outbox id).returned < (s.outbox id).handed.length) :
    (s.updateOutbox id fun o =>
      { o with sendQueue := o.sendQueue - 1, returned := o.returned + 1 }).Accounted
        sendQueueMax where
  maps := h.maps
  object_of_session := h.object_of_session
  id_eq := h.id_eq
  outbox_of_none := by
    intro id' hnone
    have hbox := h.outbox_of_none hnone
    have hid : id' ≠ id := by
      rintro rfl
      simp [hbox] at hlt
    rw [outbox_updateOutbox, if_neg hid, hbox]
  sound id' := by
    rw [outbox_updateOutbox]
    split_ifs with hid
    · exact (h.sound id).callback hlt
    · exact h.sound id'
  open_complete := by
    intro id' session hsession hopen
    have hcomplete := h.open_complete hsession hopen
    rw [outbox_updateOutbox]
    split_ifs with hid
    · exact hid ▸ hcomplete
    · exact hcomplete

lemma sessions_of_removeSession {sessionId : JSString}
    (h : (s.maps.removeSession sessionId).1.sessions id = some session) :
    s.maps.sessions id = some session := by
  unfold SessionMaps.removeSession at h
  split at h
  · have hne : id ≠ sessionId := by
      rintro rfl
      simp [SessionMaps.deleteSession] at h
    simpa [SessionMaps.deleteSession, hne] using h
  · exact h

lemma Accounted.removeSession (h : s.Accounted sendQueueMax) (id : JSString) :
    ({ s with maps := (s.maps.removeSession id).1 } : SendState K M).Accounted sendQueueMax where
  maps := @SessionMaps.Indexed.step _ _ _ (.removeSession id) h.maps trivial rfl
  object_of_session := by
    intro id' session hsession
    exact h.object_of_session (sessions_of_removeSession hsession)
  id_eq := h.id_eq
  outbox_of_none := h.outbox_of_none
  sound := h.sound
  open_complete := h.open_complete

end

lemma Accounted.step {event : SendEvent K M} (h : s.Accounted sendQueueMax)
    (hallowed : s.Allowed event) (hstep : s.step sendQueueMax event = some s') :
    s'.Accounted sendQueueMax := by
  cases event with
  | registerSession params id socket =>
      obtain rfl := Option.some.inj hstep
      exact h.registerSession socket hallowed.1 hallowed.2
  | removeSession sessionId =>
      obtain rfl := Option.some.inj hstep
      exact h.removeSession sessionId
  | sendToSession session data =>
      obtain rfl := Option.some.inj hstep
      exact h.sendToSession hallowed _
  | broadcastToDocument docId data excludeSessionId =>
      obtain rfl := Option.some.inj hstep
      exact (h.sendToAll fun session hmem => h.object_of_ofIds hmem).of_opened rfl rfl rfl
        fun _ hk => hk
  | broadcastToUser userId data =>
      obtain rfl := Option.some.inj hstep
      exact h.sendToAll fun session hmem => h.object_of_ofIds hmem
  | callback sessionId =>
      simp only [SendState.step, Option.ite_none_right_eq_some, Option.some.injEq] at hstep
      obtain ⟨hlt, rfl⟩ := hstep
      exact h.callback hlt
  | close socket code reason =>
      obtain rfl := Option.some.inj hstep
      have hkept : Kept s (s.close socket code reason) := kept_close
      exact h.of_opened hkept.maps_eq hkept.objects_eq (outbox_close ..) hkept.opened
  | closing socket =>
      simp only [SendState.step, Option.ite_none_right_eq_some, Option.some.injEq] at hstep
      obtain ⟨-, rfl⟩ := hstep
      refine h.of_opened rfl rfl rfl fun k hk => ?_
      by_cases hks : k = socket
      · subst hks
        simp at hk
      · simpa [hks] using hk
  | closed socket =>
      obtain rfl := Option.some.inj hstep
      refine h.of_opened rfl rfl rfl fun k hk => ?_
      by_cases hks : k = socket
      · subst hks
        simp at hk
      · simpa [hks] using hk

lemma Reachable.accounted (h : s.Reachable sendQueueMax) : s.Accounted sendQueueMax :=
  h.invariant accounted_init fun _ _ _ => Accounted.step

/-- **Backpressure.**  Of a session that was made on the worker, the counter is the number of
payloads on their way, at most the limit; what the socket took is what the session was to be sent,
from the start and without a gap; and a session that missed anything is on a socket that is not
open any more. -/
theorem backpressure (h : s.Reachable sendQueueMax) (hsession : s.objects id = some session) :
    (s.outbox id).sendQueue = (s.outbox id).handed.length - (s.outbox id).returned ∧
      0 ≤ (s.outbox id).sendQueue ∧ (s.outbox id).sendQueue ≤ sendQueueMax ∧
      (s.outbox id).handed <+: (s.outbox id).calls ∧
      ((s.outbox id).handed ≠ (s.outbox id).calls → s.readyState session.socket ≠ .opened) := by
  have hs := h.accounted
  have hsound := hs.sound id
  refine ⟨hsound.sendQueue_eq, ?_, hsound.sendQueue_le, hsound.handed_calls, fun hgap hopen => ?_⟩
  · have heq := hsound.sendQueue_eq
    have hle := hsound.returned_le
    omega
  · exact hgap (hs.open_complete hsession hopen)

/-- A document with two sessions, the second registered after the first broadcast, and a limit of
two payloads.  The first session writes its payloads, the second does not. -/
def slowConsumer : SendState Nat Nat :=
  (runAllowed (step 2) Allowed init
    [.registerSession ⟨JSString.ofNat 1, some (JSString.ofNat 7), JSString.ofNat 2, [], [], 0⟩
        (JSString.ofNat 101) 0,
      .broadcastToDocument (JSString.ofNat 7) 10 none, .callback (JSString.ofNat 101),
      .registerSession ⟨JSString.ofNat 3, some (JSString.ofNat 7), JSString.ofNat 4, [], [], 0⟩
        (JSString.ofNat 102) 1,
      .broadcastToDocument (JSString.ofNat 7) 11 none, .callback (JSString.ofNat 101),
      .broadcastToUser (JSString.ofNat 3) 90,
      .broadcastToDocument (JSString.ofNat 7) 12 none, .callback (JSString.ofNat 101),
      .callback (JSString.ofNat 102),
      .broadcastToDocument (JSString.ofNat 7) 13 none]).get (by decide +kernel)

/-- The second session of `slowConsumer`. -/
def slowSession : WorkerSession Nat :=
  (slowConsumer.objects (JSString.ofNat 102)).get (by decide +kernel)

lemma reachable_slowConsumer : slowConsumer.Reachable 2 := reach_get _

theorem backpressure_slowConsumer :
    ((slowConsumer.outbox (JSString.ofNat 102)).sendQueue =
          (slowConsumer.outbox (JSString.ofNat 102)).handed.length -
            (slowConsumer.outbox (JSString.ofNat 102)).returned ∧
        0 ≤ (slowConsumer.outbox (JSString.ofNat 102)).sendQueue ∧
        (slowConsumer.outbox (JSString.ofNat 102)).sendQueue ≤ (2 : Nat) ∧
        (slowConsumer.outbox (JSString.ofNat 102)).handed <+:
          (slowConsumer.outbox (JSString.ofNat 102)).calls ∧
        ((slowConsumer.outbox (JSString.ofNat 102)).handed ≠
            (slowConsumer.outbox (JSString.ofNat 102)).calls →
          slowConsumer.readyState slowSession.socket ≠ .opened)) ∧
      (slowConsumer.outbox (JSString.ofNat 102)).handed.map (·.data) = [11, 90] ∧
      (slowConsumer.outbox (JSString.ofNat 102)).calls.map (·.data) = [11, 90, 12, 13] ∧
      slowConsumer.closeFrame 1 = some ⟨4009, JSString.lit "Slow consumer"⟩ :=
  ⟨backpressure reachable_slowConsumer (Option.some_get _).symm, by decide +kernel,
    by decide +kernel, by decide +kernel⟩

/-! ## The broadcasts to a document -/

omit [DecidableEq K] in
/-- The broadcasts to the document since the session was registered, without those that exclude
it. -/
def addressed (s : SendState K M) (id docId : JSString) : List M :=
  ((s.broadcasts docId).drop (s.outbox id).joinedAt).filterMap fun b =>
    if b.2 = some id then none else some b.1

/-- The calls of a broadcast, one for each session that is not excluded. -/
lemma calls_sendToAll (s : SendState K M) (excludeSessionId : Option JSString) (out : Outgoing M)
    {sessions : List (WorkerSession K)} (hnd : (sessions.map (·.id)).Nodup) (id : JSString) :
    ((s.sendToAll sendQueueMax excludeSessionId out sessions).outbox id).calls =
      (s.outbox id).calls ++
        if (∃ session ∈ sessions, session.id = id) ∧ some id ≠ excludeSessionId then [out]
        else [] := by
  induction sessions generalizing s with
  | nil => simp [sendToAll]
  | cons session sessions ih =>
      obtain ⟨hnotMem, hnd'⟩ := List.nodup_cons.mp hnd
      rw [sendToAll, List.foldl_cons, ← sendToAll, ih _ hnd']
      by_cases hid : session.id = id
      · have hrest : ¬ ∃ session' ∈ sessions, session'.id = id := by
          rintro ⟨session', hmem, heq⟩
          exact hnotMem (List.mem_map.mpr ⟨session', hmem, heq.trans hid.symm⟩)
        by_cases hex : some session.id = excludeSessionId
        · simp [← hid, hex]
        · have hex' : ¬ some id = excludeSessionId := hid ▸ hex
          rw [if_neg hex, calls_sendToSession, if_pos hid.symm]
          simp [hrest, hid, hex']
      · have hcalls : ((if some session.id = excludeSessionId then s
            else (s.sendToSession sendQueueMax session out).1).outbox id).calls =
            (s.outbox id).calls := by
          split_ifs
          · rfl
          · rw [calls_sendToSession, if_neg (Ne.symm hid)]
        rw [hcalls]
        simp [hid]

/-- A call outside of broadcasts to documents is none of theirs. -/
lemma fromDocument_sendToSession (s : SendState K M) (session : WorkerSession K) (data : M)
    (id docId : JSString) :
    ((s.sendToSession sendQueueMax session ⟨data, none⟩).1.outbox id).calls.filterMap
        (Outgoing.fromDocument docId) =
      (s.outbox id).calls.filterMap (Outgoing.fromDocument docId) := by
  rw [calls_sendToSession]
  split_ifs
  · simp [Outgoing.fromDocument]
  · rfl

lemma fromDocument_sendToAll (s : SendState K M) (excludeSessionId : Option JSString) (data : M)
    (sessions : List (WorkerSession K)) (id docId : JSString) :
    ((s.sendToAll sendQueueMax excludeSessionId ⟨data, none⟩ sessions).outbox id).calls.filterMap
        (Outgoing.fromDocument docId) =
      (s.outbox id).calls.filterMap (Outgoing.fromDocument docId) := by
  refine List.foldlRecOn sessions _
    (motive := fun s' : SendState K M => (s'.outbox id).calls.filterMap
      (Outgoing.fromDocument docId) = (s.outbox id).calls.filterMap (Outgoing.fromDocument docId))
    rfl fun s' h session _ => ?_
  split_ifs
  · exact h
  · rw [fromDocument_sendToSession, h]

/-- What the sessions were to be sent of the broadcasts to their documents. -/
structure Streamed (s : SendState K M) : Prop where
  joinedAt_le : ∀ {id session docId}, s.objects id = some session → session.docId = some docId →
    (s.outbox id).joinedAt ≤ (s.broadcasts docId).length
  calls_prefix : ∀ {id session docId}, s.objects id = some session → session.docId = some docId →
    (s.outbox id).calls.filterMap (Outgoing.fromDocument docId) <+: s.addressed id docId
  calls_eq : ∀ {id session docId}, s.maps.sessions id = some session →
    session.docId = some docId →
    (s.outbox id).calls.filterMap (Outgoing.fromDocument docId) = s.addressed id docId

omit [DecidableEq K] in
lemma streamed_init : (init : SendState K M).Streamed where
  joinedAt_le := by simp [init]
  calls_prefix := by simp [init]
  calls_eq := by simp [init, SessionMaps.empty]

omit [DecidableEq K] in
/-- What makes no session and is no broadcast to a document. -/
lemma Streamed.of_quiet (h : s.Streamed) (hobjects : s'.objects = s.objects)
    (hsessions : ∀ id session, s'.maps.sessions id = some session →
      s.maps.sessions id = some session)
    (hbroadcasts : s'.broadcasts = s.broadcasts)
    (hjoinedAt : ∀ id, (s'.outbox id).joinedAt = (s.outbox id).joinedAt)
    (hcalls : ∀ id docId, (s'.outbox id).calls.filterMap (Outgoing.fromDocument docId) =
      (s.outbox id).calls.filterMap (Outgoing.fromDocument docId)) : s'.Streamed where
  joinedAt_le := by
    rw [hobjects, hbroadcasts]
    intro id session docId hsession hdoc
    rw [hjoinedAt]
    exact h.joinedAt_le hsession hdoc
  calls_prefix := by
    intro id session docId hsession hdoc
    rw [hcalls, addressed, hjoinedAt, hbroadcasts]
    exact h.calls_prefix (hobjects ▸ hsession) hdoc
  calls_eq := by
    intro id session docId hsession hdoc
    rw [hcalls, addressed, hjoinedAt, hbroadcasts]
    exact h.calls_eq (hsessions id session hsession) hdoc

omit [DecidableEq K] in
lemma nodup_ids_ofIds (h : s.maps.Indexed) {ids : List JSString} (hids : ids.Nodup) :
    ((s.maps.ofIds ids).map (·.id)).Nodup := by
  refine List.Nodup.map_on (fun session hsession session' hsession' heq => ?_) (h.nodup_ofIds hids)
  obtain ⟨id, -, hid⟩ := List.mem_filterMap.mp hsession
  obtain ⟨id', -, hid'⟩ := List.mem_filterMap.mp hsession'
  have hids' : id = id' := (h.id_eq hid).symm.trans (heq.trans (h.id_eq hid'))
  exact Option.some.inj (hid.symm.trans (hids' ▸ hid'))

lemma Streamed.broadcastToDocument (h : s.Streamed) (hs : s.Accounted sendQueueMax)
    (docId : JSString) (data : M) (excludeSessionId : Option JSString) :
    (s.broadcastToDocument sendQueueMax docId data excludeSessionId).Streamed := by
  obtain ⟨t, ht⟩ := hs.maps.table
  have hmem : ∀ id, (∃ session ∈ s.maps.getDocumentSessions docId, session.id = id) ↔
      ∃ session, s.maps.sessions id = some session ∧ session.docId = some docId := by
    rw [← ht]
    intro id
    constructor
    · rintro ⟨session, hsession, rfl⟩
      have hsession' := SessionTable.mem_getDocumentSessions.mp hsession
      exact ⟨session, hsession'⟩
    · rintro ⟨session, hsession, hdoc⟩
      have hid := t.id_eq hsession
      exact ⟨session, SessionTable.mem_getDocumentSessions.mpr ⟨hid ▸ hsession, hdoc⟩, hid⟩
  have hnd : ((s.maps.getDocumentSessions docId).map (·.id)).Nodup := by
    refine nodup_ids_ofIds hs.maps ?_
    rw [← ht]
    exact t.nodup_docSessions docId
  have hkept : Kept s (s.sendToAll sendQueueMax excludeSessionId ⟨data, some docId⟩
    (s.maps.getDocumentSessions docId)) := kept_sendToAll ..
  have hcalls := fun id => @calls_sendToAll _ _ _ sendQueueMax s excludeSessionId
    ⟨data, some docId⟩ _ hnd id
  simp only [hmem] at hcalls
  set s' := s.sendToAll sendQueueMax excludeSessionId ⟨data, some docId⟩
    (s.maps.getDocumentSessions docId) with hs'
  -- what one broadcast adds to a session
  have hadd : ∀ id docId', (s'.outbox id).calls.filterMap (Outgoing.fromDocument docId') =
      (s.outbox id).calls.filterMap (Outgoing.fromDocument docId') ++
        if docId' = docId ∧ (∃ session, s.maps.sessions id = some session ∧
          session.docId = some docId) ∧ some id ≠ excludeSessionId then [data] else [] := by
    intro id docId'
    rw [hcalls, List.filterMap_append]
    by_cases hdoc : docId' = docId
    · subst hdoc
      split_ifs <;> simp_all [Outgoing.fromDocument]
    · split_ifs <;> simp_all [Outgoing.fromDocument, eq_comm]
  -- what it adds to the stream the session is measured against
  have haddressed : ∀ id docId', (s.outbox id).joinedAt ≤ (s.broadcasts docId').length →
      (s.broadcastToDocument sendQueueMax docId data excludeSessionId).addressed id docId' =
        s.addressed id docId' ++
          if docId' = docId ∧ some id ≠ excludeSessionId then [data] else [] := by
    intro id docId' hle
    show ((Function.update s.broadcasts docId _ docId').drop (s'.outbox id).joinedAt).filterMap
      _ = _
    rw [hkept.joinedAt_eq]
    by_cases hdoc : docId' = docId
    · subst hdoc
      rw [Function.update_self, List.drop_append_of_le_length hle, List.filterMap_append, addressed]
      by_cases hex : excludeSessionId = some id
      · simp [hex]
      · simp [hex, Ne.symm hex]
    · rw [Function.update_of_ne hdoc]
      simp [addressed, hdoc]
  -- the two additions are the same for a session in the maps
  have heq : ∀ {id session docId'}, s.maps.sessions id = some session →
      session.docId = some docId' →
      (s'.outbox id).calls.filterMap (Outgoing.fromDocument docId') =
        (s.broadcastToDocument sendQueueMax docId data excludeSessionId).addressed id docId' := by
    intro id session docId' hsession hdoc
    have hobject := hs.object_of_session hsession
    rw [hadd, haddressed id docId' (h.joinedAt_le hobject hdoc), h.calls_eq hsession hdoc]
    congr 1
    by_cases hsame : docId' = docId
    · subst hsame
      simp [hsession, hdoc]
    · simp [hsame]
  refine ⟨?_, ?_, ?_⟩
  · intro id session docId' hsession hdoc
    have hle := h.joinedAt_le (hkept.objects_eq ▸ hsession) hdoc
    show (s'.outbox id).joinedAt ≤ (Function.update s.broadcasts docId _ docId').length
    rw [hkept.joinedAt_eq]
    by_cases hsame : docId' = docId
    · subst hsame
      rw [Function.update_self, List.length_append]
      omega
    · rwa [Function.update_of_ne hsame]
  · intro id session docId' hsession hdoc
    have hobject : s.objects id = some session := hkept.objects_eq ▸ hsession
    cases hmaps : s.maps.sessions id with
    | some session' =>
        obtain rfl : session' = session :=
          Option.some.inj ((hs.object_of_session hmaps).symm.trans hobject)
        exact (heq hmaps hdoc).symm ▸ List.prefix_refl _
    | none =>
        -- a session that was removed is sent nothing, and the document goes on
        show (s'.outbox id).calls.filterMap _ <+: _
        rw [hadd, haddressed id docId' (h.joinedAt_le hobject hdoc)]
        simp only [hmaps, reduceCtorEq, false_and, exists_false, and_false, if_false,
          List.append_nil]
        exact (h.calls_prefix hobject hdoc).trans (List.prefix_append _ _)
  · intro id session docId' hsession hdoc
    have hmaps : s'.maps.sessions id = some session := hsession
    rw [hkept.maps_eq] at hmaps
    exact heq hmaps hdoc

omit [DecidableEq K] in
lemma Streamed.registerSession (h : s.Streamed) (hs : s.Accounted sendQueueMax)
    {params : SessionParams} (socket : K) (hnew : s.objects id = none) :
    (s.registerSession params id socket).Streamed := by
  have hbox := hs.outbox_of_none hnew
  -- the new session starts where its document is
  have hstart : ∀ docId, params.docId = some docId →
      ((s.registerSession params id socket).outbox id).joinedAt = (s.broadcasts docId).length ∧
        ((s.registerSession params id socket).outbox id).calls = [] := by
    intro docId hdoc
    rw [outbox_registerSession, if_pos rfl, hdoc, hbox]
    exact ⟨rfl, rfl⟩
  have hself : ∀ docId, params.docId = some docId →
      ((s.registerSession params id socket).outbox id).calls.filterMap
          (Outgoing.fromDocument docId) =
        (s.registerSession params id socket).addressed id docId := by
    intro docId hdoc
    obtain ⟨hjoined, hcalls⟩ := hstart docId hdoc
    have hbroadcasts : (s.registerSession params id socket).broadcasts = s.broadcasts := rfl
    rw [hcalls, addressed, hjoined, hbroadcasts, List.drop_length]
    rfl
  have hothers : ∀ id', id' ≠ id →
      (s.registerSession params id socket).outbox id' = s.outbox id' := fun id' hid => by
    rw [outbox_registerSession, if_neg hid]
  have hsession_self : ∀ session, some (params.session id socket) = some session →
      session.docId = params.docId := by
    rintro _ ⟨⟩
    rfl
  refine ⟨?_, ?_, ?_⟩
  · intro id' session docId hsession hdoc
    have hsession' : Function.update s.objects id (some (params.session id socket)) id' =
      some session := hsession
    by_cases hid : id' = id
    · subst hid
      rw [Function.update_self] at hsession'
      exact (hstart docId (hsession_self session hsession' ▸ hdoc)).1.le
    · rw [Function.update_of_ne hid] at hsession'
      rw [hothers id' hid]
      exact h.joinedAt_le hsession' hdoc
  · intro id' session docId hsession hdoc
    have hsession' : Function.update s.objects id (some (params.session id socket)) id' =
      some session := hsession
    by_cases hid : id' = id
    · subst hid
      rw [Function.update_self] at hsession'
      rw [hself docId (hsession_self session hsession' ▸ hdoc)]
    · rw [Function.update_of_ne hid] at hsession'
      rw [addressed, hothers id' hid]
      exact h.calls_prefix hsession' hdoc
  · intro id' session docId hsession hdoc
    have hsession' : Function.update s.maps.sessions id (some (params.session id socket)) id' =
      some session := hsession
    by_cases hid : id' = id
    · subst hid
      rw [Function.update_self] at hsession'
      exact hself docId (hsession_self session hsession' ▸ hdoc)
    · rw [Function.update_of_ne hid] at hsession'
      rw [addressed, hothers id' hid]
      exact h.calls_eq hsession' hdoc

omit [DecidableEq K] in
lemma Streamed.of_kept (h : s.Streamed) (hkept : Kept s s')
    (hcalls : ∀ id docId, (s'.outbox id).calls.filterMap (Outgoing.fromDocument docId) =
      (s.outbox id).calls.filterMap (Outgoing.fromDocument docId)) : s'.Streamed :=
  h.of_quiet hkept.objects_eq (fun _ _ hsession => hkept.maps_eq ▸ hsession)
    hkept.broadcasts_eq hkept.joinedAt_eq hcalls

lemma Streamed.step {event : SendEvent K M} (h : s.Streamed) (hs : s.Accounted sendQueueMax)
    (hallowed : s.Allowed event) (hstep : s.step sendQueueMax event = some s') :
    s'.Streamed := by
  cases event with
  | registerSession params id socket =>
      obtain rfl := Option.some.inj hstep
      exact h.registerSession hs socket hallowed.1
  | removeSession sessionId =>
      obtain rfl := Option.some.inj hstep
      exact h.of_quiet rfl (fun _ _ => sessions_of_removeSession) rfl (fun _ => rfl)
        fun _ _ => rfl
  | sendToSession session data =>
      obtain rfl := Option.some.inj hstep
      exact h.of_kept (kept_sendToSession ..) (fromDocument_sendToSession s session data)
  | broadcastToDocument docId data excludeSessionId =>
      obtain rfl := Option.some.inj hstep
      exact h.broadcastToDocument hs docId data excludeSessionId
  | broadcastToUser userId data =>
      obtain rfl := Option.some.inj hstep
      exact h.of_kept (kept_sendToAll ..) (fromDocument_sendToAll s none data _)
  | callback sessionId =>
      simp only [SendState.step, Option.ite_none_right_eq_some, Option.some.injEq] at hstep
      obtain ⟨-, rfl⟩ := hstep
      refine h.of_kept (kept_updateOutbox fun _ => rfl) fun id docId => ?_
      rw [outbox_updateOutbox]
      split_ifs with hid
      · rw [hid]
      · rfl
  | close socket code reason =>
      obtain rfl := Option.some.inj hstep
      exact h.of_kept kept_close fun _ _ => by rw [outbox_close]
  | closing socket =>
      simp only [SendState.step, Option.ite_none_right_eq_some, Option.some.injEq] at hstep
      obtain ⟨-, rfl⟩ := hstep
      exact h.of_quiet rfl (fun _ _ hsession => hsession) rfl (fun _ => rfl) fun _ _ => rfl
  | closed socket =>
      obtain rfl := Option.some.inj hstep
      exact h.of_quiet rfl (fun _ _ hsession => hsession) rfl (fun _ => rfl) fun _ _ => rfl

lemma Reachable.streamed (h : s.Reachable sendQueueMax) : s.Streamed := by
  have hboth : s.Accounted sendQueueMax ∧ s.Streamed := by
    refine h.invariant (P := fun s => s.Accounted sendQueueMax ∧ s.Streamed)
      ⟨accounted_init, streamed_init⟩ ?_
    rintro s event s' ⟨hs, hstream⟩ hallowed hstep
    exact ⟨hs.step hallowed hstep, hstream.step hs hallowed hstep⟩
  exact hboth.2

/-- **A socket follows its document from the JOIN on.**  Of the broadcasts to the document of a
session the socket took, in their order, the first ones since the session was registered, without
a gap; and all of them while the session is registered and the socket open. -/
theorem document_stream {docId : JSString} (h : s.Reachable sendQueueMax)
    (hsession : s.objects id = some session) (hdoc : session.docId = some docId) :
    (s.outbox id).handed.filterMap (Outgoing.fromDocument docId) <+: s.addressed id docId ∧
      (s.maps.getSession id = some session → s.readyState session.socket = .opened →
        (s.outbox id).handed.filterMap (Outgoing.fromDocument docId) = s.addressed id docId) := by
  have hs := h.accounted
  have hstream := h.streamed
  refine ⟨((hs.sound id).handed_calls.filterMap _).trans (hstream.calls_prefix hsession hdoc), ?_⟩
  intro hmaps hopen
  rw [hs.open_complete hsession hopen]
  exact hstream.calls_eq hmaps hdoc

theorem document_stream_slowConsumer :
    ((slowConsumer.outbox (JSString.ofNat 102)).handed.filterMap
          (Outgoing.fromDocument (JSString.ofNat 7)) <+:
        slowConsumer.addressed (JSString.ofNat 102) (JSString.ofNat 7) ∧
      (slowConsumer.maps.getSession (JSString.ofNat 102) = some slowSession →
        slowConsumer.readyState slowSession.socket = .opened →
          (slowConsumer.outbox (JSString.ofNat 102)).handed.filterMap
              (Outgoing.fromDocument (JSString.ofNat 7)) =
            slowConsumer.addressed (JSString.ofNat 102) (JSString.ofNat 7))) ∧
      slowConsumer.addressed (JSString.ofNat 102) (JSString.ofNat 7) = [11, 12, 13] :=
  ⟨document_stream reachable_slowConsumer (Option.some_get _).symm (by decide +kernel),
    by decide +kernel⟩

end SendState

end SyncEngine
