import SyncEngine.Lib.Transition
import SyncEngine.Server.PresenceFanout

/-!
# Ghosts

USER_LEFT is sent as soon as the presence of a session has been removed; a presence of the session
that is still on its way is sent after it, and the clients show a collaborator who has left.

`Pending` says that a presence is on its way: in the queue of its session, in a call that will
publish it, on Redis, or in a batch.  No step brings a session that is gone on its way again
(`pending_step`), so that there are no ghosts in the runs in which nothing of a session is pending
when its USER_LEFT is sent (`no_ghosts`).
-/

namespace SyncEngine

open Transition

/-! ## What a client makes of the events -/

/-- The list of collaborators after an event, in `useCollaborativeDoc`. -/
def onPresenceEvent (prev : List UserPresence) : PresenceEvent → List UserPresence
  | .update presence => (prev.filter fun u => u.sessionId ≠ presence.sessionId) ++ [presence]
  | .userLeft sessionId _ => prev.filter fun u => u.sessionId ≠ sessionId

/-- A session that is not in the list comes into it by a PRESENCE_UPDATE only. -/
lemma notMem_foldl_of_silent {id : JSString} {events : List PresenceEvent}
    (hsilent : ∀ presence, .update presence ∈ events → presence.sessionId ≠ id)
    {prev : List UserPresence} (hprev : ∀ u ∈ prev, u.sessionId ≠ id) :
    ∀ u ∈ events.foldl onPresenceEvent prev, u.sessionId ≠ id := by
  induction events generalizing prev with
  | nil => exact hprev
  | cons event events ih =>
      refine ih (fun presence h => hsilent presence (List.mem_cons_of_mem _ h)) ?_
      cases event with
      | update presence =>
          intro u hu
          rcases List.mem_append.mp hu with hu | hu
          · exact hprev u (List.mem_filter.mp hu).1
          · rw [List.mem_singleton.mp hu]
            exact hsilent presence List.mem_cons_self
      | userLeft sessionId userId => exact fun u hu => hprev u (List.mem_filter.mp hu).1

/-- Who has left stays away, if no PRESENCE_UPDATE comes after. -/
lemma notMem_foldl_of_left {id : JSString} {events : List PresenceEvent}
    (hmem : ∃ userId, .userLeft id userId ∈ events)
    (hsilent : events.Pairwise fun earlier later =>
      ∀ userId presence, earlier = .userLeft id userId → later = .update presence →
        presence.sessionId ≠ id) (prev : List UserPresence) :
    ∀ u ∈ events.foldl onPresenceEvent prev, u.sessionId ≠ id := by
  induction events generalizing prev with
  | nil => simp at hmem
  | cons event events ih =>
      obtain ⟨userId, hmem⟩ := hmem
      obtain ⟨hafter, hsilent⟩ := List.pairwise_cons.mp hsilent
      rcases List.mem_cons.mp hmem with rfl | hmem
      · refine notMem_foldl_of_silent (fun presence h => hafter _ h _ presence rfl rfl) ?_
        exact fun u hu => of_decide_eq_true (List.mem_filter.mp hu).2
      · exact ih ⟨userId, hmem⟩ hsilent _

namespace PresenceFanout

variable {K : Type*}

/-! ## The property -/

/-- The events that a client was sent. -/
def sentTo [DecidableEq K] (s : PresenceFanout K) (client : WorkerSession K) :
    List PresenceEvent :=
  (s.sent.filter fun x => x.1 = client).map Prod.snd

/-- **No ghosts**. -/
structure NoGhosts [DecidableEq K] (s : PresenceFanout K) : Prop where
  /-- After the USER_LEFT of a session no PRESENCE_UPDATE of it goes to a client of the document. -/
  silent : s.sent.Pairwise fun earlier later =>
    ∀ id userId presence, earlier.2 = .userLeft id userId → later.2 = .update presence →
      earlier.1.docId = later.1.docId → presence.sessionId ≠ id
  /-- The session is not in the list of a client that it was sent to. -/
  absent : ∀ client id userId, (client, .userLeft id userId) ∈ s.sent → ∀ prev,
    ∀ u ∈ (s.sentTo client).foldl onPresenceEvent prev, u.sessionId ≠ id

/-- A presence of the session for the document. -/
def shows (docId id : JSString) : JSString × RedisMessage → Prop
  | (channel, .presence p) =>
      extractDocId channel (JSString.lit ":presence") = docId ∧ p.sessionId = id
  | (_, .op _) => False
  | (_, .userLeft _ _ _) => False

instance (docId id : JSString) : DecidablePred (shows docId id)
  | (_, .presence _) => inferInstanceAs (Decidable (_ ∧ _))
  | (_, .op _) => inferInstanceAs (Decidable False)
  | (_, .userLeft _ _ _) => inferInstanceAs (Decidable False)

/-- A presence of the session is on its way to the clients of the document. -/
def Pending (s : PresenceFanout K) (docId id : JSString) : Prop :=
  (∃ x ∈ s.queued, x.2.docId = docId ∧ x.1.id = id) ∨
    (∃ call ∈ s.calls,
      call.publishes = true ∧ call.docId = docId ∧ call.presence.sessionId = id) ∨
      (∃ message ∈ s.redis, shows docId id message) ∨ ∃ p ∈ s.batch docId, p.sessionId = id

instance (s : PresenceFanout K) (docId id : JSString) : Decidable (s.Pending docId id) :=
  inferInstanceAs (Decidable (_ ∨ _ ∨ _ ∨ _))

/-- When USER_LEFT is sent to somebody, nothing of the session is pending. -/
def Cleared (s : PresenceFanout K) : PresenceAction K → Prop
  | .leave i true => ∀ call ∈ s.leaving[i]?, call.stage = .removed →
      s.table.getDocumentSessions call.docId = [] ∨ ¬ s.Pending call.docId call.session.id
  | _ => True

instance (s : PresenceFanout K) : DecidablePred s.Cleared
  | .leave i true => inferInstanceAs (Decidable (∀ call ∈ s.leaving[i]?, _ → _ ∨ _))
  | .leave _ false => isTrue trivial
  | .join _ => isTrue trivial
  | .message _ _ => isTrue trivial
  | .take _ => isTrue trivial
  | .resume _ _ => isTrue trivial
  | .typingFires _ => isTrue trivial
  | .deliver => isTrue trivial
  | .lose => isTrue trivial
  | .flush _ => isTrue trivial
  | .close _ => isTrue trivial

/-! ## Sessions that are gone -/

/-- The session was removed. -/
def Gone (s : PresenceFanout K) (id : JSString) : Prop :=
  s.table.sessions id = none ∧ id ∈ s.used

/-- Ids are drawn once, whoever leaves is gone, and a handler is for the document it is kept
under. -/
structure Tidy (s : PresenceFanout K) : Prop where
  known : ∀ {id session}, s.table.sessions id = some session → id ∈ s.used
  leaving : ∀ call ∈ s.leaving, s.Gone call.session.id
  keyed : s.pubSub.Keyed

variable {s s' : PresenceFanout K} {docId id : JSString} {i : Nat}

lemma tidy_start : Tidy (start : PresenceFanout K) := by
  refine ⟨?_, ?_, PubSub.keyed_start⟩ <;> simp [start, SessionTable.empty]

lemma Gone.join (h : s.Gone id) {session : ValidatedSession K}
    (hnew : s.table.sessions session.id = none) (hunused : session.id ∉ s.used) :
    (s.join session hnew).Gone id := by
  have hid : id ≠ session.id := fun heq => hunused (heq ▸ h.2)
  refine ⟨?_, List.mem_append_left _ h.2⟩
  rw [PresenceFanout.join, SessionTable.sessions_registerSession, Function.update_of_ne hid]
  exact h.1

lemma Gone.handleDisconnect (h : s.Gone id) (session : WorkerSession K) :
    (s.handleDisconnect session).Gone id := by
  refine ⟨?_, h.2⟩
  rw [PresenceFanout.handleDisconnect, SessionTable.sessions_removeSession]
  by_cases hid : id = session.id
  · rw [hid, Function.update_self]
  · rw [Function.update_of_ne hid, h.1]

/-- The sessions are the same, and so are those that leave; nothing is sent. -/
structure SameSessions (s s' : PresenceFanout K) : Prop where
  table : s'.table = s.table
  used : s'.used = s.used
  leaving : s'.leaving = s.leaving
  sent : s'.sent = s.sent

lemma SameSessions.gone (h : SameSessions s s') (hgone : s.Gone id) : s'.Gone id := by
  rw [Gone, h.table, h.used]
  exact hgone

lemma SameSessions.tidy (h : SameSessions s s') (hs : s.Tidy) (hkeyed : s'.pubSub.Keyed) :
    s'.Tidy where
  known := by
    rw [h.table, h.used]
    exact hs.known
  leaving := by
    rw [h.leaving]
    exact fun call hcall => h.gone (hs.leaving call hcall)
  keyed := hkeyed

lemma sameSessions_resume (s : PresenceFanout K) (i : Nat) (call : PresenceCall) (ok : Bool) :
    SameSessions s (s.resume i call call.stage ok) := by
  rcases s.resume_cases i call ok with ⟨stage, -, h⟩ | h | h | h | h <;> rw [h] <;>
    exact ⟨rfl, rfl, rfl, rfl⟩

lemma Tidy.keyed_resume (hs : s.Tidy) (i : Nat) (call : PresenceCall) (ok : Bool) :
    (s.resume i call call.stage ok).pubSub.Keyed := by
  rcases s.resume_cases i call ok with ⟨stage, -, h⟩ | h | h | h | h <;> rw [h]
  · exact hs.keyed
  · exact hs.keyed
  · exact hs.keyed.subscribe call.docId
  · exact hs.keyed
  · exact hs.keyed

/-- The handlers of a message change the batches only. -/
lemma foldl_handle (calls : List HandlerCall) (s : PresenceFanout K) :
    ∃ batches timers, calls.foldl handle s =
      { s with presenceBatches := batches, presenceTimers := timers } := by
  induction calls generalizing s with
  | nil => exact ⟨_, _, rfl⟩
  | cons call calls ih =>
      obtain ⟨batches, timers, h⟩ := ih (s.handle call)
      refine ⟨batches, timers, ?_⟩
      rw [List.foldl_cons, h]
      cases call <;> rfl

/-- A batch is sent presence by presence. -/
lemma foldl_broadcast (presences : List UserPresence) (docId : JSString) (s : PresenceFanout K) :
    presences.foldl (fun s p => s.broadcast docId (.update p)) s =
      { s with
        sent := s.sent ++ presences.flatMap fun p =>
          s.table.broadcastToDocument docId (.update p) } := by
  induction presences generalizing s with
  | nil => simp
  | cons p presences ih => rw [List.foldl_cons, ih]; simp [broadcast]

/-- What a call of `handleDisconnect` leaves of the other calls. -/
lemma leaving_leave (s : PresenceFanout K) (i : Nat) (call : LeaveCall K) (stage : LeaveAwait)
    (ok : Bool) : ∀ call' ∈ (s.leave i call stage ok).leaving,
      ∃ call ∈ s.leaving, call.session = call'.session := by
  have hstage : ∀ stage', ∀ call' ∈ (s.toLeaveStage i stage').leaving,
      ∃ call ∈ s.leaving, call.session = call'.session := by
    intro stage' call' h
    obtain ⟨j, hj⟩ := List.getElem?_of_mem h
    rw [toLeaveStage, List.getElem?_modify] at hj
    obtain ⟨call, hcall, heq⟩ := Option.map_eq_some_iff.mp hj
    refine ⟨call, List.mem_of_getElem? hcall, ?_⟩
    rw [← heq]
    split <;> rfl
  have hfinish : ∀ call' ∈ (s.finishLeave i).leaving,
      ∃ call ∈ s.leaving, call.session = call'.session :=
    fun call' h => ⟨call', List.mem_of_mem_eraseIdx h, rfl⟩
  rcases s.leave_cases i call stage ok with h | ⟨-, h⟩ | h | h <;> rw [h]
  · exact hstage .removed
  · exact hstage .announced
  · exact hfinish
  · exact hfinish

lemma Move.gone {a : PresenceAction K} (h : s.Move a s') (hgone : s.Gone id) : s'.Gone id := by
  cases h with
  | join hnew hunused => exact hgone.join hnew hunused
  | message hsession => exact hgone
  | take hx => exact hgone
  | @resume i ok call hcall => exact (s.sameSessions_resume i call ok).gone hgone
  | typingFires hp =>
      rw [onTyping]
      split <;> exact hgone
  | @deliver channel message redis hredis =>
      obtain ⟨batches, timers, heq⟩ :=
        foldl_handle (s.pubSub.receive channel message) { s with redis := redis }
      exact heq ▸ hgone
  | lose hredis => exact hgone
  | flush =>
      rw [onBatchTimer, foldl_broadcast]
      exact hgone
  | close hsession => exact hgone.handleDisconnect _
  | @leave i ok call hcall =>
      rcases s.leave_cases i call call.stage ok with h | ⟨-, h⟩ | h | h <;> rw [h] <;> exact hgone

lemma Tidy.join (hs : s.Tidy) {session : ValidatedSession K}
    (hnew : s.table.sessions session.id = none) (hunused : session.id ∉ s.used) :
    (s.join session hnew).Tidy where
  known := by
    intro id other h
    rw [PresenceFanout.join, SessionTable.sessions_registerSession] at h
    by_cases hid : id = session.id
    · exact List.mem_append_right _ (List.mem_singleton.mpr hid)
    · rw [Function.update_of_ne hid] at h
      exact List.mem_append_left _ (hs.known h)
  leaving call hcall := (hs.leaving call hcall).join hnew hunused
  keyed := hs.keyed

lemma Tidy.handleDisconnect (hs : s.Tidy) {session : WorkerSession K}
    (h : s.table.sessions id = some session) : (s.handleDisconnect session).Tidy where
  known := by
    intro id' other h
    rw [PresenceFanout.handleDisconnect, SessionTable.sessions_removeSession] at h
    by_cases hid : id' = session.id
    · simp [hid] at h
    · rw [Function.update_of_ne hid] at h
      exact hs.known h
  leaving := by
    intro call hcall
    rcases List.mem_append.mp hcall with hcall | hcall
    · exact (hs.leaving call hcall).handleDisconnect session
    · have hsession : call.session = session := by
        split at hcall
        · rw [List.mem_singleton.mp hcall]
        · simp at hcall
      have hknown : session.id ∈ s.used := (s.table.id_eq h).symm ▸ hs.known h
      refine ⟨?_, hsession.symm ▸ hknown⟩
      rw [hsession, PresenceFanout.handleDisconnect, SessionTable.sessions_removeSession,
        Function.update_self]
  keyed := hs.keyed

lemma Tidy.leave (hs : s.Tidy) (i : Nat) (call : LeaveCall K) (stage : LeaveAwait) (ok : Bool) :
    (s.leave i call stage ok).Tidy := by
  have hsessions : (s.leave i call stage ok).table = s.table ∧
      (s.leave i call stage ok).used = s.used ∧ (s.leave i call stage ok).pubSub.Keyed := by
    rcases s.leave_cases i call stage ok with h | ⟨-, h⟩ | h | h <;> rw [h]
    · exact ⟨rfl, rfl, hs.keyed⟩
    · exact ⟨rfl, rfl, hs.keyed⟩
    · exact ⟨rfl, rfl, hs.keyed.unsubscribe call.docId⟩
    · exact ⟨rfl, rfl, hs.keyed⟩
  refine ⟨?_, fun call' hcall' => ?_, hsessions.2.2⟩
  · rw [hsessions.1, hsessions.2.1]
    exact hs.known
  · obtain ⟨old, hold, heq⟩ := s.leaving_leave i call stage ok call' hcall'
    rw [Gone, hsessions.1, hsessions.2.1, ← heq]
    exact hs.leaving old hold

lemma Move.tidy {a : PresenceAction K} (h : s.Move a s') (hs : s.Tidy) : s'.Tidy := by
  cases h with
  | join hnew hunused => exact hs.join hnew hunused
  | message hsession => exact ⟨hs.known, hs.leaving, hs.keyed⟩
  | take hx => exact ⟨hs.known, hs.leaving, hs.keyed⟩
  | @resume i ok call hcall =>
      exact (s.sameSessions_resume i call ok).tidy hs
        (hs.keyed_resume i call ok)
  | typingFires hp =>
      rw [onTyping]
      split <;> exact ⟨hs.known, hs.leaving, hs.keyed⟩
  | @deliver channel message redis hredis =>
      obtain ⟨batches, timers, heq⟩ :=
        foldl_handle (s.pubSub.receive channel message) { s with redis := redis }
      exact heq ▸ ⟨hs.known, hs.leaving, hs.keyed⟩
  | lose hredis => exact ⟨hs.known, hs.leaving, hs.keyed⟩
  | flush =>
      rw [onBatchTimer, foldl_broadcast]
      exact ⟨hs.known, hs.leaving, hs.keyed⟩
  | close hsession => exact hs.handleDisconnect hsession
  | @leave i ok call hcall => exact hs.leave i call call.stage ok

/-! ## What is on its way -/

/-- What is published is on its way, unless it was before. -/
lemma pending_publishPresence {p : Publication} (h : (s.publishPresence p).Pending docId id) :
    s.Pending docId id ∨ p.docId = docId ∧ p.presence.sessionId = id := by
  rcases h with h | h | ⟨message, hmem, hshows⟩ | h
  · exact Or.inl (Or.inl h)
  · exact Or.inl (Or.inr (Or.inl h))
  · rcases List.mem_append.mp hmem with hmem | hmem
    · exact Or.inl (Or.inr (Or.inr (Or.inl ⟨message, hmem, hshows⟩)))
    · rw [List.mem_singleton.mp hmem, shows, extractDocId_presenceChannel p.colon_notMem] at hshows
      exact Or.inr hshows
  · exact Or.inl (Or.inr (Or.inr (Or.inr h)))

/-- Nothing comes on the way where nothing of the session is new. -/
lemma Pending.of_subset (h : s'.Pending docId id)
    (hqueued : ∀ x ∈ s'.queued, x.1.id = id → x ∈ s.queued)
    (hcalls : ∀ call ∈ s'.calls, call.presence.sessionId = id → call ∈ s.calls)
    (hredis : ∀ message ∈ s'.redis, shows docId id message → message ∈ s.redis)
    (hbatch : ∀ p ∈ s'.batch docId, p ∈ s.batch docId) : s.Pending docId id := by
  rcases h with ⟨x, hx, hdoc, hid⟩ | ⟨call, hcall, hpublishes, hdoc, hid⟩ |
    ⟨message, hmem, hshows⟩ | ⟨p, hp, hid⟩
  · exact Or.inl ⟨x, hqueued x hx hid, hdoc, hid⟩
  · exact Or.inr (Or.inl ⟨call, hcalls call hcall hid, hpublishes, hdoc, hid⟩)
  · exact Or.inr (Or.inr (Or.inl ⟨message, hredis message hmem hshows, hshows⟩))
  · exact Or.inr (Or.inr (Or.inr ⟨p, hbatch p hp, hid⟩))

lemma pending_finish (h : (s.finish i).Pending docId id) : s.Pending docId id :=
  h.of_subset (fun _ hx _ => hx) (fun _ hcall _ => List.mem_of_mem_eraseIdx hcall)
    (fun _ hmem _ => hmem) fun _ hp => hp

lemma pending_publishUserLeft {docId' : JSString} {session : WorkerSession K}
    (h : (s.publishUserLeft docId' session).Pending docId id) : s.Pending docId id := by
  refine h.of_subset (fun _ hx _ => hx) (fun _ hcall _ => hcall) (fun message hmem hshows => ?_)
    fun _ hp => hp
  rcases List.mem_append.mp hmem with hmem | hmem
  · exact hmem
  · rw [List.mem_singleton.mp hmem] at hshows
    exact hshows.elim

lemma Gone.pending_join (hgone : s.Gone id) {session : ValidatedSession K}
    {hnew : s.table.sessions session.id = none} (hunused : session.id ∉ s.used)
    (h : (s.join session hnew).Pending docId id) : s.Pending docId id := by
  refine h.of_subset (fun _ hx _ => hx) (fun call hcall hid => ?_) (fun _ hmem _ => hmem)
    fun _ hp => hp
  rcases List.mem_append.mp hcall with hcall | hcall
  · exact hcall
  · split at hcall
    · rw [List.mem_singleton.mp hcall] at hid
      have hsession : session.id = id := hid
      exact absurd (hsession ▸ hgone.2) hunused
    · simp at hcall

/-- The typing timer goes on only if it finds the session. -/
lemma Gone.pending_onTyping (hgone : s.Gone id) {key : JSString} {p : Publication}
    (h : (s.onTyping key p).Pending docId id) : s.Pending docId id := by
  rw [onTyping] at h
  split at h
  · exact h
  · rename_i hsome
    refine h.of_subset (fun _ hx _ => hx) (fun call hcall hid => ?_) (fun _ hmem _ => hmem)
      fun _ hp => hp
    rcases List.mem_append.mp hcall with hcall | hcall
    · exact hcall
    · rw [List.mem_singleton.mp hcall] at hid
      have hsession : p.presence.sessionId = id := hid
      exact absurd (by rw [hsession, hgone.1]; rfl) hsome

lemma pending_take {x : WorkerSession K × ValidatedPresence} (hx : s.queued[i]? = some x)
    (h : ({ s with queued := s.queued.eraseIdx i }.handleClientPresence x.1 x.2).Pending docId id) :
    s.Pending docId id := by
  rcases h with ⟨y, hy, h⟩ | ⟨call, hcall, hpublishes, h⟩ | h
  · exact Or.inl ⟨y, List.mem_of_mem_eraseIdx hy, h⟩
  · rcases List.mem_append.mp hcall with hcall | hcall
    · exact Or.inr (Or.inl ⟨call, hcall, hpublishes, h⟩)
    · rw [List.mem_singleton.mp hcall] at h
      exact Or.inl ⟨x, List.mem_of_getElem? hx, h⟩
  · exact Or.inr (Or.inr h)

lemma pending_onBatchTimer {docId' : JSString} (h : (s.onBatchTimer docId').Pending docId id) :
    s.Pending docId id := by
  rw [onBatchTimer, foldl_broadcast] at h
  refine h.of_subset (fun _ hx _ => hx) (fun _ hcall _ => hcall) (fun _ hmem _ => hmem)
    fun p hp => ?_
  by_cases hdoc : docId = docId'
  · simp [batch, hdoc] at hp
  · simpa only [batch, Function.update_of_ne hdoc] using hp

/-- A call comes to its next await; if it will publish then, it would have before. -/
lemma pending_toStage {call : PresenceCall} {stage : PresenceAwait}
    (hcall : s.calls[i]? = some call)
    (hstage : { call with stage := stage }.publishes = true → call.publishes = true)
    (h : (s.toStage i stage).Pending docId id) : s.Pending docId id := by
  rcases h with h | ⟨other, hother, hpublishes, h⟩ | h | h
  · exact Or.inl h
  · obtain ⟨j, hj⟩ := List.getElem?_of_mem hother
    rw [toStage, List.getElem?_modify] at hj
    obtain ⟨old, hold, heq⟩ := Option.map_eq_some_iff.mp hj
    split at heq
    · rename_i hij
      obtain rfl : old = call := Option.some.inj ((hij ▸ hold).symm.trans hcall)
      subst heq
      exact Or.inr (Or.inl ⟨old, List.mem_of_getElem? hold, hstage hpublishes, h⟩)
    · subst heq
      exact Or.inr (Or.inl ⟨old, List.mem_of_getElem? hold, hpublishes, h⟩)
  · exact Or.inr (Or.inr (Or.inl h))
  · exact Or.inr (Or.inr (Or.inr h))

/-- A call publishes its presence and comes to its next await. -/
lemma pending_publish_toStage {call : PresenceCall} {stage : PresenceAwait}
    (hcall : s.calls[i]? = some call) (hpublishes : call.publishes = true)
    (h : ((s.publishPresence call.toPublication).toStage i stage).Pending docId id) :
    s.Pending docId id := by
  have hcall' : (s.publishPresence call.toPublication).calls[i]? = some call := hcall
  rcases pending_publishPresence (pending_toStage hcall' (fun _ => hpublishes) h) with h | h
  · exact h
  · exact Or.inr (Or.inl ⟨call, List.mem_of_getElem? hcall, hpublishes, h⟩)

/-- A call that goes on only publishes what it was going to publish. -/
lemma pending_resume {call : PresenceCall} {ok : Bool} (hcall : s.calls[i]? = some call)
    (h : (s.resume i call call.stage ok).Pending docId id) : s.Pending docId id := by
  rcases s.resume_cases i call ok with ⟨stage, hpublishes, heq⟩ | heq | heq | heq | heq <;>
    rw [heq] at h
  · exact pending_publish_toStage hcall hpublishes h
  · exact pending_toStage hcall (by simp [PresenceCall.publishes]) h
  · exact pending_finish h
  · exact pending_finish h
  · exact pending_finish h

/-- What the handlers bring into the batches is what they were called with. -/
lemma pending_foldl_handle {calls : List HandlerCall}
    (h : (calls.foldl handle s).Pending docId id) :
    s.Pending docId id ∨ ∃ p, .presence docId p ∈ calls ∧ p.sessionId = id := by
  induction calls generalizing s with
  | nil => exact Or.inl h
  | cons call calls ih =>
      rcases ih h with h | ⟨p, hmem, hid⟩
      · cases call with
        | operation docId' envelope => exact Or.inl h
        | presence docId' presence =>
            rcases h with h | h | h | ⟨p, hp, hid⟩
            · exact Or.inl (Or.inl h)
            · exact Or.inl (Or.inr (Or.inl h))
            · exact Or.inl (Or.inr (Or.inr (Or.inl h)))
            · rw [handle, batch_handleRedisPresence] at hp
              split at hp
              · rename_i hdoc
                subst hdoc
                rcases mem_setPresence hp with hp | rfl
                · exact Or.inl (Or.inr (Or.inr (Or.inr ⟨p, hp, hid⟩)))
                · exact Or.inr ⟨p, List.mem_cons_self, hid⟩
              · exact Or.inl (Or.inr (Or.inr (Or.inr ⟨p, hp, hid⟩)))
      · exact Or.inr ⟨p, List.mem_cons_of_mem _ hmem, hid⟩

/-- The handlers of presence are called for the document of the channel. -/
lemma shows_of_mem_receive {p : PubSub} (hp : p.Keyed) {channel : JSString}
    {message : RedisMessage} {presence : UserPresence}
    (h : .presence docId presence ∈ p.receive channel message) :
    shows docId presence.sessionId (channel, message) := by
  rw [PubSub.receive] at h
  split at h
  · cases message with
    | presence other =>
        rw [PubSub.route] at h
        split at h
        · simp at h
        · split at h
          · obtain ⟨handler, hmem, heq⟩ := List.mem_map.mp h
            obtain ⟨hdoc, rfl⟩ := HandlerCall.presence.inj heq
            exact ⟨(hp _ handler hmem).symm.trans hdoc, rfl⟩
          · simp at h
    | op envelope =>
        rw [PubSub.route] at h
        split at h <;> simp at h
    | userLeft docId' sessionId userId => simp [PubSub.route] at h
  · simp at h

/-- **Nobody who is gone comes on the way again.** -/
lemma Move.pending {a : PresenceAction K} (h : s.Move a s') (hs : s.Tidy) (hgone : s.Gone id)
    (hpending : s'.Pending docId id) : s.Pending docId id := by
  cases h with
  | join hnew hunused => exact hgone.pending_join hunused hpending
  | @message id' msg session hsession =>
      refine hpending.of_subset (fun x hx hid => ?_) (fun _ hcall _ => hcall)
        (fun _ hmem _ => hmem) fun _ hp => hp
      rcases List.mem_append.mp hx with hx | hx
      · exact hx
      · rw [List.mem_singleton.mp hx] at hid
        rw [← hid, Gone, s.table.id_eq hsession, hsession] at hgone
        simp at hgone
  | take hx => exact pending_take hx hpending
  | resume hcall => exact pending_resume hcall hpending
  | typingFires hp => exact hgone.pending_onTyping hpending
  | @deliver channel message redis hredis =>
      rcases pending_foldl_handle hpending with h | ⟨p, hmem, rfl⟩
      · exact h.of_subset (fun _ hx _ => hx) (fun _ hcall _ => hcall)
          (fun _ hmem _ => hredis ▸ List.mem_cons_of_mem _ hmem) fun _ hp => hp
      · exact Or.inr (Or.inr (Or.inl ⟨(channel, message), hredis ▸ List.mem_cons_self,
          shows_of_mem_receive hs.keyed hmem⟩))
  | lose hredis =>
      exact hpending.of_subset (fun _ hx _ => hx) (fun _ hcall _ => hcall)
        (fun _ hmem _ => hredis ▸ List.mem_cons_of_mem _ hmem) fun _ hp => hp
  | flush => exact pending_onBatchTimer hpending
  | close hsession => exact hpending
  | @leave i ok call hcall =>
      rcases s.leave_cases i call call.stage ok with h | ⟨-, h⟩ | h | h <;> rw [h] at hpending
      · have hleft : (s.publishUserLeft call.docId call.session).Pending docId id := hpending
        exact pending_publishUserLeft hleft
      · have hleft : ((s.broadcast call.docId _).publishUserLeft call.docId
            call.session).Pending docId id := hpending
        exact pending_publishUserLeft hleft
      · exact hpending
      · exact hpending

/-! ## What is sent -/

/-- A step sends presences that are on their way, and the USER_LEFT of a session of which, if
anybody hears of it, nothing is on its way. -/
lemma Move.sent {a : PresenceAction K} (h : s.Move a s') (hs : s.Tidy) (ha : s.Cleared a) :
    ∃ new, s'.sent = s.sent ++ new ∧ ∀ x ∈ new, ∃ docId, x.1.docId = some docId ∧
      ((∃ p, x.2 = .update p ∧ s.Pending docId p.sessionId) ∨
        ∃ id userId, x.2 = .userLeft id userId ∧ s.Gone id ∧ ¬ s.Pending docId id) := by
  have hnothing : s'.sent = s.sent → ∃ new, s'.sent = s.sent ++ new ∧
      ∀ x ∈ new, ∃ docId, x.1.docId = some docId ∧
        ((∃ p, x.2 = .update p ∧ s.Pending docId p.sessionId) ∨
          ∃ id userId, x.2 = .userLeft id userId ∧ s.Gone id ∧ ¬ s.Pending docId id) :=
    fun heq => ⟨[], by rw [heq, List.append_nil], by simp⟩
  cases h with
  | join hnew hunused => exact hnothing rfl
  | message hsession => exact hnothing rfl
  | take hx => exact hnothing rfl
  | @resume i ok call hcall => exact hnothing (s.sameSessions_resume i call ok).sent
  | typingFires hp =>
      refine hnothing ?_
      rw [onTyping]
      split <;> rfl
  | @deliver channel message redis hredis =>
      obtain ⟨batches, timers, heq⟩ :=
        foldl_handle (s.pubSub.receive channel message) { s with redis := redis }
      exact hnothing (by rw [heq])
  | lose hredis => exact hnothing rfl
  | @flush docId =>
      rw [onBatchTimer, foldl_broadcast]
      refine ⟨_, rfl, fun x hx => ?_⟩
      obtain ⟨p, hp, hx⟩ := List.mem_flatMap.mp hx
      obtain ⟨hdoc, hevent⟩ := SessionTable.mem_broadcastToDocument hx
      exact ⟨docId, hdoc, Or.inl ⟨p, hevent, Or.inr (Or.inr (Or.inr ⟨p, hp, rfl⟩))⟩⟩
  | close hsession => exact hnothing rfl
  | @leave i ok call hcall =>
      rcases s.leave_cases i call call.stage ok with heq | ⟨⟨hstage, rfl⟩, heq⟩ | heq | heq
      · exact hnothing (by rw [heq]; rfl)
      · refine ⟨_, by rw [heq]; rfl, fun x hx => ?_⟩
        have hgone := hs.leaving call (List.mem_of_getElem? hcall)
        obtain ⟨hdoc, hevent⟩ := SessionTable.mem_broadcastToDocument hx
        -- what the runs promise: nobody is there to hear of it, or nothing of the session is left
        rcases ha call hcall hstage with hnobody | hclear
        · simp [SessionTable.broadcastToDocument, hnobody] at hx
        · exact ⟨call.docId, hdoc, Or.inr ⟨_, _, hevent, hgone, hclear⟩⟩
      · exact hnothing (by rw [heq]; rfl)
      · exact hnothing (by rw [heq]; rfl)

/-- What holds of all that has been sent. -/
structure Silent (s : PresenceFanout K) : Prop where
  /-- Who has left is gone for good. -/
  left : ∀ x ∈ s.sent, ∀ id userId docId, x.2 = .userLeft id userId → x.1.docId = some docId →
    s.Gone id ∧ ¬ s.Pending docId id
  recipient : ∀ x ∈ s.sent, ∃ docId, x.1.docId = some docId
  silent : s.sent.Pairwise fun earlier later =>
    ∀ id userId presence, earlier.2 = .userLeft id userId → later.2 = .update presence →
      earlier.1.docId = later.1.docId → presence.sessionId ≠ id

lemma silent_start : Silent (start : PresenceFanout K) := by
  refine ⟨?_, ?_, List.Pairwise.nil⟩ <;> simp [start]

lemma Silent.move {a : PresenceAction K} (hsilent : s.Silent) (hs : s.Tidy) (ha : s.Cleared a)
    (h : s.Move a s') : s'.Silent := by
  obtain ⟨new, hsent, hnew⟩ := h.sent hs ha
  -- who has left before or in this step is gone, and nothing of it is on its way
  have hleft : ∀ x ∈ s.sent ++ new, ∀ id userId docId, x.2 = .userLeft id userId →
      x.1.docId = some docId → s.Gone id ∧ ¬ s.Pending docId id := by
    intro x hx id userId docId hevent hdoc
    rcases List.mem_append.mp hx with hx | hx
    · exact hsilent.left x hx id userId docId hevent hdoc
    · obtain ⟨docId', hdoc', ⟨p, hupdate, -⟩ | ⟨id', userId', hevent', hgone, hclear⟩⟩ := hnew x hx
      · rw [hupdate] at hevent
        exact absurd hevent (by simp)
      · obtain rfl := Option.some.inj (hdoc'.symm.trans hdoc)
        obtain ⟨rfl, -⟩ := PresenceEvent.userLeft.inj (hevent'.symm.trans hevent)
        exact ⟨hgone, hclear⟩
  -- so that what is sent in this step is not of it
  have hafter : ∀ earlier ∈ s.sent ++ new, ∀ later ∈ new, ∀ id userId presence,
      earlier.2 = .userLeft id userId → later.2 = .update presence →
        earlier.1.docId = later.1.docId → presence.sessionId ≠ id := by
    rintro earlier hearlier later hlater id userId presence hevent hupdate hdoc rfl
    obtain ⟨docId, hdoc', ⟨p, hupdate', hpending⟩ | ⟨id', userId', hevent', -⟩⟩ :=
      hnew later hlater
    · obtain rfl := PresenceEvent.update.inj (hupdate'.symm.trans hupdate)
      exact (hleft earlier hearlier _ _ _ hevent (hdoc.trans hdoc')).2 hpending
    · rw [hevent'] at hupdate
      exact absurd hupdate (by simp)
  refine ⟨?_, ?_, ?_⟩
  · intro x hx id userId docId hevent hdoc
    obtain ⟨hgone, hclear⟩ := hleft x (hsent ▸ hx) id userId docId hevent hdoc
    exact ⟨h.gone hgone, fun hpending => hclear (h.pending hs hgone hpending)⟩
  · intro x hx
    rcases List.mem_append.mp (hsent ▸ hx) with hx | hx
    · exact hsilent.recipient x hx
    · obtain ⟨docId, hdoc, -⟩ := hnew x hx
      exact ⟨docId, hdoc⟩
  · rw [hsent]
    refine List.pairwise_append.mpr ⟨hsilent.silent, ?_, fun earlier hearlier later hlater =>
      hafter earlier (List.mem_append_left _ hearlier) later hlater⟩
    exact List.pairwise_of_forall_mem_list fun earlier hearlier later hlater =>
      hafter earlier (List.mem_append_right _ hearlier) later hlater

variable [DecidableEq K]

/-- **No ghosts** in the runs in which nothing of a session is on its way when its USER_LEFT is
sent. -/
theorem no_ghosts (s : PresenceFanout K) (h : Reach step Cleared start s) : s.NoGhosts := by
  have hs : s.Tidy ∧ s.Silent :=
    h.invariant (P := fun s => s.Tidy ∧ s.Silent) ⟨tidy_start, silent_start⟩
      fun _ _ _ hs ha hstep =>
        ⟨(move_of_step hstep).tidy hs.1, hs.2.move hs.1 ha (move_of_step hstep)⟩
  refine ⟨hs.2.silent, fun client id userId hmem prev => ?_⟩
  refine notMem_foldl_of_left ⟨userId, ?_⟩ ?_ prev
  · refine List.mem_map.mpr ⟨(client, .userLeft id userId), ?_, rfl⟩
    exact List.mem_filter.mpr ⟨hmem, by simp⟩
  · refine List.pairwise_map.mpr ((hs.2.silent.filter _).imp_of_mem ?_)
    intro earlier later hearlier hlater hsilent userId presence hevent hupdate
    have hclient : earlier.1 = later.1 := by
      rw [of_decide_eq_true (List.mem_filter.mp hearlier).2,
        of_decide_eq_true (List.mem_filter.mp hlater).2]
    exact hsilent id userId presence hevent hupdate (by rw [hclient])

/-- A session of the document `d`. -/
def collaborator (id : String) (socket : Nat) : ValidatedSession Nat where
  id := JSString.lit id
  userId := JSString.lit "u"
  siteId := JSString.lit "c"
  docId := some (JSString.lit "doc")
  displayName := JSString.lit "Ann"
  color := JSString.lit "red"
  lastSeq := 0
  socket := socket
  colon_notMem := by
    rintro _ ⟨⟩
    decide

/-- A PRESENCE for the document `d`. -/
def typing : ValidatedPresence where
  docId := JSString.lit "doc"
  update := ⟨JSString.lit "a", none, true⟩
  colon_notMem := by decide

/-- Two sessions join; the presences that they publish are delivered. -/
def twoJoins : List (PresenceAction Nat) :=
  [.join (collaborator "a" 0), .resume 0 true, .resume 0 true, .resume 0 true,
    .join (collaborator "b" 1), .resume 0 true, .resume 0 true, .resume 0 true,
    .deliver, .deliver, .flush (JSString.lit "doc")]

/-- A cursor is shown to both before the session leaves. -/
def shownAndLeft : PresenceFanout Nat :=
  (runAllowed step Cleared start
    (twoJoins ++
      [.message (JSString.lit "a") typing, .take 0, .resume 0 true, .resume 0 true,
        .deliver, .resume 0 true, .deliver, .flush (JSString.lit "doc"),
        .close (JSString.lit "a"), .leave 0 true, .leave 0 true, .leave 0 true,
        .deliver, .deliver])).get (by decide +kernel)

theorem no_ghosts_shownAndLeft : shownAndLeft.NoGhosts ∧ shownAndLeft.sent.length = 7 := by
  have hreach : Reach step Cleared start shownAndLeft := reach_get _
  exact ⟨no_ghosts shownAndLeft hreach, by decide +kernel⟩

/-- The session leaves while its cursor is on Redis. -/
def leftBeforeDelivery : PresenceFanout Nat :=
  (runAllowed step (fun _ _ => True) start
    (twoJoins ++
      [.message (JSString.lit "a") typing, .take 0, .resume 0 true,
        .close (JSString.lit "a"), .leave 0 true, .leave 0 true,
        .deliver, .flush (JSString.lit "doc")])).get (by decide +kernel)

/-- **A ghost**: the other client is told that the session has left, and then where its cursor
is. -/
theorem not_forall_no_ghosts :
    ¬ ∀ s : PresenceFanout Nat, Reach step (fun _ _ => True) start s → s.NoGhosts := by
  intro h
  have hreach : Reach step (fun _ _ => True) start leftBeforeDelivery := reach_get _
  have hghost := (h leftBeforeDelivery hreach).absent (collaborator "b" 1).toWorkerSession
    (JSString.lit "a") (JSString.lit "u") (by decide +kernel) []
  exact absurd hghost (by decide +kernel)

end PresenceFanout

end SyncEngine
