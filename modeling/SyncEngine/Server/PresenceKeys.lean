import SyncEngine.Lib.ExpiringStore
import SyncEngine.Server.PresenceGhosts

/-!
# Presence in Redis

Beside what is published of it, the presence of every session is kept in Redis, under a key of its
own that expires after 60 seconds (`server/sync/presence-manager.ts`).  Who joins a document reads
these keys with `getAllPresence`, which takes two commands: KEYS, and MGET of what KEYS has found.

A worker sends its commands over one connection, and Redis executes them in their order, some of
them twice where their answers are lost with the connection.  In a `PresenceStore` the worker of
`PresenceFanout` goes on as before, and what `updatePresence` and `removePresence` send is kept
until it is answered.  Other workers write the keys of their own sessions.

* `mem_getAllPresence`: what is read is what was executed last of each key, no longer than 60
  seconds ago.
* `listed_iff`: the sessions that are read are those that have moved within 60 seconds;
  `refreshPresenceTTL`, which would keep the others, is never called.
* `ghosts_end`: what is still read of a session that is gone was there when it was, and is not
  there for longer than 60 seconds.

That JSON text is read as it was written is taken for granted.
-/

namespace SyncEngine

open Transition

/-! ## The keys -/

/-- The pattern of `getAllPresence`, up to its star.  A UUID has no character in it that is special
in a pattern. -/
def presenceKeyPrefix (docId : JSString) : JSString :=
  JSString.lit "presence:doc:" ++ docId ++ [JSString.colon]

/-- `presence:{docId}:{sessionId}`. -/
def presenceKey (docId sessionId : JSString) : JSString := presenceKeyPrefix docId ++ sessionId

/-- `PRESENCE_TTL_SECONDS`, in milliseconds. -/
def presenceTtl : Nat := 60 * 1000

lemma presenceKeyPrefix_prefix_iff {docId docId' sessionId : JSString}
    (h : JSString.colon ∉ docId) (h' : JSString.colon ∉ docId') :
    presenceKeyPrefix docId <+: presenceKey docId' sessionId ↔ docId = docId' := by
  constructor
  · rintro ⟨rest, hrest⟩
    simp only [presenceKey, presenceKeyPrefix, List.append_assoc, List.singleton_append] at hrest
    exact (JSString.split_eq_of_notMem h h' (List.append_cancel_left hrest)).1
  · rintro rfl
    exact List.prefix_append _ _

/-- A key determines the document and the session. -/
lemma presenceKey_inj {docId docId' sessionId sessionId' : JSString}
    (h : JSString.colon ∉ docId) (h' : JSString.colon ∉ docId') :
    presenceKey docId sessionId = presenceKey docId' sessionId' ↔
      docId = docId' ∧ sessionId = sessionId' := by
  constructor
  · intro hkey
    have hpre : presenceKeyPrefix docId <+: presenceKey docId' sessionId' := by
      rw [← hkey]
      exact List.prefix_append _ _
    obtain rfl := (presenceKeyPrefix_prefix_iff h h').mp hpre
    exact ⟨rfl, List.append_cancel_left hkey⟩
  · rintro ⟨rfl, rfl⟩
    rfl

/-- What `updatePresence` and `removePresence` send. -/
inductive PresenceCommand where
  | set (docId : JSString) (presence : UserPresence)
  | del (docId sessionId : JSString)
deriving DecidableEq

namespace PresenceCommand

/-- The document of a command. -/
def docId : PresenceCommand → JSString
  | set docId _ => docId
  | del docId _ => docId

/-- The session of a command. -/
def sessionId : PresenceCommand → JSString
  | set _ presence => presence.sessionId
  | del _ sessionId => sessionId

/-- The command as it is sent. -/
def toRedis : PresenceCommand → ExpiringStore.Command JSString UserPresence
  | set docId presence => .set (presenceKey docId presence.sessionId) presence presenceTtl
  | del docId sessionId => .del (presenceKey docId sessionId)

@[simp] lemma key_toRedis (command : PresenceCommand) :
    command.toRedis.key = presenceKey command.docId command.sessionId := by
  cases command <;> rfl

end PresenceCommand

/-! ## The worker and Redis -/

section
variable {K : Type*}

/-- The command that a step sends. -/
def PresenceFanout.command (s : PresenceFanout K) : PresenceAction K → Option PresenceCommand
  | .join session => session.docId.map fun docId =>
      .set docId (buildInitialPresence session.toWorkerSession)
  | .take i => (s.queued[i]?).map fun x =>
      .set x.2.docId (clientPresence x.1 x.2.toPresenceMessage)
  | .typingFires key => (s.typingTimers key).bind fun p =>
      if (s.table.sessions p.presence.sessionId).isNone then none
      else some (.set p.docId { p.presence with isTyping := false })
  | .close id => (s.table.sessions id).bind fun session =>
      session.docId.map fun docId => .del docId session.id
  | _ => none

/-- The session that registers in a step. -/
def joins : PresenceAction K → List (ValidatedSession K)
  | .join session => [session]
  | _ => []

end

/-- A worker, with the connection for its commands, and Redis. -/
structure PresenceStore (K : Type*) where
  fanout : PresenceFanout K
  /-- The sessions so far. -/
  joined : List (ValidatedSession K)
  /-- The commands that have not been answered, oldest first. -/
  commands : List PresenceCommand
  /-- How many of them have been executed, over the connection as it is. -/
  next : Nat
  /-- All commands Redis has executed so far, of this and the other workers, with their times. -/
  executed : List (Nat × PresenceCommand)
  now : Nat

/-- A step of the worker, or one of Redis. -/
inductive StoreAction (K : Type*) where
  | fanout (a : PresenceAction K)
  /-- Redis executes the next command. -/
  | execute
  /-- The answer to the oldest command arrives. -/
  | answer
  /-- The connection is lost; what has not been answered is sent again. -/
  | reconnect
  /-- The oldest command is given up. -/
  | giveUp
  /-- Redis executes a command of another worker. -/
  | other (command : PresenceCommand)
  | wait (ms : Nat)

namespace PresenceStore

variable {K : Type*}

/-- No session yet, and no key. -/
def start : PresenceStore K where
  fanout := .start
  joined := []
  commands := []
  next := 0
  executed := []
  now := 0

/-- What Redis has made of the commands. -/
def redis (s : PresenceStore K) : List (ExpiringStore.Entry JSString UserPresence) :=
  ExpiringStore.run (s.executed.map fun x => (x.1, x.2.toRedis))

/-- One action, if it can happen. -/
def step (s : PresenceStore K) : StoreAction K → Option (PresenceStore K)
  | .fanout a => (s.fanout.step a).map fun fanout =>
      { s with
        fanout := fanout
        joined := s.joined ++ joins a
        commands := s.commands ++ (s.fanout.command a).toList }
  | .execute => (s.commands[s.next]?).map fun command =>
      { s with next := s.next + 1, executed := s.executed ++ [(s.now, command)] }
  | .answer =>
      if s.next = 0 then none else some { s with commands := s.commands.tail, next := s.next - 1 }
  | .reconnect => some { s with next := 0 }
  | .giveUp => some { s with commands := s.commands.tail, next := s.next - 1 }
  | .other command => some { s with executed := s.executed ++ [(s.now, command)] }
  | .wait ms => some { s with now := s.now + ms }

/-- The ids of sessions are new, on all workers, and other workers leave the sessions of this one
alone. -/
def Separate (s : PresenceStore K) : StoreAction K → Prop
  | .fanout (.join session) => ∀ x ∈ s.executed, x.2.sessionId ≠ session.id
  | .other command => JSString.colon ∉ command.docId ∧ command.sessionId ∉ s.fanout.used
  | _ => True

instance (s : PresenceStore K) : DecidablePred s.Separate
  | .fanout (.join session) =>
      inferInstanceAs (Decidable (∀ x ∈ s.executed, x.2.sessionId ≠ session.id))
  | .fanout (.message _ _) => isTrue trivial
  | .fanout (.take _) => isTrue trivial
  | .fanout (.resume _ _) => isTrue trivial
  | .fanout (.typingFires _) => isTrue trivial
  | .fanout .deliver => isTrue trivial
  | .fanout .lose => isTrue trivial
  | .fanout (.flush _) => isTrue trivial
  | .fanout (.close _) => isTrue trivial
  | .fanout (.leave _ _) => isTrue trivial
  | .execute => isTrue trivial
  | .answer => isTrue trivial
  | .reconnect => isTrue trivial
  | .giveUp => isTrue trivial
  | .other command => inferInstanceAs (Decidable
      (JSString.colon ∉ command.docId ∧ command.sessionId ∉ s.fanout.used))
  | .wait _ => isTrue trivial

/-- `getAllPresence`, with KEYS executed in the state `s` and MGET in the state `s'`.  The order of
the keys is not said. -/
def getAllPresence (s s' : PresenceStore K) (docId : JSString) : List UserPresence :=
  let keys := (ExpiringStore.keys s.now s.redis).filter fun key => presenceKeyPrefix docId <+: key
  if keys.length = 0 then [] else keys.filterMap (ExpiringStore.get s'.now s'.redis)

/-- The presence was set last of its session, not longer than 60 seconds ago. -/
def Shows (s : PresenceStore K) (docId : JSString) (p : UserPresence) : Prop :=
  ∃ pre t post, s.executed = pre ++ (t, .set docId p) :: post ∧ s.now ≤ t + presenceTtl ∧
    ∀ x ∈ post, x.2.docId = docId → x.2.sessionId ≠ p.sessionId

/-! ## Steps -/

/-- What a step of the store can do. -/
inductive Move (s : PresenceStore K) : StoreAction K → PresenceStore K → Prop
  | fanout {a : PresenceAction K} {fanout : PresenceFanout K} (hmove : s.fanout.Move a fanout) :
      Move s (.fanout a)
        { s with
          fanout := fanout
          joined := s.joined ++ joins a
          commands := s.commands ++ (s.fanout.command a).toList }
  | execute {command : PresenceCommand} (hcommand : s.commands[s.next]? = some command) :
      Move s .execute
        { s with next := s.next + 1, executed := s.executed ++ [(s.now, command)] }
  | drop {a : StoreAction K} :
      Move s a { s with commands := s.commands.tail, next := s.next - 1 }
  | reconnect : Move s .reconnect { s with next := 0 }
  | other (command : PresenceCommand) :
      Move s (.other command) { s with executed := s.executed ++ [(s.now, command)] }
  | wait (ms : Nat) : Move s (.wait ms) { s with now := s.now + ms }

lemma move_of_step {s s' : PresenceStore K} {a : StoreAction K} (h : s.step a = some s') :
    s.Move a s' := by
  cases a with
  | fanout a =>
      obtain ⟨fanout, hfanout, rfl⟩ := Option.map_eq_some_iff.mp h
      exact .fanout (PresenceFanout.move_of_step hfanout)
  | execute =>
      obtain ⟨command, hcommand, rfl⟩ := Option.map_eq_some_iff.mp h
      exact .execute hcommand
  | answer =>
      simp only [step, Option.ite_none_left_eq_some, Option.some.injEq] at h
      exact h.2 ▸ .drop
  | reconnect => exact Option.some.inj h ▸ .reconnect
  | giveUp => exact Option.some.inj h ▸ .drop
  | other command => exact Option.some.inj h ▸ .other command
  | wait ms => exact Option.some.inj h ▸ .wait ms

/-! ## Whose presences they are -/

/-- The presence of one of the sessions, under the name it has registered with. -/
def IsOf (joined : List (ValidatedSession K)) (p : UserPresence) : Prop :=
  ∃ v ∈ joined, p.sessionId = v.id ∧ p.userId = v.userId ∧ p.displayName = v.displayName ∧
    p.color = v.color

/-- Everything the worker holds is of the sessions that have joined. -/
structure Known (joined : List (ValidatedSession K)) (f : PresenceFanout K) : Prop where
  registered : ∀ {id session}, f.table.sessions id = some session →
    ∃ v ∈ joined, v.toWorkerSession = session
  queued : ∀ x ∈ f.queued, ∃ v ∈ joined, v.toWorkerSession = x.1
  calls : ∀ call ∈ f.calls, IsOf joined call.presence
  typing : ∀ {key p}, f.typingTimers key = some p → IsOf joined p.presence

variable {joined : List (ValidatedSession K)} {f f' : PresenceFanout K} {i : Nat}

lemma known_start : Known [] (.start : PresenceFanout K) := by
  constructor <;> simp [PresenceFanout.start, SessionTable.empty]

lemma IsOf.append {p : UserPresence} (h : IsOf joined p) (more : List (ValidatedSession K)) :
    IsOf (joined ++ more) p := by
  obtain ⟨v, hv, hp⟩ := h
  exact ⟨v, List.mem_append_left _ hv, hp⟩

lemma Known.append (h : Known joined f) (more : List (ValidatedSession K)) :
    Known (joined ++ more) f where
  registered hsession := by
    obtain ⟨v, hv, heq⟩ := h.registered hsession
    exact ⟨v, List.mem_append_left _ hv, heq⟩
  queued x hx := by
    obtain ⟨v, hv, heq⟩ := h.queued x hx
    exact ⟨v, List.mem_append_left _ hv, heq⟩
  calls call hcall := (h.calls call hcall).append more
  typing hp := (h.typing hp).append more

lemma isOf_buildInitialPresence {v : ValidatedSession K} (h : v ∈ joined) :
    IsOf joined (buildInitialPresence v.toWorkerSession) := ⟨v, h, rfl, rfl, rfl, rfl⟩

/-- A PRESENCE is taken for that of the session it came from. -/
lemma isOf_clientPresence {session : WorkerSession K}
    (h : ∃ v ∈ joined, v.toWorkerSession = session) (msg : PresenceMessage) :
    IsOf joined (clientPresence session msg) := by
  obtain ⟨v, hv, rfl⟩ := h
  exact ⟨v, hv, rfl, rfl, rfl, rfl⟩

lemma Known.join (h : Known joined f) {session : ValidatedSession K}
    (hnew : f.table.sessions session.id = none) :
    Known (joined ++ [session]) (f.join session hnew) := by
  have hmem : session ∈ joined ++ [session] := List.mem_append_right _ List.mem_cons_self
  have h' := h.append [session]
  refine ⟨fun {id other} hother => ?_, h'.queued, fun call hcall => ?_, h'.typing⟩
  · rw [PresenceFanout.join, SessionTable.sessions_registerSession] at hother
    by_cases hid : id = session.id
    · rw [hid, Function.update_self] at hother
      exact ⟨session, hmem, Option.some.inj hother⟩
    · rw [Function.update_of_ne hid] at hother
      exact h'.registered hother
  · rcases List.mem_append.mp hcall with hcall | hcall
    · exact h'.calls call hcall
    · split at hcall
      · rw [List.mem_singleton.mp hcall]
        exact isOf_buildInitialPresence hmem
      · simp at hcall

lemma Known.toStage (h : Known joined f) (i : Nat) (stage : PresenceAwait) :
    Known joined (f.toStage i stage) where
  registered := h.registered
  queued := h.queued
  calls call hcall := by
    obtain ⟨j, hj⟩ := List.getElem?_of_mem hcall
    rw [PresenceFanout.toStage, List.getElem?_modify] at hj
    obtain ⟨old, hold, rfl⟩ := Option.map_eq_some_iff.mp hj
    have hknown := h.calls old (List.mem_of_getElem? hold)
    split <;> exact hknown
  typing := h.typing

lemma Known.finish (h : Known joined f) (i : Nat) : Known joined (f.finish i) where
  registered := h.registered
  queued := h.queued
  calls call hcall := h.calls call (List.mem_of_mem_eraseIdx hcall)
  typing := h.typing

lemma Known.setTypingTimer (h : Known joined f) {p : Publication} (hp : IsOf joined p.presence) :
    Known joined (f.setTypingTimer p) where
  registered := h.registered
  queued := h.queued
  calls := h.calls
  typing {key q} hq := by
    simp only [PresenceFanout.setTypingTimer] at hq
    by_cases hkey : key = PresenceFanout.timerKey p.docId p.presence.sessionId
    · rw [hkey, Function.update_self] at hq
      split at hq
      · exact Option.some.inj hq ▸ hp
      · simp at hq
    · rw [Function.update_of_ne hkey] at hq
      exact h.typing hq

lemma Known.resume (h : Known joined f) {call : PresenceCall} (hcall : f.calls[i]? = some call)
    (ok : Bool) : Known joined (f.resume i call call.stage ok) := by
  rcases f.resume_cases i call ok with ⟨stage, -, heq⟩ | heq | heq | heq | heq <;> rw [heq]
  · have hpublished : Known joined (f.publishPresence call.toPublication) :=
      ⟨h.registered, h.queued, h.calls, h.typing⟩
    exact hpublished.toStage i stage
  · exact h.toStage i _
  · have hfinished := h.finish i
    exact ⟨hfinished.registered, hfinished.queued, hfinished.calls, hfinished.typing⟩
  · exact (h.setTypingTimer (h.calls call (List.mem_of_getElem? hcall))).finish i
  · exact h.finish i

lemma Known.onTyping (h : Known joined f) {key : JSString} {p : Publication}
    (hp : f.typingTimers key = some p) : Known joined (f.onTyping key p) := by
  have htyping : ∀ {key' p'}, Function.update f.typingTimers key none key' = some p' →
      IsOf joined p'.presence := fun {key' p'} hp' => by
    by_cases hkey : key' = key
    · simp [hkey] at hp'
    · rw [Function.update_of_ne hkey] at hp'
      exact h.typing hp'
  rw [PresenceFanout.onTyping]
  split
  · exact ⟨h.registered, h.queued, h.calls, htyping⟩
  · refine ⟨h.registered, h.queued, fun call hcall => ?_, htyping⟩
    rcases List.mem_append.mp hcall with hcall | hcall
    · exact h.calls call hcall
    · rw [List.mem_singleton.mp hcall]
      obtain ⟨v, hv, hid, huser, hname, hcolor⟩ := h.typing hp
      exact ⟨v, hv, hid, huser, hname, hcolor⟩

lemma Known.handleDisconnect (h : Known joined f) (session : WorkerSession K) :
    Known joined (f.handleDisconnect session) where
  registered {id other} hother := by
    rw [PresenceFanout.handleDisconnect, SessionTable.sessions_removeSession] at hother
    by_cases hid : id = session.id
    · simp [hid] at hother
    · rw [Function.update_of_ne hid] at hother
      exact h.registered hother
  queued := h.queued
  calls := h.calls
  typing := h.typing

/-- Nothing comes into the worker but of a session that joins. -/
lemma Known.move {a : PresenceAction K} (h : Known joined f) (hmove : f.Move a f') :
    Known (joined ++ joins a) f' := by
  have h' := h.append (joins a)
  cases hmove with
  | join hnew hunused => exact h.join hnew
  | message hsession =>
      refine ⟨h'.registered, fun x hx => ?_, h'.calls, h'.typing⟩
      rcases List.mem_append.mp hx with hx | hx
      · exact h'.queued x hx
      · rw [List.mem_singleton.mp hx]
        exact h'.registered hsession
  | @take i x hx =>
      have hsession := h'.queued x (List.mem_of_getElem? hx)
      refine ⟨h'.registered, fun y hy => h'.queued y (List.mem_of_mem_eraseIdx hy),
        fun call hcall => ?_, h'.typing⟩
      rcases List.mem_append.mp hcall with hcall | hcall
      · exact h'.calls call hcall
      · rw [List.mem_singleton.mp hcall]
        exact isOf_clientPresence hsession _
  | resume hcall => exact h'.resume hcall _
  | typingFires hp => exact h'.onTyping hp
  | @deliver channel message redis hredis =>
      obtain ⟨batches, timers, heq⟩ := PresenceFanout.foldl_handle
        (f.pubSub.receive channel message) { f with redis := redis }
      rw [heq]
      exact ⟨h'.registered, h'.queued, h'.calls, h'.typing⟩
  | lose hredis => exact ⟨h'.registered, h'.queued, h'.calls, h'.typing⟩
  | flush =>
      rw [PresenceFanout.onBatchTimer, PresenceFanout.foldl_broadcast]
      exact ⟨h'.registered, h'.queued, h'.calls, h'.typing⟩
  | close hsession => exact h'.handleDisconnect _
  | @leave i ok call hcall =>
      rcases f.leave_cases i call call.stage ok with heq | ⟨-, heq⟩ | heq | heq <;> rw [heq] <;>
        exact ⟨h'.registered, h'.queued, h'.calls, h'.typing⟩

/-- A step adds the ids of those who join, and messages of registered sessions. -/
lemma used_move {a : PresenceAction K} (hmove : f.Move a f') :
    f'.used = f.used ++ (joins a).map (fun v => v.id) ∧
      ∀ x ∈ f'.queued, x ∈ f.queued ∨ f.table.sessions x.1.id = some x.1 := by
  have hsame : f'.used = f.used → f'.queued = f.queued → f'.used = f.used ++ [] ∧
      ∀ x ∈ f'.queued, x ∈ f.queued ∨ f.table.sessions x.1.id = some x.1 :=
    fun hused hqueued => ⟨by rw [hused, List.append_nil], fun x hx => Or.inl (hqueued ▸ hx)⟩
  cases hmove with
  | join hnew hunused => exact ⟨rfl, fun x hx => Or.inl hx⟩
  | @message id msg session hsession =>
      refine ⟨(List.append_nil _).symm, fun x hx => ?_⟩
      rcases List.mem_append.mp hx with hx | hx
      · exact Or.inl hx
      · rw [List.mem_singleton.mp hx]
        have hid : session.id = id := f.table.id_eq hsession
        exact Or.inr (hid ▸ hsession)
  | take hx =>
      exact ⟨(List.append_nil _).symm, fun x hx => Or.inl (List.mem_of_mem_eraseIdx hx)⟩
  | @resume i ok call hcall =>
      rcases f.resume_cases i call ok with ⟨stage, -, heq⟩ | heq | heq | heq | heq <;>
        exact hsame (by rw [heq]; rfl) (by rw [heq]; rfl)
  | @typingFires key p hp =>
      have honTyping : (f.onTyping key p).used = f.used ∧ (f.onTyping key p).queued = f.queued := by
        rw [PresenceFanout.onTyping]
        split <;> exact ⟨rfl, rfl⟩
      exact hsame honTyping.1 honTyping.2
  | @deliver channel message redis hredis =>
      obtain ⟨batches, timers, heq⟩ := PresenceFanout.foldl_handle
        (f.pubSub.receive channel message) { f with redis := redis }
      exact hsame (by rw [heq]) (by rw [heq])
  | lose hredis => exact hsame rfl rfl
  | flush =>
      rw [PresenceFanout.onBatchTimer, PresenceFanout.foldl_broadcast] at hsame ⊢
      exact hsame rfl rfl
  | close hsession => exact hsame rfl rfl
  | @leave i ok call hcall =>
      rcases f.leave_cases i call call.stage ok with heq | ⟨-, heq⟩ | heq | heq <;>
        exact hsame (by rw [heq]; rfl) (by rw [heq]; rfl)

/-! ## The commands of the worker -/

/-- A command of the worker sets the presence of a session that has joined, or deletes that of a
session that is gone. -/
def Own (joined : List (ValidatedSession K)) (f : PresenceFanout K) : PresenceCommand → Prop
  | .set docId p => JSString.colon ∉ docId ∧ IsOf joined p
  | .del docId sessionId => JSString.colon ∉ docId ∧ f.Gone sessionId

variable {command : PresenceCommand}

lemma Own.colon_notMem (h : Own joined f command) : JSString.colon ∉ command.docId := by
  cases command with
  | set docId p => exact h.1
  | del docId sessionId => exact h.1

lemma Own.move {a : PresenceAction K} (h : Own joined f command) (hmove : f.Move a f') :
    Own (joined ++ joins a) f' command := by
  cases command with
  | set docId p => exact ⟨h.1, h.2.append _⟩
  | del docId sessionId => exact ⟨h.1, hmove.gone h.2⟩

lemma Known.own {a : PresenceAction K} (h : Known joined f) (ht : f.Tidy) (hmove : f.Move a f')
    (hcommand : f.command a = some command) : Own (joined ++ joins a) f' command := by
  cases hmove with
  | @join session hnew hunused =>
      obtain ⟨docId, hdoc, rfl⟩ := Option.map_eq_some_iff.mp hcommand
      exact ⟨session.colon_notMem docId hdoc,
        isOf_buildInitialPresence (List.mem_append_right _ List.mem_cons_self)⟩
  | @take i x hx =>
      rw [PresenceFanout.command, hx] at hcommand
      obtain rfl := Option.some.inj hcommand
      have hclient :=
        isOf_clientPresence (h.queued x (List.mem_of_getElem? hx)) x.2.toPresenceMessage
      exact ⟨x.2.colon_notMem, hclient.append _⟩
  | @typingFires key p hp =>
      rw [PresenceFanout.command, hp, Option.bind_some] at hcommand
      simp only [Option.ite_none_left_eq_some, Option.some.injEq] at hcommand
      obtain ⟨-, rfl⟩ := hcommand
      obtain ⟨v, hv, hid, huser, hname, hcolor⟩ := (h.typing hp).append (joins (.typingFires key))
      exact ⟨p.colon_notMem, v, hv, hid, huser, hname, hcolor⟩
  | @close id session hsession =>
      rw [PresenceFanout.command, hsession, Option.bind_some] at hcommand
      obtain ⟨docId, hdoc, rfl⟩ := Option.map_eq_some_iff.mp hcommand
      obtain ⟨v, -, rfl⟩ := h.registered hsession
      have hid : v.id = id := f.table.id_eq hsession
      refine ⟨v.colon_notMem docId hdoc, ?_, ?_⟩
      · rw [PresenceFanout.handleDisconnect, SessionTable.sessions_removeSession,
          Function.update_self]
      · exact hid ▸ ht.known hsession
  | message hsession => simp [PresenceFanout.command] at hcommand
  | resume hcall => simp [PresenceFanout.command] at hcommand
  | deliver hredis => simp [PresenceFanout.command] at hcommand
  | lose hredis => simp [PresenceFanout.command] at hcommand
  | flush => simp [PresenceFanout.command] at hcommand
  | leave hcall => simp [PresenceFanout.command] at hcommand

/-- What holds of every state. -/
structure Sound (s : PresenceStore K) : Prop where
  tidy : s.fanout.Tidy
  used : s.fanout.used = s.joined.map fun v => v.id
  nodup : s.fanout.used.Nodup
  known : Known s.joined s.fanout
  commands : ∀ command ∈ s.commands, Own s.joined s.fanout command
  colon_notMem : ∀ x ∈ s.executed, JSString.colon ∉ x.2.docId
  executed : ∀ x ∈ s.executed, x.2.sessionId ∈ s.fanout.used → Own s.joined s.fanout x.2
  /-- Commands are executed one after another. -/
  ordered : s.executed.Pairwise fun earlier later => earlier.1 ≤ later.1
  past : ∀ x ∈ s.executed, x.1 ≤ s.now

variable {s s' : PresenceStore K}

lemma sound_start : Sound (start : PresenceStore K) where
  tidy := PresenceFanout.tidy_start
  used := rfl
  nodup := List.nodup_nil
  known := known_start
  commands := by simp [start]
  colon_notMem := by simp [start]
  executed := by simp [start]
  ordered := List.Pairwise.nil
  past := by simp [start]

lemma Sound.fanout (h : s.Sound) {a : PresenceAction K} {fanout : PresenceFanout K}
    (hmove : s.fanout.Move a fanout) (hseparate : s.Separate (.fanout a)) :
    Sound { s with
      fanout := fanout
      joined := s.joined ++ joins a
      commands := s.commands ++ (s.fanout.command a).toList } where
  tidy := hmove.tidy h.tidy
  used := by rw [(used_move hmove).1, h.used, List.map_append]
  nodup := by
    rw [(used_move hmove).1]
    cases hmove with
    | join hnew hunused =>
        refine List.nodup_append.mpr ⟨h.nodup, List.nodup_singleton _, ?_⟩
        rintro id hid _ hother rfl
        obtain rfl := List.mem_singleton.mp hother
        exact hunused hid
    | _ => simpa [joins] using h.nodup
  known := h.known.move hmove
  commands command hcommand := by
    rcases List.mem_append.mp hcommand with hcommand | hcommand
    · exact (h.commands command hcommand).move hmove
    · exact h.known.own h.tidy hmove (Option.mem_toList.mp hcommand)
  colon_notMem := h.colon_notMem
  executed x hx hused := by
    rw [(used_move hmove).1] at hused
    rcases List.mem_append.mp hused with hused | hused
    · exact (h.executed x hx hused).move hmove
    · cases hmove with
      | join hnew hunused => exact absurd (List.mem_singleton.mp hused) (hseparate x hx)
      | _ => simp [joins] at hused
  ordered := h.ordered
  past := h.past

lemma Sound.append (h : s.Sound) (hcolon : JSString.colon ∉ command.docId)
    (hown : command.sessionId ∈ s.fanout.used → Own s.joined s.fanout command) (next : Nat) :
    Sound { s with next := next, executed := s.executed ++ [(s.now, command)] } where
  tidy := h.tidy
  used := h.used
  nodup := h.nodup
  known := h.known
  commands := h.commands
  colon_notMem x hx := by
    rcases List.mem_append.mp hx with hx | hx
    · exact h.colon_notMem x hx
    · rw [List.mem_singleton.mp hx]
      exact hcolon
  executed x hx := by
    rcases List.mem_append.mp hx with hx | hx
    · exact h.executed x hx
    · rw [List.mem_singleton.mp hx]
      exact hown
  ordered := by
    refine List.pairwise_append.mpr ⟨h.ordered, List.pairwise_singleton _ _, fun x hx y hy => ?_⟩
    rw [List.mem_singleton.mp hy]
    exact h.past x hx
  past x hx := by
    rcases List.mem_append.mp hx with hx | hx
    · exact h.past x hx
    · rw [List.mem_singleton.mp hx]

lemma Sound.move {a : StoreAction K} (h : s.Sound) (hmove : s.Move a s')
    (hseparate : s.Separate a) : s'.Sound := by
  cases hmove with
  | fanout hmove => exact h.fanout hmove hseparate
  | @execute command hcommand =>
      have hown := h.commands command (List.mem_of_getElem? hcommand)
      exact h.append hown.colon_notMem (fun _ => hown) _
  | drop => exact { h with commands := fun c hc => h.commands c (List.mem_of_mem_tail hc) }
  | reconnect => exact { h with }
  | other command => exact h.append hseparate.1 (fun hused => absurd hused hseparate.2) s.next
  | wait ms =>
      exact { h with past := fun x hx => Nat.le_trans (h.past x hx) (Nat.le_add_right _ _) }

lemma sound_of_reach (h : Reach step Separate start s) : s.Sound :=
  h.invariant (P := Sound) sound_start fun _ _ _ hs hseparate hstep =>
    hs.move (move_of_step hstep) hseparate

/-! ## What is read -/

/-- A key is read as the presence that was set last. -/
lemma Sound.get_redis (h : s.Sound) {docId id : JSString} (hdoc : JSString.colon ∉ docId)
    {p : UserPresence} :
    ExpiringStore.get s.now s.redis (presenceKey docId id) = some p ↔
      s.Shows docId p ∧ p.sessionId = id := by
  rw [redis, ExpiringStore.get_run]
  constructor
  · rintro ⟨pre, t, ttl, post, hsplit, hlive, hpost⟩
    obtain ⟨pre', rest, hexecuted, rfl, hrest⟩ := List.map_eq_append_iff.mp hsplit
    obtain ⟨x, post', rfl, hx, rfl⟩ := List.map_eq_cons_iff.mp hrest
    obtain ⟨rfl, hset⟩ := Prod.mk.inj hx
    have hmem : x ∈ s.executed := by simp [hexecuted]
    obtain ⟨t, command⟩ := x
    cases command with
    | set docId' p' =>
        obtain ⟨hkey, rfl, rfl⟩ := ExpiringStore.Command.set.inj hset
        obtain ⟨rfl, rfl⟩ := (presenceKey_inj (h.colon_notMem _ hmem) hdoc).mp hkey
        refine ⟨⟨pre', t, post', hexecuted, hlive, fun y hy hdoc' hid => ?_⟩, rfl⟩
        refine hpost _ (List.mem_map_of_mem hy) ?_
        rw [PresenceCommand.key_toRedis, hdoc', hid]
    | del docId' sessionId => simp [PresenceCommand.toRedis] at hset
  · rintro ⟨⟨pre, t, post, hexecuted, hlive, hpost⟩, rfl⟩
    refine ⟨_, t, presenceTtl, post.map fun x => (x.1, x.2.toRedis),
      by rw [hexecuted, List.map_append]; rfl, hlive, fun y hy hkey => ?_⟩
    obtain ⟨x, hx, rfl⟩ := List.mem_map.mp hy
    have hmem : x ∈ s.executed := by simp [hexecuted, hx]
    rw [PresenceCommand.key_toRedis] at hkey
    obtain ⟨hdoc', hid⟩ := (presenceKey_inj (h.colon_notMem _ hmem) hdoc).mp hkey
    exact hpost x hx hdoc' hid

/-- The keys of a document are those of the presences that are shown. -/
lemma Sound.mem_keys (h : s.Sound) {docId key : JSString} (hdoc : JSString.colon ∉ docId) :
    key ∈ ExpiringStore.keys s.now s.redis ∧ presenceKeyPrefix docId <+: key ↔
      ∃ p, s.Shows docId p ∧ key = presenceKey docId p.sessionId := by
  constructor
  · rintro ⟨hkey, hpre⟩
    obtain ⟨p, hp⟩ := ExpiringStore.mem_keys_iff.mp hkey
    obtain ⟨id, rfl⟩ := hpre
    obtain ⟨hshows, rfl⟩ := (h.get_redis hdoc).mp hp
    exact ⟨p, hshows, rfl⟩
  · rintro ⟨p, hshows, rfl⟩
    exact ⟨ExpiringStore.mem_keys_iff.mpr ⟨p, (h.get_redis hdoc).mpr ⟨hshows, rfl⟩⟩,
      List.prefix_append _ _⟩

lemma getAllPresence_eq (s s' : PresenceStore K) (docId : JSString) :
    s.getAllPresence s' docId =
      ((ExpiringStore.keys s.now s.redis).filter fun key =>
        presenceKeyPrefix docId <+: key).filterMap (ExpiringStore.get s'.now s'.redis) := by
  rw [getAllPresence]
  split_ifs with hempty
  · rw [List.length_eq_zero_iff.mp hempty]
    rfl
  · rfl

lemma Sound.mem_getAllPresence (h : s.Sound) (h' : s'.Sound) {docId : JSString}
    (hdoc : JSString.colon ∉ docId) {p : UserPresence} :
    p ∈ s.getAllPresence s' docId ↔
      (∃ q, s.Shows docId q ∧ q.sessionId = p.sessionId) ∧ s'.Shows docId p := by
  simp only [getAllPresence_eq, List.mem_filterMap, List.mem_filter, decide_eq_true_eq,
    h.mem_keys hdoc]
  constructor
  · rintro ⟨key, ⟨q, hq, rfl⟩, hp⟩
    obtain ⟨hshows, hid⟩ := (h'.get_redis hdoc).mp hp
    exact ⟨⟨q, hq, hid.symm⟩, hshows⟩
  · rintro ⟨⟨q, hq, hid⟩, hshows⟩
    exact ⟨_, ⟨q, hq, rfl⟩, (h'.get_redis hdoc).mpr ⟨hshows, hid.symm⟩⟩

lemma Sound.nodup_getAllPresence (h : s.Sound) (h' : s'.Sound) {docId : JSString}
    (hdoc : JSString.colon ∉ docId) :
    ((s.getAllPresence s' docId).map UserPresence.sessionId).Nodup := by
  have hkeys : (ExpiringStore.keys s.now s.redis).Nodup := ExpiringStore.nodup_keys_run _ _
  rw [getAllPresence_eq]
  refine List.pairwise_map.mpr (List.pairwise_filterMap.mpr ?_)
  refine (hkeys.filter _).imp_of_mem fun {key key'} hkey hkey' hne p hp p' hp' hid => hne ?_
  obtain ⟨q, -, rfl⟩ := (h.mem_keys hdoc).mp (by simpa using hkey)
  obtain ⟨q', -, rfl⟩ := (h.mem_keys hdoc).mp (by simpa using hkey')
  rw [← ((h'.get_redis hdoc).mp hp).2, ← ((h'.get_redis hdoc).mp hp').2, hid]

/-- **What `getAllPresence` reads**: of every session whose presence KEYS has found, once, the
presence that was set last when MGET is executed, if that was within 60 seconds. -/
theorem presence_read (h : Reach step Separate start s) (h' : Reach step Separate s s')
    {docId : JSString} (hdoc : JSString.colon ∉ docId) :
    ((s.getAllPresence s' docId).map UserPresence.sessionId).Nodup ∧
      ∀ p, p ∈ s.getAllPresence s' docId ↔
        (∃ q, s.Shows docId q ∧ q.sessionId = p.sessionId) ∧ s'.Shows docId p := by
  have hs := sound_of_reach h
  have hs' := sound_of_reach (h.trans h')
  exact ⟨hs.nodup_getAllPresence hs' hdoc, fun p => hs.mem_getAllPresence hs' hdoc⟩

/-- Two sessions join, one second after the other. -/
def twoPresences : PresenceStore Nat :=
  (runAllowed step Separate start [.fanout (.join (PresenceFanout.collaborator "a" 0)), .execute,
    .answer, .wait 1000, .fanout (.join (PresenceFanout.collaborator "b" 1)), .execute,
    .answer]).get (by decide +kernel)

/-- The first one idles for more than 60 seconds. -/
def idled : PresenceStore Nat :=
  (runAllowed step Separate twoPresences [.wait 59500]).get (by decide +kernel)

/-- The keys of both are found, but that of the first expires before it is read. -/
theorem presence_read_idled :
    ¬ idled.Shows (JSString.lit "doc")
        (buildInitialPresence (PresenceFanout.collaborator "a" 0).toWorkerSession) ∧
      idled.Shows (JSString.lit "doc")
        (buildInitialPresence (PresenceFanout.collaborator "b" 1).toWorkerSession) := by
  have hjoined : Reach step Separate start twoPresences := reach_get _
  have hidled : Reach step Separate twoPresences idled := reach_get _
  have hdoc : JSString.colon ∉ JSString.lit "doc" := by decide
  obtain ⟨-, hfound⟩ := presence_read hjoined .refl hdoc
  obtain ⟨-, hread⟩ := presence_read hjoined hidled hdoc
  have hfirst := ((hfound (buildInitialPresence
    (PresenceFanout.collaborator "a" 0).toWorkerSession)).mp (by decide +kernel)).2
  constructor
  · exact fun hshows =>
      absurd ((hread _).mpr ⟨⟨_, hfirst, rfl⟩, hshows⟩) (by decide +kernel)
  · exact ((hread _).mp (by decide +kernel)).2

/-! ## Who is listed -/

/-- The session has set its presence for the document within 60 seconds. -/
def Recent (s : PresenceStore K) (docId id : JSString) : Prop :=
  ∃ t p, (t, .set docId p) ∈ s.executed ∧ p.sessionId = id ∧ s.now ≤ t + presenceTtl

lemma executed_grows (h : Reach step Separate s s') :
    s.executed <+: s'.executed ∧ s.now ≤ s'.now := by
  refine h.invariant (P := fun s' => s.executed <+: s'.executed ∧ s.now ≤ s'.now)
    ⟨List.prefix_rfl, Nat.le_refl _⟩ ?_
  rintro t a t' ⟨hpre, hle⟩ - hstep
  cases move_of_step hstep with
  | execute hcommand => exact ⟨hpre.trans (List.prefix_append _ _), hle⟩
  | other command => exact ⟨hpre.trans (List.prefix_append _ _), hle⟩
  | wait ms => exact ⟨hpre, Nat.le_trans hle (Nat.le_add_right _ _)⟩
  | _ => exact ⟨hpre, hle⟩

/-- Of a session that is not gone nothing is deleted. -/
lemma Sound.eq_set (h : s.Sound) {id : JSString} {session : WorkerSession K}
    (hsession : s.fanout.table.sessions id = some session) {x : Nat × PresenceCommand}
    (hx : x ∈ s.executed) (hid : x.2.sessionId = id) :
    ∃ docId p, x.2 = .set docId p ∧ IsOf s.joined p := by
  have hown := h.executed x hx (hid ▸ h.tidy.known hsession)
  cases hcommand : x.2 with
  | set docId p => exact ⟨docId, p, rfl, (hcommand ▸ hown).2⟩
  | del docId sessionId =>
      have hgone : s.fanout.Gone sessionId := (hcommand ▸ hown).2
      rw [hcommand] at hid
      obtain rfl : sessionId = id := hid
      exact absurd hgone.1 (by rw [hsession]; simp)

/-- Where nothing is deleted of a session, its last presence is shown as long as any. -/
lemma Sound.shows_iff_recent (h : s.Sound) {docId id : JSString}
    (hset : ∀ x ∈ s.executed, x.2.sessionId = id → ∃ docId p, x.2 = .set docId p) :
    (∃ p, s.Shows docId p ∧ p.sessionId = id) ↔ s.Recent docId id := by
  constructor
  · rintro ⟨p, ⟨pre, t, post, hexecuted, hlive, -⟩, hid⟩
    exact ⟨t, p, by simp [hexecuted], hid, hlive⟩
  · rintro ⟨t, p, hmem, hid, hlive⟩
    let writes := fun x : Nat × PresenceCommand =>
      if x.2.docId = docId ∧ x.2.sessionId = id then some x else none
    cases hlast : LastWrite.lastWrite writes s.executed with
    | none =>
        have hnone := LastWrite.lastWrite_eq_none.mp hlast _ hmem
        exact absurd hnone (by simp [writes, PresenceCommand.docId, PresenceCommand.sessionId, hid])
    | some last =>
        obtain ⟨pre, x, post, hexecuted, hx, hpost⟩ := LastWrite.lastWrite_eq_some.mp hlast
        simp only [writes, Option.ite_none_right_eq_some, Option.some.injEq] at hx
        obtain ⟨⟨hdoc, hsession⟩, rfl⟩ := hx
        obtain ⟨docId', q, hq⟩ := hset x (by simp [hexecuted]) hsession
        obtain ⟨t', command⟩ := x
        obtain rfl : command = .set docId' q := hq
        obtain rfl : docId' = docId := hdoc
        have hpost' : ∀ y ∈ post, y.2.docId = docId' → y.2.sessionId ≠ q.sessionId := by
          intro y hy hdoc' hid'
          exact absurd (hpost y hy) (by simp [writes, hdoc', hid'.trans hsession])
        -- the last one is not earlier than the one within the time
        have hle : t ≤ t' := by
          rw [hexecuted] at hmem
          have hordered := h.ordered
          rw [hexecuted, List.pairwise_append] at hordered
          rcases List.mem_append.mp hmem with hmem | hmem
          · exact hordered.2.2 _ hmem _ List.mem_cons_self
          · rcases List.mem_cons.mp hmem with heq | hmem
            · exact Nat.le_of_eq (congrArg Prod.fst heq)
            · exact absurd (hid.trans hsession.symm) (hpost' _ hmem rfl)
        exact ⟨q, ⟨pre, t', post, hexecuted,
          Nat.le_trans hlive (Nat.add_le_add_right hle _), hpost'⟩, hsession⟩

/-- **Who is listed**: a session of the worker is read by a JOIN just if it has set its presence
within 60 seconds, at the time of KEYS and at that of MGET; and it is listed under its own name. -/
theorem listed_iff (h : Reach step Separate start s) (h' : Reach step Separate s s')
    {session : WorkerSession K} {id : JSString}
    (hsession : s'.fanout.table.sessions id = some session)
    {docId : JSString} (hdoc : JSString.colon ∉ docId) :
    ((∃ p ∈ s.getAllPresence s' docId, p.sessionId = id) ↔
        s.Recent docId id ∧ s'.Recent docId id) ∧
      ∀ p ∈ s.getAllPresence s' docId, p.sessionId = id →
        p.userId = session.userId ∧ p.displayName = session.displayName ∧
          p.color = session.color := by
  have hs := sound_of_reach h
  have hs' := sound_of_reach (h.trans h')
  have hset' : ∀ x ∈ s'.executed, x.2.sessionId = id → ∃ docId p, x.2 = .set docId p := by
    intro x hx hid
    obtain ⟨docId, p, heq, -⟩ := hs'.eq_set hsession hx hid
    exact ⟨docId, p, heq⟩
  have hset : ∀ x ∈ s.executed, x.2.sessionId = id → ∃ docId p, x.2 = .set docId p :=
    fun x hx => hset' x ((executed_grows h').1.subset hx)
  constructor
  · rw [← hs.shows_iff_recent hset, ← hs'.shows_iff_recent hset']
    constructor
    · rintro ⟨p, hp, hid⟩
      obtain ⟨⟨q, hq, hqid⟩, hshows⟩ := (hs.mem_getAllPresence hs' hdoc).mp hp
      exact ⟨⟨q, hq, hqid.trans hid⟩, p, hshows, hid⟩
    · rintro ⟨⟨q, hq, hqid⟩, p, hshows, hid⟩
      exact ⟨p, (hs.mem_getAllPresence hs' hdoc).mpr ⟨⟨q, hq, hqid.trans hid.symm⟩, hshows⟩, hid⟩
  · intro p hp hid
    obtain ⟨-, pre, t, post, hexecuted, -, -⟩ := (hs.mem_getAllPresence hs' hdoc).mp hp
    have hmem : (t, .set docId p) ∈ s'.executed := by simp [hexecuted]
    obtain ⟨docId', p', heq, v, hv, hvid, huser, hname, hcolor⟩ := hs'.eq_set hsession hmem hid
    obtain ⟨rfl, rfl⟩ := PresenceCommand.set.inj heq
    -- the session is the only one that has joined under its id
    obtain ⟨w, hw, rfl⟩ := hs'.known.registered hsession
    have hwid : w.id = id := s'.fanout.table.id_eq hsession
    have hvw : v = w := List.inj_on_of_nodup_map (hs'.used ▸ hs'.nodup) hv hw
      (hvid.symm.trans (hid.trans hwid.symm))
    exact hvw ▸ ⟨huser, hname, hcolor⟩

/-- The session that idles is connected, but not listed. -/
theorem listed_iff_idled :
    idled.fanout.table.sessions (JSString.lit "a") =
        some (PresenceFanout.collaborator "a" 0).toWorkerSession ∧
      ¬ idled.Recent (JSString.lit "doc") (JSString.lit "a") := by
  have hreach : Reach step Separate start idled := (reach_get _).trans (reach_get _)
  have hsession : idled.fanout.table.sessions (JSString.lit "a") =
      some (PresenceFanout.collaborator "a" 0).toWorkerSession := by decide +kernel
  have hdoc : JSString.colon ∉ JSString.lit "doc" := by decide
  obtain ⟨hlisted, -⟩ := listed_iff hreach .refl hsession hdoc
  exact ⟨hsession, fun hrecent =>
    absurd (hlisted.mpr ⟨hrecent, hrecent⟩) (by decide +kernel)⟩

/-! ## Ghosts -/

/-- Nothing that would set a presence of the session is left. -/
def Quiet (s : PresenceStore K) (id : JSString) : Prop :=
  (∀ x ∈ s.fanout.queued, x.1.id ≠ id) ∧
    ∀ docId p, .set docId p ∈ s.commands → p.sessionId ≠ id

lemma sessionId_ne_of_gone {a : PresenceAction K} {id : JSString} (hgone : f.Gone id)
    (hqueued : ∀ x ∈ f.queued, x.1.id ≠ id) (hmove : f.Move a f') {docId : JSString}
    {p : UserPresence} (hcommand : f.command a = some (.set docId p)) : p.sessionId ≠ id := by
  cases hmove with
  | @join session hnew hunused =>
      obtain ⟨docId', -, heq⟩ := Option.map_eq_some_iff.mp hcommand
      obtain ⟨-, rfl⟩ := PresenceCommand.set.inj heq
      rintro rfl
      exact hunused hgone.2
  | @take i x hx =>
      rw [PresenceFanout.command, hx] at hcommand
      obtain ⟨-, rfl⟩ := PresenceCommand.set.inj (Option.some.inj hcommand)
      exact hqueued x (List.mem_of_getElem? hx)
  | @typingFires key p' hp =>
      rw [PresenceFanout.command, hp, Option.bind_some] at hcommand
      simp only [Option.ite_none_left_eq_some, Option.some.injEq] at hcommand
      obtain ⟨hsome, heq⟩ := hcommand
      obtain ⟨-, rfl⟩ := PresenceCommand.set.inj heq
      rintro rfl
      exact hsome (by rw [hgone.1]; rfl)
  | @close id' session hsession =>
      rw [PresenceFanout.command, hsession, Option.bind_some] at hcommand
      obtain ⟨docId', -, heq⟩ := Option.map_eq_some_iff.mp hcommand
      simp at heq
  | message hsession => simp [PresenceFanout.command] at hcommand
  | resume hcall => simp [PresenceFanout.command] at hcommand
  | deliver hredis => simp [PresenceFanout.command] at hcommand
  | lose hredis => simp [PresenceFanout.command] at hcommand
  | flush => simp [PresenceFanout.command] at hcommand
  | leave hcall => simp [PresenceFanout.command] at hcommand

/-- The session is gone for good, and nothing of it has been set since the state `s`. -/
structure Faded (s : PresenceStore K) (id : JSString) (s' : PresenceStore K) : Prop where
  gone : s'.fanout.Gone id
  quiet : s'.Quiet id
  since : ∃ new, s'.executed = s.executed ++ new ∧
    ∀ t docId p, (t, .set docId p) ∈ new → p.sessionId ≠ id

lemma Faded.move {id : JSString} {t t' : PresenceStore K} {a : StoreAction K}
    (h : Faded s id t) (hmove : t.Move a t') (hseparate : t.Separate a) : Faded s id t' := by
  obtain ⟨new, hnew, hsets⟩ := h.since
  have hsame : t'.executed = t.executed → ∃ new, t'.executed = s.executed ++ new ∧
      ∀ t docId p, (t, .set docId p) ∈ new → p.sessionId ≠ id :=
    fun heq => ⟨new, heq.trans hnew, hsets⟩
  have happend : ∀ {now command}, t'.executed = t.executed ++ [(now, command)] →
      (∀ docId p, command = .set docId p → p.sessionId ≠ id) →
      ∃ new, t'.executed = s.executed ++ new ∧
        ∀ t docId p, (t, .set docId p) ∈ new → p.sessionId ≠ id := by
    intro now command heq hcommand
    refine ⟨new ++ [(now, command)], by rw [heq, hnew, List.append_assoc], fun t docId p hmem => ?_⟩
    rcases List.mem_append.mp hmem with hmem | hmem
    · exact hsets t docId p hmem
    · exact hcommand docId p (congrArg Prod.snd (List.mem_singleton.mp hmem)).symm
  cases hmove with
  | @fanout a f' hmove =>
      refine ⟨hmove.gone h.gone, ⟨fun x hx => ?_, fun docId p hmem => ?_⟩, hsame rfl⟩
      · rcases (used_move hmove).2 x hx with hx | hx
        · exact h.quiet.1 x hx
        · rintro rfl
          rw [h.gone.1] at hx
          simp at hx
      · rcases List.mem_append.mp hmem with hmem | hmem
        · exact h.quiet.2 docId p hmem
        · exact sessionId_ne_of_gone h.gone h.quiet.1 hmove (Option.mem_toList.mp hmem)
  | execute hcommand =>
      refine ⟨h.gone, h.quiet, happend rfl fun docId p heq => ?_⟩
      exact h.quiet.2 docId p (heq ▸ List.mem_of_getElem? hcommand)
  | drop =>
      exact ⟨h.gone, ⟨h.quiet.1, fun docId p hmem =>
        h.quiet.2 docId p (List.mem_of_mem_tail hmem)⟩, hsame rfl⟩
  | reconnect => exact ⟨h.gone, h.quiet, hsame rfl⟩
  | other command =>
      refine ⟨h.gone, h.quiet, happend rfl fun docId p heq hid => ?_⟩
      subst heq hid
      exact hseparate.2 h.gone.2
  | wait ms => exact ⟨h.gone, h.quiet, hsame rfl⟩

/-- **Ghosts end**: what a JOIN reads of a session that is gone, with nothing left that would set
its presence, Redis has held since then, and will not hold for longer than 60 seconds. -/
theorem ghosts_end {s₀ : PresenceStore K} {id : JSString} (h₀ : Reach step Separate start s₀)
    (hgone : s₀.fanout.Gone id) (hquiet : s₀.Quiet id) (h : Reach step Separate s₀ s)
    (h' : Reach step Separate s s') {docId : JSString} (hdoc : JSString.colon ∉ docId)
    {p : UserPresence} (hp : p ∈ s.getAllPresence s' docId) (hid : p.sessionId = id) :
    s₀.Shows docId p ∧ s'.now ≤ s₀.now + presenceTtl := by
  have hfaded : Faded s₀ id s' :=
    (h.trans h').invariant (P := Faded s₀ id)
      ⟨hgone, hquiet, [], (List.append_nil _).symm, by simp⟩
      fun _ _ _ hfaded hseparate hstep => hfaded.move (move_of_step hstep) hseparate
  have hs := sound_of_reach (h₀.trans h)
  have hs' := sound_of_reach ((h₀.trans h).trans h')
  obtain ⟨-, pre, t, post, hexecuted, hlive, hpost⟩ := (hs.mem_getAllPresence hs' hdoc).mp hp
  obtain ⟨new, hnew, hsets⟩ := hfaded.since
  -- it was set before the session was gone
  rcases List.append_eq_append_iff.mp (hnew.symm.trans hexecuted) with
    ⟨more, rfl, hmore⟩ | ⟨more, hs₀, hmore⟩
  · exact absurd hid (hsets t docId p (by simp [hmore]))
  · rcases List.append_eq_cons_iff.mp hmore.symm with ⟨rfl, hnew'⟩ | ⟨more', rfl, rfl⟩
    · exact absurd hid (hsets t docId p (by simp [hnew']))
    · have hnow := (executed_grows (h.trans h')).2
      refine ⟨⟨pre, t, more', hs₀, Nat.le_trans hnow hlive,
        fun x hx => hpost x (List.mem_append_left _ hx)⟩, Nat.le_trans hlive ?_⟩
      have hpast := (sound_of_reach h₀).past (t, .set docId p) (by simp [hs₀])
      exact Nat.add_le_add_right hpast _

/-- A session joins and leaves, and the command to delete its presence is given up. -/
def undeleted : PresenceStore Nat :=
  (runAllowed step Separate start [.fanout (.join (PresenceFanout.collaborator "a" 0)), .execute,
    .answer, .fanout (.close (JSString.lit "a")), .giveUp]).get (by decide +kernel)

/-- Half a minute later. -/
def undeletedLater : PresenceStore Nat :=
  (runAllowed step Separate undeleted [.wait 30000]).get (by decide +kernel)

/-- Half a minute later it is still read. -/
theorem ghosts_end_undeleted :
    buildInitialPresence (PresenceFanout.collaborator "a" 0).toWorkerSession ∈
        undeletedLater.getAllPresence undeletedLater (JSString.lit "doc") ∧
      undeletedLater.now ≤ undeleted.now + presenceTtl := by
  have hgone : undeleted.fanout.Gone (JSString.lit "a") :=
    ⟨by decide +kernel, by decide +kernel⟩
  have hnone : undeleted.commands = [] := by decide +kernel
  have hquiet : undeleted.Quiet (JSString.lit "a") :=
    ⟨by decide +kernel, fun docId p hmem => by simp [hnone] at hmem⟩
  have hmem : buildInitialPresence (PresenceFanout.collaborator "a" 0).toWorkerSession ∈
      undeletedLater.getAllPresence undeletedLater (JSString.lit "doc") := by decide +kernel
  exact ⟨hmem, (ghosts_end (reach_get _) hgone hquiet (reach_get _) .refl (by decide) hmem
    rfl).2⟩

end PresenceStore

end SyncEngine
