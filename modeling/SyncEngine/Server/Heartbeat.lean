import Mathlib.Data.List.Nodup
import SyncEngine.Lib.LastWrite
import SyncEngine.Shared.JsString

/-!
# The heartbeat

`startHeartbeat` (`server/transport/websocket-server.ts`) looks at all sockets at every tick of an
interval.  A session that has not answered since the tick before, or that has sent no message for
twice the timeout, has its socket terminated; the others are pinged.  Two handlers answer: that of
a pong, and the processing of a PING that was put in the session's queue.  Both set `isAlive`;
neither touches `lastActivity`, which only a message does, when it arrives.

A run is any sequence of connections, JOINs, messages, answers, ticks and closes, at whatever
times `Date.now()` gives.  `terminated_iff` reads off the events of a session which tick of the
interval ends it: the first one before which it has left a tick unanswered, or which comes more
than twice the timeout after its last message.  A client that only answers pings is terminated
for want of messages.
-/

namespace SyncEngine

open LastWrite

/-- What the heartbeat looks at in a session. -/
structure Heart where
  isAlive : Bool
  lastActivity : Int
deriving DecidableEq

/-- The sockets of a worker, with their sessions. -/
structure HeartbeatState (K : Type*) where
  /-- `wss.clients`. -/
  clients : List K
  socketToSession : K → Option JSString
  /-- The sessions that the session manager has. -/
  registered : JSString → Bool
  /-- The sessions that were made. -/
  heart : JSString → Option Heart
  /-- The PINGs in the message queues of the sessions. -/
  pings : JSString → Nat
  terminated : K → Bool

/-- What happens on the worker, with the time where the code asks for it. -/
inductive HeartbeatEvent (K : Type*)
  | connection (socket : K)
  /-- `handleJoin` comes to its `registerSession`. -/
  | join (socket : K) (id : JSString) (now : Int)
  /-- A valid message of a socket, a PING or another one. -/
  | message (socket : K) (isPing : Bool) (now : Int)
  /-- A queued PING is processed. -/
  | ping (id : JSString)
  | pong (socket : K)
  | tick (now : Int)
  | close (socket : K)

namespace HeartbeatState

variable {K : Type*} [DecidableEq K]

omit [DecidableEq K] in
/-- No socket yet. -/
def init : HeartbeatState K where
  clients := []
  socketToSession := fun _ => none
  registered := fun _ => false
  heart := fun _ => none
  pings := fun _ => 0
  terminated := fun _ => false

omit [DecidableEq K] in
/-- `getSession`. -/
def getSession (s : HeartbeatState K) (socket : K) : Option JSString :=
  (s.socketToSession socket).filter s.registered

omit [DecidableEq K] in
/-- Changes the session object with this id. -/
def updateHeart (s : HeartbeatState K) (id : JSString) (f : Heart → Heart) : HeartbeatState K :=
  { s with heart := Function.update s.heart id ((s.heart id).map f) }

/-- What a tick does to one socket. -/
def beat (heartbeatTimeoutMs now : Int) (s : HeartbeatState K) (socket : K) : HeartbeatState K :=
  match s.getSession socket with
  | none => s
  | some id =>
      match s.heart id with
      | none => s
      | some session =>
          if !session.isAlive ∨ now - session.lastActivity > heartbeatTimeoutMs * 2 then
            { s with terminated := Function.update s.terminated socket true }
          else s.updateHeart id fun session => { session with isAlive := false }

/-- One event, if it can happen. -/
def step (heartbeatTimeoutMs : Int) (s : HeartbeatState K) :
    HeartbeatEvent K → Option (HeartbeatState K)
  | .connection socket =>
      if socket ∈ s.clients then none else some { s with clients := s.clients ++ [socket] }
  | .join socket id now =>
      -- an id is a new UUID
      if (s.heart id).isSome then none
      else some { s with
        socketToSession := Function.update s.socketToSession socket (some id)
        registered := Function.update s.registered id true
        heart := Function.update s.heart id (some ⟨true, now⟩) }
  | .message socket isPing now =>
      match s.getSession socket with
      | none => some s
      | some id =>
          let s' := s.updateHeart id fun session => { session with lastActivity := now }
          some (if isPing then { s' with pings := Function.update s.pings id (s.pings id + 1) }
            else s')
  | .ping id =>
      if 0 < s.pings id then
        some { s.updateHeart id fun session => { session with isAlive := true } with
          pings := Function.update s.pings id (s.pings id - 1) }
      else none
  | .pong socket =>
      match s.getSession socket with
      | none => some s
      | some id => some (s.updateHeart id fun session => { session with isAlive := true })
  | .tick now => some (s.clients.foldl (beat heartbeatTimeoutMs now) s)
  | .close socket =>
      some { s with
        clients := s.clients.filter (· ≠ socket)
        registered :=
          match s.getSession socket with
          | some id => Function.update s.registered id false
          | none => s.registered }

/-- The state after some events, if they can happen. -/
def run (heartbeatTimeoutMs : Int) (s : HeartbeatState K) (events : List (HeartbeatEvent K)) :
    Option (HeartbeatState K) :=
  events.foldlM (step heartbeatTimeoutMs) s

end HeartbeatState

/-! ## What the events of a session say -/

namespace HeartbeatEvent

variable {K : Type*} [DecidableEq K]

/-- The event answers the ping of the session with the given socket. -/
def Answers (socket : K) (id : JSString) : HeartbeatEvent K → Prop
  | .ping id' => id' = id
  | .pong socket' => socket' = socket
  | _ => False

instance (socket : K) (id : JSString) : DecidablePred (Answers socket id) := fun event =>
  match event with
  | .ping id' => inferInstanceAs (Decidable (id' = id))
  | .pong socket' => inferInstanceAs (Decidable (socket' = socket))
  | .connection _ | .join _ _ _ | .message _ _ _ | .tick _ | .close _ => isFalse fun h => h

/-- What the event makes of `isAlive`, unless the socket is terminated. -/
def alive (socket : K) (id : JSString) (event : HeartbeatEvent K) : Option Bool :=
  match event with
  | .tick _ => some false
  | event => if event.Answers socket id then some true else none

/-- The time of a message of the socket. -/
def messageTime (socket : K) : HeartbeatEvent K → Option Int
  | .message socket' _ now => if socket' = socket then some now else none
  | _ => none

/-- The event makes a new session of the socket or ends the one it has. -/
def Ends (socket : K) : HeartbeatEvent K → Prop
  | .join socket' _ _ => socket' = socket
  | .close socket' => socket' = socket
  | _ => False

end HeartbeatEvent

namespace HeartbeatState

variable {K : Type*} [DecidableEq K] {heartbeatTimeoutMs now : Int}
variable {s s' : HeartbeatState K} {k socket : K} {id : JSString} {session : Heart}

/-! ## The sockets and their sessions -/

omit [DecidableEq K] in
lemma heart_updateHeart (s : HeartbeatState K) (id id' : JSString) (f : Heart → Heart) :
    (s.updateHeart id f).heart id' = if id' = id then (s.heart id).map f else s.heart id' := by
  by_cases h : id' = id
  · subst h
    simp [updateHeart]
  · simp [updateHeart, h]

/-- The same sockets with the same sessions. -/
structure Alike (s s' : HeartbeatState K) : Prop where
  clients_eq : s'.clients = s.clients
  socketToSession_eq : s'.socketToSession = s.socketToSession
  registered_eq : s'.registered = s.registered
  heart_isSome : ∀ id, (s'.heart id).isSome = (s.heart id).isSome

omit [DecidableEq K] in
lemma Alike.refl (s : HeartbeatState K) : Alike s s := ⟨rfl, rfl, rfl, fun _ => rfl⟩

omit [DecidableEq K] in
lemma Alike.trans {s'' : HeartbeatState K} (h : Alike s s') (h' : Alike s' s'') : Alike s s'' where
  clients_eq := h'.clients_eq.trans h.clients_eq
  socketToSession_eq := h'.socketToSession_eq.trans h.socketToSession_eq
  registered_eq := h'.registered_eq.trans h.registered_eq
  heart_isSome id := (h'.heart_isSome id).trans (h.heart_isSome id)

omit [DecidableEq K] in
lemma Alike.getSession_eq (h : Alike s s') : s'.getSession = s.getSession := by
  funext k
  rw [getSession, getSession, h.socketToSession_eq, h.registered_eq]

omit [DecidableEq K] in
lemma alike_updateHeart (f : Heart → Heart) : Alike s (s.updateHeart id f) := by
  refine ⟨rfl, rfl, rfl, fun id' => ?_⟩
  rw [heart_updateHeart]
  split_ifs with h
  · rw [h, Option.isSome_map]
  · rfl

lemma alike_beat (s : HeartbeatState K) (socket : K) :
    Alike s (s.beat heartbeatTimeoutMs now socket) := by
  unfold beat
  split
  · exact Alike.refl s
  · split
    · exact Alike.refl s
    · split_ifs
      · exact ⟨rfl, rfl, rfl, fun _ => rfl⟩
      · exact alike_updateHeart _

lemma alike_tick (s : HeartbeatState K) (sockets : List K) :
    Alike s (sockets.foldl (beat heartbeatTimeoutMs now) s) :=
  List.foldlRecOn sockets _ (motive := Alike s) (Alike.refl s)
    fun _ h socket _ => h.trans (alike_beat _ socket)

/-- Every session is on one socket. -/
structure Owned (s : HeartbeatState K) : Prop where
  nodup : s.clients.Nodup
  heart_isSome : ∀ {k id}, s.socketToSession k = some id → (s.heart id).isSome = true
  socket_unique : ∀ {k k' id}, s.socketToSession k = some id → s.socketToSession k' = some id →
    k = k'

omit [DecidableEq K] in
lemma owned_init : (init : HeartbeatState K).Owned :=
  ⟨List.nodup_nil, by simp [init], by simp [init]⟩

omit [DecidableEq K] in
lemma Owned.alike (h : s.Owned) (halike : Alike s s') : s'.Owned where
  nodup := halike.clients_eq ▸ h.nodup
  heart_isSome hk := by
    rw [halike.heart_isSome]
    exact h.heart_isSome (halike.socketToSession_eq ▸ hk)
  socket_unique := by
    rw [halike.socketToSession_eq]
    exact h.socket_unique

omit [DecidableEq K] in
lemma getSession_eq_some :
    s.getSession k = some id ↔ s.socketToSession k = some id ∧ s.registered id = true := by
  rw [getSession, Option.filter_eq_some_iff]

lemma Owned.step {event : HeartbeatEvent K} (h : s.Owned)
    (hstep : s.step heartbeatTimeoutMs event = some s') : s'.Owned := by
  cases event with
  | connection socket =>
      simp only [HeartbeatState.step, Option.ite_none_left_eq_some, Option.some.injEq] at hstep
      obtain ⟨hnew, rfl⟩ := hstep
      refine ⟨?_, h.heart_isSome, h.socket_unique⟩
      rw [← List.concat_eq_append]
      exact List.Nodup.concat hnew h.nodup
  | join socket id now =>
      simp only [HeartbeatState.step, Option.ite_none_left_eq_some, Option.some.injEq] at hstep
      obtain ⟨hnew, rfl⟩ := hstep
      -- no socket has the new id yet
      have hfree : ∀ {k}, s.socketToSession k ≠ some id := fun hk => hnew (h.heart_isSome hk)
      refine ⟨h.nodup, ?_, ?_⟩
      · intro k id' hk
        by_cases hid : id' = id
        · simp [hid]
        · have hks : k ≠ socket := by
            rintro rfl
            exact hid (by simpa using hk.symm)
          simpa [hid] using h.heart_isSome (by simpa [hks] using hk)
      · intro k k' id' hk hk'
        simp only [Function.update_apply] at hk hk'
        split_ifs at hk hk' with hks hks' hks'
        · exact hks.trans hks'.symm
        · exact absurd (hk'.trans hk.symm) hfree
        · exact absurd (hk.trans hk'.symm) hfree
        · exact h.socket_unique hk hk'
  | message socket isPing now =>
      simp only [HeartbeatState.step] at hstep
      split at hstep
      · obtain rfl := Option.some.inj hstep
        exact h
      · rename_i id _
        have halike : Alike s (s.updateHeart id fun session =>
            { session with lastActivity := now }) := alike_updateHeart _
        obtain rfl := Option.some.inj hstep
        split_ifs
        · exact ⟨(h.alike halike).nodup, (h.alike halike).heart_isSome, h.socket_unique⟩
        · exact h.alike halike
  | ping id =>
      simp only [HeartbeatState.step, Option.ite_none_right_eq_some, Option.some.injEq] at hstep
      obtain ⟨-, rfl⟩ := hstep
      have halike : Alike s (s.updateHeart id fun session => { session with isAlive := true }) :=
        alike_updateHeart _
      exact ⟨h.nodup, (h.alike halike).heart_isSome, h.socket_unique⟩
  | pong socket =>
      simp only [HeartbeatState.step] at hstep
      split at hstep
      · obtain rfl := Option.some.inj hstep
        exact h
      · obtain rfl := Option.some.inj hstep
        exact h.alike (alike_updateHeart _)
  | tick now =>
      obtain rfl := Option.some.inj hstep
      exact h.alike (alike_tick s s.clients)
  | close socket =>
      obtain rfl := Option.some.inj hstep
      exact ⟨h.nodup.filter _, h.heart_isSome, h.socket_unique⟩

/-! ## A tick, for one socket -/

/-- The condition of the termination. -/
def Late (heartbeatTimeoutMs now : Int) (session : Heart) : Prop :=
  session.isAlive = false ∨ now - session.lastActivity > heartbeatTimeoutMs * 2

lemma beat_self_of_late (hget : s.getSession k = some id) (hheart : s.heart id = some session)
    (hlate : Late heartbeatTimeoutMs now session) :
    s.beat heartbeatTimeoutMs now k =
      { s with terminated := Function.update s.terminated k true } := by
  have hcond : (!session.isAlive) = true ∨
      now - session.lastActivity > heartbeatTimeoutMs * 2 := by
    simpa [Late] using hlate
  simp only [beat, hget, hheart, if_pos hcond]

lemma beat_self_of_not_late (hget : s.getSession k = some id)
    (hheart : s.heart id = some session) (hlate : ¬ Late heartbeatTimeoutMs now session) :
    s.beat heartbeatTimeoutMs now k =
      s.updateHeart id fun session => { session with isAlive := false } := by
  have hcond : ¬ ((!session.isAlive) = true ∨
      now - session.lastActivity > heartbeatTimeoutMs * 2) := by
    simpa [Late] using hlate
  simp only [beat, hget, hheart, if_neg hcond]

/-- The other sockets of a tick leave a session and its socket alone. -/
lemma beats_others {sockets : List K} (hk : k ∉ sockets)
    (hid : ∀ k' ∈ sockets, s.socketToSession k' ≠ some id) :
    (sockets.foldl (beat heartbeatTimeoutMs now) s).heart id = s.heart id ∧
      (sockets.foldl (beat heartbeatTimeoutMs now) s).terminated k = s.terminated k := by
  have hloop : Alike s (sockets.foldl (beat heartbeatTimeoutMs now) s) ∧
      (sockets.foldl (beat heartbeatTimeoutMs now) s).heart id = s.heart id ∧
      (sockets.foldl (beat heartbeatTimeoutMs now) s).terminated k = s.terminated k := by
    refine List.foldlRecOn sockets _ (motive := fun s' : HeartbeatState K =>
      Alike s s' ∧ s'.heart id = s.heart id ∧ s'.terminated k = s.terminated k)
      ⟨Alike.refl s, rfl, rfl⟩ ?_
    rintro s' ⟨halike, hheart, hterm⟩ socket hsocket
    refine ⟨halike.trans (alike_beat s' socket), ?_⟩
    unfold beat
    split
    · exact ⟨hheart, hterm⟩
    · rename_i id' hget
      have hne : id ≠ id' := by
        rintro rfl
        rw [getSession_eq_some, halike.socketToSession_eq] at hget
        exact hid socket hsocket hget.1
      have hks : k ≠ socket := fun h => hk (h ▸ hsocket)
      split
      · exact ⟨hheart, hterm⟩
      · split_ifs
        · exact ⟨hheart, by simpa [hks] using hterm⟩
        · rw [heart_updateHeart, if_neg hne]
          exact ⟨hheart, hterm⟩
  exact hloop.2

/-- What a tick makes of a session on an open socket. -/
lemma tick_cases (h : s.Owned) (hk : k ∈ s.clients) (hget : s.getSession k = some id)
    (hheart : s.heart id = some session) :
    (Late heartbeatTimeoutMs now session ∧
        (s.clients.foldl (beat heartbeatTimeoutMs now) s).terminated k = true) ∨
      (¬ Late heartbeatTimeoutMs now session ∧
        (s.clients.foldl (beat heartbeatTimeoutMs now) s).terminated k = s.terminated k ∧
        (s.clients.foldl (beat heartbeatTimeoutMs now) s).heart id =
          some { session with isAlive := false }) := by
  obtain ⟨front, back, hsplit⟩ := List.append_of_mem hk
  have hnd : (front ++ k :: back).Nodup := hsplit ▸ h.nodup
  obtain ⟨hfront, hback⟩ : k ∉ front ∧ k ∉ back := by
    obtain ⟨-, hrest, hdisjoint⟩ := List.nodup_append.mp hnd
    exact ⟨fun hf => hdisjoint k hf k (List.mem_cons_self ..) rfl, (List.nodup_cons.mp hrest).1⟩
  have hown := (getSession_eq_some.mp hget).1
  have hother : ∀ k', k' ≠ k → s.socketToSession k' ≠ some id :=
    fun k' hne hk' => hne (h.socket_unique hk' hown)
  rw [hsplit, List.foldl_append, List.foldl_cons]
  set s₁ := front.foldl (beat heartbeatTimeoutMs now) s with hs₁
  have halike₁ : Alike s s₁ := alike_tick s front
  obtain ⟨hheart₁, hterm₁⟩ : s₁.heart id = s.heart id ∧ s₁.terminated k = s.terminated k :=
    beats_others hfront fun k' hk' => hother k' fun heq => hfront (heq ▸ hk')
  have hget₁ : s₁.getSession k = some id := by rw [halike₁.getSession_eq, hget]
  have hheart₁' : s₁.heart id = some session := hheart₁.trans hheart
  have hother₂ : ∀ k' ∈ back,
      (s₁.beat heartbeatTimeoutMs now k).socketToSession k' ≠ some id := by
    intro k' hk'
    rw [(alike_beat s₁ k).socketToSession_eq, halike₁.socketToSession_eq]
    exact hother k' fun heq => hback (heq ▸ hk')
  obtain ⟨hheart₂, hterm₂⟩ := @beats_others _ _ heartbeatTimeoutMs now _ _ _ _ hback hother₂
  rw [hheart₂, hterm₂]
  by_cases hlate : Late heartbeatTimeoutMs now session
  · refine Or.inl ⟨hlate, ?_⟩
    rw [beat_self_of_late hget₁ hheart₁' hlate]
    simp
  · refine Or.inr ⟨hlate, ?_⟩
    rw [beat_self_of_not_late hget₁ hheart₁' hlate, heart_updateHeart, if_pos rfl, hheart₁']
    exact ⟨hterm₁, rfl⟩

/-! ## A session over its events -/

/-- The events of a session up to a tick say that it is late: it has left a tick before
unanswered, or its last message, or the JOIN, is too long ago. -/
def Overdue (heartbeatTimeoutMs : Int) (k : K) (id : JSString) (joined : Int)
    (events : List (HeartbeatEvent K)) (now : Int) : Prop :=
  (∃ earlier t later, events = earlier ++ .tick t :: later ∧
      ∀ event ∈ later, ¬ event.Answers k id) ∨
    now - (lastWrite (HeartbeatEvent.messageTime k) events).getD joined > heartbeatTimeoutMs * 2

/-- `isAlive` as the events leave it. -/
lemma alive_eq_false_iff {events : List (HeartbeatEvent K)} :
    (lastWrite (HeartbeatEvent.alive k id) events).getD true = false ↔
      ∃ earlier t later, events = earlier ++ .tick t :: later ∧
        ∀ event ∈ later, ¬ event.Answers k id := by
  constructor
  · intro h
    have hsome : lastWrite (HeartbeatEvent.alive k id) events = some false := by
      cases hw : lastWrite (HeartbeatEvent.alive k id) events with
      | none => simp [hw] at h
      | some b => simpa [hw] using h
    obtain ⟨earlier, event, later, hsplit, hevent, hlater⟩ := lastWrite_eq_some.mp hsome
    cases event with
    | tick t =>
        refine ⟨earlier, t, later, hsplit, fun event hmem hanswers => ?_⟩
        have hnone := hlater event hmem
        cases event <;> simp_all [HeartbeatEvent.alive, HeartbeatEvent.Answers]
    | _ => simp [HeartbeatEvent.alive] at hevent
  · rintro ⟨earlier, t, later, rfl, hlater⟩
    have hno : ∀ b, lastWrite (HeartbeatEvent.alive k id) later = some b → b = false := by
      intro b hb
      obtain ⟨pre, event, post, rfl, hevent, -⟩ := lastWrite_eq_some.mp hb
      have hnot := hlater event (by simp)
      cases event <;> simp_all [HeartbeatEvent.alive]
    rw [lastWrite_append, lastWrite_cons]
    cases hw : lastWrite (HeartbeatEvent.alive k id) later with
    | none => rfl
    | some b => simp [hno b hw]

/-- What the events since the JOIN have made of a session, as long as it is not terminated. -/
structure Tracks (k : K) (id : JSString) (joined : Int) (events : List (HeartbeatEvent K))
    (s : HeartbeatState K) : Prop where
  owned : s.Owned
  mem_clients : k ∈ s.clients
  getSession_eq : s.getSession k = some id
  heart_eq : s.terminated k = false → s.heart id =
    some ⟨(lastWrite (HeartbeatEvent.alive k id) events).getD true,
      (lastWrite (HeartbeatEvent.messageTime k) events).getD joined⟩

/-- An event that concerns other sockets, or none. -/
lemma Tracks.of_alike {joined : Int} {events : List (HeartbeatEvent K)}
    {event : HeartbeatEvent K} (h : Tracks k id joined events s) (hs' : s'.Owned)
    (hclients : k ∈ s'.clients) (hget : s'.getSession k = some id)
    (hterm : s'.terminated k = false → s.terminated k = false)
    (halive : event.alive k id = none) (htime : event.messageTime k = none)
    (hheart : s'.heart id = s.heart id) : Tracks k id joined (events ++ [event]) s' where
  owned := hs'
  mem_clients := hclients
  getSession_eq := hget
  heart_eq hnot := by
    rw [lastWrite_concat, lastWrite_concat, halive, htime, Option.none_or, Option.none_or, hheart]
    exact h.heart_eq (hterm hnot)

/-- An event of the session itself, other than a tick. -/
lemma Tracks.of_update {joined : Int} {events : List (HeartbeatEvent K)}
    {event : HeartbeatEvent K} {f : Heart → Heart} (h : Tracks k id joined events s)
    (hs' : s'.Owned) (hclients : k ∈ s'.clients) (hget : s'.getSession k = some id)
    (hterm : s'.terminated = s.terminated) (hheart : s'.heart id = (s.heart id).map f)
    (hf : ∀ session, f session = ⟨(event.alive k id).getD session.isAlive,
      (event.messageTime k).getD session.lastActivity⟩) :
    Tracks k id joined (events ++ [event]) s' where
  owned := hs'
  mem_clients := hclients
  getSession_eq := hget
  heart_eq hnot := by
    rw [hheart, h.heart_eq (hterm ▸ hnot), lastWrite_concat, lastWrite_concat, Option.map_some, hf]
    cases event.alive k id <;> cases event.messageTime k <;> rfl

variable {joined : Int} {events : List (HeartbeatEvent K)}

lemma Tracks.connection (h : Tracks k id joined events s)
    (hstep : s.step heartbeatTimeoutMs (.connection socket) = some s') :
    Tracks k id joined (events ++ [.connection socket]) s' ∧ s'.terminated = s.terminated := by
  have hs' := h.owned.step hstep
  simp only [HeartbeatState.step, Option.ite_none_left_eq_some, Option.some.injEq] at hstep
  obtain ⟨-, rfl⟩ := hstep
  exact ⟨h.of_alike hs' (List.mem_append_left _ h.mem_clients) h.getSession_eq
    (fun hnot => hnot) rfl rfl rfl, rfl⟩

/-- The JOIN of another socket makes a session of another id. -/
lemma Tracks.join {id' : JSString} (h : Tracks k id joined events s) (hks : k ≠ socket)
    (hstep : s.step heartbeatTimeoutMs (.join socket id' now) = some s') :
    Tracks k id joined (events ++ [.join socket id' now]) s' ∧ s'.terminated = s.terminated := by
  have hs' := h.owned.step hstep
  obtain ⟨hown, hreg⟩ := getSession_eq_some.mp h.getSession_eq
  simp only [HeartbeatState.step, Option.ite_none_left_eq_some, Option.some.injEq] at hstep
  obtain ⟨hnew, rfl⟩ := hstep
  have hne : id ≠ id' := by
    rintro rfl
    exact hnew (h.owned.heart_isSome hown)
  refine ⟨h.of_alike hs' h.mem_clients ?_ (fun hnot => hnot) rfl rfl ?_, rfl⟩
  · rw [getSession_eq_some]
    simp [hks, hne, hown, hreg]
  · simp [hne]

lemma Tracks.id_ne {id' : JSString} (h : Tracks k id joined events s) (hks : socket ≠ k)
    (hget : s.getSession socket = some id') : id ≠ id' := by
  rintro rfl
  exact hks (h.owned.socket_unique (getSession_eq_some.mp hget).1
    (getSession_eq_some.mp h.getSession_eq).1)

lemma Tracks.message {isPing : Bool} (h : Tracks k id joined events s)
    (hstep : s.step heartbeatTimeoutMs (.message socket isPing now) = some s') :
    Tracks k id joined (events ++ [.message socket isPing now]) s' ∧
      s'.terminated = s.terminated := by
  have hs' := h.owned.step hstep
  simp only [HeartbeatState.step] at hstep
  split at hstep
  · rename_i hnone
    obtain rfl := Option.some.inj hstep
    have hks : ¬ socket = k := by
      rintro rfl
      simp [h.getSession_eq] at hnone
    exact ⟨h.of_alike hs' h.mem_clients h.getSession_eq (fun hnot => hnot)
      (by simp [HeartbeatEvent.alive, HeartbeatEvent.Answers])
      (by simp [HeartbeatEvent.messageTime, hks]) rfl, rfl⟩
  · rename_i id' hget
    have heq := Option.some.inj hstep
    have hclients : k ∈ s'.clients := by
      rw [← heq]
      split_ifs <;> exact h.mem_clients
    have hget' : s'.getSession k = some id := by
      rw [← heq]
      split_ifs <;> exact h.getSession_eq
    have hterm : s'.terminated = s.terminated := by
      rw [← heq]
      split_ifs <;> rfl
    have hheart : s'.heart id =
        (s.updateHeart id' fun session => { session with lastActivity := now }).heart id := by
      rw [← heq]
      split_ifs <;> rfl
    rw [heart_updateHeart] at hheart
    refine ⟨?_, hterm⟩
    by_cases hks : socket = k
    · subst hks
      obtain rfl : id' = id := Option.some.inj (hget.symm.trans h.getSession_eq)
      rw [if_pos rfl] at hheart
      exact h.of_update hs' hclients hget' hterm hheart fun session => by
        simp [HeartbeatEvent.alive, HeartbeatEvent.Answers, HeartbeatEvent.messageTime]
    · rw [if_neg (h.id_ne hks hget)] at hheart
      exact h.of_alike hs' hclients hget' (hterm ▸ fun hnot => hnot)
        (by simp [HeartbeatEvent.alive, HeartbeatEvent.Answers])
        (by simp [HeartbeatEvent.messageTime, hks]) hheart

lemma Tracks.ping {id' : JSString} (h : Tracks k id joined events s)
    (hstep : s.step heartbeatTimeoutMs (.ping id') = some s') :
    Tracks k id joined (events ++ [.ping id']) s' ∧ s'.terminated = s.terminated := by
  have hs' := h.owned.step hstep
  simp only [HeartbeatState.step, Option.ite_none_right_eq_some, Option.some.injEq] at hstep
  obtain ⟨-, rfl⟩ := hstep
  refine ⟨?_, rfl⟩
  by_cases hid : id = id'
  · subst hid
    exact h.of_update hs' h.mem_clients h.getSession_eq rfl
      ((heart_updateHeart ..).trans (if_pos rfl)) fun session => by
        simp [HeartbeatEvent.alive, HeartbeatEvent.Answers, HeartbeatEvent.messageTime]
  · exact h.of_alike hs' h.mem_clients h.getSession_eq (fun hnot => hnot)
      (by simp [HeartbeatEvent.alive, HeartbeatEvent.Answers, Ne.symm hid]) rfl
      ((heart_updateHeart ..).trans (if_neg hid))

lemma Tracks.pong (h : Tracks k id joined events s)
    (hstep : s.step heartbeatTimeoutMs (.pong socket) = some s') :
    Tracks k id joined (events ++ [.pong socket]) s' ∧ s'.terminated = s.terminated := by
  have hs' := h.owned.step hstep
  simp only [HeartbeatState.step] at hstep
  split at hstep
  · rename_i hnone
    obtain rfl := Option.some.inj hstep
    have hks : ¬ socket = k := by
      rintro rfl
      simp [h.getSession_eq] at hnone
    exact ⟨h.of_alike hs' h.mem_clients h.getSession_eq (fun hnot => hnot)
      (by simp [HeartbeatEvent.alive, HeartbeatEvent.Answers, hks]) rfl rfl, rfl⟩
  · rename_i id' hget
    obtain rfl := Option.some.inj hstep
    refine ⟨?_, rfl⟩
    by_cases hks : socket = k
    · subst hks
      obtain rfl : id' = id := Option.some.inj (hget.symm.trans h.getSession_eq)
      exact h.of_update hs' h.mem_clients h.getSession_eq rfl
        ((heart_updateHeart ..).trans (if_pos rfl)) fun session => by
          simp [HeartbeatEvent.alive, HeartbeatEvent.Answers, HeartbeatEvent.messageTime]
    · exact h.of_alike hs' h.mem_clients h.getSession_eq (fun hnot => hnot)
        (by simp [HeartbeatEvent.alive, HeartbeatEvent.Answers, hks]) rfl
        ((heart_updateHeart ..).trans (if_neg (h.id_ne hks hget)))

lemma Tracks.close (h : Tracks k id joined events s) (hks : socket ≠ k)
    (hstep : s.step heartbeatTimeoutMs (.close socket) = some s') :
    Tracks k id joined (events ++ [.close socket]) s' ∧ s'.terminated = s.terminated := by
  have hs' := h.owned.step hstep
  obtain ⟨hown, hreg⟩ := getSession_eq_some.mp h.getSession_eq
  obtain rfl := Option.some.inj hstep
  refine ⟨h.of_alike hs' (List.mem_filter.mpr ⟨h.mem_clients, by simpa using hks.symm⟩) ?_
    (fun hnot => hnot) rfl rfl rfl, rfl⟩
  rw [getSession_eq_some]
  refine ⟨hown, ?_⟩
  split
  · rename_i id' hget
    simpa [h.id_ne hks hget] using hreg
  · exact hreg

/-- A tick terminates the socket just when the session is overdue. -/
lemma Tracks.tick (h : Tracks k id joined events s)
    (hstep : s.step heartbeatTimeoutMs (.tick now) = some s') :
    Tracks k id joined (events ++ [.tick now]) s' ∧
      (s'.terminated k = true ↔
        s.terminated k = true ∨ Overdue heartbeatTimeoutMs k id joined events now) := by
  have hs' := h.owned.step hstep
  obtain rfl := Option.some.inj hstep
  have halike : Alike s (s.clients.foldl (beat heartbeatTimeoutMs now) s) :=
    alike_tick s s.clients
  have hclients : k ∈ (s.clients.foldl (beat heartbeatTimeoutMs now) s).clients :=
    halike.clients_eq.symm ▸ h.mem_clients
  have hget : (s.clients.foldl (beat heartbeatTimeoutMs now) s).getSession k = some id := by
    rw [halike.getSession_eq, h.getSession_eq]
  obtain ⟨session, hsession⟩ := Option.isSome_iff_exists.mp
    (h.owned.heart_isSome (getSession_eq_some.mp h.getSession_eq).1)
  have hcases := @tick_cases _ _ heartbeatTimeoutMs now _ _ _ _ h.owned h.mem_clients
    h.getSession_eq hsession
  -- once terminated, a socket stays so; before, its session is what its events say
  by_cases hterm : s.terminated k = true
  · have hterm' : (s.clients.foldl (beat heartbeatTimeoutMs now) s).terminated k = true := by
      rcases hcases with ⟨-, hdead⟩ | ⟨-, hsame, -⟩
      · exact hdead
      · rw [hsame, hterm]
    exact ⟨⟨hs', hclients, hget, fun hnot => by simp [hterm'] at hnot⟩, by simp [hterm, hterm']⟩
  · have halive := h.heart_eq (by simpa using hterm)
    obtain rfl := Option.some.inj (hsession.symm.trans halive)
    have hlate : Late heartbeatTimeoutMs now
        ⟨(lastWrite (HeartbeatEvent.alive k id) events).getD true,
          (lastWrite (HeartbeatEvent.messageTime k) events).getD joined⟩ ↔
        Overdue heartbeatTimeoutMs k id joined events now := by
      rw [Late, Overdue, alive_eq_false_iff]
    rcases hcases with ⟨hdead, hterm'⟩ | ⟨hok, hsame, hheart⟩
    · exact ⟨⟨hs', hclients, hget, fun hnot => by simp [hterm'] at hnot⟩,
        by simp [hterm', hlate.mp hdead]⟩
    · refine ⟨⟨hs', hclients, hget, fun _ => ?_⟩, ?_⟩
      · rw [hheart, lastWrite_concat, lastWrite_concat]
        rfl
      · have hnot : ¬ Overdue heartbeatTimeoutMs k id joined events now := mt hlate.mpr hok
        simp [hsame, hterm, hnot]

/-- One event: the session goes on as its events say, and is terminated just when it is overdue
at a tick. -/
lemma Tracks.step {event : HeartbeatEvent K} (h : Tracks k id joined events s)
    (hends : ¬ event.Ends k) (hstep : s.step heartbeatTimeoutMs event = some s') :
    Tracks k id joined (events ++ [event]) s' ∧
      (s'.terminated k = true ↔ s.terminated k = true ∨
        ∃ now, event = .tick now ∧ Overdue heartbeatTimeoutMs k id joined events now) := by
  have hother : (∀ now, event ≠ .tick now) →
      Tracks k id joined (events ++ [event]) s' ∧ s'.terminated = s.terminated →
      Tracks k id joined (events ++ [event]) s' ∧
        (s'.terminated k = true ↔ s.terminated k = true ∨
          ∃ now, event = .tick now ∧ Overdue heartbeatTimeoutMs k id joined events now) := by
    rintro hevent ⟨htracks, hterm⟩
    exact ⟨htracks, by simp [hterm, hevent]⟩
  cases event with
  | connection socket => exact hother (by simp) (h.connection hstep)
  | join socket id' now => exact hother (by simp) (h.join (fun heq => hends heq.symm) hstep)
  | message socket isPing now => exact hother (by simp) (h.message hstep)
  | ping id' => exact hother (by simp) (h.ping hstep)
  | pong socket => exact hother (by simp) (h.pong hstep)
  | tick now => simpa using h.tick hstep
  | close socket => exact hother (by simp) (h.close hends hstep)

/-! ## Runs -/

lemma run_concat {events : List (HeartbeatEvent K)} {event : HeartbeatEvent K} :
    s.run heartbeatTimeoutMs (events ++ [event]) =
      (s.run heartbeatTimeoutMs events).bind fun s => s.step heartbeatTimeoutMs event := by
  rw [run, List.foldlM_append, run]
  simp

lemma Owned.run {events : List (HeartbeatEvent K)} (h : s.Owned)
    (hrun : s.run heartbeatTimeoutMs events = some s') : s'.Owned := by
  induction events using List.reverseRecOn generalizing s' with
  | nil =>
      obtain rfl := Option.some.inj hrun
      exact h
  | append_singleton events event ih =>
      rw [run_concat] at hrun
      obtain ⟨s₁, hrun₁, hstep⟩ := Option.bind_eq_some_iff.mp hrun
      exact (ih hrun₁).step hstep

lemma tracks_join (h : s.Owned) (hopen : k ∈ s.clients)
    (hstep : s.step heartbeatTimeoutMs (.join k id joined) = some s') :
    Tracks k id joined [] s' ∧ s'.terminated = s.terminated := by
  have hs' := h.step hstep
  simp only [HeartbeatState.step, Option.ite_none_left_eq_some, Option.some.injEq] at hstep
  obtain ⟨-, rfl⟩ := hstep
  refine ⟨⟨hs', hopen, ?_, fun _ => ?_⟩, rfl⟩
  · rw [getSession_eq_some]
    simp
  · simp

/-- A session over all its events. -/
lemma Tracks.run (h : Tracks k id joined [] s)
    (hterm : s.terminated k = false) (hends : ∀ event ∈ events, ¬ event.Ends k)
    (hrun : s.run heartbeatTimeoutMs events = some s') :
    Tracks k id joined events s' ∧
      (s'.terminated k = true ↔ ∃ earlier now later, events = earlier ++ .tick now :: later ∧
        Overdue heartbeatTimeoutMs k id joined earlier now) := by
  induction events using List.reverseRecOn generalizing s' with
  | nil =>
      obtain rfl := Option.some.inj hrun
      exact ⟨h, by simp [hterm]⟩
  | append_singleton events event ih =>
      rw [run_concat] at hrun
      obtain ⟨s₁, hrun₁, hstep⟩ := Option.bind_eq_some_iff.mp hrun
      obtain ⟨htracks, hiff⟩ := ih (fun p hp => hends p (List.mem_append_left _ hp)) hrun₁
      obtain ⟨htracks', hiff'⟩ := htracks.step (hends event (by simp)) hstep
      refine ⟨htracks', hiff'.trans ?_⟩
      rw [hiff]
      constructor
      · rintro (⟨earlier, now, later, rfl, hover⟩ | ⟨now, rfl, hover⟩)
        · exact ⟨earlier, now, later ++ [event], by simp, hover⟩
        · exact ⟨events, now, [], rfl, hover⟩
      · rintro ⟨earlier, now, later, hsplit, hover⟩
        rcases List.eq_nil_or_concat later with rfl | ⟨later', last, rfl⟩
        · obtain ⟨rfl, hevent⟩ := List.append_inj' hsplit rfl
          exact Or.inr ⟨now, by simpa using hevent, hover⟩
        · have hsplit' : events ++ [event] = (earlier ++ .tick now :: later') ++ [last] := by
            rw [hsplit]
            simp
          exact Or.inl ⟨earlier, now, later', (List.append_inj' hsplit' rfl).1, hover⟩

/-- **Whom the heartbeat terminates.**  From its JOIN on, as long as the socket is neither closed
nor makes another JOIN, a session's socket is terminated just if it is overdue at a tick: it has
answered nothing since some tick before, or has sent no message for more than twice the timeout. -/
theorem terminated_iff {before after : List (HeartbeatEvent K)} {s₀ : HeartbeatState K}
    {joined : Int} (hbefore : init.run heartbeatTimeoutMs before = some s₀)
    (hopen : k ∈ s₀.clients) (hterm : s₀.terminated k = false)
    (hrun : s₀.run heartbeatTimeoutMs (.join k id joined :: after) = some s)
    (hends : ∀ event ∈ after, ¬ event.Ends k) :
    s.terminated k = true ↔ ∃ earlier now later, after = earlier ++ .tick now :: later ∧
      Overdue heartbeatTimeoutMs k id joined earlier now := by
  rw [run, List.foldlM_cons] at hrun
  obtain ⟨s₁, hjoin, hafter⟩ := Option.bind_eq_some_iff.mp hrun
  obtain ⟨htracks, hsame⟩ := tracks_join (owned_init.run hbefore) hopen hjoin
  exact (htracks.run (hsame ▸ hterm) hends hafter).2

/-- A client that answers every ping and sends no message, a tick every 30 seconds and a timeout of
10 seconds: the first tick already terminates it. -/
theorem terminated_iff_idle :
    let before : List (HeartbeatEvent Nat) := [.connection 0, .connection 1]
    let after : List (HeartbeatEvent Nat) :=
      [.message 1 false 15000, .pong 0, .tick 30000, .pong 0, .pong 1, .tick 60000]
    let s₀ := (init.run 10000 before).get (by decide +kernel)
    let s := (s₀.run 10000 (.join 0 (JSString.ofNat 5) 1000 :: after)).get (by decide +kernel)
    (s.terminated 0 = true ↔ ∃ earlier now later, after = earlier ++ .tick now :: later ∧
        Overdue 10000 0 (JSString.ofNat 5) 1000 earlier now) ∧
      s.terminated 0 = true := by
  intro before after s₀ s
  refine ⟨terminated_iff (Option.some_get _).symm (by decide +kernel) (by decide +kernel)
    (Option.some_get _).symm ?_, by decide +kernel⟩
  simp [after, HeartbeatEvent.Ends]

end HeartbeatState

end SyncEngine
