import SyncEngine.Lib.Transition
import SyncEngine.Server.Connections

/-!
# Orphan sessions

A session is registered at the end of the awaits of `handleJoin`, and removed by the close handler
of its socket, which looks for the session that the socket has when it closes.

* A JOIN whose socket closes while it awaits registers its session all the same; the close event
  is over, and nothing removes it.
* Two JOINs of one socket may both be in `handleJoin`.  Both register a session, and
  `socketToSession` only knows the second.

`no_orphans` holds of the runs in which neither happens: whenever a session is registered, its
socket is still open and has none.  It rests on `Owned`: every session of the table is the one
that its socket has, and the socket is open.
-/

namespace SyncEngine

open Transition

namespace Transport

/-- The socket has closed. -/
def isClosedAt (s : Transport) (k : Nat) : Bool :=
  (s.connections[k]?).any fun c => c.readyState = .closed

/-- The socket was accepted and has not closed. -/
def isOpenAt (s : Transport) (k : Nat) : Bool :=
  (s.connections[k]?).any fun c => c.readyState ≠ .closed

/-- **No orphan sessions**. -/
structure NoOrphans (s : Transport) : Prop where
  /-- A socket owns at most one entry of `sessions`. -/
  one : ∀ {id id' session session'}, s.table.sessions id = some session →
    s.table.sessions id' = some session' → session.socket = session'.socket → id = id'
  /-- Once the socket has closed and its JOINs have ended, none is left. -/
  gone : ∀ k, s.isClosedAt k = true → (∀ call ∈ s.joins, call.socket ≠ k) →
    ∀ id session, s.table.sessions id = some session → session.socket ≠ k
  /-- Nor is one left in the indexes. -/
  unlisted : ∀ k, s.isClosedAt k = true → (∀ call ∈ s.joins, call.socket ≠ k) →
    ∀ session ∈ s.registered, session.socket = k →
      (∀ docId, session.id ∉ s.table.docSessions.members docId) ∧
        ∀ userId, session.id ∉ s.table.userSessions.members userId

/-- A session is registered only for a socket that is open and has none. -/
def Vacant (s : Transport) : TransportAction → Prop
  | .resume i result _ =>
      (s.joins[i]?).all (fun call => !call.registers call.stage result ||
        s.isOpenAt call.socket && (s.getSession call.socket).isNone) = true
  | _ => True

instance (s : Transport) : DecidablePred s.Vacant
  | .resume i result _ =>
      inferInstanceAs (Decidable (Option.all (fun call => !call.registers call.stage result ||
        s.isOpenAt call.socket && (s.getSession call.socket).isNone) (s.joins[i]?) = true))
  | .connect => isTrue trivial
  | .message _ _ => isTrue trivial
  | .timeout _ => isTrue trivial
  | .close _ => isTrue trivial

/-! ## The invariant -/

/-- The entry of `sessions` is the one that its socket has, and the socket is open. -/
structure Owned (s : Transport) : Prop where
  owner : ∀ {id session}, s.table.sessions id = some session →
    ∃ c, s.connections[session.socket]? = some c ∧ c.sessionId = some id ∧ c.readyState ≠ .closed
  /-- Ids are not used again. -/
  known : ∀ {id session}, s.table.sessions id = some session → session ∈ s.registered
  unique : (s.registered.map fun session => session.id).Nodup

variable {s s' : Transport} {k : Nat} {c : AcceptedSocket} {f : AcceptedSocket → AcceptedSocket}

lemma owned_start : Owned start := by
  refine ⟨?_, ?_, List.nodup_nil⟩ <;> simp [start, SessionTable.empty]

/-- The session in the table is the one that `getSession` finds. -/
lemma Owned.getSession_eq (hs : s.Owned) {id : JSString} {session : WorkerSession Nat}
    (h : s.table.sessions id = some session) : s.getSession session.socket = some session := by
  obtain ⟨c, hc, hid, -⟩ := hs.owner h
  rw [getSession, hc, Option.bind_some, hid, Option.bind_some, h]

lemma Owned.congr (hs : s.Owned) (hconnections : s'.connections = s.connections)
    (htable : s'.table = s.table) (hregistered : s'.registered = s.registered) : s'.Owned := by
  obtain ⟨howner, hknown, hunique⟩ := hs
  refine ⟨?_, ?_, ?_⟩
  · rw [hconnections, htable]
    exact howner
  · rw [htable, hregistered]
    exact hknown
  · rw [hregistered]
    exact hunique

/-- A connection is worked on, but neither closed nor given another session. -/
lemma Owned.onConnection (hs : s.Owned) (k : Nat) (hid : ∀ c, (f c).sessionId = c.sessionId)
    (hclosed : ∀ c, (f c).readyState = .closed ↔ c.readyState = .closed) :
    (s.onConnection k f).Owned where
  owner := by
    intro id session h
    obtain ⟨c, hc, hsession, hopen⟩ := hs.owner h
    rw [getElem?_onConnection]
    split
    · exact ⟨f c, by rw [hc, Option.map_some], (hid c).trans hsession, mt (hclosed c).mp hopen⟩
    · exact ⟨c, hc, hsession, hopen⟩
  known := hs.known
  unique := hs.unique

lemma Owned.connect (hs : s.Owned) : s.connect.Owned := by
  rw [Transport.connect]
  split
  · exact hs.congr rfl rfl rfl
  · refine ⟨fun h => ?_, hs.known, hs.unique⟩
    obtain ⟨c, hc, howner⟩ := hs.owner h
    exact ⟨c, List.getElem?_append_left (List.getElem?_eq_some_iff.mp hc).1 ▸ hc, howner⟩

lemma Owned.handleJoin (hs : s.Owned) (k : Nat) (join : Option JoinPayload) :
    (s.handleJoin k join).Owned := by
  cases join with
  | none => exact hs.onConnection k (by simp) (by simp)
  | some msg =>
      rw [Transport.handleJoin]
      split
      · exact hs.onConnection k (by simp) (by simp)
      · exact hs.congr rfl rfl rfl

lemma Owned.onMessage (hs : s.Owned) (k : Nat) (incoming : IncomingMessage) :
    (s.onMessage k incoming).Owned := by
  cases incoming with
  | invalid => exact hs.onConnection k (by simp) (by simp)
  | parsed join =>
      rw [Transport.onMessage]
      split
      · exact hs.onConnection k (fun _ => rfl) fun _ => Iff.rfl
      · have hdown : (s.countDown k).Owned :=
          (hs.onConnection k (f := fun c => { c with spoke := true, joinTimeout := false })
            (fun _ => rfl) fun _ => Iff.rfl).congr rfl rfl rfl
        exact hdown.handleJoin k join

lemma Owned.onTimeout (hs : s.Owned) (k : Nat) (c : AcceptedSocket) : (s.onTimeout k c).Owned := by
  have hfired := hs.onConnection k (f := fun c => { c with joinTimeout := false, timedOut := true })
    (fun _ => rfl) fun _ => Iff.rfl
  rw [Transport.onTimeout]
  split
  · exact (hfired.onConnection k (f := (·.close 4001 "Authentication timeout")) (by simp)
      (by simp)).congr rfl rfl rfl
  · exact hfired

/-- The close handler takes the session of its socket out of the table. -/
lemma sessions_onClose (s : Transport) (k : Nat) {id : JSString} {session : WorkerSession Nat}
    (h : (s.onClose k).table.sessions id = some session) :
    s.table.sessions id = some session ∧ s.getSession k ≠ some session := by
  rw [onClose] at h
  cases hk : s.getSession k with
  | none => exact ⟨by simpa [hk] using h, by simp⟩
  | some other =>
      simp only [hk, SessionTable.sessions_removeSession] at h
      by_cases hid : id = other.id
      · subst hid
        simp at h
      · rw [Function.update_of_ne hid] at h
        refine ⟨h, fun heq => hid ?_⟩
        rw [Option.some.inj heq, s.table.id_eq h]

lemma Owned.onClose (hs : s.Owned) (k : Nat) : (s.onClose k).Owned where
  owner := by
    intro id session h
    obtain ⟨hsession, hother⟩ := sessions_onClose s k h
    have hsocket : session.socket ≠ k := fun heq => hother (heq ▸ hs.getSession_eq hsession)
    obtain ⟨c, hc, howner⟩ := hs.owner hsession
    have hconnections := getElem?_onConnection s k session.socket
      fun c => { c with readyState := .closed, joinTimeout := false }
    rw [if_neg hsocket.symm, hc] at hconnections
    exact ⟨c, hconnections, howner⟩
  known h := hs.known (sessions_onClose s k h).1
  unique := hs.unique

/-- A session is registered for an open socket without one. -/
lemma Owned.register (hs : s.Owned) {session : WorkerSession Nat} (h : s.Registers s' session)
    (hopen : s.isOpenAt session.socket = true) (hnone : s.getSession session.socket = none) :
    s'.Owned where
  owner := by
    intro id other hother
    rw [h.sessions] at hother
    rw [h.connections, getElem?_onConnection]
    by_cases hid : id = session.id
    · subst hid
      rw [Function.update_self] at hother
      obtain rfl := Option.some.inj hother
      obtain ⟨c, hc, hclosed⟩ := (Option.any_eq_true _ _).mp hopen
      rw [if_pos rfl, hc]
      exact ⟨_, rfl, rfl, by simpa using hclosed⟩
    · rw [Function.update_of_ne hid] at hother
      have hsocket : session.socket ≠ other.socket := fun heq => by
        rw [heq, hs.getSession_eq hother] at hnone
        simp at hnone
      rw [if_neg hsocket]
      exact hs.owner hother
  known := by
    intro id other hother
    rw [h.sessions] at hother
    rw [h.registered, List.mem_append, List.mem_singleton]
    by_cases hid : id = session.id
    · subst hid
      rw [Function.update_self] at hother
      exact Or.inr (Option.some.inj hother).symm
    · rw [Function.update_of_ne hid] at hother
      exact Or.inl (hs.known hother)
  unique := by
    rw [h.registered]
    exact nodup_map_append_singleton hs.unique h.unused

lemma Owned.resume (hs : s.Owned) {i : Nat} {call : JoinCall} {id : JSString} {result : AwaitResult}
    (hvacant : call.registers call.stage result = true →
      s.isOpenAt call.socket = true ∧ s.getSession call.socket = none)
    (h : s.resume i call id call.stage result = some s') : s'.Owned := by
  rcases resume_cases h with ⟨stage, rfl⟩ | rfl | ⟨error, message, code, reason, rfl⟩ |
    ⟨hregisters, displayName, color, lastSeq, h⟩
  · exact hs.congr rfl rfl rfl
  · exact hs.congr rfl rfl rfl
  · have hfinish : (s.finish i).Owned := hs.congr rfl rfl rfl
    exact hfinish.onConnection call.socket (by simp) (by simp)
  · obtain ⟨hopen, hnone⟩ := hvacant hregisters
    exact hs.register (registers_of_register h) hopen hnone

lemma owned_step {a : TransportAction} (hs : s.Owned) (ha : s.Vacant a) (h : s.step a = some s') :
    s'.Owned := by
  cases move_of_step h with
  | connect => exact hs.connect
  | @message k incoming _ _ => exact hs.onMessage k incoming
  | timeout _ _ => exact hs.onTimeout _ _
  | @close k _ _ => exact hs.onClose k
  | @resume i result id call _ hcall h =>
      refine hs.resume (fun hregisters => ?_) h
      rw [Vacant, hcall, Option.all_some, hregisters] at ha
      simpa using ha

/-! ## Runs -/

/-- A session whose socket has closed is not in the table. -/
lemma Owned.socket_ne (hs : s.Owned) (hclosed : s.isClosedAt k = true) {id : JSString}
    {session : WorkerSession Nat} (h : s.table.sessions id = some session) :
    session.socket ≠ k := by
  rintro rfl
  obtain ⟨c, hc, -, hopen⟩ := hs.owner h
  rw [isClosedAt, hc, Option.any_some] at hclosed
  exact hopen (by simpa using hclosed)

/-- A listed id is that of a session in the table, and this session was registered with it. -/
lemma Owned.eq_of_listed (hs : s.Owned) {session other : WorkerSession Nat}
    (hmem : session ∈ s.registered) (h : s.table.sessions session.id = some other) :
    other = session :=
  List.inj_on_of_nodup_map hs.unique (hs.known h) hmem (s.table.id_eq h)

/-- **No orphans**: neither is there a second session of a socket, nor one that is left behind,
if sessions are registered only for open sockets without one. -/
theorem no_orphans (s : Transport) (h : Reach step Vacant start s) : NoOrphans s := by
  have hs : s.Owned := h.invariant owned_start fun _ _ _ hs ha hstep => owned_step hs ha hstep
  refine ⟨?_, fun k hclosed _ id session h => hs.socket_ne hclosed h, ?_⟩
  · intro id id' session session' h h' hsocket
    have heq : some session = some session' := by
      rw [← hs.getSession_eq h, ← hs.getSession_eq h', hsocket]
    rw [← s.table.id_eq h, ← s.table.id_eq h', Option.some.inj heq]
  · intro k hclosed _ session hmem hsocket
    have hnone : ∀ other, s.table.sessions session.id ≠ some other := fun other h =>
      hs.socket_ne hclosed h (by rw [hs.eq_of_listed hmem h, hsocket])
    refine ⟨fun docId hlisted => ?_, fun userId hlisted => ?_⟩
    · obtain ⟨other, h, -⟩ := s.table.mem_docSessions.mp hlisted
      exact hnone other h
    · obtain ⟨other, h, -⟩ := s.table.mem_userSessions.mp hlisted
      exact hnone other h

/-- A JOIN of a document goes through and its socket closes; a second socket closes while its JOIN
awaits, and then it turns out that its user has no access. -/
def joinedAndClosed : Transport :=
  (runAllowed step Vacant start
    [.connect, .connect,
      .message 0 (.parsed (some
        ⟨⟨some (JSString.lit "d"), some (JSString.lit "u"), JSString.lit "c"⟩, 0⟩)),
      .message 1 (.parsed (some
        ⟨⟨some (JSString.lit "d"), some (JSString.lit "v"), JSString.lit "c"⟩, 0⟩)),
      .resume 0 (.rows (some (JSString.lit "Ann", JSString.lit "red"))) (JSString.lit "id"),
      .resume 0 (.document 7) (JSString.lit "id"),
      .close 1, .resume 1 (.rows none) (JSString.lit "id"),
      .resume 0 .done (JSString.lit "id"), .resume 0 .done (JSString.lit "id"),
      .close 0, .resume 0 .done (JSString.lit "id")]).get (by decide +kernel)

theorem no_orphans_joinedAndClosed :
    NoOrphans joinedAndClosed ∧ joinedAndClosed.joins.length = 0 ∧
      joinedAndClosed.registered.length = 1 := by
  have hreach : Reach step Vacant start joinedAndClosed := reach_get _
  exact ⟨no_orphans joinedAndClosed hreach, by decide +kernel, by decide +kernel⟩

/-- The socket closes while the JOIN awaits the row of the user. -/
def closedWhileJoining : Transport :=
  (runAllowed step (fun _ _ => True) start
    [.connect,
      .message 0 (.parsed (some ⟨⟨none, some (JSString.lit "u"), JSString.lit "c"⟩, 0⟩)),
      .close 0,
      .resume 0 (.rows (some (JSString.lit "Ann", JSString.lit "red"))) (JSString.lit "id"),
      .resume 0 .done (JSString.lit "id")]).get (by decide +kernel)

/-- **An orphan**: the session of the closed socket stays in the table. -/
theorem not_forall_no_orphans :
    ¬ ∀ s, Reach step (fun _ _ => True) start s → NoOrphans s := by
  intro h
  have hreach : Reach step (fun _ _ => True) start closedWhileJoining := reach_get _
  have hsome : (closedWhileJoining.table.sessions (JSString.lit "id")).map
      WorkerSession.socket = some 0 := by decide +kernel
  obtain ⟨session, hsession, hsocket⟩ := Option.map_eq_some_iff.mp hsome
  have hjoins : closedWhileJoining.joins.length = 0 := by decide +kernel
  refine (h closedWhileJoining hreach).gone 0 (by decide +kernel) ?_ _ session hsession hsocket
  rw [List.length_eq_zero_iff.mp hjoins]
  simp

end Transport

end SyncEngine
