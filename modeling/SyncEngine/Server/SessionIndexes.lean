import SyncEngine.Lib.Transition
import SyncEngine.Server.SessionManager

/-!
# The indexes of the session manager

`session-manager.ts` keeps three maps by hand: `sessions`, and the ids of `sessions` by document
and by user.  `SessionTable` has their agreement in its type.  Here are the three maps as the
module has them, `SessionMaps`, with nothing that relates one to another, and the two functions
that write them.

A run is any sequence of `registerSession` and `removeSession`.  Two things are asked of a
registration (`Fresh`): no session has the id that is generated, and the `docId`, if there is
one, is not the empty string, which `JoinMessageSchema` lets nobody send.

`maps_registerSession` and `maps_removeSession` are the step lemmas: on the maps of a table the
two functions do what they do on the table.  So the maps stay the maps of a table
(`Indexed.table`), and `session_indexes` reads the indexes off it.
-/

namespace SyncEngine

open Transition

/-- `sessions`, `docSessions` and `userSessions`. -/
structure SessionMaps (K : Type*) where
  sessions : JSString → Option (WorkerSession K)
  docSessions : SetMap JSString JSString
  userSessions : SetMap JSString JSString

namespace SessionMaps

variable {K : Type*}

/-- No session. -/
def empty : SessionMaps K where
  sessions := fun _ => none
  docSessions := .empty
  userSessions := .empty

/-- `if (session.docId)`: the index is changed at the document, if there is one. -/
def ifDocId (docId : Option JSString) (change : JSString → SetMap JSString JSString)
    (docSessions : SetMap JSString JSString) : SetMap JSString JSString :=
  match docId with
  | some docId => if docId ≠ [] then change docId else docSessions
  | none => docSessions

/-- `registerSession`, with the UUID that it generates. -/
def registerSession (m : SessionMaps K) (params : SessionParams) (id : JSString) (socket : K) :
    SessionMaps K where
  sessions := Function.update m.sessions id (some (params.session id socket))
  docSessions := ifDocId params.docId (m.docSessions.add · id) m.docSessions
  userSessions := m.userSessions.add params.userId id

/-- The deletions of `removeSession`, of a session that was found. -/
def deleteSession (m : SessionMaps K) (sessionId : JSString) (session : WorkerSession K) :
    SessionMaps K where
  sessions := Function.update m.sessions sessionId none
  docSessions := ifDocId session.docId (m.docSessions.remove · sessionId) m.docSessions
  userSessions := m.userSessions.remove session.userId sessionId

/-- `removeSession`, with the session that it returns. -/
def removeSession (m : SessionMaps K) (sessionId : JSString) :
    SessionMaps K × Option (WorkerSession K) :=
  match m.sessions sessionId with
  | some session => (m.deleteSession sessionId session, some session)
  | none => (m, none)

/-- `getSession`. -/
def getSession (m : SessionMaps K) (sessionId : JSString) : Option (WorkerSession K) :=
  m.sessions sessionId

/-- The sessions that the ids of an index entry stand for. -/
def ofIds (m : SessionMaps K) (ids : List JSString) : List (WorkerSession K) :=
  ids.filterMap m.getSession

/-- `getDocumentSessions`. -/
def getDocumentSessions (m : SessionMaps K) (docId : JSString) : List (WorkerSession K) :=
  m.ofIds (m.docSessions.members docId)

/-- `getSessionsForUser`. -/
def getSessionsForUser (m : SessionMaps K) (userId : JSString) : List (WorkerSession K) :=
  m.ofIds (m.userSessions.members userId)

/-! ## Runs -/

/-- A call of one of the two functions that write the maps. -/
inductive SessionCall (K : Type*)
  | registerSession (params : SessionParams) (id : JSString) (socket : K)
  | removeSession (sessionId : JSString)

/-- One call. -/
def step (m : SessionMaps K) : SessionCall K → Option (SessionMaps K)
  | .registerSession params id socket => some (m.registerSession params id socket)
  | .removeSession sessionId => some (m.removeSession sessionId).1

/-- The id that is generated is no session's, and the `docId` has passed the schema. -/
def Fresh (m : SessionMaps K) : SessionCall K → Prop
  | .registerSession params id _ => m.sessions id = none ∧ params.docId ≠ some []
  | .removeSession _ => True

instance (m : SessionMaps K) : DecidablePred m.Fresh
  | .registerSession params id _ =>
      inferInstanceAs (Decidable (m.sessions id = none ∧ params.docId ≠ some []))
  | .removeSession _ => isTrue trivial

/-- The maps that some sequence of calls leads to. -/
def Reachable (m : SessionMaps K) : Prop := Reach step Fresh empty m

/-- **The indexes agree with `sessions`**. -/
structure Consistent (m : SessionMaps K) : Prop where
  mem_docSessions : ∀ id docId, id ∈ m.docSessions.members docId ↔
    ∃ session, m.sessions id = some session ∧ session.docId = some docId
  mem_userSessions : ∀ id userId, id ∈ m.userSessions.members userId ↔
    ∃ session, m.sessions id = some session ∧ session.userId = userId
  docSessions_noEmptySet : m.docSessions.NoEmptySet
  userSessions_noEmptySet : m.userSessions.NoEmptySet
  /-- The sessions of a document, all of them and each once. -/
  mem_getDocumentSessions : ∀ docId session, session ∈ m.getDocumentSessions docId ↔
    (∃ id, m.sessions id = some session) ∧ session.docId = some docId
  nodup_getDocumentSessions : ∀ docId, (m.getDocumentSessions docId).Nodup
  /-- The sessions of a user, all of them and each once. -/
  mem_getSessionsForUser : ∀ userId session, session ∈ m.getSessionsForUser userId ↔
    (∃ id, m.sessions id = some session) ∧ session.userId = userId
  nodup_getSessionsForUser : ∀ userId, (m.getSessionsForUser userId).Nodup

end SessionMaps

/-- The three maps of a table. -/
def SessionTable.maps {K : Type*} (t : SessionTable K) : SessionMaps K where
  sessions := t.sessions
  docSessions := t.docSessions
  userSessions := t.userSessions

namespace SessionMaps

/-! ## The maps of a table -/

variable {K : Type*} {m m' : SessionMaps K} {t : SessionTable K} {id : JSString}
variable {session : WorkerSession K}

/-- Where a `docId` is not empty, its presence is what is asked for. -/
lemma ifDocId_eq (docId : Option JSString) (change : JSString → SetMap JSString JSString)
    (docSessions : SetMap JSString JSString) : docId ≠ some [] →
    ifDocId docId change docSessions =
      match docId with
      | some docId => change docId
      | none => docSessions := by
  intro h
  unfold ifDocId
  cases docId with
  | none => rfl
  | some docId => exact if_pos fun heq => h (congrArg some heq)

/-- A registration is that of the table. -/
lemma maps_registerSession {params : SessionParams} (socket : K) (hnew : t.sessions id = none)
    (hdoc : params.docId ≠ some []) :
    t.maps.registerSession params id socket =
      (t.registerSession (params.session id socket) hnew).maps := by
  rw [registerSession, ifDocId_eq _ _ _ hdoc]
  rfl

lemma maps_removeSession (id : JSString)
    (hdoc : ∀ session, t.sessions id = some session → session.docId ≠ some []) :
    (t.maps.removeSession id).1 = (t.removeSession id).maps := by
  unfold removeSession SessionTable.removeSession
  show (match t.sessions id with
    | some session => (t.maps.deleteSession id session, some session)
    | none => (t.maps, none)).1 = _
  split <;> split
  · rename_i session hsession session' hsession'
    obtain rfl : session' = session := Option.some.inj (hsession'.symm.trans hsession)
    rw [deleteSession, ifDocId_eq _ _ _ (hdoc session' hsession)]
    rfl
  · rename_i session hsession hnone
    simp [hsession] at hnone
  · rename_i hnone session hsession
    simp [hsession] at hnone
  · rfl

/-! ## The invariant -/

/-- The maps are those of a table, and tidy. -/
structure Indexed (m : SessionMaps K) : Prop where
  table : ∃ t : SessionTable K, t.maps = m
  docId_ne : ∀ id session, m.sessions id = some session → session.docId ≠ some []
  docSessions : m.docSessions.NoEmptySet
  userSessions : m.userSessions.NoEmptySet
  nodup_userSessions : ∀ userId, (m.userSessions.members userId).Nodup

lemma indexed_empty : (empty : SessionMaps K).Indexed where
  table := ⟨.empty, rfl⟩
  docId_ne := by simp [empty]
  docSessions := SetMap.noEmptySet_empty
  userSessions := SetMap.noEmptySet_empty
  nodup_userSessions := by simp [empty]

lemma noEmptySet_ifDocId {docSessions : SetMap JSString JSString} {docId : Option JSString}
    {change : JSString → SetMap JSString JSString} (h : docSessions.NoEmptySet)
    (hchange : ∀ docId, (change docId).NoEmptySet) :
    (ifDocId docId change docSessions).NoEmptySet := by
  unfold ifDocId
  split
  · split
    · exact hchange _
    · exact h
  · exact h

lemma Indexed.registerSession (h : m.Indexed) {params : SessionParams} (socket : K)
    (hnew : m.sessions id = none) (hdoc : params.docId ≠ some []) :
    (m.registerSession params id socket).Indexed where
  table := by
    obtain ⟨t, rfl⟩ := h.table
    exact ⟨_, (maps_registerSession socket hnew hdoc).symm⟩
  docId_ne := by
    intro id' session
    show Function.update m.sessions id (some (params.session id socket)) id' = some session → _
    by_cases hid : id' = id
    · subst hid
      intro hsession
      have hself : some (params.session id' socket) = some session := by
        rwa [Function.update_self] at hsession
      obtain rfl := Option.some.inj hself
      exact hdoc
    · intro hsession
      rw [Function.update_of_ne hid] at hsession
      exact h.docId_ne id' session hsession
  docSessions := noEmptySet_ifDocId h.docSessions fun docId => h.docSessions.add docId id
  userSessions := h.userSessions.add _ _
  nodup_userSessions := fun userId => SetMap.nodup_members_add h.nodup_userSessions _ userId _

lemma Indexed.deleteSession (h : m.Indexed) (hsession : m.sessions id = some session) :
    (m.deleteSession id session).Indexed where
  table := by
    obtain ⟨t, rfl⟩ := h.table
    have hremove := maps_removeSession id (h.docId_ne id)
    rw [SessionMaps.removeSession, hsession] at hremove
    exact ⟨_, hremove.symm⟩
  docId_ne := by
    intro id' session'
    show Function.update m.sessions id none id' = some session' → _
    by_cases hid : id' = id
    · subst hid
      simp
    · intro hsession'
      rw [Function.update_of_ne hid] at hsession'
      exact h.docId_ne id' session' hsession'
  docSessions := noEmptySet_ifDocId h.docSessions fun docId => h.docSessions.remove docId id
  userSessions := h.userSessions.remove _ _
  nodup_userSessions := fun userId => SetMap.nodup_members_remove h.nodup_userSessions _ userId _

lemma Indexed.step {call : SessionCall K} (h : m.Indexed) (hfresh : m.Fresh call)
    (hstep : m.step call = some m') : m'.Indexed := by
  cases call with
  | registerSession params id socket =>
      obtain rfl := Option.some.inj hstep
      exact h.registerSession socket hfresh.1 hfresh.2
  | removeSession sessionId =>
      obtain rfl := Option.some.inj hstep
      unfold SessionMaps.removeSession
      split
      · exact h.deleteSession ‹_›
      · exact h

lemma Reachable.indexed (h : m.Reachable) : m.Indexed :=
  h.invariant indexed_empty fun _ _ _ => Indexed.step

/-! ## What the indexes are for -/

lemma Indexed.id_eq (h : m.Indexed) (hsession : m.sessions id = some session) :
    session.id = id := by
  obtain ⟨t, rfl⟩ := h.table
  exact t.id_eq hsession

/-- The ids of the sessions that have a property stand for these sessions. -/
lemma mem_ofIds {ids : List JSString} {p : WorkerSession K → Prop}
    (hids : ∀ id, id ∈ ids ↔ ∃ session, m.sessions id = some session ∧ p session)
    (session : WorkerSession K) :
    session ∈ m.ofIds ids ↔ (∃ id, m.sessions id = some session) ∧ p session := by
  rw [ofIds, List.mem_filterMap]
  constructor
  · rintro ⟨id, hid, hsession⟩
    obtain ⟨session', hsession', hp⟩ := (hids id).mp hid
    obtain rfl : session' = session := Option.some.inj (hsession'.symm.trans hsession)
    exact ⟨⟨id, hsession⟩, hp⟩
  · rintro ⟨⟨id, hsession⟩, hp⟩
    exact ⟨id, (hids id).mpr ⟨session, hsession, hp⟩, hsession⟩

lemma Indexed.nodup_ofIds (h : m.Indexed) {ids : List JSString} (hids : ids.Nodup) :
    (m.ofIds ids).Nodup := by
  refine hids.filterMap fun id id' session hid hid' => ?_
  rw [← h.id_eq hid, ← h.id_eq hid']

/-- **The indexes agree with `sessions`** after every sequence of registrations and removals. -/
theorem session_indexes (h : m.Reachable) : m.Consistent := by
  have hm := h.indexed
  obtain ⟨t, rfl⟩ := hm.table
  have hdocs : ∀ id docId, id ∈ t.docSessions.members docId ↔
      ∃ session, t.sessions id = some session ∧ session.docId = some docId :=
    fun _ _ => t.mem_docSessions
  have husers : ∀ id userId, id ∈ t.userSessions.members userId ↔
      ∃ session, t.sessions id = some session ∧ session.userId = userId :=
    fun _ _ => t.mem_userSessions
  exact
    { mem_docSessions := hdocs
      mem_userSessions := husers
      docSessions_noEmptySet := hm.docSessions
      userSessions_noEmptySet := hm.userSessions
      mem_getDocumentSessions := fun docId => mem_ofIds fun id => hdocs id docId
      nodup_getDocumentSessions := fun docId => hm.nodup_ofIds (t.nodup_docSessions docId)
      mem_getSessionsForUser := fun userId => mem_ofIds fun id => husers id userId
      nodup_getSessionsForUser := fun userId => hm.nodup_ofIds (hm.nodup_userSessions userId) }

/-- Two tabs of a user on a document and one on the notifications page; the first tab is closed,
and its session removed twice. -/
def oneTabClosed : SessionMaps Nat :=
  (runAllowed step Fresh empty
    [.registerSession ⟨JSString.ofNat 1, some (JSString.ofNat 7), JSString.ofNat 2, [], [], 0⟩
        (JSString.ofNat 101) 0,
      .registerSession ⟨JSString.ofNat 1, some (JSString.ofNat 7), JSString.ofNat 3, [], [], 0⟩
        (JSString.ofNat 102) 1,
      .registerSession ⟨JSString.ofNat 1, none, JSString.ofNat 4, [], [], 0⟩
        (JSString.ofNat 103) 2,
      .removeSession (JSString.ofNat 101), .removeSession (JSString.ofNat 101)]).get
    (by decide +kernel)

theorem session_indexes_oneTabClosed :
    Consistent oneTabClosed ∧
      (oneTabClosed.getDocumentSessions (JSString.ofNat 7)).map (·.id) = [JSString.ofNat 102] ∧
      (oneTabClosed.getSessionsForUser (JSString.ofNat 1)).map (·.id) =
        [JSString.ofNat 102, JSString.ofNat 103] := by
  have hreach : Reachable oneTabClosed := reach_get _
  exact ⟨session_indexes hreach, by decide +kernel, by decide +kernel⟩

end SessionMaps

end SyncEngine
