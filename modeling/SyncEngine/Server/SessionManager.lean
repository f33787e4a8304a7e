import SyncEngine.Lib.SetMap
import SyncEngine.Server.OperationHandler

/-!
# The session manager

The sessions of one worker (`server/transport/session-manager.ts`): all of them by their ids,
and the ids by document and by user.  A session id is a new UUID, and a session is on one socket;
sockets are of any type `K`.

That the two indexes list exactly the ids in `sessions` is part of the type `SessionTable`, so
that registering and removing a session have to keep it.  What is sent to a document is the list
of the calls of `sendToSession`; whether a socket is still open, and how full its send queue is,
is left out, as is the `excludeSessionId` that no caller names.
-/

namespace SyncEngine

/-- A session as the worker keeps it.  Of a `docId`, a UUID, the code asks whether there is one. -/
structure WorkerSession (K : Type*) extends ClientSession where
  docId : Option JSString
  displayName : JSString
  color : JSString
  lastSeq : Nat
  socket : K
deriving DecidableEq

/-- A session whose document, a UUID, has passed the schema. -/
structure ValidatedSession (K : Type*) extends WorkerSession K where
  colon_notMem : ∀ docId, toWorkerSession.docId = some docId → JSString.colon ∉ docId

/-- The parameters of `registerSession`. -/
structure SessionParams where
  userId : JSString
  docId : Option JSString
  siteId : JSString
  displayName : JSString
  color : JSString
  lastSeq : Nat
deriving DecidableEq

/-- The session that `registerSession` makes. -/
def SessionParams.session {K : Type*} (params : SessionParams) (id : JSString) (socket : K) :
    WorkerSession K where
  id := id
  userId := params.userId
  siteId := params.siteId
  docId := params.docId
  displayName := params.displayName
  color := params.color
  lastSeq := params.lastSeq
  socket := socket

/-- Who comes with an id of its own leaves the ids different. -/
lemma nodup_map_append_singleton {ν κ : Type*} {f : ν → κ} {l : List ν} {x : ν}
    (h : (l.map f).Nodup) (hnew : ∀ y ∈ l, f y ≠ f x) : ((l ++ [x]).map f).Nodup := by
  rw [List.map_append, List.map_singleton, ← List.concat_eq_append]
  refine List.Nodup.concat (fun hmem => ?_) h
  obtain ⟨y, hy, heq⟩ := List.mem_map.mp hmem
  exact hnew y hy heq

/-- The sessions of a worker, with the indexes over them. -/
structure SessionTable (K : Type*) where
  sessions : JSString → Option (WorkerSession K)
  docSessions : SetMap JSString JSString
  userSessions : SetMap JSString JSString
  id_eq : ∀ {id session}, sessions id = some session → session.id = id
  mem_docSessions : ∀ {id docId}, id ∈ docSessions.members docId ↔
    ∃ session, sessions id = some session ∧ session.docId = some docId
  mem_userSessions : ∀ {id userId}, id ∈ userSessions.members userId ↔
    ∃ session, sessions id = some session ∧ session.userId = userId
  nodup_docSessions : ∀ docId, (docSessions.members docId).Nodup

namespace SessionTable

variable {K : Type*}

/-- No session. -/
def empty : SessionTable K where
  sessions := fun _ => none
  docSessions := .empty
  userSessions := .empty
  id_eq := by simp
  mem_docSessions := by simp
  mem_userSessions := by simp
  nodup_docSessions := by simp

/-- `registerSession`, of a session with an id that no session has. -/
def registerSession (t : SessionTable K) (session : WorkerSession K)
    (hnew : t.sessions session.id = none) : SessionTable K where
  sessions := Function.update t.sessions session.id (some session)
  docSessions :=
    match session.docId with
    | some docId => t.docSessions.add docId session.id
    | none => t.docSessions
  userSessions := t.userSessions.add session.userId session.id
  id_eq := by
    intro id session' h
    by_cases hid : id = session.id
    · subst hid
      rw [Function.update_self] at h
      rw [Option.some.inj h]
    · rw [Function.update_of_ne hid] at h
      exact t.id_eq h
  mem_docSessions := by
    intro id docId
    by_cases hid : id = session.id
    · subst hid
      have hnone : ∀ docId, session.id ∉ t.docSessions.members docId := fun docId hmem => by
        obtain ⟨session', h, -⟩ := t.mem_docSessions.mp hmem
        simp [hnew] at h
      cases hdoc : session.docId <;>
        simp [SetMap.mem_members_add, hnone, hdoc, eq_comm]
    · cases session.docId <;>
        simp [SetMap.mem_members_add, hid, t.mem_docSessions]
  mem_userSessions := by
    intro id userId
    by_cases hid : id = session.id
    · subst hid
      have hnone : session.id ∉ t.userSessions.members userId := fun hmem => by
        obtain ⟨session', h, -⟩ := t.mem_userSessions.mp hmem
        simp [hnew] at h
      simp [SetMap.mem_members_add, hnone, eq_comm]
    · simp [SetMap.mem_members_add, hid, t.mem_userSessions]
  nodup_docSessions := by
    intro docId
    cases session.docId with
    | none => exact t.nodup_docSessions docId
    | some docId' => exact SetMap.nodup_members_add t.nodup_docSessions docId' docId _

/-- `removeSession`, of a session in the table. -/
def deleteSession (t : SessionTable K) (id : JSString) (session : WorkerSession K)
    (hsession : t.sessions id = some session) : SessionTable K where
  sessions := Function.update t.sessions id none
  docSessions :=
    match session.docId with
    | some docId => t.docSessions.remove docId id
    | none => t.docSessions
  userSessions := t.userSessions.remove session.userId id
  id_eq := by
    intro id' session' h
    by_cases hid : id' = id
    · subst hid
      simp at h
    · rw [Function.update_of_ne hid] at h
      exact t.id_eq h
  mem_docSessions := by
    intro id' docId
    by_cases hid : id' = id
    · subst hid
      have hmem : id' ∈ t.docSessions.members docId ↔ session.docId = some docId := by
        simp [t.mem_docSessions, hsession]
      cases hdoc : session.docId <;>
        simp [SetMap.mem_members_remove, hmem, hdoc, eq_comm]
    · cases session.docId <;>
        simp [SetMap.mem_members_remove, hid, t.mem_docSessions]
  mem_userSessions := by
    intro id' userId
    by_cases hid : id' = id
    · subst hid
      have hmem : id' ∈ t.userSessions.members userId ↔ session.userId = userId := by
        simp [t.mem_userSessions, hsession]
      simp [SetMap.mem_members_remove, hmem, eq_comm]
    · simp [SetMap.mem_members_remove, hid, t.mem_userSessions]
  nodup_docSessions := by
    intro docId
    cases session.docId with
    | none => exact t.nodup_docSessions docId
    | some docId' => exact SetMap.nodup_members_remove t.nodup_docSessions docId' docId _

/-- `removeSession`. -/
def removeSession (t : SessionTable K) (id : JSString) : SessionTable K :=
  match h : t.sessions id with
  | some session => t.deleteSession id session h
  | none => t

/-- `getDocumentSessions`. -/
def getDocumentSessions (t : SessionTable K) (docId : JSString) : List (WorkerSession K) :=
  (t.docSessions.members docId).filterMap t.sessions

/-- `broadcastToDocument`: the calls of `sendToSession`. -/
def broadcastToDocument {M : Type*} (t : SessionTable K) (docId : JSString) (data : M) :
    List (WorkerSession K × M) :=
  (t.getDocumentSessions docId).map fun session => (session, data)

variable {t : SessionTable K} {id id' : JSString} {session : WorkerSession K}

lemma sessions_registerSession (hnew : t.sessions session.id = none) :
    (t.registerSession session hnew).sessions =
      Function.update t.sessions session.id (some session) := rfl

lemma sessions_removeSession (t : SessionTable K) (id : JSString) :
    (t.removeSession id).sessions = Function.update t.sessions id none := by
  rw [removeSession]
  split
  · rfl
  · rename_i h
    rw [← h, Function.update_eq_self]

/-- The sessions of a document are those that name it. -/
lemma mem_getDocumentSessions {docId : JSString} :
    session ∈ t.getDocumentSessions docId ↔
      t.sessions session.id = some session ∧ session.docId = some docId := by
  rw [getDocumentSessions, List.mem_filterMap]
  constructor
  · rintro ⟨id, hmem, h⟩
    obtain ⟨session', h', hdoc⟩ := t.mem_docSessions.mp hmem
    obtain rfl : session' = session := Option.some.inj (h'.symm.trans h)
    rw [t.id_eq h]
    exact ⟨h, hdoc⟩
  · rintro ⟨h, hdoc⟩
    exact ⟨session.id, t.mem_docSessions.mpr ⟨session, h, hdoc⟩, h⟩

lemma nodup_getDocumentSessions (t : SessionTable K) (docId : JSString) :
    (t.getDocumentSessions docId).Nodup := by
  rw [getDocumentSessions]
  refine (t.nodup_docSessions docId).filterMap fun id id' session h h' => ?_
  rw [← t.id_eq h, ← t.id_eq h']

/-- A broadcast goes to sessions of the document. -/
lemma mem_broadcastToDocument {M : Type*} {docId : JSString} {data : M}
    {x : WorkerSession K × M} (h : x ∈ t.broadcastToDocument docId data) :
    x.1.docId = some docId ∧ x.2 = data := by
  obtain ⟨session, hmem, rfl⟩ := List.mem_map.mp h
  exact ⟨(mem_getDocumentSessions.mp hmem).2, rfl⟩

/-- A session is found by its id among those of its document. -/
lemma filter_getDocumentSessions {docId : JSString} (h : t.sessions session.id = some session)
    (hdoc : session.docId = some docId) :
    ((t.getDocumentSessions docId).filter fun other => other.id = session.id) = [session] := by
  refine List.perm_singleton.mp ((List.perm_ext_iff_of_nodup
    ((t.nodup_getDocumentSessions docId).filter _) (List.nodup_cons.mpr (by simp))).mpr ?_)
  intro other
  rw [List.mem_filter, mem_getDocumentSessions, List.mem_singleton, decide_eq_true_iff]
  constructor
  · rintro ⟨⟨hother, -⟩, hid⟩
    exact Option.some.inj (hother.symm.trans (hid ▸ h))
  · rintro rfl
    exact ⟨⟨h, hdoc⟩, rfl⟩

/-- A broadcast goes to a session of the document once. -/
lemma filter_broadcastToDocument {M : Type*} {docId : JSString}
    (h : t.sessions session.id = some session) (hdoc : session.docId = some docId) (data : M) :
    ((t.broadcastToDocument docId data).filter fun x => x.1.id = session.id) =
      [(session, data)] := by
  rw [broadcastToDocument, List.filter_map]
  have hfilter := filter_getDocumentSessions h hdoc
  simp only [Function.comp_def, hfilter, List.map_singleton]

end SessionTable

end SyncEngine
