import Mathlib.Logic.Function.Basic
import SyncEngine.Lib.Transition
import SyncEngine.Server.HandleOperation
import SyncEngine.Server.OfflineMerger
import SyncEngine.Server.WorkerPool

/-!
# Who may write

The path from `document_permissions` to the operations log (`server/transport/websocket-server.ts`,
`server/transport/session-manager.ts`), for any number of sockets and documents.  `handleJoin` reads
the role of the user on the document that the JOIN names, if it names one, and `registerSession`
makes the session from its parameters; the role is not one of them.  `handleClientOperation` turns
away sessions whose role is `viewer`, and `handleOperation` stores the operation in the log of the
document that the message names.

So the check never turns anybody away, and nothing compares the two documents.
`only_writers_write` says which messages a deployment must not see for the rows to be in order.
-/

namespace SyncEngine

open Transition

/-- `role` of `document_permissions`. -/
inductive Role where
  | owner
  | editor
  | viewer
deriving DecidableEq, Repr

/-- A JOIN that the schema lets through. -/
structure JoinRequest where
  docId : Option JSString
  /-- The user that `verifyAccessToken` gives, if it accepts the token. -/
  user : Option JSString
  clientId : JSString

/-- A JOIN that has passed the permission check, with the role that was read. -/
structure PermittedJoin where
  docId : Option JSString
  userId : JSString
  clientId : JSString
  role : Option Role
deriving DecidableEq

/-- The JOIN made the user a writer of the document. -/
def PermittedJoin.writes (join : PermittedJoin) (docId : JSString) : Prop :=
  join.docId = some docId ∧ (join.role = some .owner ∨ join.role = some .editor)

instance (join : PermittedJoin) (docId : JSString) : Decidable (join.writes docId) :=
  inferInstanceAs (Decidable (_ ∧ (_ ∨ _)))

/-- A role on a document that is not `viewer` makes a writer. -/
lemma PermittedJoin.writes_of_role {join : PermittedJoin} {docId : JSString}
    (hdoc : join.docId = some docId) (hrole : join.role.isSome = true)
    (hviewer : join.role ≠ some .viewer) : join.writes docId := by
  refine ⟨hdoc, ?_⟩
  obtain ⟨role, hrole⟩ := Option.isSome_iff_exists.mp hrole
  cases role with
  | owner => exact Or.inl hrole
  | editor => exact Or.inr hrole
  | viewer => exact absurd hrole hviewer

/-- A session as `handleClientOperation` reads it. -/
structure RegisteredSession extends ClientSession where
  docId : Option JSString
  /-- `session.role`. -/
  role : Option Role
deriving DecidableEq

/-- The session is made of the parameters, a new id and the socket; nothing sets its role. -/
def registerSession (id : JSString) (join : PermittedJoin) : RegisteredSession where
  id := id
  userId := join.userId
  siteId := assignSiteId join.clientId
  docId := join.docId
  role := none

/-- The users and their roles in the database, and the sockets of a worker. -/
structure Gateway (K : Type*) where
  users : List JSString
  /-- The role of a user on a document. -/
  permissions : JSString → JSString → Option Role
  /-- The JOINs between the permission check and the registration. -/
  joins : List (K × PermittedJoin)
  /-- `socketToSession`. -/
  sessions : K → Option RegisteredSession
  /-- All sessions so far, each with its JOIN. -/
  joined : List (PermittedJoin × RegisteredSession)
  /-- The operations between the role check and the append, or the end without one. -/
  calls : List (RegisteredSession × ValidatedOperationMessage)
  /-- The tables of every document. -/
  logs : JSString → Database

/-- What happens in the database or on a socket. -/
inductive GatewayAction (K : Type*) where
  /-- A role is given, changed or taken away. -/
  | setRole (docId userId : JSString) (role : Option Role)
  | addUser (userId : JSString)
  /-- A JOIN arrives on a socket without a session. -/
  | join (k : K) (request : JoinRequest)
  /-- A JOIN that passed is registered under a new id. -/
  | register (i : Nat) (id : JSString)
  | operation (k : K) (msg : ValidatedOperationMessage)
  /-- A call appends its row. -/
  | append (i : Nat)
  /-- A call ends without one. -/
  | abandon (i : Nat)
  | close (k : K)

namespace Gateway

variable {K : Type*}

/-- No users and no documents. -/
def start : Gateway K := ⟨[], fun _ _ => none, [], fun _ => none, [], [], fun _ => Database.empty⟩

variable [DecidableEq K]

/-- The check of a JOIN; `none` closes the socket. -/
def permit (s : Gateway K) (request : JoinRequest) : Option PermittedJoin :=
  request.user.bind fun userId =>
    match request.docId with
    | some docId =>
        (s.permissions docId userId).map fun role =>
          ⟨some docId, userId, request.clientId, some role⟩
    | none =>
        if userId ∈ s.users then some ⟨none, userId, request.clientId, none⟩ else none

/-- A statement on `document_permissions`. -/
def setRole (s : Gateway K) (docId userId : JSString) (role : Option Role) : Gateway K :=
  { s with
    permissions := Function.update s.permissions docId
      (Function.update (s.permissions docId) userId role) }

/-- The check of a JOIN, which goes on if it is permitted. -/
def join (s : Gateway K) (k : K) (request : JoinRequest) : Gateway K :=
  { s with joins := s.joins ++ (s.permit request).toList.map fun join => (k, join) }

/-- `registerSession`, for a JOIN that was permitted. -/
def register (s : Gateway K) (i : Nat) (id : JSString) (k : K) (join : PermittedJoin) : Gateway K :=
  { s with
    joins := s.joins.eraseIdx i
    sessions := Function.update s.sessions k (some (registerSession id join))
    joined := s.joined ++ [(join, registerSession id join)] }

/-- `handleClientOperation`, up to the call of `handleOperation`. -/
def operation (s : Gateway K) (session : RegisteredSession) (msg : ValidatedOperationMessage) :
    Gateway K :=
  if session.role = some .viewer then s else { s with calls := s.calls ++ [(session, msg)] }

/-- The row goes into the log of the document that the message names. -/
def append (s : Gateway K) (i : Nat) (session : RegisteredSession)
    (msg : ValidatedOperationMessage) : Gateway K :=
  { s with
    calls := s.calls.eraseIdx i
    logs := Function.update s.logs msg.docId
      ((s.logs msg.docId).appendOperation (msg.call session.toClientSession).params).1 }

/-- One action, if it can happen. -/
def step (s : Gateway K) : GatewayAction K → Option (Gateway K)
  | .setRole docId userId role =>
      some (s.setRole docId userId role)
  | .addUser userId => some { s with users := userId :: s.users }
  | .join k request => if (s.sessions k).isNone then some (s.join k request) else none
  | .register i id =>
      if id ∈ s.joined.map (fun x => x.2.id) then none
      else (s.joins[i]?).map fun x => s.register i id x.1 x.2
  | .operation k msg => (s.sessions k).map fun session => s.operation session msg
  | .append i =>
      (s.calls[i]?).bind fun x =>
        if (x.2.call x.1.toClientSession).siteIdMismatch = none then some (s.append i x.1 x.2)
        else none
  | .abandon i => some { s with calls := s.calls.eraseIdx i }
  | .close k => some { s with sessions := Function.update s.sessions k none }

/-! ## The property -/

/-- Every row of a document's log was stored for a session that joined the document as one of its
writers. -/
def OnlyWritersWrite (s : Gateway K) : Prop :=
  ∀ docId, ∀ row ∈ (s.logs docId).operations, ∃ x ∈ s.joined,
    x.2.id = row.sessionId ∧ x.2.userId = row.userId ∧ x.1.writes docId

/-- A session sends operations only for the document that it joined, and not as a viewer. -/
def WritersSend (s : Gateway K) : GatewayAction K → Prop
  | .operation k msg => ∀ session ∈ s.sessions k, ∀ x ∈ s.joined, x.2 = session →
      x.1.docId = some msg.docId ∧ x.1.role ≠ some .viewer
  | _ => True

instance (s : Gateway K) : DecidablePred s.WritersSend
  | .operation k _ => inferInstanceAs (Decidable (∀ session ∈ s.sessions k, _))
  | .setRole .. => isTrue trivial
  | .addUser _ => isTrue trivial
  | .join .. => isTrue trivial
  | .register .. => isTrue trivial
  | .append _ => isTrue trivial
  | .abandon _ => isTrue trivial
  | .close _ => isTrue trivial

/-! ## The invariant -/

/-- What holds along every run in which only writers send operations. -/
structure Authorized (s : Gateway K) : Prop where
  /-- A JOIN that names a document has read a role on it. -/
  joins_role : ∀ x ∈ s.joins, x.2.docId.isSome = true → x.2.role.isSome = true
  joined_role : ∀ x ∈ s.joined, x.1.docId.isSome = true → x.1.role.isSome = true
  session_joined : ∀ k session, s.sessions k = some session → ∃ x ∈ s.joined, x.2 = session
  calls_write : ∀ call ∈ s.calls, ∃ x ∈ s.joined, x.2 = call.1 ∧
    x.1.writes call.2.docId
  rows_write : s.OnlyWritersWrite

omit [DecidableEq K] in
lemma authorized_start : (start : Gateway K).Authorized where
  joins_role := by simp [start]
  joined_role := by simp [start]
  session_joined := by simp [start]
  calls_write := by simp [start]
  rows_write := by simp [OnlyWritersWrite, start, Database.empty]

section Step

variable {s s' : Gateway K}

omit [DecidableEq K] in
lemma permit_role {request : JoinRequest} {join : PermittedJoin}
    (h : s.permit request = some join) (hdoc : join.docId.isSome = true) :
    join.role.isSome = true := by
  obtain ⟨userId, -, h⟩ := Option.bind_eq_some_iff.mp h
  split at h
  · obtain ⟨role, -, rfl⟩ := Option.map_eq_some_iff.mp h
    rfl
  · split at h
    · obtain rfl := Option.some.inj h
      simp at hdoc
    · simp at h

omit [DecidableEq K] in
lemma Authorized.join (h : s.Authorized) (k : K) (request : JoinRequest) :
    (s.join k request).Authorized where
  joins_role x hx := by
    rcases List.mem_append.mp hx with hx | hx
    · exact h.joins_role x hx
    · obtain ⟨join, hjoin, rfl⟩ := List.mem_map.mp hx
      exact permit_role (Option.mem_toList.mp hjoin)
  joined_role := h.joined_role
  session_joined := h.session_joined
  calls_write := h.calls_write
  rows_write := h.rows_write

lemma Authorized.register (h : s.Authorized) {i : Nat} (id : JSString) {k : K}
    {join : PermittedJoin} (hi : s.joins[i]? = some (k, join)) :
    (s.register i id k join).Authorized where
  joins_role x hx := h.joins_role x (List.mem_of_mem_eraseIdx hx)
  joined_role x hx := by
    rcases List.mem_append.mp hx with hx | hx
    · exact h.joined_role x hx
    · rw [List.mem_singleton.mp hx]
      exact h.joins_role (k, join) (List.mem_of_getElem? hi)
  session_joined k' session hsession := by
    simp only [Gateway.register, Function.update_apply] at hsession
    split at hsession
    · exact ⟨_, List.mem_append_right _ (List.mem_singleton.mpr rfl), Option.some.inj hsession⟩
    · obtain ⟨x, hx, heq⟩ := h.session_joined k' session hsession
      exact ⟨x, List.mem_append_left _ hx, heq⟩
  calls_write call hcall := by
    obtain ⟨x, hx, heq⟩ := h.calls_write call hcall
    exact ⟨x, List.mem_append_left _ hx, heq⟩
  rows_write docId row hrow := by
    obtain ⟨x, hx, heq⟩ := h.rows_write docId row hrow
    exact ⟨x, List.mem_append_left _ hx, heq⟩

omit [DecidableEq K] in
lemma Authorized.operation (h : s.Authorized) {k : K} {session : RegisteredSession}
    {msg : ValidatedOperationMessage} (hsession : s.sessions k = some session)
    (hsend : s.WritersSend (.operation k msg)) : (s.operation session msg).Authorized := by
  rw [Gateway.operation]
  split
  · exact h
  · refine ⟨h.joins_role, h.joined_role, h.session_joined, fun call hcall => ?_, h.rows_write⟩
    rcases List.mem_append.mp hcall with hcall | hcall
    · exact h.calls_write call hcall
    · obtain ⟨x, hx, heq⟩ := h.session_joined k session hsession
      obtain ⟨hdoc, hviewer⟩ := hsend session hsession x hx heq
      rw [List.mem_singleton.mp hcall]
      exact ⟨x, hx, heq,
        PermittedJoin.writes_of_role hdoc (h.joined_role x hx (by rw [hdoc]; rfl)) hviewer⟩

omit [DecidableEq K] in
lemma Authorized.append (h : s.Authorized) {i : Nat} {session : RegisteredSession}
    {msg : ValidatedOperationMessage} (hi : s.calls[i]? = some (session, msg)) :
    (s.append i session msg).Authorized := by
  refine ⟨h.joins_role, h.joined_role, h.session_joined,
    fun call hcall => h.calls_write call (List.mem_of_mem_eraseIdx hcall), fun docId row hrow => ?_⟩
  simp only [Gateway.append, Function.update_apply] at hrow
  split at hrow
  · rename_i hdoc
    subst hdoc
    rcases List.mem_append.mp hrow with hrow | hrow
    · exact h.rows_write msg.docId row hrow
    · obtain ⟨x, hx, heq, hwrites⟩ := h.calls_write (session, msg) (List.mem_of_getElem? hi)
      rw [List.mem_singleton.mp hrow]
      exact ⟨x, hx, congrArg (fun session => session.id) heq,
        congrArg (fun session => session.userId) heq, hwrites⟩
  · exact h.rows_write docId row hrow

lemma Authorized.step {a : GatewayAction K} (h : s.Authorized) (hsend : s.WritersSend a)
    (hstep : s.step a = some s') : s'.Authorized := by
  cases a with
  | setRole docId userId role =>
      obtain rfl := Option.some.inj hstep
      exact ⟨h.joins_role, h.joined_role, h.session_joined, h.calls_write, h.rows_write⟩
  | addUser userId =>
      obtain rfl := Option.some.inj hstep
      exact ⟨h.joins_role, h.joined_role, h.session_joined, h.calls_write, h.rows_write⟩
  | join k request =>
      simp only [Gateway.step] at hstep
      split at hstep
      · obtain rfl := Option.some.inj hstep
        exact h.join k request
      · simp at hstep
  | register i id =>
      simp only [Gateway.step] at hstep
      split at hstep
      · simp at hstep
      · obtain ⟨x, hi, rfl⟩ := Option.map_eq_some_iff.mp hstep
        exact h.register id hi
  | operation k msg =>
      obtain ⟨session, hsession, rfl⟩ := Option.map_eq_some_iff.mp hstep
      exact h.operation hsession hsend
  | append i =>
      obtain ⟨x, hi, hstep⟩ := Option.bind_eq_some_iff.mp hstep
      split at hstep
      · obtain rfl := Option.some.inj hstep
        exact h.append hi
      · simp at hstep
  | abandon i =>
      obtain rfl := Option.some.inj hstep
      exact ⟨h.joins_role, h.joined_role, h.session_joined,
        fun call hcall => h.calls_write call (List.mem_of_mem_eraseIdx hcall), h.rows_write⟩
  | close k =>
      obtain rfl := Option.some.inj hstep
      refine ⟨h.joins_role, h.joined_role, fun k' session hsession => ?_, h.calls_write,
        h.rows_write⟩
      simp only [Function.update_apply] at hsession
      split at hsession
      · simp at hsession
      · exact h.session_joined k' session hsession

end Step

/-! ## Runs -/

/-- **Only writers write** along every run in which a session sends operations only for the document
that it joined, and not as a viewer. -/
theorem only_writers_write {s : Gateway K} (h : Reach step WritersSend start s) :
    s.OnlyWritersWrite :=
  (h.invariant authorized_start fun _ _ _ hs hsend hstep => hs.step hsend hstep).rows_write

/-! ## Two runs -/

/-- A user with the role on the document joins it and types a character. -/
def typeAs (role : Role) : List (GatewayAction Unit) :=
  [.setRole (JSString.lit "d") (JSString.lit "u") (some role),
    .join () ⟨some (JSString.lit "d"), some (JSString.lit "u"), JSString.lit "a"⟩,
    .register 0 (JSString.lit "s"), .operation () Site.siteA.first, .append 0]

theorem only_writers_write_editor :
    ((runAllowed step WritersSend start (typeAs .editor)).get (by decide) :
      Gateway Unit).OnlyWritersWrite :=
  only_writers_write (reach_get _)

/-- The state after a viewer has typed. -/
def typedByViewer : Gateway Unit :=
  (runAllowed step (fun _ _ => True) start (typeAs .viewer)).get (by decide)

/-- A viewer's operation is in the log. -/
theorem not_forall_onlyWritersWrite :
    ¬ ∀ s : Gateway Unit, Reach step (fun _ _ => True) start s → s.OnlyWritersWrite := by
  intro h
  have hrows : ∀ row ∈ (typedByViewer.logs (JSString.lit "d")).operations,
      ∃ x ∈ typedByViewer.joined, x.2.id = row.sessionId ∧ x.2.userId = row.userId ∧
        x.1.writes (JSString.lit "d") := h typedByViewer (reach_get _) (JSString.lit "d")
  exact absurd hrows (by decide)

end Gateway

end SyncEngine
