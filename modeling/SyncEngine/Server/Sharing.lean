import SyncEngine.Lib.Interleaving
import SyncEngine.Lib.KeyedTable
import SyncEngine.Server.Authorization

/-!
# Sharing documents

Who has which role on a document: `document_permissions` and `invitations`, with the routes that
write them (`api/routes/documents.ts`, `api/routes/invites.ts`) and the functions of
`persistence/document-store.ts` and `persistence/invitation-store.ts` that these call.

A request makes its reads one after the other, each one awaited, and ends with one statement or
transaction that writes (`SharingWrite`) or with an error.  Requests of any number of users and
workers interleave at these awaits.  A transaction sees what others have committed and takes effect
when it commits: the row locks of its writes keep it apart from others from there on, while its
reads, `acceptInvitation`'s SELECT among them, are not repeated.

`history` is no table of the schema.  It records what was done, with what the tables said at that
time, for the properties that look back.

The invitation by link is left out: no route calls it, and its row has no `invitee_email`, which
the schema does not let be null.  So is what follows the INSERT of an invitation, the notification
and the entry of the audit log.
-/

namespace SyncEngine

open Interleaving

/-- `role` of `invitations`. -/
inductive InvitationRole where
  | owner
  | editor
  | commenter
  | viewer
deriving DecidableEq, Repr

/-- The CHECK on `role` of `document_permissions`, which knows no commenters. -/
def InvitationRole.permission : InvitationRole → Option Role
  | .owner => some .owner
  | .editor => some .editor
  | .commenter => none
  | .viewer => some .viewer

/-- The CHECK on `role` of `invitations`. -/
def InvitationRole.ofString (s : JSString) : Option InvitationRole :=
  if s = JSString.lit "owner" then some .owner
  else if s = JSString.lit "editor" then some .editor
  else if s = JSString.lit "commenter" then some .commenter
  else if s = JSString.lit "viewer" then some .viewer
  else none

/-- A text as `role` of `document_permissions`. -/
def Role.ofString (s : JSString) : Option Role :=
  (InvitationRole.ofString s).bind InvitationRole.permission

/-- `status` of `invitations`. -/
inductive InvitationStatus where
  | pending
  | accepted
  | rejected
deriving DecidableEq, Repr

/-- A row of `users`, as far as sharing goes. -/
structure UserRow where
  id : JSString
  email : JSString
deriving DecidableEq

/-- A row of `documents`. -/
structure DocumentRow where
  id : JSString
  title : JSString
  ownerId : JSString
  isDeleted : Bool
deriving DecidableEq

/-- A row of `document_permissions`. -/
structure PermissionRow where
  docId : JSString
  userId : JSString
  role : Role
deriving DecidableEq

/-- What an invitation says. -/
structure Invitation where
  id : JSString
  docId : JSString
  inviterId : JSString
  inviteeEmail : JSString
  role : InvitationRole
  token : JSString
  expiresAt : Nat
deriving DecidableEq

/-- A row of `invitations`. -/
structure InvitationRow where
  invitation : Invitation
  status : InvitationStatus
deriving DecidableEq

/-- The primary key of `document_permissions`. -/
def PermissionRow.key (p : PermissionRow) : JSString × JSString := (p.docId, p.userId)

/-- The primary key of `invitations`. -/
def InvitationRow.id (row : InvitationRow) : JSString := row.invitation.id

/-- What was done to permissions and invitations. -/
inductive SharingEvent where
  | created (docId userId : JSString)
  /-- An invitation, with the role that its author had. -/
  | invited (invitation : Invitation) (inviterRole : Option Role)
  /-- `acceptInvitation` wrote a permission: when its transaction began, and what the tables said of
  the invitation and the user when it wrote. -/
  | accepted (invitation : Invitation) (userId : JSString) (now : Nat)
      (status : Option InvitationStatus) (email : Option JSString)
  | rejected (invitation : Invitation)
  /-- An invitation was deleted. -/
  | revoked (id : JSString)
  /-- A role was changed, by a user with a role of his own. -/
  | updatedRole (docId actorId userId : JSString) (role : Role) (actorRole : Option Role)
deriving DecidableEq

/-- The tables, with what was done to them on record. -/
structure SharingTables where
  users : List UserRow
  documents : List DocumentRow
  permissions : List PermissionRow
  invitations : List InvitationRow
  history : List SharingEvent
deriving DecidableEq

/-- What a step takes from outside: the time, in milliseconds, a new UUID and a new token. -/
structure SharingDraws where
  now : Nat
  id : JSString
  token : JSString

/-- A statement or transaction that writes. -/
inductive SharingWrite where
  | registerUser (email : JSString)
  | createDocument (title ownerId : JSString)
  | softDeleteDocument (docId : JSString)
  | createEmailInvitation (docId inviterId email role : JSString) (expiresInHours : Nat)
  /-- The writes of `acceptInvitation`, with the invitation that it has read and the time at which
  its transaction began. -/
  | acceptInvitation (invitation : Invitation) (userId : JSString) (now : Nat)
  | rejectInvitation (invitation : Invitation)
  | revokeInvitation (id : JSString)
  | updateCollaboratorRole (docId actorId userId : JSString) (role : Option JSString)
  | removeCollaborator (docId userId : JSString)
deriving DecidableEq

/-- The checks of POST `/:id/invites` that read, after the first. -/
inductive InviteCheck where
  | registered
  | collaborator (targetUserId : JSString)
  | limit
  | pending
deriving DecidableEq

/-- The body of POST `/:id/invites`. -/
structure InviteBody where
  email : Option JSString
  role : Option JSString
  type : Option JSString
deriving DecidableEq

/-- A request that is about to read. -/
inductive SharingRead where
  | deleteDocument (docId userId : JSString)
  | invite (docId userId : JSString) (body : InviteBody)
  | inviteCheck (check : InviteCheck) (docId userId email role : JSString)
  | updateRole (docId userId targetUserId : JSString) (role : Option JSString)
  | removeCollaborator (docId userId targetUserId : JSString)
  | acceptInvitation (token userId : JSString)
  | rejectInvitation (token userId : JSString)
deriving DecidableEq

/-- A request at its next await. -/
inductive SharingCall where
  | read (r : SharingRead)
  | write (w : SharingWrite)
deriving DecidableEq

/-- How a handler goes on after a read. -/
inductive ReadOutcome where
  | await (call : SharingCall)
  | error (status : Nat) (error : String)

/-- A request that is not over. -/
def ReadOutcome.call? : ReadOutcome → Option SharingCall
  | .await call => some call
  | .error _ _ => none

namespace SharingTables

/-- Empty tables. -/
def empty : SharingTables := ⟨[], [], [], [], []⟩

/-! ## Reads -/

/-- The role of a user on a document. -/
def roleOf (s : SharingTables) (docId userId : JSString) : Option Role :=
  (KeyedTable.lookup PermissionRow.key (docId, userId) s.permissions).map PermissionRow.role

/-- `getDocumentWithPermission`. -/
def getDocumentWithPermission (s : SharingTables) (docId userId : JSString) :
    Option (DocumentRow × Role) := do
  let doc ← s.documents.find? fun doc => doc.id = docId ∧ doc.isDeleted = false
  let role ← s.roleOf docId userId
  return (doc, role)

/-- `SELECT * FROM invitations WHERE token = $1 AND expires_at > NOW()`. -/
def getInvitationByToken (s : SharingTables) (token : JSString) (now : Nat) :
    Option Invitation :=
  (s.invitations.map InvitationRow.invitation).find? fun invitation =>
    invitation.token = token ∧ now < invitation.expiresAt

/-- `SELECT COUNT(*) FROM document_permissions WHERE doc_id = $1`. -/
def collaborators (s : SharingTables) (docId : JSString) : Nat :=
  s.permissions.countP fun p => p.docId = docId

/-- The first read of POST `/:id/invites` and the checks of the body. -/
def invite (s : SharingTables) (docId userId : JSString) (body : InviteBody) : ReadOutcome :=
  match s.getDocumentWithPermission docId userId with
  | none => .error 404 "Document not found"
  | some (_, role) =>
      if role ≠ .owner ∧ role ≠ .editor then
        .error 403 "You do not have permission to invite users"
      else if body.type.getD (JSString.lit "email") ≠ JSString.lit "email" then
        .error 400 "Only email invitations are supported in this version"
      else
        match body.email with
        | none | some [] => .error 400 "Email is required"
        | some email =>
            .await (.read (.inviteCheck .registered docId userId email
              (body.role.getD (JSString.lit "viewer"))))

/-- The other reads of POST `/:id/invites`. -/
def inviteCheck (s : SharingTables) (check : InviteCheck) (docId userId email role : JSString)
    (now : Nat) : ReadOutcome :=
  match check with
  | .registered =>
      match s.users.find? fun u => u.email = email with
      | none => .error 404 "No registered user found with that email address"
      | some target =>
          if target.id = userId then .error 400 "You cannot invite yourself"
          else .await (.read (.inviteCheck (.collaborator target.id) docId userId email role))
  | .collaborator targetUserId =>
      if (s.roleOf docId targetUserId).isSome then
        .error 400 "User is already a collaborator on this document"
      else .await (.read (.inviteCheck .limit docId userId email role))
  | .limit =>
      if 10 ≤ s.collaborators docId then
        .error 400 "Maximum collaborator limit (10) reached for this document"
      else .await (.read (.inviteCheck .pending docId userId email role))
  | .pending =>
      if s.invitations.any fun row => row.invitation.docId = docId ∧
          row.invitation.inviteeEmail = email ∧ now < row.invitation.expiresAt ∧
            row.status = .pending then
        .error 400 "An invitation is already pending for this user"
      else .await (.write (.createEmailInvitation docId userId email role 72))

/-- A read, and what the handler does with it. -/
def read (s : SharingTables) (r : SharingRead) (now : Nat) : ReadOutcome :=
  match r with
  | .deleteDocument docId userId =>
      match s.getDocumentWithPermission docId userId with
      | none => .error 404 "Document not found"
      | some (_, role) =>
          if role ≠ .owner then .error 403 "Only the owner can delete a document"
          else .await (.write (.softDeleteDocument docId))
  | .invite docId userId body => s.invite docId userId body
  | .inviteCheck check docId userId email role => s.inviteCheck check docId userId email role now
  | .updateRole docId userId targetUserId role =>
      match s.getDocumentWithPermission docId userId with
      | some (_, .owner) =>
          .await (.write (.updateCollaboratorRole docId userId targetUserId role))
      | _ => .error 403 "Only the owner can update roles"
  | .removeCollaborator docId userId targetUserId =>
      match s.getDocumentWithPermission docId userId with
      | none => .error 403 "Not authorized to remove this collaborator"
      | some (_, role) =>
          if role ≠ .owner ∧ userId ≠ targetUserId then
            .error 403 "Not authorized to remove this collaborator"
          else .await (.write (.removeCollaborator docId targetUserId))
  | .acceptInvitation token userId =>
      match s.getInvitationByToken token now with
      | none => .error 400 "Invalid or expired invitation token"
      | some invitation => .await (.write (.acceptInvitation invitation userId now))
  | .rejectInvitation token _ =>
      match s.getInvitationByToken token now with
      | none => .error 400 "Invalid or expired invitation token"
      | some invitation => .await (.write (.rejectInvitation invitation))

/-! ## Writes -/

/-- The foreign keys of a permission or an invitation. -/
def references (s : SharingTables) (docId userId : JSString) : Bool :=
  KeyedTable.hasKey DocumentRow.id docId s.documents && KeyedTable.hasKey UserRow.id userId s.users

/-- `email` of a user. -/
def emailOf (s : SharingTables) (userId : JSString) : Option JSString :=
  (KeyedTable.lookup UserRow.id userId s.users).map UserRow.email

/-- `status` of an invitation. -/
def statusOf (s : SharingTables) (id : JSString) : Option InvitationStatus :=
  (KeyedTable.lookup InvitationRow.id id s.invitations).map InvitationRow.status

/-- `UPDATE invitations SET status = $2 WHERE id = $1`, of an invitation by email. -/
def setStatus (s : SharingTables) (invitation : Invitation) (status : InvitationStatus) :
    List InvitationRow :=
  if invitation.inviteeEmail ≠ [] then
    KeyedTable.update InvitationRow.id invitation.id (fun row => { row with status := status })
      s.invitations
  else s.invitations

/-- Something was done. -/
def record (s : SharingTables) (e : SharingEvent) : SharingTables :=
  { s with history := s.history ++ [e] }

/-- INSERT of a user, whose e-mail is UNIQUE. -/
def insertUser (s : SharingTables) (user : UserRow) : Option SharingTables :=
  if s.users.any fun u => u.email = user.email then none
  else
    (KeyedTable.insert UserRow.id user s.users).map fun users => { s with users := users }

/-- INSERT of a document, whose owner is a user. -/
def insertDocument (s : SharingTables) (doc : DocumentRow) : Option SharingTables :=
  if KeyedTable.hasKey UserRow.id doc.ownerId s.users then
    (KeyedTable.insert DocumentRow.id doc s.documents).map fun documents =>
      { s with
        documents := documents
        permissions := s.permissions ++ [PermissionRow.mk doc.id doc.ownerId .owner] }.record
          (.created doc.id doc.ownerId)
  else none

/-- The document is marked as deleted. -/
def softDeleteDocument (s : SharingTables) (docId : JSString) : SharingTables :=
  { s with
    documents := KeyedTable.update DocumentRow.id docId (fun doc => { doc with isDeleted := true })
      s.documents }

/-- INSERT of an invitation of an inviter and a document that are there, with a token of its own. -/
def insertInvitation (s : SharingTables) (invitation : Invitation) : Option SharingTables :=
  if s.references invitation.docId invitation.inviterId = false ∨
      s.invitations.any (fun row => row.invitation.token = invitation.token) then none
  else
    (KeyedTable.insert InvitationRow.id (.mk invitation .pending) s.invitations).map
      fun invitations => { s with invitations := invitations }.record
        (.invited invitation (s.roleOf invitation.docId invitation.inviterId))

/-- The role of the invitation is given, and one by e-mail is then accepted; `none` if a statement
throws. -/
def acceptInvitation (s : SharingTables) (invitation : Invitation) (userId : JSString)
    (now : Nat) : Option SharingTables :=
  match invitation.role.permission with
  | none => none
  | some role =>
      if s.references invitation.docId userId then
        some <| { s with
          permissions := KeyedTable.upsert PermissionRow.key ⟨invitation.docId, userId, role⟩
            s.permissions
          invitations := s.setStatus invitation .accepted }.record
            (.accepted invitation userId now (s.statusOf invitation.id) (s.emailOf userId))
      else none

/-- The invitation is rejected. -/
def rejectInvitation (s : SharingTables) (invitation : Invitation) : SharingTables :=
  { s with invitations := s.setStatus invitation .rejected }.record (.rejected invitation)

/-- The invitation is deleted. -/
def revokeInvitation (s : SharingTables) (id : JSString) : SharingTables :=
  if KeyedTable.hasKey InvitationRow.id id s.invitations then
    { s with invitations := KeyedTable.delete InvitationRow.id id s.invitations }.record
      (.revoked id)
  else s

/-- UPDATE of a role. -/
def updateCollaboratorRole (s : SharingTables) (docId actorId userId : JSString) (role : Role) :
    SharingTables :=
  if (s.roleOf docId userId).isSome then
    { s with
      permissions := KeyedTable.update PermissionRow.key (docId, userId)
        (fun p => { p with role := role }) s.permissions }.record
          (.updatedRole docId actorId userId role (s.roleOf docId actorId))
  else s

/-- DELETE of a permission. -/
def removeCollaborator (s : SharingTables) (docId userId : JSString) : SharingTables :=
  { s with permissions := KeyedTable.delete PermissionRow.key (docId, userId) s.permissions }

/-- A write; `none` where it breaks a constraint of the schema, so that nothing is written. -/
def write (s : SharingTables) (w : SharingWrite) (draws : SharingDraws) : Option SharingTables :=
  match w with
  | .registerUser email => s.insertUser ⟨draws.id, email⟩
  | .createDocument title ownerId => s.insertDocument ⟨draws.id, title, ownerId, false⟩
  | .softDeleteDocument docId => some (s.softDeleteDocument docId)
  | .createEmailInvitation docId inviterId email role expiresInHours =>
      (InvitationRole.ofString role).bind fun role =>
        s.insertInvitation ⟨draws.id, docId, inviterId, email, role, draws.token,
          draws.now + expiresInHours * 3600000⟩
  | .acceptInvitation invitation userId now => s.acceptInvitation invitation userId now
  | .rejectInvitation invitation => some (s.rejectInvitation invitation)
  | .revokeInvitation id => some (s.revokeInvitation id)
  | .updateCollaboratorRole docId actorId userId role =>
      (role.bind Role.ofString).map fun role => s.updateCollaboratorRole docId actorId userId role
  | .removeCollaborator docId userId => some (s.removeCollaborator docId userId)

/-! ## Requests -/

/-- A request up to its next await. -/
def exec (s : SharingTables) (call : SharingCall) (draws : SharingDraws) :
    SharingTables × Option SharingCall :=
  match call with
  | .read r => (s, (s.read r draws.now).call?)
  | .write w => ((s.write w draws).getD s, none)

/-- The requests to the routes.  `/:id/invites` is the only way to `createEmailInvitation`. -/
def IsRequest : SharingCall → Prop
  | .read (.inviteCheck ..) => False
  | .read _ => True
  | .write (.registerUser _) => True
  | .write (.createDocument ..) => True
  | .write (.revokeInvitation _) => True
  | .write _ => False

instance : DecidablePred IsRequest
  | .read (.inviteCheck ..) => isFalse id
  | .read (.deleteDocument ..) => isTrue trivial
  | .read (.invite ..) => isTrue trivial
  | .read (.updateRole ..) => isTrue trivial
  | .read (.removeCollaborator ..) => isTrue trivial
  | .read (.acceptInvitation ..) => isTrue trivial
  | .read (.rejectInvitation ..) => isTrue trivial
  | .write (.registerUser _) => isTrue trivial
  | .write (.createDocument ..) => isTrue trivial
  | .write (.revokeInvitation _) => isTrue trivial
  | .write (.softDeleteDocument _) => isFalse id
  | .write (.createEmailInvitation ..) => isFalse id
  | .write (.acceptInvitation ..) => isFalse id
  | .write (.rejectInvitation _) => isFalse id
  | .write (.updateCollaboratorRole ..) => isFalse id
  | .write (.removeCollaborator ..) => isFalse id

/-! ## What a write does -/

/-- What a write that goes through has done. -/
inductive Wrote (s : SharingTables) (draws : SharingDraws) : SharingWrite → SharingTables → Prop
  | registerUser (email : JSString) (users : List UserRow) :
      Wrote s draws (.registerUser email) { s with users := users }
  | createDocument (title ownerId : JSString) (hnew : ∀ doc ∈ s.documents, doc.id ≠ draws.id) :
      Wrote s draws (.createDocument title ownerId) ({ s with
        documents := s.documents ++ [DocumentRow.mk draws.id title ownerId false]
        permissions := s.permissions ++ [PermissionRow.mk draws.id ownerId .owner] }.record
          (.created draws.id ownerId))
  | softDeleteDocument (docId : JSString) :
      Wrote s draws (.softDeleteDocument docId) (s.softDeleteDocument docId)
  | createEmailInvitation (invitation : Invitation) (role : JSString) (expiresInHours : Nat)
      (hid : invitation.id = draws.id)
      (hrole : InvitationRole.ofString role = some invitation.role)
      (hnew : ∀ row ∈ s.invitations, row.id ≠ invitation.id) :
      Wrote s draws
        (.createEmailInvitation invitation.docId invitation.inviterId invitation.inviteeEmail role
          expiresInHours)
        ({ s with invitations := s.invitations ++ [InvitationRow.mk invitation .pending] }.record
          (.invited invitation (s.roleOf invitation.docId invitation.inviterId)))
  | acceptInvitation (invitation : Invitation) (userId : JSString) (now : Nat) (role : Role)
      (hrole : invitation.role.permission = some role)
      (hdoc : KeyedTable.hasKey DocumentRow.id invitation.docId s.documents = true) :
      Wrote s draws (.acceptInvitation invitation userId now) ({ s with
        permissions := KeyedTable.upsert PermissionRow.key ⟨invitation.docId, userId, role⟩
          s.permissions
        invitations := s.setStatus invitation .accepted }.record
          (.accepted invitation userId now (s.statusOf invitation.id) (s.emailOf userId)))
  | rejectInvitation (invitation : Invitation) :
      Wrote s draws (.rejectInvitation invitation) (s.rejectInvitation invitation)
  | revokeInvitation (id : JSString) :
      Wrote s draws (.revokeInvitation id) (s.revokeInvitation id)
  | updateCollaboratorRole (docId actorId userId text : JSString) (role : Role)
      (hrole : Role.ofString text = some role) :
      Wrote s draws (.updateCollaboratorRole docId actorId userId (some text))
        (s.updateCollaboratorRole docId actorId userId role)
  | removeCollaborator (docId userId : JSString) :
      Wrote s draws (.removeCollaborator docId userId) (s.removeCollaborator docId userId)

variable {s s' : SharingTables} {w : SharingWrite} {draws : SharingDraws}

lemma wrote_insertInvitation {invitation : Invitation} {role : JSString} {expiresInHours : Nat}
    (hid : invitation.id = draws.id) (hrole : InvitationRole.ofString role = some invitation.role)
    (h : s.insertInvitation invitation = some s') :
    Wrote s draws (.createEmailInvitation invitation.docId invitation.inviterId
      invitation.inviteeEmail role expiresInHours) s' := by
  unfold insertInvitation at h
  split at h
  · simp at h
  · obtain ⟨invitations, hinsert, rfl⟩ := Option.map_eq_some_iff.mp h
    obtain ⟨rfl, hnew⟩ := KeyedTable.insert_eq_some hinsert
    exact .createEmailInvitation invitation role expiresInHours hid hrole hnew

/-- **Inversion** of a write. -/
theorem wrote (h : s.write w draws = some s') : Wrote s draws w s' := by
  cases w with
  | registerUser email =>
      unfold write insertUser at h
      dsimp only at h
      split at h
      · simp at h
      · obtain ⟨users, -, rfl⟩ := Option.map_eq_some_iff.mp h
        exact .registerUser email users
  | createDocument title ownerId =>
      unfold write insertDocument at h
      dsimp only at h
      split at h
      · obtain ⟨documents, hinsert, rfl⟩ := Option.map_eq_some_iff.mp h
        obtain ⟨rfl, hnew⟩ := KeyedTable.insert_eq_some hinsert
        exact .createDocument title ownerId hnew
      · simp at h
  | createEmailInvitation docId inviterId email text expiresInHours =>
      obtain ⟨role, hrole, hinsert⟩ := Option.bind_eq_some_iff.mp h
      exact wrote_insertInvitation rfl hrole hinsert
  | acceptInvitation invitation userId now =>
      unfold write acceptInvitation at h
      dsimp only at h
      split at h
      · simp at h
      · rename_i role hrole
        split at h
        · rename_i href
          obtain rfl := Option.some.inj h
          unfold references at href
          exact .acceptInvitation invitation userId now role hrole
            (Bool.and_eq_true_iff.mp href).1
        · simp at h
  | updateCollaboratorRole docId actorId userId text =>
      obtain ⟨role, hrole, rfl⟩ := Option.map_eq_some_iff.mp h
      obtain ⟨text, rfl, hrole⟩ := Option.bind_eq_some_iff.mp hrole
      exact .updateCollaboratorRole docId actorId userId text role hrole
  | softDeleteDocument docId =>
      obtain rfl := Option.some.inj h
      exact .softDeleteDocument docId
  | rejectInvitation invitation =>
      obtain rfl := Option.some.inj h
      exact .rejectInvitation invitation
  | revokeInvitation id =>
      obtain rfl := Option.some.inj h
      exact .revokeInvitation id
  | removeCollaborator docId userId =>
      obtain rfl := Option.some.inj h
      exact .removeCollaborator docId userId

lemma roleOf_eq_none {docId userId : JSString} :
    s.roleOf docId userId = none ↔
      KeyedTable.hasKey PermissionRow.key (docId, userId) s.permissions = false := by
  unfold roleOf KeyedTable.lookup KeyedTable.hasKey
  simp

lemma exec_shared {I : SharingTables → Prop} {call : SharingCall} (h : I s)
    (hwrite : ∀ w s', call = .write w → Wrote s draws w s' → I s') :
    I (s.exec call draws).1 := by
  cases call with
  | read r => exact h
  | write w =>
      show I ((s.write w draws).getD s)
      cases hw : s.write w draws with
      | none => exact h
      | some s' => exact hwrite w s' rfl (wrote hw)

/-! ## Invitations and their records -/

/-- Every invitation in the table was recorded when it was made. -/
def Recorded (s : SharingTables) : Prop :=
  ∀ row ∈ s.invitations, ∃ role, .invited row.invitation role ∈ s.history

/-- What an acceptance that is about to write has read was an invitation, and not expired. -/
def Accepting (s : SharingTables) (call : SharingCall) : Prop :=
  match call with
  | .write (.acceptInvitation invitation _ now) =>
      (∃ role, .invited invitation role ∈ s.history) ∧ now < invitation.expiresAt
  | _ => True

lemma recorded_empty : Recorded empty := nofun

lemma getInvitationByToken_eq_some {token : JSString} {now : Nat} {invitation : Invitation}
    (h : s.getInvitationByToken token now = some invitation) :
    (∃ row ∈ s.invitations, row.invitation = invitation) ∧ now < invitation.expiresAt := by
  have hmem := List.mem_of_find?_eq_some h
  have htest := List.find?_some h
  exact ⟨List.mem_map.mp hmem, (of_decide_eq_true htest).2⟩

/-- Only the read of `acceptInvitation` leads to its writes. -/
lemma read_acceptInvitation {r : SharingRead} {now now' : Nat} {invitation : Invitation}
    {userId : JSString}
    (h : (s.read r now).call? = some (.write (.acceptInvitation invitation userId now'))) :
    ∃ token, s.getInvitationByToken token now = some invitation ∧ now' = now := by
  cases r with
  | acceptInvitation token user =>
      unfold read at h
      dsimp only at h
      split at h
      · simp [ReadOutcome.call?] at h
      · rename_i hfound
        simp only [ReadOutcome.call?, Option.some.injEq, SharingCall.write.injEq,
          SharingWrite.acceptInvitation.injEq] at h
        obtain ⟨rfl, -, rfl⟩ := h
        exact ⟨token, hfound, rfl⟩
  | inviteCheck check docId user email role =>
      simp only [read] at h
      cases check with
      | registered =>
          simp only [SharingTables.inviteCheck] at h
          split at h
          · simp [ReadOutcome.call?] at h
          · split at h <;> simp [ReadOutcome.call?] at h
      | collaborator | limit | pending =>
          simp only [SharingTables.inviteCheck] at h
          split at h <;> simp [ReadOutcome.call?] at h
  | invite docId user body =>
      simp only [read, invite] at h
      split at h
      · simp [ReadOutcome.call?] at h
      · split at h
        · simp [ReadOutcome.call?] at h
        · split at h
          · simp [ReadOutcome.call?] at h
          · split at h <;> simp [ReadOutcome.call?] at h
  | deleteDocument docId user =>
      simp only [read] at h
      split at h
      · simp [ReadOutcome.call?] at h
      · split at h <;> simp [ReadOutcome.call?] at h
  | updateRole docId user targetUserId role =>
      simp only [read] at h
      split at h <;> simp [ReadOutcome.call?] at h
  | removeCollaborator docId user targetUserId =>
      simp only [read] at h
      split at h
      · simp [ReadOutcome.call?] at h
      · split at h <;> simp [ReadOutcome.call?] at h
  | rejectInvitation token user =>
      simp only [read] at h
      split at h <;> simp [ReadOutcome.call?] at h

/-- A status changes nothing of what an invitation says. -/
lemma mem_setStatus {invitation : Invitation} {status : InvitationStatus} {row : InvitationRow}
    (h : row ∈ s.setStatus invitation status) :
    ∃ row' ∈ s.invitations, row'.invitation = row.invitation ∧
      (row'.status = row.status ∨ row.id = invitation.id ∧ row.status = status) := by
  unfold setStatus at h
  split at h
  · rcases KeyedTable.mem_update.mp h with ⟨hrow, -⟩ | ⟨row', hrow', hid, rfl⟩
    · exact ⟨row, hrow, rfl, Or.inl rfl⟩
    · exact ⟨row', hrow', rfl, Or.inr ⟨hid, rfl⟩⟩
  · exact ⟨row, h, rfl, Or.inl rfl⟩

lemma Wrote.history (h : Wrote s draws w s') : ∃ events, s'.history = s.history ++ events := by
  cases h with
  | registerUser | softDeleteDocument | removeCollaborator => exact ⟨[], (List.append_nil _).symm⟩
  | createDocument | createEmailInvitation | acceptInvitation | rejectInvitation =>
      exact ⟨_, rfl⟩
  | revokeInvitation id =>
      unfold SharingTables.revokeInvitation
      split
      · exact ⟨_, rfl⟩
      · exact ⟨[], (List.append_nil _).symm⟩
  | updateCollaboratorRole docId actorId userId text role =>
      unfold SharingTables.updateCollaboratorRole
      split
      · exact ⟨_, rfl⟩
      · exact ⟨[], (List.append_nil _).symm⟩

/-- What is in the table afterwards was there before, or was made. -/
lemma Wrote.mem_invitations (h : Wrote s draws w s') {row : InvitationRow}
    (hrow : row ∈ s'.invitations) :
    (∃ row' ∈ s.invitations, row'.invitation = row.invitation) ∨
      ∃ role, .invited row.invitation role ∈ s'.history := by
  cases h with
  | createEmailInvitation invitation role expiresInHours hid hrole hnew =>
      rcases List.mem_append.mp hrow with hrow | hrow
      · exact Or.inl ⟨row, hrow, rfl⟩
      · obtain rfl := List.mem_singleton.mp hrow
        exact Or.inr ⟨_, List.mem_append_right _ (List.mem_singleton_self _)⟩
  | acceptInvitation | rejectInvitation =>
      obtain ⟨row', hrow', heq, -⟩ := mem_setStatus hrow
      exact Or.inl ⟨row', hrow', heq⟩
  | revokeInvitation id =>
      unfold SharingTables.revokeInvitation at hrow
      split at hrow
      · exact Or.inl ⟨row, (KeyedTable.mem_delete.mp hrow).1, rfl⟩
      · exact Or.inl ⟨row, hrow, rfl⟩
  | updateCollaboratorRole docId actorId userId text role =>
      unfold SharingTables.updateCollaboratorRole at hrow
      split at hrow <;> exact Or.inl ⟨row, hrow, rfl⟩
  | registerUser | createDocument | softDeleteDocument | removeCollaborator =>
      exact Or.inl ⟨row, hrow, rfl⟩

lemma Wrote.mem_history (h : Wrote s draws w s') {e : SharingEvent} (he : e ∈ s.history) :
    e ∈ s'.history := by
  obtain ⟨events, heq⟩ := h.history
  rw [heq]
  exact List.mem_append_left _ he

lemma Recorded.wrote (h : s.Recorded) (hwrote : Wrote s draws w s') : s'.Recorded := by
  intro row hrow
  rcases hwrote.mem_invitations hrow with ⟨row', hrow', heq⟩ | hmade
  · obtain ⟨role, hmem⟩ := h row' hrow'
    exact ⟨role, hwrote.mem_history (heq ▸ hmem)⟩
  · exact hmade

lemma Accepting.exec {other call : SharingCall} (h : s.Accepting other) :
    (s.exec call draws).1.Accepting other := by
  refine exec_shared (I := fun t => t.Accepting other) h fun w s' _ hwrote => ?_
  unfold Accepting at *
  split at h
  · obtain ⟨⟨role, hmem⟩, hnow⟩ := h
    exact ⟨⟨role, hwrote.mem_history hmem⟩, hnow⟩
  · trivial

lemma Recorded.accepting (h : s.Recorded) {call next : SharingCall}
    (hnext : next ∈ (s.exec call draws).2) : (s.exec call draws).1.Accepting next := by
  cases call with
  | write w => exact absurd hnext nofun
  | read r =>
      unfold Accepting
      split
      · rename_i invitation userId now
        obtain ⟨token, hfound, rfl⟩ := read_acceptInvitation hnext
        obtain ⟨⟨row, hrow, rfl⟩, hnow⟩ := getInvitationByToken_eq_some hfound
        exact ⟨h row hrow, hnow⟩
      · trivial

/-- **Invariants** over runs from the empty tables, of what a write does: an acceptance that writes
has read an invitation that was recorded. -/
theorem invariant_of_wrote {arrives : SharingCall → Prop}
    {ok : SharingTables → SharingCall → SharingDraws → Prop} {I : SharingTables → Prop}
    {f : Flight SharingTables SharingCall} (h : Interleaved exec arrives ok empty f)
    (harrives : ∀ invitation userId now,
      ¬ arrives (.write (.acceptInvitation invitation userId now)))
    (hempty : I empty) (hrecorded : ∀ s, I s → s.Recorded)
    (hwrote : ∀ s s' w draws, I s → s.Accepting (.write w) → ok s (.write w) draws →
      Wrote s draws w s' → I s') : I f.shared := by
  refine (h.invariant (I := I) (J := Accepting) hempty ?_ ?_ ?_).1
  · intro s call _ hcall
    unfold Accepting
    split
    · exact absurd hcall (harrives _ _ _)
    · trivial
  · intro s call draws hs hcall hok
    refine ⟨exec_shared hs fun w s' heq hw => ?_, fun next => (hrecorded s hs).accepting⟩
    subst heq
    exact hwrote s s' w draws hs hcall hok hw
  · exact fun s call draws other _ _ _ hother => hother.exec

/-! ## Requests of a few users -/

/-- Users by number. -/
def sampleUser (n : Nat) : JSString := JSString.ofNat n

/-- Their e-mails. -/
def sampleEmail (n : Nat) : JSString := JSString.lit "user" ++ JSString.ofNat n

/-- What is drawn for a call, by number. -/
def sampleDraws (n : Nat) : SharingDraws := ⟨n, JSString.ofNat n, JSString.ofNat n⟩

/-- The document of the first user. -/
def sampleDoc : JSString := JSString.ofNat 100

/-- So many users register, and the first of them creates a document. -/
def sampleStart (n : Nat) : List (SharingCall × SharingDraws) :=
  (List.range n).map (fun k => (.write (.registerUser (sampleEmail k)), sampleDraws k)) ++
    [(.write (.createDocument (JSString.lit "Notes") (sampleUser 0)), sampleDraws 100)]

/-- A user invites another one. -/
def sampleInvite (inviter n : Nat) (role : String) : SharingCall × SharingDraws :=
  (.read (.invite sampleDoc (sampleUser inviter) ⟨some (sampleEmail n), some (JSString.lit role),
    none⟩), sampleDraws (200 + n))

/-- A user accepts the invitation to a user. -/
def sampleAccept (n user : Nat) : SharingCall × SharingDraws :=
  (.read (.acceptInvitation (JSString.ofNat (200 + n)) (sampleUser user)), sampleDraws 0)

/-- A user rejects an invitation by its token. -/
def sampleReject (n user : Nat) : SharingCall × SharingDraws :=
  (.read (.rejectInvitation (JSString.ofNat (200 + n)) (sampleUser user)), sampleDraws 0)

end SharingTables

end SyncEngine
