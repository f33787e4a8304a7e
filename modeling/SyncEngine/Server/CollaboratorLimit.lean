import SyncEngine.Server.Sharing

/-!
# The limit of collaborators

POST `/:id/invites` turns an invitation away when the document has ten rows in
`document_permissions`.  The row is written when the invitation is accepted, and
`acceptInvitation` does not count: what was invited while there was room may all be accepted.

`collaborator_limit` is about the runs in which an acceptance that adds a row finds fewer than ten.
The other writes keep the limit anyway: the owner's row is the first of its document.
-/

namespace SyncEngine

open Interleaving

namespace SharingTables

/-- An acceptance that adds a row finds fewer than ten. -/
def RoomLeft (s : SharingTables) (call : SharingCall) (_ : SharingDraws) : Prop :=
  match call with
  | .write (.acceptInvitation invitation userId _) =>
      invitation.role.permission.isSome → s.roleOf invitation.docId userId = none →
        s.collaborators invitation.docId < 10
  | _ => True

instance (s : SharingTables) (call : SharingCall) (draws : SharingDraws) :
    Decidable (s.RoomLeft call draws) := by
  unfold RoomLeft
  split <;> infer_instance

/-- What holds along the runs: the limit, and that permissions are on documents. -/
structure Limited (s : SharingTables) : Prop where
  limit : ∀ docId, s.collaborators docId ≤ 10
  references : ∀ p ∈ s.permissions, ∃ doc ∈ s.documents, doc.id = p.docId

variable {s s' : SharingTables} {w : SharingWrite} {draws : SharingDraws}
variable {f : Flight SharingTables SharingCall}

lemma limited_empty : Limited empty := ⟨fun _ => Nat.zero_le _, nofun⟩

lemma Limited.congr (h : s.Limited) (hpermissions : s'.permissions = s.permissions)
    (hdocuments : s'.documents = s.documents) : s'.Limited where
  limit := by
    unfold collaborators
    rw [hpermissions]
    exact h.limit
  references := by
    rw [hpermissions, hdocuments]
    exact h.references

/-- An INSERT of a document starts with one row. -/
lemma Limited.createDocument (h : s.Limited) {title ownerId : JSString}
    (hnew : ∀ doc ∈ s.documents, doc.id ≠ draws.id) (e : SharingEvent) :
    ({ s with
      documents := s.documents ++ [DocumentRow.mk draws.id title ownerId false]
      permissions := s.permissions ++ [PermissionRow.mk draws.id ownerId .owner] }.record e).Limited
    where
  limit := by
    intro docId
    show (s.permissions ++ [PermissionRow.mk draws.id ownerId .owner]).countP _ ≤ 10
    rw [List.countP_append, List.countP_singleton]
    by_cases hdoc : draws.id = docId
    · have hzero : s.permissions.countP (fun p => p.docId = docId) = 0 := by
        rw [List.countP_eq_zero]
        intro p hp
        obtain ⟨doc, hmem, hid⟩ := h.references p hp
        rw [← hdoc, decide_eq_true_iff, ← hid]
        exact hnew doc hmem
      rw [hzero]
      split <;> omega
    · rw [if_neg (by simpa using hdoc)]
      exact h.limit docId
  references := by
    intro p hp
    rcases List.mem_append.mp hp with hp | hp
    · obtain ⟨doc, hmem, hid⟩ := h.references p hp
      exact ⟨doc, List.mem_append_left _ hmem, hid⟩
    · obtain rfl := List.mem_singleton.mp hp
      exact ⟨_, List.mem_append_right _ (List.mem_singleton_self _), rfl⟩

/-- An acceptance adds one row at most, and only where there is room. -/
lemma Limited.acceptInvitation (h : s.Limited) {p : PermissionRow}
    (hdoc : KeyedTable.hasKey DocumentRow.id p.docId s.documents = true)
    (hroom : s.roleOf p.docId p.userId = none → s.collaborators p.docId < 10)
    (invitations : List InvitationRow) (e : SharingEvent) :
    ({ s with
      permissions := KeyedTable.upsert PermissionRow.key p s.permissions
      invitations := invitations }.record e).Limited where
  limit := by
    intro docId
    have hsame : ∀ q : PermissionRow, q.key = p.key →
        decide (q.docId = docId) = decide (p.docId = docId) := fun q hq => by
      rw [show q.docId = p.docId from congrArg Prod.fst hq]
    have hlimit := h.limit docId
    unfold collaborators at hlimit hroom
    show (KeyedTable.upsert PermissionRow.key p s.permissions).countP _ ≤ 10
    rw [KeyedTable.countP_upsert hsame]
    split
    · omega
    · rename_i hnew
      split
      · rename_i hthis
        rw [← of_decide_eq_true hthis] at hlimit ⊢
        have := hroom (roleOf_eq_none.mpr (Bool.eq_false_iff.mpr hnew))
        omega
      · omega
  references := by
    intro q hq
    rcases KeyedTable.mem_upsert.mp hq with rfl | ⟨hq, -⟩
    · exact KeyedTable.hasKey_iff.mp hdoc
    · exact h.references q hq

lemma Limited.softDeleteDocument (h : s.Limited) (docId : JSString) :
    (s.softDeleteDocument docId).Limited where
  limit := h.limit
  references := by
    intro p hp
    obtain ⟨doc, hmem, hid⟩ := h.references p hp
    by_cases hthis : doc.id = docId
    · exact ⟨_, KeyedTable.mem_update.mpr (Or.inr ⟨doc, hmem, hthis, rfl⟩), hid⟩
    · exact ⟨doc, KeyedTable.mem_update.mpr (Or.inl ⟨hmem, hthis⟩), hid⟩

lemma Limited.updateCollaboratorRole (h : s.Limited) (docId actorId userId : JSString)
    (role : Role) : (s.updateCollaboratorRole docId actorId userId role).Limited := by
  unfold SharingTables.updateCollaboratorRole
  split
  · refine ⟨fun docId' => ?_, fun p hp => ?_⟩
    · have hcount : (KeyedTable.update PermissionRow.key (docId, userId)
          (fun p => { p with role := role }) s.permissions).countP (fun p => p.docId = docId') =
            s.collaborators docId' := KeyedTable.countP_update fun _ _ _ => rfl
      exact hcount.trans_le (h.limit docId')
    · rcases KeyedTable.mem_update.mp hp with ⟨hp, -⟩ | ⟨q, hq, -, rfl⟩
      · exact h.references p hp
      · exact h.references q hq
  · exact h

lemma Limited.removeCollaborator (h : s.Limited) (docId userId : JSString) :
    (s.removeCollaborator docId userId).Limited where
  limit := fun docId' => KeyedTable.countP_delete_le.trans (h.limit docId')
  references := fun p hp => h.references p (KeyedTable.mem_delete.mp hp).1

lemma Limited.wrote (h : s.Limited) (hok : s.RoomLeft (.write w) draws)
    (hwrote : Wrote s draws w s') : s'.Limited := by
  cases hwrote with
  | registerUser email users => exact h.congr rfl rfl
  | createDocument title ownerId hnew => exact h.createDocument hnew _
  | softDeleteDocument docId => exact h.softDeleteDocument docId
  | createEmailInvitation invitation role expiresInHours hid hrole hnew => exact h.congr rfl rfl
  | acceptInvitation invitation userId now role hrole hdoc =>
      exact Limited.acceptInvitation (p := ⟨invitation.docId, userId, role⟩) h hdoc
        (hok (by rw [hrole]; rfl)) _ _
  | rejectInvitation invitation => exact h.congr rfl rfl
  | revokeInvitation id =>
      unfold SharingTables.revokeInvitation
      split
      · exact h.congr rfl rfl
      · exact h
  | updateCollaboratorRole docId actorId userId text role hrole =>
      exact h.updateCollaboratorRole docId actorId userId role
  | removeCollaborator docId userId => exact h.removeCollaborator docId userId

/-- **The limit of collaborators** holds in every run in which acceptances find room. -/
theorem collaborator_limit (h : Interleaved exec IsRequest RoomLeft empty f) (docId : JSString) :
    f.shared.collaborators docId ≤ 10 := by
  have hlimited : f.shared.Limited := by
    refine h.shared limited_empty fun s call draws hs hok => exec_shared hs fun w s' hcall => ?_
    subst hcall
    exact hs.wrote hok
  exact hlimited.limit docId

/-- The owner invites two others; both accept, and one of them leaves. -/
def invitedAndLeft : SharingTables :=
  (serveAll exec IsRequest RoomLeft 7 empty
    (sampleStart 3 ++ [sampleInvite 0 1 "editor", sampleInvite 0 2 "viewer", sampleAccept 1 1,
      sampleAccept 2 2, (.read (.removeCollaborator sampleDoc (sampleUser 2) (sampleUser 2)),
        sampleDraws 0)])).get (by decide +kernel)

theorem collaborator_limit_invitedAndLeft :
    invitedAndLeft.collaborators sampleDoc ≤ 10 ∧ invitedAndLeft.collaborators sampleDoc = 2 := by
  have hrun : Interleaved exec IsRequest RoomLeft empty ⟨invitedAndLeft, []⟩ := interleaved_get _
  exact ⟨collaborator_limit hrun sampleDoc, by decide +kernel⟩

/-- Eleven users are invited while the owner is alone, and accept. -/
def elevenAccepted : SharingTables :=
  (serveAll exec IsRequest (fun _ _ _ => True) 7 empty
    (sampleStart 12 ++ (List.range' 1 11).map (fun n => sampleInvite 0 n "viewer") ++
      (List.range' 1 11).map fun n => sampleAccept n n)).get (by decide +kernel)

/-- **Twelve collaborators**. -/
theorem not_forall_collaborator_limit :
    ¬ ∀ f, Interleaved exec IsRequest (fun _ _ _ => True) empty f →
      ∀ docId, f.shared.collaborators docId ≤ 10 := by
  intro h
  have hrun : Interleaved exec IsRequest (fun _ _ _ => True) empty ⟨elevenAccepted, []⟩ :=
    interleaved_get _
  have htwelve : elevenAccepted.collaborators sampleDoc = 12 := by decide +kernel
  have hlimit := h _ hrun sampleDoc
  rw [htwelve] at hlimit
  omega

end SharingTables

end SyncEngine
