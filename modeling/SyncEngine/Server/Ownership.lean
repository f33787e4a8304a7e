import SyncEngine.Server.Sharing

/-!
# Who owns a document

A document begins with its author's row in `document_permissions`, whose role is `owner`.  Two
things are expected of the routes that change the rows: a document keeps an owner, and nobody
becomes one but through an owner.

* PATCH and DELETE `/:id/collaborators/:userId` and `acceptInvitation` take the role from whoever
  has it, the last owner too: an owner may remove or demote himself, and an invitation to a lower
  role replaces his own.
* POST `/:id/invites` asks for an owner or an editor, and takes any role that the schema knows from
  the body.  An editor may thus invite an owner.

`ownership_kept` is about the runs in which the role is taken only where another owner remains, and
conferred only by who is an owner when the invitation, or the new role, is written.
-/

namespace SyncEngine

open Interleaving

/-- The event made the user an owner of the document. -/
def SharingEvent.MakesOwner (docId userId : JSString) : SharingEvent → Prop
  | .created docId' userId' => docId' = docId ∧ userId' = userId
  | .accepted invitation userId' _ _ _ =>
      invitation.docId = docId ∧ userId' = userId ∧ invitation.role = .owner
  | .updatedRole docId' _ userId' role _ => docId' = docId ∧ userId' = userId ∧ role = .owner
  | _ => False

/-- What makes somebody an owner, other than creating the document, comes from an owner: who
invited him, before that, or who updates the role. -/
def SharingEvent.ByOwner (before : List SharingEvent) : SharingEvent → Prop
  | .accepted invitation _ _ _ _ =>
      invitation.role = .owner → .invited invitation (some .owner) ∈ before
  | .updatedRole _ _ _ role actorRole => role = .owner → actorRole = some .owner
  | _ => True

/-- All that was done, one after the other, was done by owners where it made owners. -/
inductive ByOwners : List SharingEvent → Prop
  | nil : ByOwners []
  | snoc {events : List SharingEvent} {e : SharingEvent} (h : ByOwners events)
      (he : e.ByOwner events) : ByOwners (events ++ [e])

lemma SharingEvent.ByOwner.mono {before later : List SharingEvent} {e : SharingEvent}
    (h : e.ByOwner before) : e.ByOwner (before ++ later) := by
  unfold ByOwner at *
  split
  · exact fun howner => List.mem_append_left _ (h howner)
  · exact h
  · trivial

lemma ByOwners.of_mem {events : List SharingEvent} {e : SharingEvent} (h : ByOwners events)
    (he : e ∈ events) : e.ByOwner events := by
  induction h with
  | nil => simp at he
  | snoc h hlast ih =>
      rcases List.mem_append.mp he with he | he
      · exact (ih he).mono
      · obtain rfl := List.mem_singleton.mp he
        exact hlast.mono

namespace SharingTables

/-- The user is an owner of the document. -/
def IsOwner (s : SharingTables) (docId userId : JSString) : Prop :=
  PermissionRow.mk docId userId .owner ∈ s.permissions

instance (s : SharingTables) (docId userId : JSString) : Decidable (s.IsOwner docId userId) :=
  inferInstanceAs (Decidable (_ ∈ s.permissions))

/-- **Ownership is preserved, and only owners confer it**. -/
structure OwnershipKept (s : SharingTables) : Prop where
  owner : ∀ doc ∈ s.documents, doc.isDeleted = false → ∃ userId, s.IsOwner doc.id userId
  /-- Every owner was made one. -/
  made : ∀ docId userId, s.IsOwner docId userId → ∃ e ∈ s.history, e.MakesOwner docId userId
  byOwners : ByOwners s.history

/-- The document has been deleted, or the user is not its last owner. -/
def OwnerRemains (s : SharingTables) (docId userId : JSString) : Prop :=
  s.IsOwner docId userId → (∀ doc ∈ s.documents, doc.id = docId → doc.isDeleted = true) ∨
    ∃ p ∈ s.permissions, p.docId = docId ∧ p.userId ≠ userId ∧ p.role = .owner

instance (s : SharingTables) (docId userId : JSString) : Decidable (s.OwnerRemains docId userId) :=
  inferInstanceAs (Decidable (_ → _ ∨ _))

/-- A write that takes the role of an owner leaves another one, and one that confers it, or invites
to it, is an owner's. -/
def KeepsOwnership (s : SharingTables) (call : SharingCall) (_ : SharingDraws) : Prop :=
  match call with
  | .write (.createEmailInvitation docId inviterId _ role _) =>
      InvitationRole.ofString role = some .owner → s.roleOf docId inviterId = some .owner
  | .write (.acceptInvitation invitation userId _) =>
      ∀ role ∈ invitation.role.permission, role ≠ .owner → s.OwnerRemains invitation.docId userId
  | .write (.updateCollaboratorRole docId actorId userId text) =>
      ∀ role ∈ text.bind Role.ofString, (s.roleOf docId userId).isSome →
        if role = .owner then s.roleOf docId actorId = some .owner
        else s.OwnerRemains docId userId
  | .write (.removeCollaborator docId userId) => s.OwnerRemains docId userId
  | _ => True

instance (s : SharingTables) : (call : SharingCall) → (draws : SharingDraws) →
    Decidable (s.KeepsOwnership call draws)
  | .write (.createEmailInvitation ..), _ => inferInstanceAs (Decidable (_ → _))
  | .write (.acceptInvitation invitation _ _), _ =>
      inferInstanceAs (Decidable (∀ role ∈ invitation.role.permission, _ → _))
  | .write (.updateCollaboratorRole _ _ _ text), _ =>
      inferInstanceAs (Decidable (∀ role ∈ text.bind Role.ofString, _ → _))
  | .write (.removeCollaborator ..), _ => inferInstanceAs (Decidable (OwnerRemains ..))
  | .write (.registerUser _), _ => isTrue trivial
  | .write (.createDocument ..), _ => isTrue trivial
  | .write (.softDeleteDocument _), _ => isTrue trivial
  | .write (.rejectInvitation _), _ => isTrue trivial
  | .write (.revokeInvitation _), _ => isTrue trivial
  | .read _, _ => isTrue trivial

/-! ## Owners and the rows -/

variable {s s' : SharingTables} {w : SharingWrite} {draws : SharingDraws}
variable {f : Flight SharingTables SharingCall} {docId userId : JSString}

/-- A change of one row leaves the other owners, and one of the two: this owner, or another. -/
lemma owner_of_change (docId userId : JSString) (h : ∀ doc ∈ s.documents, doc.isDeleted = false →
      ∃ userId, s.IsOwner doc.id userId)
    (hdocuments : s'.documents = s.documents)
    (hothers : ∀ p ∈ s.permissions, p.key ≠ (docId, userId) → p ∈ s'.permissions)
    (hthis : s.IsOwner docId userId → s'.IsOwner docId userId ∨ s.OwnerRemains docId userId) :
    ∀ doc ∈ s'.documents, doc.isDeleted = false → ∃ userId, s'.IsOwner doc.id userId := by
  rw [hdocuments]
  intro doc hdoc hlive
  obtain ⟨owner, howner⟩ := h doc hdoc hlive
  by_cases hkey : (doc.id, owner) = (docId, userId)
  · obtain ⟨rfl, rfl⟩ := Prod.mk.inj hkey
    rcases hthis howner with hkept | hremains
    · exact ⟨owner, hkept⟩
    · rcases hremains howner with hdeleted | ⟨p, hp, hdocId, huser, hrole⟩
      · rw [hdeleted doc hdoc rfl] at hlive
        exact Bool.noConfusion hlive
      · refine ⟨p.userId, hothers _ ?_ fun heq => huser (Prod.mk.inj heq).2⟩
        rwa [← hdocId, ← hrole]
  · exact ⟨owner, hothers _ howner hkey⟩

/-- What holds along the runs: ownership, and that whoever invited an owner was one. -/
structure OwnedTables (s : SharingTables) : Prop extends OwnershipKept s where
  recorded : s.Recorded
  inviters : ∀ invitation role, .invited invitation role ∈ s.history →
    invitation.role = .owner → role = some .owner

lemma ownedTables_empty : OwnedTables empty where
  owner := nofun
  made := nofun
  byOwners := .nil
  recorded := recorded_empty
  inviters := nofun

/-- An event that makes no owner and invites nobody, with tables that say the same of owners. -/
lemma OwnedTables.record (h : s.OwnedTables) (e : SharingEvent)
    (he : e.ByOwner s.history) (hinvited : ∀ invitation role, e = .invited invitation role →
      invitation.role = .owner → role = some .owner) :
    ByOwners (s.history ++ [e]) ∧ ∀ invitation role,
      .invited invitation role ∈ s.history ++ [e] → invitation.role = .owner →
        role = some .owner := by
  refine ⟨.snoc h.byOwners he, fun invitation role hmem => ?_⟩
  rcases List.mem_append.mp hmem with hmem | hmem
  · exact h.inviters invitation role hmem
  · exact hinvited invitation role (List.mem_singleton.mp hmem).symm

lemma role_owner_of_permission {role : InvitationRole} (h : role.permission = some .owner) :
    role = .owner := by
  cases role <;> simp_all [InvitationRole.permission]

/-- Who was an owner stays one of those who were made one. -/
lemma OwnedTables.made_mono (h : s.OwnedTables) (events : List SharingEvent)
    (howner : s.IsOwner docId userId) : ∃ e ∈ s.history ++ events, e.MakesOwner docId userId := by
  obtain ⟨e, he, hmakes⟩ := h.made docId userId howner
  exact ⟨e, List.mem_append_left _ he, hmakes⟩

lemma OwnedTables.createDocument (h : s.OwnedTables) {title ownerId : JSString}
    (hwrote : Wrote s draws (.createDocument title ownerId) s') : s'.OwnedTables := by
  have hrecorded := h.recorded.wrote hwrote
  cases hwrote with
  | createDocument _ _ hnew =>
      obtain ⟨hby, hinviters⟩ := h.record (.created draws.id ownerId) trivial (by simp)
      refine ⟨⟨?_, ?_, hby⟩, hrecorded, hinviters⟩
      · intro doc hdoc hlive
        rcases List.mem_append.mp hdoc with hdoc | hdoc
        · obtain ⟨owner, howner⟩ := h.owner doc hdoc hlive
          exact ⟨owner, List.mem_append_left _ howner⟩
        · obtain rfl := List.mem_singleton.mp hdoc
          exact ⟨ownerId, List.mem_append_right _ (List.mem_singleton_self _)⟩
      · intro docId userId howner
        rcases List.mem_append.mp howner with howner | howner
        · exact h.made_mono _ howner
        · obtain ⟨rfl, rfl, -⟩ := PermissionRow.mk.inj (List.mem_singleton.mp howner)
          exact ⟨_, List.mem_append_right _ (List.mem_singleton_self _), rfl, rfl⟩

/-- Accepting makes the user what the invitation says. -/
lemma OwnedTables.acceptInvitation (h : s.OwnedTables) {invitation : Invitation} {now : Nat}
    (haccepting : s.Accepting (.write (.acceptInvitation invitation userId now)))
    (hok : s.KeepsOwnership (.write (.acceptInvitation invitation userId now)) draws)
    (hwrote : Wrote s draws (.acceptInvitation invitation userId now) s') : s'.OwnedTables := by
  have hrecorded := h.recorded.wrote hwrote
  obtain ⟨⟨inviterRole, hinvited⟩, -⟩ := haccepting
  cases hwrote with
  | acceptInvitation _ _ _ role hrole hdoc =>
      obtain ⟨hby, hinviters⟩ := h.record
        (.accepted invitation userId now (s.statusOf invitation.id) (s.emailOf userId))
        (fun howner => h.inviters invitation inviterRole hinvited howner ▸ hinvited) (by simp)
      refine ⟨⟨?_, ?_, hby⟩, hrecorded, hinviters⟩
      · refine owner_of_change invitation.docId userId h.owner rfl ?_ ?_
        · exact fun p hp hkey => KeyedTable.mem_upsert.mpr (Or.inr ⟨hp, hkey⟩)
        · intro _
          by_cases howner : role = .owner
          · exact Or.inl (KeyedTable.mem_upsert.mpr (Or.inl (howner ▸ rfl)))
          · exact Or.inr (hok role hrole howner)
      · intro docId' userId' howner
        rcases KeyedTable.mem_upsert.mp howner with heq | ⟨howner, -⟩
        · obtain ⟨rfl, rfl, rfl⟩ := PermissionRow.mk.inj heq
          exact ⟨_, List.mem_append_right _ (List.mem_singleton_self _), rfl, rfl,
            role_owner_of_permission hrole⟩
        · exact h.made_mono _ howner

lemma OwnedTables.updateCollaboratorRole (h : s.OwnedTables) {actorId text : JSString}
    (hok : s.KeepsOwnership (.write (.updateCollaboratorRole docId actorId userId (some text)))
      draws)
    (hwrote : Wrote s draws (.updateCollaboratorRole docId actorId userId (some text)) s') :
    s'.OwnedTables := by
  have hrecorded := h.recorded.wrote hwrote
  cases hwrote with
  | updateCollaboratorRole _ _ _ _ role hrole =>
      unfold SharingTables.updateCollaboratorRole at hrecorded ⊢
      split
      · rename_i hrow
        rw [if_pos hrow] at hrecorded
        have hthis := hok role hrole hrow
        obtain ⟨hby, hinviters⟩ := h.record
          (.updatedRole docId actorId userId role (s.roleOf docId actorId))
          (fun howner => by rwa [if_pos howner] at hthis) (by simp)
        refine ⟨⟨?_, ?_, hby⟩, hrecorded, hinviters⟩
        · refine owner_of_change docId userId h.owner rfl ?_ ?_
          · exact fun p hp hkey => KeyedTable.mem_update.mpr (Or.inl ⟨hp, hkey⟩)
          · intro hwas
            by_cases howner : role = .owner
            · exact Or.inl (KeyedTable.mem_update.mpr (Or.inr ⟨_, hwas, rfl, by rw [howner]⟩))
            · rw [if_neg howner] at hthis
              exact Or.inr hthis
        · intro docId' userId' howner
          rcases KeyedTable.mem_update.mp howner with ⟨howner, -⟩ | ⟨p, hp, hkey, heq⟩
          · exact h.made_mono _ howner
          · obtain ⟨hdocId, huserId, rfl⟩ := PermissionRow.mk.inj heq
            obtain ⟨hdocId', huserId'⟩ := Prod.mk.inj hkey
            exact ⟨_, List.mem_append_right _ (List.mem_singleton_self _),
              hdocId'.symm.trans hdocId, huserId'.symm.trans huserId, rfl⟩
      · exact h

lemma OwnedTables.removeCollaborator (h : s.OwnedTables) (hok : s.OwnerRemains docId userId) :
    (s.removeCollaborator docId userId).OwnedTables where
  owner := by
    refine owner_of_change docId userId h.owner rfl ?_ ?_
    · exact fun p hp hkey => KeyedTable.mem_delete.mpr ⟨hp, hkey⟩
    · exact fun _ => Or.inr hok
  made := fun docId' userId' howner => h.made docId' userId' (KeyedTable.mem_delete.mp howner).1
  byOwners := h.byOwners
  recorded := h.recorded
  inviters := h.inviters

lemma OwnedTables.softDeleteDocument (h : s.OwnedTables) (docId : JSString) :
    (s.softDeleteDocument docId).OwnedTables where
  owner := by
    intro doc hdoc hlive
    rcases KeyedTable.mem_update.mp hdoc with ⟨hdoc, -⟩ | ⟨doc', -, -, rfl⟩
    · exact h.owner doc hdoc hlive
    · exact Bool.noConfusion hlive
  made := h.made
  byOwners := h.byOwners
  recorded := h.recorded
  inviters := h.inviters

/-- A write that leaves documents and permissions alone. -/
lemma OwnedTables.invitations (h : s.OwnedTables) (hwrote : Wrote s draws w s')
    (hdocuments : s'.documents = s.documents) (hpermissions : s'.permissions = s.permissions)
    {e : SharingEvent} (hhistory : s'.history = s.history ++ [e]) (he : e.ByOwner s.history)
    (hinvited : ∀ invitation role, e = .invited invitation role →
      invitation.role = .owner → role = some .owner) : s'.OwnedTables := by
  obtain ⟨hby, hinviters⟩ := h.record e he hinvited
  have hiff : ∀ docId userId, s'.IsOwner docId userId ↔ s.IsOwner docId userId := by
    unfold IsOwner
    rw [hpermissions]
    exact fun _ _ => Iff.rfl
  refine ⟨⟨?_, ?_, hhistory ▸ hby⟩, h.recorded.wrote hwrote, hhistory ▸ hinviters⟩
  · intro doc hdoc hlive
    obtain ⟨owner, howner⟩ := h.owner doc (hdocuments ▸ hdoc) hlive
    exact ⟨owner, (hiff doc.id owner).mpr howner⟩
  · intro docId userId howner
    rw [hhistory]
    exact h.made_mono _ ((hiff docId userId).mp howner)

lemma OwnedTables.wrote (h : s.OwnedTables) (haccepting : s.Accepting (.write w))
    (hok : s.KeepsOwnership (.write w) draws) (hwrote : Wrote s draws w s') : s'.OwnedTables := by
  cases hwrote with
  | registerUser email users => exact ⟨⟨h.owner, h.made, h.byOwners⟩, h.recorded, h.inviters⟩
  | createDocument title ownerId hnew =>
      exact h.createDocument (.createDocument title ownerId hnew)
  | softDeleteDocument docId => exact h.softDeleteDocument docId
  | createEmailInvitation invitation role expiresInHours hid hrole hnew =>
      refine h.invitations (.createEmailInvitation invitation role expiresInHours hid hrole hnew)
        rfl rfl rfl trivial fun invitation' role' heq howner => ?_
      obtain ⟨rfl, rfl⟩ := SharingEvent.invited.inj heq
      exact hok (howner ▸ hrole)
  | acceptInvitation invitation userId now role hrole hdoc =>
      exact h.acceptInvitation haccepting hok (.acceptInvitation invitation userId now role hrole
        hdoc)
  | rejectInvitation invitation =>
      have hwrote : Wrote s draws (.rejectInvitation invitation) _ := .rejectInvitation invitation
      exact h.invitations hwrote rfl rfl rfl trivial (by simp)
  | revokeInvitation id =>
      have hwrote : Wrote s draws (.revokeInvitation id) _ := .revokeInvitation id
      by_cases hkey : KeyedTable.hasKey InvitationRow.id id s.invitations = true
      · have heq : s.revokeInvitation id = _ := if_pos hkey
        rw [heq] at hwrote ⊢
        exact h.invitations hwrote rfl rfl rfl trivial (by simp)
      · have heq : s.revokeInvitation id = s := if_neg hkey
        rw [heq]
        exact h
  | updateCollaboratorRole docId actorId userId text role hrole =>
      exact h.updateCollaboratorRole hok (.updateCollaboratorRole docId actorId userId text role
        hrole)
  | removeCollaborator docId userId => exact h.removeCollaborator hok

/-- **Ownership is preserved, and only owners confer it**, in every run under the conditions. -/
theorem ownership_kept (h : Interleaved exec IsRequest KeepsOwnership empty f) :
    f.shared.OwnershipKept :=
  (invariant_of_wrote h (fun _ _ _ => id) ownedTables_empty (fun _ hs => hs.recorded)
    fun _ _ _ _ hs => hs.wrote).1

/-- The owner makes another user an owner and leaves. -/
def handedOver : SharingTables :=
  (serveAll exec IsRequest KeepsOwnership 7 empty
    (sampleStart 2 ++ [sampleInvite 0 1 "owner", sampleAccept 1 1,
      (.read (.removeCollaborator sampleDoc (sampleUser 0) (sampleUser 0)), sampleDraws 0)])).get
    (by decide +kernel)

theorem ownership_kept_handedOver :
    OwnershipKept handedOver ∧ handedOver.permissions = [⟨sampleDoc, sampleUser 1, .owner⟩] := by
  have hrun : Interleaved exec IsRequest KeepsOwnership empty ⟨handedOver, []⟩ := interleaved_get _
  exact ⟨ownership_kept hrun, by decide +kernel⟩

/-- The only owner demotes himself. -/
def demoted : SharingTables :=
  (serveAll exec IsRequest (fun _ _ _ => True) 7 empty
    (sampleStart 1 ++ [(.read (.updateRole sampleDoc (sampleUser 0) (sampleUser 0)
      (some (JSString.lit "viewer"))), sampleDraws 0)])).get (by decide +kernel)

/-- **A document without an owner**. -/
theorem not_forall_ownership_kept :
    ¬ ∀ f, Interleaved exec IsRequest (fun _ _ _ => True) empty f → f.shared.OwnershipKept := by
  intro h
  have hrun : Interleaved exec IsRequest (fun _ _ _ => True) empty ⟨demoted, []⟩ :=
    interleaved_get _
  have hdoc : DocumentRow.mk sampleDoc (JSString.lit "Notes") (sampleUser 0) false ∈
      demoted.documents := by decide +kernel
  have hpermissions : demoted.permissions = [⟨sampleDoc, sampleUser 0, .viewer⟩] := by
    decide +kernel
  obtain ⟨userId, howner⟩ := (h _ hrun).owner _ hdoc rfl
  unfold IsOwner at howner
  rw [hpermissions] at howner
  simp at howner

/-- An editor invites an owner. -/
def ownerByEditor : SharingTables :=
  (serveAll exec IsRequest (fun _ _ _ => True) 7 empty
    (sampleStart 3 ++ [sampleInvite 0 1 "editor", sampleAccept 1 1, sampleInvite 1 2 "owner",
      sampleAccept 2 2])).get (by decide +kernel)

/-- **An owner by an editor's invitation**: nor is the role conferred by owners alone. -/
theorem not_forall_byOwners :
    ¬ ∀ f, Interleaved exec IsRequest (fun _ _ _ => True) empty f → ByOwners f.shared.history := by
  intro h
  have hrun : Interleaved exec IsRequest (fun _ _ _ => True) empty ⟨ownerByEditor, []⟩ :=
    interleaved_get _
  let invitation : Invitation := ⟨JSString.ofNat 202, sampleDoc, sampleUser 1, sampleEmail 2,
    .owner, JSString.ofNat 202, 259200202⟩
  have haccepted : SharingEvent.accepted invitation (sampleUser 2) 0 (some .pending)
      (some (sampleEmail 2)) ∈ ownerByEditor.history := by decide +kernel
  have hnot : SharingEvent.invited invitation (some .owner) ∉ ownerByEditor.history := by
    decide +kernel
  exact hnot ((h _ hrun).of_mem haccepted rfl)

end SharingTables

end SyncEngine
