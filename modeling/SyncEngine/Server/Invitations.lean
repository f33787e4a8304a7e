import SyncEngine.Server.Sharing

/-!
# Answering an invitation

An invitation by email is pending until it is accepted or rejected
(`persistence/invitation-store.ts`).  Both look it up by its token among those that have not
expired, and neither looks at the status, which they write, or at the address.  So whoever has the
token can accept, again and again, also what was rejected, and while an acceptance is under way the
invitation may be rejected or revoked.

`invitations_one_time` is about the runs in which an acceptance is the first answer to its
invitation and its addressee's.  That the status is `pending` where nobody has answered
(`Pending.pending`) is the invariant behind it.
-/

namespace SyncEngine

open Interleaving

/-- The invitation was accepted, rejected or revoked. -/
def SharingEvent.answers (id : JSString) : SharingEvent → Bool
  | .accepted invitation _ _ _ _ => invitation.id = id
  | .rejected invitation => invitation.id = id
  | .revoked id' => id' = id
  | _ => false

/-- The invitation by email was accepted, so that a permission was written. -/
def SharingEvent.grants (id : JSString) : SharingEvent → Bool
  | .accepted invitation _ _ _ _ => invitation.id = id ∧ invitation.inviteeEmail ≠ []
  | _ => false

/-- The invitation by email was accepted or rejected. -/
def SharingEvent.closes (id : JSString) : SharingEvent → Bool
  | .accepted invitation _ _ _ _ => invitation.id = id ∧ invitation.inviteeEmail ≠ []
  | .rejected invitation => invitation.id = id ∧ invitation.inviteeEmail ≠ []
  | _ => false

lemma SharingEvent.answers_of_closes {id : JSString} {e : SharingEvent} (h : e.closes id = true) :
    e.answers id = true := by
  cases e <;> simp_all [closes, answers]

lemma SharingEvent.closes_of_grants {id : JSString} {e : SharingEvent} (h : e.grants id = true) :
    e.closes id = true := by
  cases e <;> simp_all [closes, grants]

namespace SharingTables

/-- **Invitations are one-time and personal**. -/
structure OneTime (s : SharingTables) : Prop where
  /-- A permission was written for an unexpired, pending invitation, and for its addressee. -/
  granted : ∀ invitation userId now status email,
    .accepted invitation userId now status email ∈ s.history → invitation.inviteeEmail ≠ [] →
      now < invitation.expiresAt ∧ status = some .pending ∧ email = some invitation.inviteeEmail
  once : ∀ id, s.history.countP (SharingEvent.grants id) ≤ 1
  /-- None after it was accepted or rejected. -/
  closed : s.history.Pairwise fun e e' => ∀ id, e.closes id = true → e'.grants id = false

/-- An acceptance is the first answer to its invitation, and the addressee's. -/
def FirstAnswer (s : SharingTables) (call : SharingCall) (_ : SharingDraws) : Prop :=
  match call with
  | .write (.acceptInvitation invitation userId _) =>
      invitation.role.permission.isSome → invitation.inviteeEmail ≠ [] →
        (s.history.all fun e => !e.answers invitation.id) ∧
          s.emailOf userId = some invitation.inviteeEmail
  | _ => True

instance (s : SharingTables) : (call : SharingCall) → (draws : SharingDraws) →
    Decidable (s.FirstAnswer call draws)
  | .write (.acceptInvitation ..), _ => inferInstanceAs (Decidable (_ → _ → _ ∧ _))
  | .write (.registerUser _), _ => isTrue trivial
  | .write (.createDocument ..), _ => isTrue trivial
  | .write (.softDeleteDocument _), _ => isTrue trivial
  | .write (.createEmailInvitation ..), _ => isTrue trivial
  | .write (.rejectInvitation _), _ => isTrue trivial
  | .write (.revokeInvitation _), _ => isTrue trivial
  | .write (.updateCollaboratorRole ..), _ => isTrue trivial
  | .write (.removeCollaborator ..), _ => isTrue trivial
  | .read _, _ => isTrue trivial

/-- The requests, and `createEmailInvitation` for whoever calls it. -/
def IsInvitationCall : SharingCall → Prop
  | .write (.createEmailInvitation ..) => True
  | call => IsRequest call

instance : DecidablePred IsInvitationCall := fun call => by
  unfold IsInvitationCall
  split <;> infer_instance

/-! ## The invariant -/

variable {s s' : SharingTables} {w : SharingWrite} {draws : SharingDraws}
variable {f : Flight SharingTables SharingCall}

/-- What nobody has answered is pending. -/
structure Pending (s : SharingTables) : Prop extends OneTime s where
  recorded : s.Recorded
  keyed : KeyedTable.Keyed InvitationRow.id s.invitations
  pending : ∀ invitation role, .invited invitation role ∈ s.history →
    (∀ e ∈ s.history, e.answers invitation.id = false) →
      InvitationRow.mk invitation .pending ∈ s.invitations

lemma pending_empty : Pending empty where
  granted := nofun
  once := fun _ => Nat.zero_le _
  closed := .nil
  recorded := recorded_empty
  keyed := List.nodup_nil
  pending := nofun

lemma countP_le_one_of_pairwise {α : Type*} {p : α → Bool} {l : List α}
    (h : l.Pairwise fun a b => p a = true → p b = false) : l.countP p ≤ 1 := by
  induction h with
  | nil => exact Nat.zero_le _
  | @cons a l hhead _ ih =>
      rw [List.countP_cons]
      split
      · rename_i ha
        have hzero : l.countP p = 0 :=
          List.countP_eq_zero.mpr fun b hb => by simp [hhead b hb ha]
        omega
      · omega

/-- An event more. -/
lemma OneTime.append (h : s.OneTime) {e : SharingEvent}
    (hhistory : s'.history = s.history ++ [e])
    (hgranted : ∀ invitation userId now status email,
      e = .accepted invitation userId now status email → invitation.inviteeEmail ≠ [] →
        (now < invitation.expiresAt ∧ status = some .pending ∧
          email = some invitation.inviteeEmail) ∧
        ∀ e' ∈ s.history, e'.answers invitation.id = false) : s'.OneTime := by
  have hclosed : s'.history.Pairwise fun e e' =>
      ∀ id, e.closes id = true → e'.grants id = false := by
    rw [hhistory, List.pairwise_append]
    refine ⟨h.closed, List.pairwise_singleton .., fun e' he' e'' he'' id hcloses => ?_⟩
    obtain rfl := List.mem_singleton.mp he''
    cases hgrants : e''.grants id with
    | false => rfl
    | true =>
        cases e'' with
        | accepted invitation userId now status email =>
            obtain ⟨rfl, hemail⟩ := of_decide_eq_true hgrants
            have hanswers := (hgranted _ _ _ _ _ rfl hemail).2 e' he'
            rw [SharingEvent.answers_of_closes hcloses] at hanswers
            exact hanswers
        | _ => exact hgrants.symm
  refine ⟨fun invitation userId now status email hmem hemail => ?_, fun id => ?_, hclosed⟩
  · rw [hhistory] at hmem
    rcases List.mem_append.mp hmem with hmem | hmem
    · exact h.granted invitation userId now status email hmem hemail
    · exact (hgranted _ _ _ _ _ (List.mem_singleton.mp hmem).symm hemail).1
  · exact countP_le_one_of_pairwise
      (hclosed.imp fun h hgrants => h id (SharingEvent.closes_of_grants hgrants))

/-- An event that is no acceptance. -/
lemma OneTime.append_of_not_accepted (h : s.OneTime) {e : SharingEvent}
    (hhistory : s'.history = s.history ++ [e])
    (hno : ∀ invitation userId now status email, e ≠ .accepted invitation userId now status email) :
    s'.OneTime :=
  h.append hhistory fun _ _ _ _ _ heq _ => absurd heq (hno _ _ _ _ _)

lemma keyed_setStatus (h : KeyedTable.Keyed InvitationRow.id s.invitations)
    (invitation : Invitation) (status : InvitationStatus) :
    KeyedTable.Keyed InvitationRow.id (s.setStatus invitation status) := by
  unfold setStatus
  split
  · exact h.update (f := fun row => { row with status := status }) (fun _ => rfl) _
  · exact h

lemma mem_setStatus_of_ne {invitation : Invitation} {status : InvitationStatus}
    {row : InvitationRow} (h : row ∈ s.invitations) (hid : row.id ≠ invitation.id) :
    row ∈ s.setStatus invitation status := by
  unfold setStatus
  split
  · exact KeyedTable.mem_update.mpr (Or.inl ⟨h, hid⟩)
  · exact h

/-- The invitations that nobody has answered after one event more. -/
lemma Pending.of_append (h : s.Pending) {e : SharingEvent}
    (hhistory : s'.history = s.history ++ [e]) (hinvited : ∀ invitation role,
      e ≠ .invited invitation role)
    (hrows : ∀ row ∈ s.invitations, e.answers row.id = false → row ∈ s'.invitations) :
    ∀ invitation role, .invited invitation role ∈ s'.history →
      (∀ e ∈ s'.history, e.answers invitation.id = false) →
        InvitationRow.mk invitation .pending ∈ s'.invitations := by
  rw [hhistory]
  intro invitation role hmem hnone
  refine hrows _ (h.pending invitation role ?_ fun e' he' => ?_) ?_
  · rcases List.mem_append.mp hmem with hmem | hmem
    · exact hmem
    · exact absurd (List.mem_singleton.mp hmem).symm (hinvited invitation role)
  · exact hnone e' (List.mem_append_left _ he')
  · exact hnone e (List.mem_append_right _ (List.mem_singleton_self e))

lemma Pending.createEmailInvitation (h : s.Pending) {invitation : Invitation} (role : Option Role)
    (hnew : ∀ row ∈ s.invitations, row.id ≠ invitation.id)
    (hrecorded : ({ s with invitations := s.invitations ++ [InvitationRow.mk invitation .pending]
      }.record (.invited invitation role)).Recorded) :
    ({ s with invitations := s.invitations ++ [InvitationRow.mk invitation .pending] }.record
      (.invited invitation role)).Pending := by
  have hone : ({ s with invitations := s.invitations ++ [InvitationRow.mk invitation .pending]
      }.record (.invited invitation role)).OneTime := h.append_of_not_accepted rfl (by simp)
  refine ⟨hone, hrecorded, ?_, fun other role' hmem hnone => ?_⟩
  · refine h.keyed.insert (x := InvitationRow.mk invitation .pending) ?_
    exact if_neg fun hkey => by
      obtain ⟨row, hrow, hid⟩ := KeyedTable.hasKey_iff.mp hkey
      exact hnew row hrow hid
  · rcases List.mem_append.mp hmem with hmem | hmem
    · refine List.mem_append_left _ (h.pending other role' hmem fun e he => ?_)
      exact hnone e (List.mem_append_left _ he)
    · obtain ⟨rfl, -⟩ := SharingEvent.invited.inj (List.mem_singleton.mp hmem)
      exact List.mem_append_right _ (List.mem_singleton_self _)

/-- **An acceptance** that is the first answer finds the invitation pending. -/
lemma Pending.acceptInvitation (h : s.Pending) {invitation : Invitation} {userId : JSString}
    {now : Nat} (haccepting : s.Accepting (.write (.acceptInvitation invitation userId now)))
    (hok : s.FirstAnswer (.write (.acceptInvitation invitation userId now)) draws)
    (hwrote : Wrote s draws (.acceptInvitation invitation userId now) s') : s'.Pending := by
  have hrecorded := h.recorded.wrote hwrote
  obtain ⟨⟨inviterRole, hinvited⟩, hnow⟩ := haccepting
  cases hwrote with
  | acceptInvitation _ _ _ role hrole hdoc =>
      refine ⟨h.append rfl ?_, hrecorded, keyed_setStatus h.keyed _ _, ?_⟩
      · intro invitation' userId' now' status email heq hemail
        obtain ⟨rfl, rfl, rfl, rfl, rfl⟩ := SharingEvent.accepted.inj heq
        obtain ⟨hfirst, haddressee⟩ := hok (by rw [hrole]; rfl) hemail
        have hnone : ∀ e ∈ s.history, e.answers invitation.id = false := by simpa using hfirst
        have hfound : KeyedTable.lookup InvitationRow.id invitation.id s.invitations =
            some ⟨invitation, .pending⟩ :=
          KeyedTable.lookup_of_mem h.keyed (h.pending invitation inviterRole hinvited hnone)
        have hpending : s.statusOf invitation.id = some .pending := by
          unfold statusOf
          rw [hfound]
          rfl
        exact ⟨⟨hnow, hpending, haddressee⟩, hnone⟩
      · refine h.of_append rfl (by simp) fun row hrow hnot => mem_setStatus_of_ne hrow fun hid => ?_
        exact of_decide_eq_false hnot hid.symm

lemma Pending.rejectInvitation (h : s.Pending) (invitation : Invitation)
    (hrecorded : (s.rejectInvitation invitation).Recorded) :
    (s.rejectInvitation invitation).Pending := by
  refine ⟨h.append_of_not_accepted rfl (by simp), hrecorded, keyed_setStatus h.keyed _ _, ?_⟩
  refine h.of_append rfl (by simp) fun row hrow hnot => mem_setStatus_of_ne hrow fun hid => ?_
  exact of_decide_eq_false hnot hid.symm

lemma Pending.revokeInvitation (h : s.Pending) (id : JSString)
    (hrecorded : (s.revokeInvitation id).Recorded) : (s.revokeInvitation id).Pending := by
  unfold SharingTables.revokeInvitation at hrecorded ⊢
  split
  · rw [if_pos ‹_›] at hrecorded
    refine ⟨h.append_of_not_accepted rfl (by simp), hrecorded, h.keyed.delete id, ?_⟩
    refine h.of_append rfl (by simp) fun row hrow hnot =>
      KeyedTable.mem_delete.mpr ⟨hrow, fun hid => ?_⟩
    exact of_decide_eq_false hnot hid.symm
  · exact h

/-- A write that leaves the invitations alone, with an event that is none of theirs. -/
lemma Pending.congr (h : s.Pending) (hinvitations : s'.invitations = s.invitations)
    (hrecorded : s'.Recorded) {e : SharingEvent} (hhistory : s'.history = s.history ++ [e])
    (hinvited : ∀ invitation role, e ≠ .invited invitation role)
    (haccepted : ∀ invitation userId now status email,
      e ≠ .accepted invitation userId now status email) : s'.Pending := by
  refine ⟨h.append_of_not_accepted hhistory haccepted, hrecorded, hinvitations ▸ h.keyed, ?_⟩
  exact h.of_append hhistory hinvited fun row hrow _ => hinvitations ▸ hrow

lemma Pending.wrote (h : s.Pending) (haccepting : s.Accepting (.write w))
    (hok : s.FirstAnswer (.write w) draws) (hwrote : Wrote s draws w s') : s'.Pending := by
  have hrecorded := h.recorded.wrote hwrote
  cases hwrote with
  | registerUser | softDeleteDocument | removeCollaborator =>
      exact ⟨⟨h.granted, h.once, h.closed⟩, h.recorded, h.keyed, h.pending⟩
  | createDocument title ownerId hnew => exact h.congr rfl hrecorded rfl (by simp) (by simp)
  | createEmailInvitation invitation role expiresInHours hid hrole hnew =>
      exact h.createEmailInvitation _ hnew hrecorded
  | acceptInvitation invitation userId now role hrole hdoc =>
      exact h.acceptInvitation haccepting hok (.acceptInvitation invitation userId now role hrole
        hdoc)
  | rejectInvitation invitation => exact h.rejectInvitation invitation hrecorded
  | revokeInvitation id => exact h.revokeInvitation id hrecorded
  | updateCollaboratorRole docId actorId userId text role hrole =>
      unfold SharingTables.updateCollaboratorRole at hrecorded ⊢
      split
      · rw [if_pos ‹_›] at hrecorded
        exact h.congr rfl hrecorded rfl (by simp) (by simp)
      · exact h

/-- **Invitations are one-time and personal** in every run in which they are accepted by their
addressees, before any other answer. -/
theorem invitations_one_time (h : Interleaved exec IsInvitationCall FirstAnswer empty f) :
    f.shared.OneTime :=
  (invariant_of_wrote h (fun _ _ _ => id) pending_empty (fun _ hs => hs.recorded)
    fun _ _ _ _ hs => hs.wrote).1

/-- One user accepts, another one rejects, and tries to accept the invitation to a third. -/
def answered : SharingTables :=
  (serveAll exec IsInvitationCall FirstAnswer 7 empty
    (sampleStart 3 ++ [sampleInvite 0 1 "editor", sampleInvite 0 2 "viewer", sampleAccept 1 1,
      sampleReject 2 2, sampleAccept 9 2])).get (by decide +kernel)

theorem invitations_one_time_answered :
    OneTime answered ∧
      answered.invitations.map InvitationRow.status = [.accepted, .rejected] := by
  have hrun : Interleaved exec IsInvitationCall FirstAnswer empty ⟨answered, []⟩ :=
    interleaved_get _
  have hone := invitations_one_time hrun
  -- Otherwise the run is evaluated to find that it is the one of `hrun`.
  dsimp only at hone
  exact ⟨hone, by decide +kernel⟩

/-- An invitation is rejected, and then accepted by another user and by its addressee. -/
def acceptedTwice : SharingTables :=
  (serveAll exec IsInvitationCall (fun _ _ _ => True) 7 empty
    (sampleStart 3 ++ [sampleInvite 0 1 "editor", sampleReject 1 1, sampleAccept 1 2,
      sampleAccept 1 1])).get (by decide +kernel)

/-- **Two permissions by one invitation**. -/
theorem not_forall_oneTime :
    ¬ ∀ f, Interleaved exec IsInvitationCall (fun _ _ _ => True) empty f → f.shared.OneTime := by
  intro h
  have hrun : Interleaved exec IsInvitationCall (fun _ _ _ => True) empty ⟨acceptedTwice, []⟩ :=
    interleaved_get _
  have htwice : acceptedTwice.history.countP (SharingEvent.grants (JSString.ofNat 201)) = 2 := by
    decide +kernel
  have honce := (h _ hrun).once (JSString.ofNat 201)
  rw [htwice] at honce
  omega

end SharingTables

end SyncEngine
