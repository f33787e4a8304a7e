import Mathlib.Logic.Function.Basic
import SyncEngine.Client.CollaborativeDoc
import SyncEngine.Lib.Transition
import SyncEngine.Server.OfflineMerger

/-!
# The UIDs of all clients

Any number of browser profiles with any number of tabs.  A profile has the site id that
`getOrCreateClientId` stored and the queue in its storage; both are shared by its tabs.  A tab
runs the hook and handles whatever messages a server sends it, in any order, as long as a JOIN_ACK
names the site id of the profile.

Freshness rests on the replica's clock, which every JOIN_ACK sets anew from the nodes it carries.
`uids_unique` says when that is enough: a JOIN_ACK must bring the clock up to all INSERTs made so
far with the site id, and a tab that makes an INSERT must have seen those of the other tabs of its
profile.  `not_forall_uidsUnique` is a plain reconnect.
-/

namespace SyncEngine

open Transition

/-- Who edits: the profile of every tab, and the profiles' site ids. -/
structure Profiles (T R : Type*) where
  docId : JSString
  profile : T → R
  siteId : R → JSString
  siteId_injective : Function.Injective siteId

/-- All pages of all profiles, with what they have made and sent. -/
structure Browsers (T R : Type*) where
  /-- The queue in the `localStorage` of a profile. -/
  storage : R → OfflineQueue
  /-- The hooks of the open pages. -/
  pages : T → Option CollaborativeDoc
  /-- The operations that were made, each with its tab. -/
  made : List (T × RGAOperation)
  /-- Everything that was sent to the server. -/
  sent : List OperationMessage

/-- What happens to a page. -/
inductive BrowserAction (T : Type*) where
  /-- The page is loaded, or loaded again. -/
  | load (t : T)
  | close (t : T)
  /-- An edit, with an open socket or without. -/
  | edit (t : T) (e : UserEdit) (online : Bool)
  | handle (t : T) (message : ServerMessage) (online : Bool)

/-- The replica's clock once the JOIN_ACK has been handled. -/
def JoinAckMessage.clock (ack : JoinAckMessage) : Nat :=
  ((ClientRGADocument.deserialize ack.snapshot.nodes ack.siteId).applyOperations
    (ack.missedOps.map OperationEnvelope.op)).clock

namespace Browsers

variable {T R : Type*} (P : Profiles T R)

/-- No page was ever opened. -/
def start : Browsers T R := ⟨fun _ => [], fun _ => none, [], []⟩

variable [DecidableEq T] [DecidableEq R]

/-- Another hook for a page, or none. -/
def setPage (s : Browsers T R) (t : T) (page : Option CollaborativeDoc) : Browsers T R :=
  { s with pages := Function.update s.pages t page }

/-- `OfflineQueue.persist`. -/
def persist (s : Browsers T R) (t : T) (queue : OfflineQueue) : Browsers T R :=
  { s with storage := Function.update s.storage (P.profile t) queue }

/-- What is sent counts only with an open socket. -/
def send (s : Browsers T R) (online : Bool) (messages : List OperationMessage) : Browsers T R :=
  { s with sent := if online then s.sent ++ messages else s.sent }

/-- A page edits, and stores its queue for the profile. -/
def edit (s : Browsers T R) (t : T) (e : UserEdit) (online : Bool) (hook : CollaborativeDoc) :
    Browsers T R :=
  let (hook, messages) := hook.userEdit e
  let s := (s.setPage t (some hook)).send online messages
  let s := { s with made := s.made ++ messages.map fun msg => (t, msg.op) }
  -- the queue is stored with every operation that is queued
  if messages = [] then s else s.persist P t hook.queueRef

/-- A page handles a message of the server. -/
def handle (s : Browsers T R) (t : T) (message : ServerMessage) (online : Bool)
    (hook : CollaborativeDoc) : Browsers T R :=
  let (hook, messages) := hook.handleServerMessage message
  let s := (s.setPage t (some hook)).send online messages
  match message with
  | .opAck .. => s.persist P t hook.queueRef
  | _ => s

/-- The site id in a JOIN_ACK is the client's own. -/
def ownSiteId (t : T) : ServerMessage → Bool
  | .joinAck ack => ack.siteId = P.siteId (P.profile t)
  | _ => true

/-- One action, if the page is there. -/
def step (s : Browsers T R) : BrowserAction T → Option (Browsers T R)
  | .load t =>
      some (s.setPage t (some (CollaborativeDoc.new P.docId (s.storage (P.profile t)))))
  | .close t => some (s.setPage t none)
  | .edit t e online => (s.pages t).map (s.edit P t e online)
  | .handle t message online =>
      if ownSiteId P t message then (s.pages t).map (s.handle P t message online) else none

/-! ## The property -/

/-- Two INSERTs that were sent and carry the same UID are the same operation. -/
def UidsUnique (s : Browsers T R) : Prop :=
  ∀ msg ∈ s.sent, ∀ msg' ∈ s.sent, ∀ u, msg.op.inserted = some u → msg'.op.inserted = some u →
    msg.op = msg'.op

/-- The tab's replica, if it has one. -/
def replica (s : Browsers T R) (t : T) : Option ClientRGADocument :=
  (s.pages t).bind CollaborativeDoc.docRef

/-- The INSERTs that satisfy `p` do not go beyond the clock. -/
def ClockReached (s : Browsers T R) (p : T → Prop) (clock : Nat) : Prop :=
  ∀ x ∈ s.made, p x.1 → ∀ u ∈ x.2.inserted, u.clock ≤ clock

instance (s : Browsers T R) (p : T → Prop) [DecidablePred p] (clock : Nat) :
    Decidable (s.ClockReached p clock) :=
  inferInstanceAs (Decidable (∀ x ∈ s.made, _))

/-- The clocks of a site do not fall behind its INSERTs: a JOIN_ACK brings the clock up to all of
them, and a tab that makes an INSERT has seen those of the other tabs of its profile. -/
def ClocksKept (s : Browsers T R) : BrowserAction T → Prop
  | .handle t (.joinAck ack) _ =>
      s.ClockReached (fun t' => P.profile t' = P.profile t) ack.clock
  | .edit t e _ =>
      ∀ doc ∈ s.replica t,
        (∃ msg ∈ ((s.pages t).elim [] fun hook => (hook.userEdit e).2),
          msg.op.inserted.isSome = true) →
        s.ClockReached (fun t' => t' ≠ t ∧ P.profile t' = P.profile t) doc.clock
  | _ => True

instance (s : Browsers T R) : DecidablePred (s.ClocksKept P)
  | .handle t (.joinAck ack) _ =>
      inferInstanceAs (Decidable (s.ClockReached (fun t' => P.profile t' = P.profile t) ack.clock))
  | .edit t _ _ => inferInstanceAs (Decidable (∀ doc ∈ s.replica t, _))
  | .load _ => isTrue trivial
  | .close _ => isTrue trivial
  | .handle _ (.opAck ..) _ => isTrue trivial
  | .handle _ (.broadcast _) _ => isTrue trivial
  | .handle _ (.error _) _ => isTrue trivial

/-! ## The invariant -/

variable {P}

/-- What holds along every run in which the clocks are kept. -/
structure Fresh (P : Profiles T R) (s : Browsers T R) : Prop where
  siteId_eq : ∀ t doc, s.replica t = some doc → doc.siteId = P.siteId (P.profile t)
  made_siteId : ∀ x ∈ s.made, ∀ u, x.2.inserted = some u → u.siteId = P.siteId (P.profile x.1)
  /-- A replica's clock has reached what its tab has made. -/
  clock_reached : ∀ t doc, s.replica t = some doc → s.ClockReached (fun t' => t' = t) doc.clock
  unique : ∀ x ∈ s.made, ∀ y ∈ s.made, ∀ u, x.2.inserted = some u → y.2.inserted = some u →
    x.2 = y.2
  queue_made : ∀ t hook, s.pages t = some hook → ∀ op ∈ hook.queueRef, ∃ x ∈ s.made, x.2 = op.op
  storage_made : ∀ r, ∀ op ∈ s.storage r, ∃ x ∈ s.made, x.2 = op.op
  sent_made : ∀ msg ∈ s.sent, ∃ x ∈ s.made, x.2 = msg.op

omit [DecidableEq T] [DecidableEq R] in
lemma fresh_start : Fresh P (start : Browsers T R) where
  siteId_eq := by simp [start, replica]
  made_siteId := by simp [start]
  clock_reached := by simp [start, replica]
  unique := by simp [start]
  queue_made := by simp [start]
  storage_made := by simp [start]
  sent_made := by simp [start]

/-- In a list whose images are distinct, an image determines its element. -/
lemma eq_of_nodup_filterMap {α β : Type*} {f : α → Option β} {l : List α}
    (h : (l.filterMap f).Nodup) {x y : α} {u : β} (hx : x ∈ l) (hy : y ∈ l)
    (hfx : f x = some u) (hfy : f y = some u) : x = y := by
  induction l with
  | nil => simp at hx
  | cons a l ih =>
      have himage : ∀ z, z ∈ l → f z = some u → u ∈ l.filterMap f :=
        fun z hz hfz => List.mem_filterMap.mpr ⟨z, hz, hfz⟩
      have htail : (l.filterMap f).Nodup :=
        ((List.sublist_cons_self a l).filterMap f).nodup h
      rcases List.mem_cons.mp hx with rfl | hx' <;> rcases List.mem_cons.mp hy with rfl | hy'
      · rfl
      · rw [List.filterMap_cons_some hfx] at h
        exact absurd (himage y hy' hfy) (List.nodup_cons.mp h).1
      · rw [List.filterMap_cons_some hfy] at h
        exact absurd (himage x hx' hfx) (List.nodup_cons.mp h).1
      · exact ih htail hx' hy'

omit [DecidableEq R] in
/-- A page changes, and nothing is made: its queue and what it sends were made before, and its
replica keeps to the site and the clock. -/
lemma Fresh.of_page {s s' : Browsers T R} (h : Fresh P s) {t : T} {page : Option CollaborativeDoc}
    (hpages : s'.pages = Function.update s.pages t page) (hmade : s'.made = s.made)
    (hqueue : ∀ hook ∈ page, ∀ op ∈ hook.queueRef, ∃ x ∈ s.made, x.2 = op.op)
    (hstorage : ∀ r, ∀ op ∈ s'.storage r, ∃ x ∈ s.made, x.2 = op.op)
    (hsent : ∀ msg ∈ s'.sent, ∃ x ∈ s.made, x.2 = msg.op)
    (hreplica : ∀ doc ∈ page.bind CollaborativeDoc.docRef, doc.siteId = P.siteId (P.profile t) ∧
      s.ClockReached (fun t' => t' = t) doc.clock) : Fresh P s' where
  siteId_eq t' doc hdoc := by
    rw [replica, hpages, Function.update_apply] at hdoc
    split at hdoc
    · rename_i heq
      exact heq ▸ (hreplica doc hdoc).1
    · exact h.siteId_eq t' doc hdoc
  made_siteId := hmade ▸ h.made_siteId
  clock_reached t' doc hdoc := by
    rw [ClockReached, hmade]
    rw [replica, hpages, Function.update_apply] at hdoc
    split at hdoc
    · rename_i heq
      exact heq ▸ (hreplica doc hdoc).2
    · exact h.clock_reached t' doc hdoc
  unique := hmade ▸ h.unique
  queue_made t' hook hpage := by
    rw [hmade]
    rw [hpages, Function.update_apply] at hpage
    split at hpage
    · exact hqueue hook hpage
    · exact h.queue_made t' hook hpage
  storage_made := hmade ▸ hstorage
  sent_made := hmade ▸ hsent

section Step

variable {s s' : Browsers T R} {t : T} {hook : CollaborativeDoc}

omit [DecidableEq T] [DecidableEq R] in
lemma replica_of_page (hpage : s.pages t = some hook) : s.replica t = hook.docRef := by
  rw [replica, hpage, Option.bind_some]

omit [DecidableEq T] [DecidableEq R] in
/-- What is sent when the hook has run was made before. -/
lemma sent_send {messages : List OperationMessage} {online : Bool}
    (hold : ∀ msg ∈ s.sent, ∃ x ∈ s.made, x.2 = msg.op)
    (hnew : ∀ msg ∈ messages, ∃ x ∈ s.made, x.2 = msg.op) :
    ∀ msg ∈ if online then s.sent ++ messages else s.sent, ∃ x ∈ s.made, x.2 = msg.op := by
  intro msg hmsg
  split at hmsg
  · exact (List.mem_append.mp hmsg).elim (hold msg) (hnew msg)
  · exact hold msg hmsg

omit [DecidableEq T] in
lemma storage_persist {queue : OfflineQueue}
    (h : ∀ r, ∀ op ∈ s.storage r, ∃ x ∈ s.made, x.2 = op.op)
    (hqueue : ∀ op ∈ queue, ∃ x ∈ s.made, x.2 = op.op) (r₀ : R) :
    ∀ r, ∀ op ∈ Function.update s.storage r₀ queue r, ∃ x ∈ s.made, x.2 = op.op := by
  intro r op hop
  rw [Function.update_apply] at hop
  split at hop
  · exact hqueue op hop
  · exact h r op hop

/-- A JOIN_ACK makes a new replica, whose clock has reached everything the tab has made. -/
lemma Fresh.handle_joinAck (h : Fresh P s) (hpage : s.pages t = some hook) {ack : JoinAckMessage}
    {online : Bool} (hsite : ack.siteId = P.siteId (P.profile t))
    (hclock : s.ClockReached (fun t' => P.profile t' = P.profile t) ack.clock) :
    Fresh P (s.handle P t (.joinAck ack) online hook) := by
  have hkeep : ∀ (ops : List RGAOperation) (d : ClientRGADocument),
      (d.applyOperations ops).siteId = d.siteId := by
    intro ops
    induction ops with
    | nil => exact fun _ => rfl
    | cons op ops ih => exact fun d => (ih _).trans (d.applyOperation_clock op).1
  refine h.of_page rfl rfl (fun hook' heq => ?_) h.storage_made ?_ fun doc hdoc => ?_
  · obtain rfl := Option.some.inj heq
    exact h.queue_made t hook hpage
  · refine sent_send h.sent_made fun msg hmsg => ?_
    obtain ⟨op, hop, rfl⟩ := List.mem_map.mp hmsg
    exact h.queue_made t hook hpage op hop
  · obtain rfl := Option.some.inj hdoc
    refine ⟨(hkeep _ _).trans hsite, fun x hx heq => hclock x hx ?_⟩
    rw [heq]

lemma Fresh.handle_opAck (h : Fresh P s) (hpage : s.pages t = some hook)
    {clientSeq serverSeq : Nat} {online : Bool} :
    Fresh P (s.handle P t (.opAck clientSeq serverSeq) online hook) := by
  have hqueue : ∀ op ∈ hook.queueRef.acknowledge clientSeq, ∃ x ∈ s.made, x.2 = op.op :=
    fun op hop => h.queue_made t hook hpage op (List.mem_of_mem_filter hop)
  refine h.of_page rfl rfl (fun hook' heq => ?_) ?_ ?_ fun doc hdoc => ?_
  · obtain rfl := Option.some.inj heq
    exact hqueue
  · exact storage_persist h.storage_made hqueue _
  · exact sent_send h.sent_made (by simp)
  · have hdoc' : s.replica t = some doc := (replica_of_page hpage).trans hdoc
    exact ⟨h.siteId_eq t doc hdoc', h.clock_reached t doc hdoc'⟩

lemma Fresh.handle_broadcast (h : Fresh P s) (hpage : s.pages t = some hook)
    {envelope : OperationEnvelope} {online : Bool} :
    Fresh P (s.handle P t (.broadcast envelope) online hook) := by
  refine h.of_page rfl rfl (fun hook' heq => ?_) h.storage_made ?_ fun doc hdoc => ?_
  · obtain rfl := Option.some.inj heq
    have hsame : (hook.handleBroadcast envelope).queueRef = hook.queueRef := by
      rw [CollaborativeDoc.handleBroadcast]
      cases hook.docRef <;> rfl
    intro op hop
    exact h.queue_made t hook hpage op (hsame ▸ hop)
  · exact sent_send h.sent_made (by simp)
  · have hdoc' : (hook.handleBroadcast envelope).docRef = some doc := hdoc
    rw [CollaborativeDoc.handleBroadcast] at hdoc'
    cases hold : hook.docRef with
    | none => simp [hold] at hdoc'
    | some doc₀ =>
        simp only [hold, Option.some.injEq] at hdoc'
        have hdoc₀ : s.replica t = some doc₀ := (replica_of_page hpage).trans hold
        obtain ⟨hsite, hle⟩ := doc₀.applyOperation_clock envelope.op
        subst hdoc'
        exact ⟨hsite.trans (h.siteId_eq t doc₀ hdoc₀),
          fun x hx ht u hu => (h.clock_reached t doc₀ hdoc₀ x hx ht u hu).trans hle⟩

lemma Fresh.handle_error (h : Fresh P s) (hpage : s.pages t = some hook) {error : ErrorMessage}
    {online : Bool} : Fresh P (s.handle P t (.error error) online hook) := by
  refine h.of_page rfl rfl (fun hook' heq => ?_) h.storage_made ?_ fun doc hdoc => ?_
  · obtain rfl := Option.some.inj heq
    exact h.queue_made t hook hpage
  · exact sent_send h.sent_made (by simp)
  · have hdoc' : s.replica t = some doc := (replica_of_page hpage).trans hdoc
    exact ⟨h.siteId_eq t doc hdoc', h.clock_reached t doc hdoc'⟩

/-- What a page, the log and the storage are after an edit that queued `queued`. -/
structure EditStep (P : Profiles T R) (s s' : Browsers T R) (t : T) (hook' : CollaborativeDoc)
    (queued : List QueuedOperation) : Prop where
  pages_eq : s'.pages = Function.update s.pages t (some hook')
  made_eq : s'.made = s.made ++ queued.map fun op => (t, op.op)
  sent_mem : ∀ msg ∈ s'.sent, msg ∈ s.sent ∨ ∃ op ∈ queued, msg.op = op.op
  storage_mem : ∀ r, ∀ op ∈ s'.storage r, op ∈ s.storage r ∨ op ∈ hook'.queueRef

lemma editStep {e : UserEdit} {online : Bool} {queued : List QueuedOperation}
    (hsent : (hook.userEdit e).2 = queued.map hook.operationMessage) :
    EditStep P s (s.edit P t e online hook) t (hook.userEdit e).1 queued where
  pages_eq := by
    simp only [Browsers.edit]
    split <;> rfl
  made_eq := by
    have hmade : (s.edit P t e online hook).made =
        s.made ++ (hook.userEdit e).2.map fun msg => (t, msg.op) := by
      simp only [Browsers.edit]
      split <;> rfl
    rw [hmade, hsent, List.map_map]
    rfl
  sent_mem msg hmsg := by
    have hsame : (s.edit P t e online hook).sent =
        if online then s.sent ++ (hook.userEdit e).2 else s.sent := by
      simp only [Browsers.edit]
      split <;> rfl
    rw [hsame, hsent] at hmsg
    split at hmsg
    · rcases List.mem_append.mp hmsg with hmsg | hmsg
      · exact Or.inl hmsg
      · obtain ⟨op, hop, rfl⟩ := List.mem_map.mp hmsg
        exact Or.inr ⟨op, hop, rfl⟩
    · exact Or.inl hmsg
  storage_mem r op hop := by
    simp only [Browsers.edit] at hop
    split at hop
    · exact Or.inl hop
    · simp only [persist, Function.update_apply] at hop
      split at hop
      · exact Or.inr hop
      · exact Or.inl hop

/-- The UIDs that an edit gives are those of the next clocks of the replica, each given once. -/
lemma uids_of_edit {hook' : CollaborativeDoc} {queued : List QueuedOperation}
    (hedited : hook.Edited hook' queued) :
    ((queued.map QueuedOperation.op).filterMap RGAOperation.inserted).Nodup ∧
      ∀ op ∈ queued, ∀ u, op.op.inserted = some u → ∃ doc, hook.docRef = some doc ∧
        u.siteId = doc.siteId ∧ doc.clock < u.clock := by
  rcases hedited.replica with ⟨-, rfl⟩ | ⟨doc, doc', hdoc, -, hedits⟩
  · simp
  · obtain ⟨n, huids, -, -⟩ := hedits.uids
    constructor
    · rw [huids]
      exact List.Nodup.map (fun _ _ heq => congrArg UID.clock heq) List.nodup_range'
    · intro op hop u hu
      have hmem : u ∈ (queued.map QueuedOperation.op).filterMap RGAOperation.inserted :=
        List.mem_filterMap.mpr ⟨op.op, List.mem_map_of_mem hop, hu⟩
      rw [huids] at hmem
      obtain ⟨clock, hclock, rfl⟩ := List.mem_map.mp hmem
      exact ⟨doc, hdoc, rfl, (List.mem_range'_1.mp hclock).1⟩

/-- The replica after an edit keeps its site, and its clock reaches what was made. -/
lemma replica_of_edit {hook' : CollaborativeDoc} {queued : List QueuedOperation}
    {doc' : ClientRGADocument} (hedited : hook.Edited hook' queued)
    (hdoc' : hook'.docRef = some doc') :
    ∃ doc, hook.docRef = some doc ∧ doc'.siteId = doc.siteId ∧ doc.clock ≤ doc'.clock ∧
      ∀ op ∈ queued, ∀ u, op.op.inserted = some u → u.clock ≤ doc'.clock := by
  rcases hedited.replica with ⟨hsame, rfl⟩ | ⟨doc, doc₁, hdoc, hdoc₁, hedits⟩
  · exact ⟨doc', hsame ▸ hdoc', rfl, Nat.le_refl _, by simp⟩
  · obtain rfl := Option.some.inj (hdoc₁.symm.trans hdoc')
    obtain ⟨n, huids, hclock, hsite⟩ := hedits.uids
    refine ⟨doc, hdoc, hsite, by omega, fun op hop u hu => ?_⟩
    have hmem : u ∈ (queued.map QueuedOperation.op).filterMap RGAOperation.inserted :=
      List.mem_filterMap.mpr ⟨op.op, List.mem_map_of_mem hop, hu⟩
    rw [huids] at hmem
    obtain ⟨clock, hmemRange, rfl⟩ := List.mem_map.mp hmem
    have := (List.mem_range'_1.mp hmemRange).2
    show clock ≤ _
    omega

omit [DecidableEq R] in
/-- An edit gives UIDs that no INSERT made so far has. -/
lemma Fresh.uid_new (h : Fresh P s) (hpage : s.pages t = some hook) {e : UserEdit} {online : Bool}
    (hkept : s.ClocksKept P (.edit t e online)) {queued : List QueuedOperation}
    (hedited : hook.Edited (hook.userEdit e).1 queued)
    (hsent : (hook.userEdit e).2 = queued.map hook.operationMessage) {op : QueuedOperation}
    (hop : op ∈ queued) {u : UID} (hu : op.op.inserted = some u) :
    u.siteId = P.siteId (P.profile t) ∧ ∀ x ∈ s.made, x.2.inserted ≠ some u := by
  obtain ⟨doc, hdoc, hsite, hclock⟩ := (uids_of_edit hedited).2 op hop u hu
  have hreplica : s.replica t = some doc := (replica_of_page hpage).trans hdoc
  have hown : u.siteId = P.siteId (P.profile t) := hsite.trans (h.siteId_eq t doc hreplica)
  refine ⟨hown, fun x hx hxu => ?_⟩
  have hprofile : P.profile x.1 = P.profile t :=
    P.siteId_injective ((h.made_siteId x hx u hxu).symm.trans hown)
  have hle : u.clock ≤ doc.clock := by
    by_cases htab : x.1 = t
    · exact h.clock_reached t doc hreplica x hx htab u hxu
    · refine hkept doc hreplica ⟨hook.operationMessage op, ?_, ?_⟩ x hx ⟨htab, hprofile⟩ u hxu
      · rw [hpage, Option.elim_some, hsent]
        exact List.mem_map_of_mem hop
      · exact Option.isSome_iff_exists.mpr ⟨u, hu⟩
  exact absurd hle (Nat.not_le.mpr hclock)

lemma Fresh.edit (h : Fresh P s) (hpage : s.pages t = some hook) {e : UserEdit} {online : Bool}
    (hkept : s.ClocksKept P (.edit t e online)) : Fresh P (s.edit P t e online hook) := by
  obtain ⟨queued, hedited, hsent⟩ := hook.edited_userEdit e
  have hstep : EditStep P s (s.edit P t e online hook) t (hook.userEdit e).1 queued :=
    editStep hsent
  set s' := s.edit P t e online hook
  have hold : ∀ op, (∃ x ∈ s.made, x.2 = op) → ∃ x ∈ s'.made, x.2 = op := fun op ⟨x, hx, heq⟩ =>
    ⟨x, hstep.made_eq ▸ List.mem_append_left _ hx, heq⟩
  have hnew : ∀ op ∈ queued, ∃ x ∈ s'.made, x.2 = op.op := fun op hop =>
    ⟨(t, op.op), hstep.made_eq ▸ List.mem_append_right _ (List.mem_map_of_mem hop), rfl⟩
  have hqueue : ∀ op ∈ (hook.userEdit e).1.queueRef, ∃ x ∈ s'.made, x.2 = op.op := by
    intro op hop
    rw [hedited.queueRef_eq] at hop
    exact (List.mem_append.mp hop).elim
      (fun hop => hold _ (h.queue_made t hook hpage op hop)) (hnew op)
  -- what an element of the new log is
  have hmem : ∀ x ∈ s'.made, x ∈ s.made ∨ x.1 = t ∧ ∃ op ∈ queued, x.2 = op.op := by
    intro x hx
    rw [hstep.made_eq] at hx
    rcases List.mem_append.mp hx with hx | hx
    · exact Or.inl hx
    · obtain ⟨op, hop, rfl⟩ := List.mem_map.mp hx
      exact Or.inr ⟨rfl, op, hop, rfl⟩
  refine ⟨?_, ?_, ?_, ?_, ?_, ?_, ?_⟩
  · intro t' doc' hdoc'
    rw [replica, hstep.pages_eq, Function.update_apply] at hdoc'
    split at hdoc'
    · rename_i heq
      subst heq
      obtain ⟨doc, hdoc, hsite, -, -⟩ := replica_of_edit hedited hdoc'
      exact hsite.trans (h.siteId_eq t' doc ((replica_of_page hpage).trans hdoc))
    · exact h.siteId_eq t' doc' hdoc'
  · intro x hx u hu
    rcases hmem x hx with hx | ⟨ht, op, hop, hxop⟩
    · exact h.made_siteId x hx u hu
    · rw [ht]
      exact (h.uid_new hpage hkept hedited hsent hop (hxop ▸ hu)).1
  · intro t' doc' hdoc' x hx ht u hu
    rw [replica, hstep.pages_eq, Function.update_apply] at hdoc'
    rcases hmem x hx with hx' | ⟨htx, op, hop, hxop⟩
    · split at hdoc'
      · rename_i heq
        subst heq
        obtain ⟨doc, hdoc, -, hle, -⟩ := replica_of_edit hedited hdoc'
        exact (h.clock_reached t' doc ((replica_of_page hpage).trans hdoc) x hx' ht u hu).trans hle
      · exact h.clock_reached t' doc' hdoc' x hx' ht u hu
    · rw [if_pos (ht.symm.trans htx)] at hdoc'
      -- the clock has gone past every UID the edit made
      obtain ⟨-, -, -, -, hnext⟩ := replica_of_edit hedited hdoc'
      exact hnext op hop u (hxop ▸ hu)
  · intro x hx y hy u hxu hyu
    -- two old ones, an old and a new one, two of this batch: only the last needs the edit itself
    rcases hmem x hx with hx | ⟨-, op, hop, hxop⟩ <;>
      rcases hmem y hy with hy | ⟨-, op', hop', hyop⟩
    · exact h.unique x hx y hy u hxu hyu
    · exact absurd hxu ((h.uid_new hpage hkept hedited hsent hop' (hyop ▸ hyu)).2 x hx)
    · exact absurd hyu ((h.uid_new hpage hkept hedited hsent hop (hxop ▸ hxu)).2 y hy)
    · rw [hxop, hyop]
      exact eq_of_nodup_filterMap (uids_of_edit hedited).1 (List.mem_map_of_mem hop)
        (List.mem_map_of_mem hop') (hxop ▸ hxu) (hyop ▸ hyu)
  · intro t' hook' hpage' op hop
    rw [hstep.pages_eq, Function.update_apply] at hpage'
    split at hpage'
    · obtain rfl := Option.some.inj hpage'
      exact hqueue op hop
    · exact hold _ (h.queue_made t' hook' hpage' op hop)
  · intro r op hop
    exact (hstep.storage_mem r op hop).elim (fun hop => hold _ (h.storage_made r op hop))
      (hqueue op)
  · intro msg hmsg
    rcases hstep.sent_mem msg hmsg with hmsg | ⟨op, hop, heq⟩
    · exact hold _ (h.sent_made msg hmsg)
    · exact heq ▸ hnew op hop

end Step

/-! ## Runs -/

/-- Every action that keeps the clocks keeps the invariant. -/
lemma Fresh.step {s s' : Browsers T R} {a : BrowserAction T} (h : Fresh P s)
    (hkept : s.ClocksKept P a) (hstep : s.step P a = some s') : Fresh P s' := by
  cases a with
  | load t =>
      obtain rfl := Option.some.inj hstep
      refine h.of_page rfl rfl (fun hook heq => ?_) h.storage_made h.sent_made
        (by simp [CollaborativeDoc.new])
      obtain rfl := Option.some.inj heq
      exact h.storage_made (P.profile t)
  | close t =>
      obtain rfl := Option.some.inj hstep
      exact h.of_page rfl rfl (by simp) h.storage_made h.sent_made (by simp)
  | edit t e online =>
      obtain ⟨hook, hpage, rfl⟩ := Option.map_eq_some_iff.mp hstep
      exact h.edit hpage hkept
  | handle t message online =>
      simp only [Browsers.step] at hstep
      split at hstep
      · rename_i hown
        obtain ⟨hook, hpage, rfl⟩ := Option.map_eq_some_iff.mp hstep
        cases message with
        | joinAck ack => exact h.handle_joinAck hpage (by simpa [ownSiteId] using hown) hkept
        | opAck clientSeq serverSeq => exact h.handle_opAck hpage
        | broadcast envelope => exact h.handle_broadcast hpage
        | error error => exact h.handle_error hpage
      · simp at hstep

/-- **UIDs are unique** along every run in which a JOIN_ACK brings the clock of a replica up to all
INSERTs made with its site id, and a tab that makes an INSERT has seen those that the other tabs of
its profile have made. -/
theorem uids_unique {s : Browsers T R} (h : Reach (step P) (ClocksKept P) start s) :
    s.UidsUnique := by
  have hs : Fresh P s := h.invariant fresh_start fun s a s' hs hkept hstep => hs.step hkept hstep
  intro msg hmsg msg' hmsg' u hu hu'
  obtain ⟨x, hx, hxop⟩ := hs.sent_made msg hmsg
  obtain ⟨y, hy, hyop⟩ := hs.sent_made msg' hmsg'
  rw [← hxop, ← hyop]
  exact hs.unique x hx y hy u (hxop ▸ hu) (hyop ▸ hu')

/-! ## Two runs of one tab -/

/-- One profile with one tab. -/
def oneTab : Profiles Unit Unit where
  docId := JSString.lit "d"
  profile := id
  siteId := fun _ => JSString.lit "a"
  siteId_injective := fun _ _ _ => rfl

/-- The user types a character at the beginning. -/
def type (char : String) : BrowserAction Unit :=
  .edit () (.single (.insert 0 (JSString.lit char) (JSString.lit char))) true

/-- What the server replies to a JOIN of the tab once it has the first `n` of its operations. -/
def replyOf (n lastSeq : Nat) : ServerMessage :=
  .joinAck (joinAck (JSString.lit "s") ⟨lastSeq, JSString.lit "a"⟩
    (missedReply (typedLog n) ⟨lastSeq, JSString.lit "a"⟩)
    ⟨RGADocument.empty.applyOperations ((typedLog n).operations.map OperationEnvelope.op), n, n⟩)

/-- The tab joins and types a character, which is acknowledged. -/
def typedActions : List (BrowserAction Unit) :=
  [.load (), .handle () (replyOf 0 0) true, type "x", .handle () (.opAck 1 1) true]

/-- It loads the page again, joins and types another one. -/
theorem uids_unique_reloaded :
    ((runAllowed (step oneTab) (ClocksKept oneTab) start
      (typedActions ++ [.load (), .handle () (replyOf 1 0) true, type "y"])).get
        (by decide)).UidsUnique :=
  uids_unique (reach_get _)

/-- It loses its connection, rejoins from the seq it has, and types another one. -/
def reconnected : Browsers Unit Unit :=
  (runAllowed (step oneTab) (fun _ _ => True) start
    (typedActions ++ [.handle () (replyOf 1 1) true, type "y"])).get (by decide)

/-- The message that a first character makes. -/
def typedMessage (clientSeq : Nat) (char : String) : OperationMessage :=
  ⟨JSString.lit "d", clientSeq, .insert ⟨⟨1, JSString.lit "a"⟩, none, .string (JSString.lit char)⟩,
    JSString.lit char⟩

/-- Both characters have the UID `1:a`. -/
theorem not_forall_uidsUnique :
    ¬ ∀ s : Browsers Unit Unit, Reach (step oneTab) (fun _ _ => True) start s → s.UidsUnique := by
  intro h
  have hunique := h reconnected (reach_get _)
  exact absurd (hunique (typedMessage 1 "x") (by decide) (typedMessage 2 "y") (by decide)
    ⟨1, JSString.lit "a"⟩ rfl rfl) (by decide)

end Browsers

end SyncEngine
