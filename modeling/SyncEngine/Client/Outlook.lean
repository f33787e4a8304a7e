import SyncEngine.Client.CollaborativeDoc
import SyncEngine.Crdt.Encoding
import SyncEngine.Server.Persistence

/-!
# What is on its way to a client

A client holds a replica, and there are messages on its way to it.  Together they are an `Outlook`:
the nodes of the replica, or of the JOIN_ACK that is going to replace it, and the operations that
the client will apply to them.

`ResumeSound` says that the replica has everything that was stored up to the seq with which the
client would ask for more.  `InOrder` says of a further message that it does not run ahead of the
outlook; whoever is sent messages in order only is `Informed`, and remains so as he handles them,
edits, and loses the connection (`Informed.handle`, `Informed.edit`, `Informed.cut`).
-/

namespace SyncEngine

open ReplicatedList CausalReplay

/-- Everything stored up to the resume point is in the replica. -/
def ResumeSound (db : Database) (hook : CollaborativeDoc) : Prop :=
  ∀ row ∈ db.operations, row.seq ≤ hook.lastSeqRef →
    ∃ doc, hook.docRef = some doc ∧ Encodes doc.cells row.op

/-- Rows have been added, with greater seqs than any that there was. -/
structure Database.Extends (db' db : Database) : Prop where
  documentSeq_le : db.documentSeq ≤ db'.documentSeq
  new_row : ∀ row ∈ db'.operations, row ∈ db.operations ∨ db.documentSeq < row.seq

lemma Database.Extends.refl (db : Database) : db.Extends db :=
  ⟨le_rfl, fun _ hrow => Or.inl hrow⟩

lemma Database.Extends.trans {db₁ db₂ db₃ : Database} (h : db₂.Extends db₁)
    (h' : db₃.Extends db₂) : db₃.Extends db₁ where
  documentSeq_le := h.documentSeq_le.trans h'.documentSeq_le
  new_row row hrow := by
    rcases h'.new_row row hrow with hrow | hlt
    · exact h.new_row row hrow
    · exact Or.inr (Nat.lt_of_le_of_lt h.documentSeq_le hlt)

/-! ## What is on its way to a client -/

/-- The seq that the client takes note of; the greatest one of a JOIN_ACK. -/
def ServerMessage.toldSeq : ServerMessage → Nat
  | .joinAck ack => ack.missedOps.foldl (fun seq envelope => max seq envelope.seq) 0
  | .opAck _ serverSeq => serverSeq
  | .broadcast envelope => envelope.seq
  | .error _ => 0

/-- What a client is about to hold: nodes, and the operations that it is going to apply to them. -/
structure Outlook where
  cells : List (Cell UID JsValue)
  /-- Oldest first. -/
  waiting : List RGAOperation

namespace Outlook

/-- The operation has taken effect on the nodes, or is going to be applied. -/
def Has (o : Outlook) (op : RGAOperation) : Prop := Encodes o.cells op ∨ op ∈ o.waiting

/-- The node is there, or is going to be inserted. -/
def Shows (o : Outlook) (u : UID) : Prop :=
  u ∈ ids o.cells ∨ ∃ op ∈ o.waiting, op.inserted = some u

instance (o : Outlook) (op : RGAOperation) : Decidable (o.Has op) :=
  inferInstanceAs (Decidable (Encodes o.cells op ∨ op ∈ o.waiting))

instance (o : Outlook) (u : UID) : Decidable (o.Shows u) :=
  inferInstanceAs (Decidable (u ∈ ids o.cells ∨ ∃ op ∈ o.waiting, op.inserted = some u))

/-- What a JOIN_ACK brings. -/
def ofJoinAck (ack : JoinAckMessage) : Outlook :=
  ⟨ack.snapshot.nodes.map SerializedRGANode.cell, ack.missedOps.map OperationEnvelope.op⟩

/-- One more message is on its way. -/
def see (o : Option Outlook) : ServerMessage → Option Outlook
  | .joinAck ack => some (ofJoinAck ack)
  | .broadcast envelope => o.map fun o => { o with waiting := o.waiting ++ [envelope.op] }
  | .opAck .. | .error _ => o

end Outlook

namespace CollaborativeDoc

/-- The replica of a client with the messages that are on their way to it. -/
def outlook (s : CollaborativeDoc) (messages : List ServerMessage) : Option Outlook :=
  messages.foldl Outlook.see (s.docRef.map fun doc => ⟨doc.cells, []⟩)

/-- The greatest seq that it has been told or is about to be told. -/
def told (s : CollaborativeDoc) (messages : List ServerMessage) : Nat :=
  messages.foldl (fun seq message => max seq message.toldSeq) s.lastSeqRef

/-- A message does not run ahead of what the client is about to hold when it comes behind the
messages `ahead`. -/
def InOrder (s : CollaborativeDoc) (db : Database) (ahead : List ServerMessage) :
    ServerMessage → Prop
  | .joinAck ack => CausallyValid (ack.missedOps.map OperationEnvelope.op) ∧
      ∀ row ∈ db.operations, row.seq ≤ max (s.told ahead) (ServerMessage.joinAck ack).toldSeq →
        (Outlook.ofJoinAck ack).Has row.op
  | .opAck _ serverSeq => ∃ o ∈ s.outlook ahead,
      ∀ row ∈ db.operations, row.seq ≤ serverSeq → o.Has row.op
  | .broadcast envelope => ∃ o ∈ s.outlook ahead,
      (∀ row ∈ db.operations, row.seq < envelope.seq → o.Has row.op) ∧
        ∀ u ∈ envelope.op.prerequisite, o.Shows u
  | .error _ => True

instance (s : CollaborativeDoc) (db : Database) (ahead : List ServerMessage) :
    ∀ message, Decidable (s.InOrder db ahead message)
  | .joinAck ack => inferInstanceAs (Decidable (CausallyValid (ack.missedOps.map _) ∧
      ∀ row ∈ db.operations, row.seq ≤ max (s.told ahead) (ServerMessage.joinAck ack).toldSeq →
        (Outlook.ofJoinAck ack).Has row.op))
  | .opAck _ serverSeq => inferInstanceAs (Decidable (∃ o ∈ s.outlook ahead,
      ∀ row ∈ db.operations, row.seq ≤ serverSeq → o.Has row.op))
  | .broadcast envelope => inferInstanceAs (Decidable (∃ o ∈ s.outlook ahead,
      (∀ row ∈ db.operations, row.seq < envelope.seq → o.Has row.op) ∧
        ∀ u ∈ envelope.op.prerequisite, o.Shows u))
  | .error _ => isTrue trivial

/-! ## A client that handles its messages -/

variable {s s' : CollaborativeDoc} {db db' : Database} {m : ServerMessage}
  {messages rest : List ServerMessage}

/-- The hook after some messages. -/
def handleAll (s : CollaborativeDoc) (messages : List ServerMessage) : CollaborativeDoc :=
  messages.foldl (fun s message => (s.handleServerMessage message).1) s

lemma outlook_append (s : CollaborativeDoc) (messages : List ServerMessage) (m : ServerMessage) :
    s.outlook (messages ++ [m]) = Outlook.see (s.outlook messages) m := by
  rw [outlook, List.foldl_append]
  rfl

lemma handleAll_append (s : CollaborativeDoc) (messages : List ServerMessage) (m : ServerMessage) :
    s.handleAll (messages ++ [m]) = ((s.handleAll messages).handleServerMessage m).1 := by
  rw [handleAll, List.foldl_append]
  rfl

lemma foldl_max_seq (envelopes : List OperationEnvelope) (seq : Nat) :
    envelopes.foldl (fun seq envelope => max seq envelope.seq) seq =
      max seq (envelopes.foldl (fun seq envelope => max seq envelope.seq) 0) := by
  induction envelopes generalizing seq with
  | nil => simp
  | cons envelope envelopes ih =>
      rw [List.foldl_cons, List.foldl_cons, ih, ih (max 0 envelope.seq)]
      omega

lemma lastSeqRef_handle (s : CollaborativeDoc) (m : ServerMessage) :
    (s.handleServerMessage m).1.lastSeqRef = max s.lastSeqRef m.toldSeq := by
  cases m with
  | joinAck ack => exact foldl_max_seq ..
  | opAck clientSeq serverSeq => rfl
  | broadcast envelope =>
      rw [handleServerMessage, handleBroadcast]
      cases s.docRef <;> rfl
  | error error => simp [handleServerMessage, ServerMessage.toldSeq]

lemma lastSeqRef_handleAll (s : CollaborativeDoc) (messages : List ServerMessage) :
    (s.handleAll messages).lastSeqRef = s.told messages := by
  induction messages using List.reverseRecOn with
  | nil => rfl
  | append_singleton messages m ih =>
      rw [handleAll_append, lastSeqRef_handle, ih, told, told, List.foldl_append]
      rfl

lemma docRef_handleBroadcast (s : CollaborativeDoc) (envelope : OperationEnvelope) :
    (s.handleServerMessage (.broadcast envelope)).1.docRef =
      s.docRef.map fun doc => doc.applyOperation envelope.op := by
  rw [handleServerMessage, handleBroadcast]
  cases hdoc : s.docRef <;> simp

/-! ### What a client may hold -/

/-- No node of the replica is there twice. -/
def Unrepeated (s : CollaborativeDoc) : Prop := ∀ doc ∈ s.docRef, (ids doc.cells).Nodup

/-- The client can resume. -/
structure Resumable (db : Database) (s : CollaborativeDoc) : Prop where
  unrepeated : s.Unrepeated
  lastSeqRef_le : s.lastSeqRef ≤ db.documentSeq
  sound : ResumeSound db s

/-- The property holds, and it holds after each of the messages. -/
def Along (p : CollaborativeDoc → Prop) : CollaborativeDoc → List ServerMessage → Prop
  | s, [] => p s
  | s, m :: rest => p s ∧ Along p (s.handleServerMessage m).1 rest

lemma Along.now {p : CollaborativeDoc → Prop} (h : Along p s messages) : p s := by
  cases messages with
  | nil => exact h
  | cons m rest => exact h.1

lemma Along.finally {p : CollaborativeDoc → Prop} (h : Along p s messages) :
    p (s.handleAll messages) := by
  induction messages generalizing s with
  | nil => exact h
  | cons m rest ih => exact ih h.2

lemma Along.concat {p : CollaborativeDoc → Prop} (h : Along p s messages)
    (hm : p ((s.handleAll messages).handleServerMessage m).1) : Along p s (messages ++ [m]) := by
  induction messages generalizing s with
  | nil => exact ⟨h, hm⟩
  | cons m' rest ih => exact ⟨h.1, ih h.2 hm⟩

lemma Along.mono {p q : CollaborativeDoc → Prop} (h : Along p s messages)
    (hpq : ∀ s, p s → q s) : Along q s messages := by
  induction messages generalizing s with
  | nil => exact hpq s h
  | cons m rest ih => exact ⟨hpq s h.1, ih h.2⟩

/-- A message leaves the nodes of a replica apart that keeps them apart. -/
lemma Unrepeated.handle (h : s.Unrepeated)
    (hack : ∀ ack, m = .joinAck ack → (ids (Outlook.ofJoinAck ack).cells).Nodup) :
    (s.handleServerMessage m).1.Unrepeated := by
  cases m with
  | joinAck ack =>
      rintro doc hdoc
      obtain rfl := Option.some.inj hdoc
      refine List.foldlRecOn (motive := fun d => (ids (ClientRGADocument.cells d)).Nodup) _ _ ?_
        fun d hd op _ => ClientRGADocument.nodup_applyOperation hd op
      rw [ClientRGADocument.cells_deserialize]
      exact hack ack rfl
  | opAck clientSeq serverSeq => exact h
  | broadcast envelope =>
      intro doc hdoc
      rw [docRef_handleBroadcast] at hdoc
      obtain ⟨before, hbefore, rfl⟩ := Option.map_eq_some_iff.mp hdoc
      exact ClientRGADocument.nodup_applyOperation (h before hbefore) _
  | error error => exact h

/-! ### Replicas that have seen more -/

/-- The client `s'` has been told the same seqs as `s`, and its replica has seen at least as
much. -/
structure Trails (s s' : CollaborativeDoc) : Prop where
  lastSeqRef_eq : s'.lastSeqRef = s.lastSeqRef
  replica : (s.docRef = none ∧ s'.docRef = none) ∨
    ∃ doc doc', s.docRef = some doc ∧ s'.docRef = some doc' ∧ Behind doc.cells doc'.cells ∧
      (ids doc'.cells).Nodup

lemma Trails.of_eq (h : s.Unrepeated) (hlast : s'.lastSeqRef = s.lastSeqRef)
    (hdoc : s'.docRef = s.docRef) : Trails s s' := by
  refine ⟨hlast, ?_⟩
  cases hs : s.docRef with
  | none => exact Or.inl ⟨rfl, hdoc.trans hs⟩
  | some doc => exact Or.inr ⟨doc, doc, rfl, hdoc.trans hs, .refl _, h doc hs⟩

lemma trails_userEdit (h : s.Unrepeated) (e : UserEdit) : Trails s (s.userEdit e).1 := by
  obtain ⟨queued, hedited, -⟩ := s.edited_userEdit e
  rcases hedited.replica with ⟨hdoc, -⟩ | ⟨doc, doc', hdoc, hdoc', hedits⟩
  · exact .of_eq h hedited.lastSeqRef_eq hdoc
  · obtain ⟨hbehind, hnd⟩ := hedits.behind (h doc hdoc)
    exact ⟨hedited.lastSeqRef_eq, Or.inr ⟨doc, doc', hdoc, hdoc', hbehind, hnd⟩⟩

lemma Trails.handle (h : Trails s s') (hnd : s.Unrepeated)
    (hnext : (s.handleServerMessage m).1.Unrepeated) :
    Trails (s.handleServerMessage m).1 (s'.handleServerMessage m).1 := by
  have hlast : (s'.handleServerMessage m).1.lastSeqRef =
      (s.handleServerMessage m).1.lastSeqRef := by
    rw [lastSeqRef_handle, lastSeqRef_handle, h.lastSeqRef_eq]
  cases m with
  | joinAck ack => exact .of_eq hnext hlast rfl
  | opAck clientSeq serverSeq => exact ⟨hlast, h.replica⟩
  | error error => exact h
  | broadcast envelope =>
      refine ⟨hlast, ?_⟩
      rw [docRef_handleBroadcast, docRef_handleBroadcast]
      rcases h.replica with ⟨hdoc, hdoc'⟩ | ⟨doc, doc', hdoc, hdoc', hbehind, hnd'⟩
      · exact Or.inl ⟨by rw [hdoc]; rfl, by rw [hdoc']; rfl⟩
      · exact Or.inr ⟨_, _, by rw [hdoc]; rfl, by rw [hdoc']; rfl,
          ClientRGADocument.behind_applyOperation_both hbehind (hnd doc hdoc) hnd' _,
          ClientRGADocument.nodup_applyOperation hnd' _⟩

lemma Resumable.trails (h : Resumable db s) (ht : Trails s s') : Resumable db s' := by
  refine ⟨fun doc' hdoc' => ?_, ht.lastSeqRef_eq ▸ h.lastSeqRef_le, fun row hrow hle => ?_⟩
  · rcases ht.replica with ⟨-, hnone⟩ | ⟨-, doc, -, hsome, -, hnd⟩
    · simp [hnone] at hdoc'
    · obtain rfl := Option.some.inj (hsome.symm.trans hdoc')
      exact hnd
  · obtain ⟨doc, hdoc, hencodes⟩ := h.sound row hrow (ht.lastSeqRef_eq ▸ hle)
    rcases ht.replica with ⟨hnone, -⟩ | ⟨doc₀, doc', hdoc₀, hdoc', hbehind, -⟩
    · simp [hnone] at hdoc
    · obtain rfl := Option.some.inj (hdoc₀.symm.trans hdoc)
      exact ⟨doc', hdoc', fun e he => hbehind e (hencodes e he)⟩

lemma Along.trails (h : Along (Resumable db) s messages) (ht : Trails s s') :
    Along (Resumable db) s' messages ∧ Trails (s.handleAll messages) (s'.handleAll messages) := by
  induction messages generalizing s s' with
  | nil => exact ⟨Resumable.trails h ht, ht⟩
  | cons m rest ih =>
      obtain ⟨hrest, hfinal⟩ := ih h.2 (ht.handle h.1.unrepeated h.2.now.unrepeated)
      exact ⟨⟨h.1.trails ht, hrest⟩, hfinal⟩

/-! ### Operations that are waiting -/

lemma Along.of_append {p : CollaborativeDoc → Prop} (h : Along p s (messages ++ rest)) :
    Along p s messages := by
  induction messages generalizing s with
  | nil => exact Along.now h
  | cons m messages ih => exact ⟨h.1, ih h.2⟩

/-- What has been told to a client is sound as it handles its messages, and whatever is waiting is
going to take effect. -/
structure Informed (db : Database) (s : CollaborativeDoc) (messages : List ServerMessage) :
    Prop where
  along : Along (Resumable db) s messages
  apart : ∀ ack, .joinAck ack ∈ messages → (ids (Outlook.ofJoinAck ack).cells).Nodup
  waiting : ∀ o ∈ s.outlook messages, ∀ doc ∈ (s.handleAll messages).docRef,
    ∀ op ∈ o.waiting, Encodes doc.cells op

/-- The replica that a JOIN_ACK makes has all that it brings. -/
lemma encodes_ofJoinAck {ack : JoinAckMessage}
    (hnd : (ids (Outlook.ofJoinAck ack).cells).Nodup)
    (hcausal : CausallyValid (ack.missedOps.map OperationEnvelope.op))
    (hops : ∀ op ∈ ack.missedOps.map OperationEnvelope.op, op.IsEdit ∧ op.uid ≠ rootUID) :
    ∃ doc, (s.handleServerMessage (.joinAck ack)).1.docRef = some doc ∧
      (ids doc.cells).Nodup ∧ ∀ op, (Outlook.ofJoinAck ack).Has op → Encodes doc.cells op := by
  let doc := ClientRGADocument.deserialize ack.snapshot.nodes ack.siteId
  have hcells : doc.cells = (Outlook.ofJoinAck ack).cells :=
    ClientRGADocument.cells_deserialize ..
  have hmade := ClientRGADocument.cells_applyOperations (hcells ▸ hnd) hops
  refine ⟨doc.applyOperations (ack.missedOps.map OperationEnvelope.op), rfl, ?_, ?_⟩
  · rw [hmade, hcells]
    exact List.foldlRecOn (motive := fun l => (ids l).Nodup) _ _ hnd
      fun l hl e _ => nodup_ids_step hl e
  · intro op hop e he
    rw [hmade, hcells]
    rcases hop with hencodes | hmem
    · exact List.foldlRecOn (motive := fun l => Settled l e) _ _ (hencodes e he)
        fun l hl e' _ => settled_step e' hl
    · exact replayable.settled_of_causal _ (hcausal.edits fun op hop => (hops op hop).1) e
        (mem_edits.mpr ⟨op, hmem, he⟩)

lemma Informed.behind (h : Informed db s messages) :
    ∀ o ∈ s.outlook messages, ∃ doc, (s.handleAll messages).docRef = some doc ∧
      Behind o.cells doc.cells := by
  obtain ⟨halong, hapart, -⟩ := h
  induction messages using List.reverseRecOn with
  | nil =>
      intro o ho
      obtain ⟨doc, hdoc, rfl⟩ := Option.map_eq_some_iff.mp ho
      exact ⟨doc, hdoc, .refl _⟩
  | append_singleton messages m ih =>
      intro o ho
      have hbefore := halong.of_append
      rw [outlook_append] at ho
      rw [handleAll_append]
      have ih' := ih hbefore fun ack hack => hapart ack (List.mem_append_left _ hack)
      cases m with
      | joinAck ack =>
          obtain rfl := Option.some.inj ho
          have hnd := hapart ack (List.mem_append_right _ (List.mem_singleton_self _))
          refine ⟨_, rfl, ?_⟩
          have hcells := ClientRGADocument.cells_deserialize ack.snapshot.nodes ack.siteId 0
          refine List.foldlRecOn (motive := fun d => Behind _ (ClientRGADocument.cells d) ∧
            (ids (ClientRGADocument.cells d)).Nodup) _ _ ?_ (fun d hd op _ => ?_) |>.1
          · rw [hcells]
            exact ⟨.refl _, hnd⟩
          · exact ⟨hd.1.trans (ClientRGADocument.behind_applyOperation hd.2 op),
              ClientRGADocument.nodup_applyOperation hd.2 op⟩
      | opAck clientSeq serverSeq => exact ih' o ho
      | error error => exact ih' o ho
      | broadcast envelope =>
          obtain ⟨before, hbefore', rfl⟩ := Option.map_eq_some_iff.mp ho
          obtain ⟨doc, hdoc, hbehind⟩ := ih' before hbefore'
          refine ⟨doc.applyOperation envelope.op, by rw [docRef_handleBroadcast, hdoc]; rfl, ?_⟩
          exact hbehind.trans
            (ClientRGADocument.behind_applyOperation (hbefore.finally.unrepeated doc hdoc) _)

lemma Informed.holds (h : Informed db s messages) {o : Outlook} (ho : o ∈ s.outlook messages) :
    ∃ doc, (s.handleAll messages).docRef = some doc ∧ (ids doc.cells).Nodup ∧
      (∀ op, o.Has op → Encodes doc.cells op) ∧ ∀ u, o.Shows u → u ∈ ids doc.cells := by
  obtain ⟨doc, hdoc, hbehind⟩ := h.behind o ho
  refine ⟨doc, hdoc, h.along.finally.unrepeated doc hdoc, fun op hop => ?_, fun u hu => ?_⟩
  · exact hop.elim (fun hencodes e he => hbehind e (hencodes e he)) (h.waiting o ho doc hdoc op)
  · rcases hu with hu | ⟨op, hop, hinserted⟩
    · exact hbehind.ids_subset hu
    · cases op with
      | insert i =>
          obtain rfl := Option.some.inj hinserted
          exact encodes_insert.mp (h.waiting o ho doc hdoc _ hop)
      | delete _ => simp [RGAOperation.inserted] at hinserted
      | format _ => simp [RGAOperation.inserted] at hinserted
      | rollback _ => simp [RGAOperation.inserted] at hinserted

/-- An outlook is told by where it starts. -/
lemma foldl_see_subset {o o' : Option Outlook}
    (h : ∀ x' ∈ o', ∃ x ∈ o, x'.waiting ⊆ x.waiting) (messages : List ServerMessage) :
    ∀ x' ∈ messages.foldl Outlook.see o', ∃ x ∈ messages.foldl Outlook.see o,
      x'.waiting ⊆ x.waiting := by
  induction messages generalizing o o' with
  | nil => exact h
  | cons m messages ih =>
      refine ih ?_
      cases m with
      | joinAck ack => exact fun x' hx' => ⟨x', hx', List.Subset.refl _⟩
      | opAck clientSeq serverSeq => exact h
      | error error => exact h
      | broadcast envelope =>
          intro x' hx'
          obtain ⟨y', hy', rfl⟩ := Option.map_eq_some_iff.mp hx'
          obtain ⟨y, hy, hsub⟩ := h y' hy'
          refine ⟨_, Option.map_eq_some_iff.mpr ⟨y, hy, rfl⟩, fun op hop => ?_⟩
          exact List.mem_append.mpr ((List.mem_append.mp hop).imp (fun hop => hsub hop) id)

/-! ### What keeps a client informed -/

lemma informed_new (docId : JSString) (queue : OfflineQueue) (hempty : db.operations = []) :
    Informed db (new docId queue) [] where
  along := ⟨by simp [Unrepeated, new], Nat.zero_le _, by simp [ResumeSound, hempty]⟩
  apart := by simp
  waiting := by simp [outlook, new]

lemma Resumable.grow (h : Resumable db s) (hextends : db'.Extends db) : Resumable db' s where
  unrepeated := h.unrepeated
  lastSeqRef_le := h.lastSeqRef_le.trans hextends.documentSeq_le
  sound row hrow hle := by
    refine h.sound row ((hextends.new_row row hrow).resolve_right fun hlt => ?_) hle
    have := h.lastSeqRef_le
    omega

lemma Informed.grow (h : Informed db s messages) (hextends : db'.Extends db) :
    Informed db' s messages :=
  ⟨h.along.mono fun _ hs => hs.grow hextends, h.apart, h.waiting⟩

lemma Informed.cut (h : Informed db s messages) : Informed db s [] where
  along := h.along.now
  apart := by simp
  waiting o ho doc hdoc op hop := by
    obtain ⟨doc, -, rfl⟩ := Option.map_eq_some_iff.mp ho
    simp at hop

lemma Informed.edit (h : Informed db s messages) (e : UserEdit) :
    Informed db (s.userEdit e).1 messages := by
  have htrails := trails_userEdit h.along.now.unrepeated e
  obtain ⟨halong, hfinal⟩ := h.along.trails htrails
  refine ⟨halong, h.apart, fun o ho doc hdoc op hop => ?_⟩
  have hstart : ∀ x' ∈ (s.userEdit e).1.docRef.map fun doc => (⟨doc.cells, []⟩ : Outlook),
      ∃ x ∈ s.docRef.map fun doc => (⟨doc.cells, []⟩ : Outlook), x'.waiting ⊆ x.waiting := by
    intro x' hx'
    obtain ⟨doc', hdoc', rfl⟩ := Option.map_eq_some_iff.mp hx'
    rcases htrails.replica with ⟨-, hnone⟩ | ⟨doc, -, hdoc, -⟩
    · simp [hnone] at hdoc'
    · exact ⟨_, Option.map_eq_some_iff.mpr ⟨doc, hdoc, rfl⟩, List.Subset.refl _⟩
  obtain ⟨before, hbefore, hsub⟩ := foldl_see_subset hstart messages o ho
  rcases hfinal.replica with ⟨-, hnone⟩ | ⟨doc₀, doc', hdoc₀, hdoc', hbehind, -⟩
  · simp [hnone] at hdoc
  · obtain rfl := Option.some.inj (hdoc'.symm.trans hdoc)
    exact fun e' he' => hbehind e' (h.waiting before hbefore doc₀ hdoc₀ op (hsub hop) e' he')

lemma Informed.handle (h : Informed db s (m :: rest)) :
    Informed db (s.handleServerMessage m).1 rest := by
  refine ⟨h.along.2, fun ack hack => h.apart ack (List.mem_cons_of_mem _ hack),
    fun o ho doc hdoc op hop => ?_⟩
  have hstart : ∀ x' ∈ (s.handleServerMessage m).1.docRef.map
        fun doc => (⟨doc.cells, []⟩ : Outlook),
      ∃ x ∈ Outlook.see (s.docRef.map fun doc => ⟨doc.cells, []⟩) m,
        x'.waiting ⊆ x.waiting := by
    intro x' hx'
    obtain ⟨doc', hdoc', rfl⟩ := Option.map_eq_some_iff.mp hx'
    cases m with
    | joinAck ack => exact ⟨_, rfl, List.nil_subset _⟩
    | opAck clientSeq serverSeq =>
        exact ⟨_, Option.map_eq_some_iff.mpr ⟨doc', hdoc', rfl⟩, List.Subset.refl _⟩
    | error error =>
        exact ⟨_, Option.map_eq_some_iff.mpr ⟨doc', hdoc', rfl⟩, List.Subset.refl _⟩
    | broadcast envelope =>
        rw [docRef_handleBroadcast] at hdoc'
        obtain ⟨before, hbefore, -⟩ := Option.map_eq_some_iff.mp hdoc'
        exact ⟨⟨before.cells, [envelope.op]⟩, by rw [hbefore]; rfl, List.nil_subset _⟩
  obtain ⟨before, hbefore, hsub⟩ := foldl_see_subset hstart rest o ho
  exact h.waiting before hbefore doc hdoc op (hsub hop)

/-- What the log has to say for a message. -/
def Backs (db : Database) : ServerMessage → Prop
  | .joinAck ack => (ids (Outlook.ofJoinAck ack).cells).Nodup ∧
      ∀ row ∈ ack.missedOps, row ∈ db.operations
  | .opAck _ serverSeq => serverSeq ≤ db.documentSeq
  | .broadcast envelope => envelope ∈ db.operations
  | .error _ => True

lemma toldSeq_le (h : Backs db m) : m.toldSeq ≤ db.documentSeq := by
  cases m with
  | joinAck ack =>
      refine List.foldlRecOn (motive := (· ≤ db.documentSeq)) _ _ (Nat.zero_le _)
        fun seq hseq row hrow => ?_
      exact max_le hseq (db.operations_le row (h.2 row hrow))
  | opAck clientSeq serverSeq => exact h
  | broadcast envelope => exact db.operations_le _ h
  | error error => exact Nat.zero_le _

/-- Rows of operations that the schema lets through. -/
def EditsNodes (db : Database) : Prop :=
  ∀ row ∈ db.operations, row.op.IsEdit ∧ row.op.uid ≠ rootUID

/-- What holds once the message has been handled behind those that are on their way. -/
structure Lands (db : Database) (s : CollaborativeDoc) (messages : List ServerMessage)
    (m : ServerMessage) : Prop where
  resumable : Resumable db ((s.handleAll messages).handleServerMessage m).1
  waiting : ∀ o ∈ Outlook.see (s.outlook messages) m,
    ∀ doc ∈ ((s.handleAll messages).handleServerMessage m).1.docRef,
      ∀ op ∈ o.waiting, Encodes doc.cells op

lemma Informed.lastSeqRef_le (h : Informed db s messages) (hbacks : Backs db m) :
    ((s.handleAll messages).handleServerMessage m).1.lastSeqRef ≤ db.documentSeq := by
  rw [lastSeqRef_handle]
  exact max_le h.along.finally.lastSeqRef_le (toldSeq_le hbacks)

lemma Informed.opAck (h : Informed db s messages) {clientSeq serverSeq : Nat}
    (hbacks : Backs db (.opAck clientSeq serverSeq))
    (horder : s.InOrder db messages (.opAck clientSeq serverSeq)) :
    Lands db s messages (.opAck clientSeq serverSeq) := by
  have hbefore := h.along.finally
  refine ⟨⟨hbefore.unrepeated, h.lastSeqRef_le hbacks, fun row hrow hle => ?_⟩, h.waiting⟩
  rw [lastSeqRef_handle] at hle
  rcases le_max_iff.mp hle with hle | hle
  · exact hbefore.sound row hrow hle
  · obtain ⟨o, ho, hhas⟩ := horder
    obtain ⟨doc, hdoc, -, hholds, -⟩ := h.holds ho
    exact ⟨doc, hdoc, hholds _ (hhas row hrow hle)⟩

lemma Informed.joinAck (h : Informed db s messages) (hedits : EditsNodes db) {ack : JoinAckMessage}
    (hbacks : Backs db (.joinAck ack)) (horder : s.InOrder db messages (.joinAck ack)) :
    Lands db s messages (.joinAck ack) := by
  have hops : ∀ op ∈ ack.missedOps.map OperationEnvelope.op, op.IsEdit ∧ op.uid ≠ rootUID := by
    intro op hop
    obtain ⟨row, hrow, rfl⟩ := List.mem_map.mp hop
    exact hedits row (hbacks.2 row hrow)
  obtain ⟨doc, hdoc, hnd, hencodes⟩ :=
    encodes_ofJoinAck (s := s.handleAll messages) hbacks.1 horder.1 hops
  have hsame : ∀ doc' ∈ ((s.handleAll messages).handleServerMessage (.joinAck ack)).1.docRef,
      doc' = doc := fun doc' hdoc' => (Option.some.inj (hdoc.symm.trans hdoc')).symm
  refine ⟨⟨fun doc' hdoc' => hsame doc' hdoc' ▸ hnd, h.lastSeqRef_le hbacks,
    fun row hrow hle => ?_⟩, fun o ho doc' hdoc' op hop => ?_⟩
  · rw [lastSeqRef_handle, lastSeqRef_handleAll] at hle
    exact ⟨doc, hdoc, hencodes _ (horder.2 row hrow hle)⟩
  · obtain rfl := Option.some.inj ho
    exact hsame doc' hdoc' ▸ hencodes op (Or.inr hop)

lemma Informed.broadcast (h : Informed db s messages) (hedits : EditsNodes db)
    {envelope : OperationEnvelope} (hbacks : Backs db (.broadcast envelope))
    (horder : s.InOrder db messages (.broadcast envelope)) :
    Lands db s messages (.broadcast envelope) := by
  obtain ⟨o, ho, hhas, hshows⟩ := horder
  obtain ⟨doc, hdoc, hnd, hholds, hids⟩ := h.holds ho
  obtain ⟨hedit, hroot⟩ := hedits envelope hbacks
  obtain ⟨e, he⟩ := exists_edit hedit
  have hcells := ClientRGADocument.cells_applyOperation hnd hroot he
  have hafter : ((s.handleAll messages).handleServerMessage (.broadcast envelope)).1.docRef =
      some (doc.applyOperation envelope.op) := by
    rw [docRef_handleBroadcast, hdoc]
    rfl
  have hsame : ∀ doc' ∈ ((s.handleAll messages).handleServerMessage (.broadcast envelope)).1.docRef,
      doc' = doc.applyOperation envelope.op := fun doc' hdoc' =>
    (Option.some.inj (hafter.symm.trans hdoc')).symm
  -- what was encoded stays so, and the operation finds what it needs
  have hkept : ∀ op, Encodes doc.cells op → Encodes (doc.applyOperation envelope.op).cells op :=
    fun op hop e' he' => hcells ▸ settled_step e (hop e' he')
  have hself : Encodes (doc.applyOperation envelope.op).cells envelope.op := by
    refine (encodes_iff he).mpr (hcells ▸ settled_self fun u hu => ?_)
    exact hids u (hshows u (RGAOperation.needs_of_edit he hu))
  refine ⟨⟨fun doc' hdoc' => ?_, h.lastSeqRef_le hbacks, fun row hrow hle => ⟨_, hafter, ?_⟩⟩,
    fun o' ho' doc' hdoc' op hop => ?_⟩
  · exact hsame doc' hdoc' ▸ ClientRGADocument.nodup_applyOperation hnd _
  · rw [lastSeqRef_handle] at hle
    rcases le_max_iff.mp hle with hle | hle
    · obtain ⟨doc₀, hdoc₀, hencodes⟩ := h.along.finally.sound row hrow hle
      obtain rfl := Option.some.inj (hdoc.symm.trans hdoc₀)
      exact hkept _ hencodes
    · rcases Nat.lt_or_eq_of_le hle with hlt | heq
      · exact hkept _ (hholds _ (hhas row hrow hlt))
      · exact db.eq_of_seq_eq hrow hbacks heq ▸ hself
  · obtain ⟨before, hbefore, rfl⟩ := Option.map_eq_some_iff.mp ho'
    obtain rfl := Option.some.inj (Option.mem_def.mp ho ▸ hbefore)
    rw [hsame doc' hdoc']
    rcases List.mem_append.mp hop with hop | hop
    · exact hkept op (hholds op (Or.inr hop))
    · exact List.mem_singleton.mp hop ▸ hself

/-- **A message is sent** to a client that is told in order. -/
theorem Informed.send (h : Informed db s messages) (hedits : EditsNodes db)
    (hbacks : Backs db m) (horder : s.InOrder db messages m) : Informed db s (messages ++ [m]) := by
  have hlands : Lands db s messages m := by
    cases m with
    | joinAck ack => exact h.joinAck hedits hbacks horder
    | opAck clientSeq serverSeq => exact h.opAck hbacks horder
    | broadcast envelope => exact h.broadcast hedits hbacks horder
    | error error => exact ⟨h.along.finally, h.waiting⟩
  refine ⟨h.along.concat hlands.resumable, fun ack hack => ?_, ?_⟩
  · rcases List.mem_append.mp hack with hack | hack
    · exact h.apart ack hack
    · rw [← List.mem_singleton.mp hack] at hbacks
      exact hbacks.1
  · rw [outlook_append, handleAll_append]
    exact hlands.waiting

lemma InOrder.again {envelope : OperationEnvelope}
    (h : s.InOrder db messages (.broadcast envelope)) :
    s.InOrder db (messages ++ [.broadcast envelope]) (.broadcast envelope) := by
  obtain ⟨o, ho, hhas, hshows⟩ := h
  refine ⟨{ o with waiting := o.waiting ++ [envelope.op] }, ?_, fun row hrow hlt => ?_,
    fun u hu => ?_⟩
  · rw [outlook_append, Option.mem_def.mp ho]
    rfl
  · exact (hhas row hrow hlt).imp id fun hmem => List.mem_append_left _ hmem
  · refine (hshows u hu).imp id ?_
    rintro ⟨op, hop, hinserted⟩
    exact ⟨op, List.mem_append_left _ hop, hinserted⟩

lemma Informed.send_replicate (h : Informed db s messages) (hedits : EditsNodes db)
    {envelope : OperationEnvelope} (hmem : envelope ∈ db.operations)
    (horder : s.InOrder db messages (.broadcast envelope)) (n : Nat) :
    Informed db s (messages ++ List.replicate n (.broadcast envelope)) := by
  induction n generalizing messages with
  | zero => simpa using h
  | succ n ih =>
      rw [List.replicate_succ, List.append_cons]
      exact ih (h.send hedits hmem horder) horder.again

end CollaborativeDoc

end SyncEngine
