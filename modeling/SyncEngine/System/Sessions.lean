import SyncEngine.System.Moves

/-!
# What holds of every connection

A client has a view of the document: its replica, and the broadcasts that it will apply to it
(`Connection.view`).  Before the first JOIN_ACK is handled the replica is the one the message
carries.

`Connection.Regular` is what holds of a connection along every run, and `view_move` says how an
action changes the view: not at all, or in one of four ways.
-/

namespace SyncEngine

open ReplicatedList

/-! ## Views -/

/-- The envelope of a BROADCAST. -/
def ServerMessage.broadcast? : ServerMessage → Option OperationEnvelope
  | .broadcast envelope => some envelope
  | _ => none

/-- The envelopes of the BROADCASTs. -/
def broadcasts (messages : List ServerMessage) : List OperationEnvelope :=
  messages.filterMap ServerMessage.broadcast?

/-- A replica and the broadcasts that are on their way to it. -/
structure View where
  cells : List (Cell UID JsValue)
  waiting : List OperationEnvelope
deriving DecidableEq

namespace View

/-- Further messages are sent. -/
def send (v : View) (messages : List ServerMessage) : View :=
  { v with waiting := v.waiting ++ broadcasts messages }

end View

/-- The view of a client once it has handled the first JOIN_ACK it was sent. -/
def viewFrom : List ServerMessage → Option View
  | [] => none
  | .joinAck ack :: rest => some ⟨ack.snapshot.nodes.map SerializedRGANode.cell, broadcasts rest⟩
  | .opAck .. :: rest => viewFrom rest
  | .broadcast _ :: rest => viewFrom rest
  | .error _ :: rest => viewFrom rest

/-- What the client shows with all that is on its socket: its replica, or the one that the JOIN_ACK
on the socket makes. -/
def Connection.view (conn : Connection) : Option View :=
  match conn.hook.docRef with
  | some doc => some ⟨doc.cells, broadcasts conn.toClient⟩
  | none => viewFrom conn.toClient

lemma broadcasts_append (l m : List ServerMessage) :
    broadcasts (l ++ m) = broadcasts l ++ broadcasts m := List.filterMap_append ..

lemma broadcasts_replicate (k : Nat) (envelope : OperationEnvelope) :
    broadcasts (List.replicate k (.broadcast envelope)) = List.replicate k envelope := by
  exact List.filterMap_replicate_of_some rfl

lemma mem_broadcasts {messages : List ServerMessage} {envelope : OperationEnvelope} :
    envelope ∈ broadcasts messages ↔ .broadcast envelope ∈ messages := by
  rw [broadcasts, List.mem_filterMap]
  constructor
  · rintro ⟨message, hmem, hmessage⟩
    cases message with
    | broadcast _ => exact Option.some.inj hmessage ▸ hmem
    | _ => simp [ServerMessage.broadcast?] at hmessage
  · exact fun hmem => ⟨_, hmem, rfl⟩

lemma viewFrom_cons {message : ServerMessage} (h : message.isJoinAck = false)
    (rest : List ServerMessage) : viewFrom (message :: rest) = viewFrom rest := by
  cases message with
  | joinAck ack => simp [ServerMessage.isJoinAck] at h
  | _ => rfl

lemma viewFrom_eq_none {messages : List ServerMessage} :
    viewFrom messages = none ↔ messages.countP ServerMessage.isJoinAck = 0 := by
  induction messages with
  | nil => simp [viewFrom]
  | cons message rest ih =>
      cases message with
      | joinAck ack => simp [viewFrom, ServerMessage.isJoinAck]
      | _ => simpa [viewFrom, ServerMessage.isJoinAck, List.countP_cons] using ih

lemma viewFrom_append (l m : List ServerMessage) :
    viewFrom (l ++ m) = match viewFrom l with
      | some v => some (v.send m)
      | none => viewFrom m := by
  induction l with
  | nil => rfl
  | cons message rest ih =>
      cases message with
      | joinAck ack => simp [viewFrom, View.send, broadcasts_append]
      | _ => simpa [viewFrom] using ih

lemma Connection.view_of_docRef {conn : Connection} {doc : ClientRGADocument}
    (h : conn.hook.docRef = some doc) : conn.view = some ⟨doc.cells, broadcasts conn.toClient⟩ := by
  rw [Connection.view, h]

lemma Connection.view_of_none {conn : Connection} (h : conn.hook.docRef = none) :
    conn.view = viewFrom conn.toClient := by
  rw [Connection.view, h]

/-- What is sent, short of a JOIN_ACK, comes last in the view. -/
lemma Connection.view_send {conn : Connection} {messages : List ServerMessage}
    (h : messages.countP ServerMessage.isJoinAck = 0) :
    (conn.send messages).view = conn.view.map fun v => v.send messages := by
  cases hdoc : conn.hook.docRef with
  | some doc =>
      have hsent : (conn.send messages).hook.docRef = some doc := hdoc
      rw [view_of_docRef hdoc, view_of_docRef hsent]
      simp [Connection.send, View.send, broadcasts_append]
  | none =>
      have hsent : (conn.send messages).hook.docRef = none := hdoc
      rw [view_of_none hdoc, view_of_none hsent]
      simp only [Connection.send]
      rw [viewFrom_append]
      cases hview : viewFrom conn.toClient with
      | some v => rfl
      | none => simp [viewFrom_eq_none.mpr h]

/-! ## The hook -/

/-- An operation that the server takes from a site. -/
structure SentBy (siteId : JSString) (op : RGAOperation) : Prop where
  isEdit : op.IsEdit
  named_ne_root : ∀ u ∈ op.named, u ≠ rootUID
  siteId_eq : ∀ u, op.inserted = some u → u.siteId = siteId

/-- A local edit does nothing, or makes one operation and sends it. -/
lemma CollaborativeDoc.edit_cases (s : CollaborativeDoc) (e : LocalEdit)
    (h : ∀ doc, s.docRef = some doc → (ids doc.cells).Nodup ∧ rootUID ∉ ids doc.cells ∧
      doc.siteId ≠ rootUID.siteId) :
    ((s.edit e).1.docRef = s.docRef ∧ (s.edit e).1.queueRef = s.queueRef ∧ (s.edit e).2 = []) ∨
      ∃ doc doc' msg, s.docRef = some doc ∧ ClientRGADocument.Made doc msg.op doc' ∧
        (s.edit e).1.docRef = some doc' ∧ (s.edit e).2 = [msg] := by
  cases hdoc : s.docRef with
  | none =>
      refine Or.inl ?_
      cases e <;> simp [edit, localInsert, localDelete, hdoc]
  | some doc =>
      obtain ⟨hnd, hroot, hsite⟩ := h doc hdoc
      cases e with
      | insert index char nonce =>
          have hmade := doc.made_localInsert hsite index char
          refine Or.inr ⟨doc, (doc.localInsert index char).1,
            ⟨s.docId, s.clientSeqRef + 1, .insert (doc.localInsert index char).2, nonce⟩,
            rfl, hmade, ?_, ?_⟩ <;>
          simp [edit, localInsert, hdoc, enqueueAndSend, operationMessage]
      | delete index nonce =>
          cases hdelete : doc.localDelete index with
          | mk doc' op? =>
              cases op? with
              | none =>
                  refine Or.inl ?_
                  simp [edit, localDelete, hdoc, hdelete]
              | some op =>
                  have hmade := ClientRGADocument.made_localDelete hnd hroot hdelete
                  refine Or.inr ⟨doc, doc', ⟨s.docId, s.clientSeqRef + 1, .delete op, nonce⟩, rfl,
                    hmade, ?_, ?_⟩ <;>
                  simp [edit, localDelete, hdoc, hdelete, enqueueAndSend, operationMessage]

lemma validateOperation_of_sentBy {siteId : JSString} {msg : OperationMessage}
    (h : SentBy siteId msg.op) : ∃ valid, validateOperation msg = some valid :=
  ⟨_, dif_pos ⟨h.isEdit, h.named_ne_root⟩⟩

lemma ClientRGADocument.Made.sentBy {d d' : ClientRGADocument} {op : RGAOperation}
    {siteId : JSString} (h : Made d op d') (hroot : rootUID ∉ ids d.cells)
    (hsite : d.siteId = siteId) (hne : siteId ≠ rootUID.siteId) : SentBy siteId op where
  isEdit := h.isEdit
  named_ne_root := h.named_ne_root hroot (hsite ▸ hne)
  siteId_eq u hu := by rw [h.inserted_eq u hu, hsite]

/-! ## Connections -/

/-- What holds of a connection along every run. -/
structure Connection.Regular (siteId : JSString) (conn : Connection) : Prop where
  /-- There is one JOIN_ACK, which is sent when the session has joined and then handled. -/
  acks : conn.toClient.countP ServerMessage.isJoinAck + conn.hook.docRef.toList.length =
    if conn.join = .joined then 1 else 0
  ack_eq : ∀ ack, .joinAck ack ∈ conn.toClient → ack.missedOps = [] ∧ ack.siteId = siteId
  /-- Without a replica nothing is made. -/
  idle : conn.hook.docRef = none → conn.hook.queueRef = [] ∧ conn.toServer = [] ∧
    conn.messageQueue = [] ∧ conn.isProcessing = false
  siteId_eq : ∀ doc, conn.hook.docRef = some doc → doc.siteId = siteId
  indexed : ∀ v, conn.view = some v → (ids v.cells).Nodup ∧ rootUID ∉ ids v.cells
  broadcast_valid : ∀ envelope ∈ broadcasts conn.toClient,
    envelope.op.IsEdit ∧ envelope.op.uid ≠ rootUID

namespace Connection

variable {siteId : JSString} {conn : Connection}

lemma regular_start (docId : JSString) :
    Regular siteId ⟨CollaborativeDoc.new docId, [], .connecting, [], false, 0, []⟩ := by
  refine ⟨rfl, by simp, fun _ => ⟨rfl, rfl, rfl, rfl⟩, by simp [CollaborativeDoc.new], ?_, ?_⟩
  · simp [view, CollaborativeDoc.new, viewFrom]
  · simp [broadcasts]

lemma Regular.view_eq_none (h : Regular siteId conn) :
    conn.view = none ↔ conn.join ≠ .joined := by
  have hacks := h.acks
  cases hdoc : conn.hook.docRef with
  | some doc =>
      rw [hdoc] at hacks
      rw [view_of_docRef hdoc]
      split at hacks
      · simp [*]
      · simp at hacks
  | none =>
      rw [hdoc] at hacks
      rw [view_of_none hdoc, viewFrom_eq_none]
      split at hacks <;> simp_all

lemma Regular.noJoinAck (h : Regular siteId conn) {doc : ClientRGADocument}
    (hdoc : conn.hook.docRef = some doc) : conn.toClient.countP ServerMessage.isJoinAck = 0 := by
  have hacks := h.acks
  rw [hdoc] at hacks
  split at hacks <;> simp_all

lemma Regular.indexed_docRef (h : Regular siteId conn) {doc : ClientRGADocument}
    (hdoc : conn.hook.docRef = some doc) : (ids doc.cells).Nodup ∧ rootUID ∉ ids doc.cells :=
  h.indexed _ (view_of_docRef hdoc)

/-- Sending something other than a JOIN_ACK or an envelope that the schema refuses. -/
lemma Regular.send (h : Regular siteId conn) {messages : List ServerMessage}
    (hack : messages.countP ServerMessage.isJoinAck = 0)
    (hvalid : ∀ envelope ∈ broadcasts messages,
      envelope.op.IsEdit ∧ envelope.op.uid ≠ rootUID) : Regular siteId (conn.send messages) where
  acks := by
    rw [Connection.send, List.countP_append, hack]
    exact h.acks
  ack_eq ack hmem := by
    rcases List.mem_append.mp hmem with hmem | hmem
    · exact h.ack_eq ack hmem
    · exact absurd rfl (List.countP_eq_zero.mp hack _ hmem)
  idle := h.idle
  siteId_eq := h.siteId_eq
  indexed v hv := by
    rw [view_send hack] at hv
    obtain ⟨v₀, hv₀, rfl⟩ := Option.map_eq_some_iff.mp hv
    exact h.indexed v₀ hv₀
  broadcast_valid envelope hmem := by
    rw [Connection.send, broadcasts_append] at hmem
    exact (List.mem_append.mp hmem).elim (h.broadcast_valid envelope) (hvalid envelope)

/-- The view is that of the hook and of what is on its way to it. -/
lemma view_congr {conn conn' : Connection} (hhook : conn'.hook.docRef = conn.hook.docRef)
    (hclient : conn'.toClient = conn.toClient) : conn'.view = conn.view := by
  rw [view, view, hhook, hclient]

/-- What happens at the server's end of the socket. -/
lemma Regular.of_hook (h : Regular siteId conn) {conn' : Connection}
    (hhook : conn'.hook = conn.hook) (hclient : conn'.toClient = conn.toClient)
    (hjoin : (conn'.join = .joined) = (conn.join = .joined))
    (hidle : conn.hook.docRef = none → conn'.toServer = [] ∧ conn'.messageQueue = [] ∧
      conn'.isProcessing = false) : Regular siteId conn' where
  acks := by simpa only [hhook, hclient, hjoin] using h.acks
  ack_eq := hclient ▸ h.ack_eq
  idle hdoc := ⟨hhook ▸ (h.idle (hhook ▸ hdoc)).1, hidle (hhook ▸ hdoc)⟩
  siteId_eq := hhook ▸ h.siteId_eq
  indexed := by
    rw [view_congr (by rw [hhook]) hclient]
    exact h.indexed
  broadcast_valid := hclient ▸ h.broadcast_valid

/-- The JOIN_ACK, for a session that has not joined yet. -/
lemma Regular.acknowledge (h : Regular siteId conn) (hjoin : conn.join ≠ .joined)
    {ack : JoinAckMessage} (hmissed : ack.missedOps = []) (hsite : ack.siteId = siteId)
    (hnodup : (ids (ack.snapshot.nodes.map SerializedRGANode.cell)).Nodup)
    (hroot : rootUID ∉ ids (ack.snapshot.nodes.map SerializedRGANode.cell)) :
    conn.view = none ∧
      ({ conn with join := .joined }.send [.joinAck ack]).view =
        some ⟨ack.snapshot.nodes.map SerializedRGANode.cell, []⟩ ∧
      Regular siteId ({ conn with join := .joined }.send [.joinAck ack]) := by
  have hview := h.view_eq_none.mpr hjoin
  have hacks := h.acks
  rw [if_neg hjoin] at hacks
  have hdoc : conn.hook.docRef = none := by
    cases hdoc : conn.hook.docRef with
    | none => rfl
    | some doc => simp [hdoc] at hacks
  have hsent : ({ conn with join := .joined }.send [.joinAck ack]).view =
      some ⟨ack.snapshot.nodes.map SerializedRGANode.cell, []⟩ := by
    have hnone := view_of_none hdoc ▸ hview
    have hsent : ({ conn with join := .joined }.send [.joinAck ack]).hook.docRef = none := hdoc
    rw [view_of_none hsent]
    simp only [Connection.send, viewFrom_append, hnone]
    rfl
  refine ⟨hview, hsent, ⟨?_, ?_, h.idle, h.siteId_eq, ?_, ?_⟩⟩
  · simp only [Connection.send, List.countP_append, hdoc]
    have hnone := viewFrom_eq_none.mp (view_of_none hdoc ▸ hview)
    simp [hnone, ServerMessage.isJoinAck]
  · intro ack' hmem
    rcases List.mem_append.mp hmem with hmem | hmem
    · exact h.ack_eq ack' hmem
    · obtain rfl : ack' = ack := by simpa using hmem
      exact ⟨hmissed, hsite⟩
  · intro v hv
    obtain rfl := Option.some.inj (hsent.symm.trans hv)
    exact ⟨hnodup, hroot⟩
  · intro envelope hmem
    rw [Connection.send, broadcasts_append] at hmem
    refine (List.mem_append.mp hmem).elim (h.broadcast_valid envelope) fun hmem => ?_
    simp [broadcasts, ServerMessage.broadcast?] at hmem

/-- A local edit. -/
lemma Regular.edit (h : Regular siteId conn) (hsite : siteId ≠ rootUID.siteId) (e : LocalEdit) :
    Regular siteId (conn.runHook (conn.hook.edit e)) ∧
      ((conn.runHook (conn.hook.edit e)).view = conn.view ∧
          (conn.hook.edit e).1.docRef = conn.hook.docRef ∧ (conn.hook.edit e).2 = [] ∨
        ∃ doc doc' msg, ClientRGADocument.Made doc msg.op doc' ∧ SentBy siteId msg.op ∧
          conn.hook.docRef = some doc ∧ (conn.hook.edit e).1.docRef = some doc' ∧
          (conn.hook.edit e).2 = [msg]) := by
  have hdocs : ∀ doc, conn.hook.docRef = some doc → (ids doc.cells).Nodup ∧
      rootUID ∉ ids doc.cells ∧ doc.siteId ≠ rootUID.siteId := fun doc hdoc =>
    ⟨(h.indexed_docRef hdoc).1, (h.indexed_docRef hdoc).2, h.siteId_eq doc hdoc ▸ hsite⟩
  rcases conn.hook.edit_cases e hdocs with
    ⟨hdoc, hqueue, hnone⟩ | ⟨doc, doc', msg, hdoc, hmade, hdoc', hmsg⟩
  · have hview : (conn.runHook (conn.hook.edit e)).view = conn.view := view_congr hdoc rfl
    refine ⟨⟨?_, h.ack_eq, ?_, ?_, ?_, h.broadcast_valid⟩, Or.inl ⟨hview, hdoc, hnone⟩⟩
    · rw [runHook, hdoc]
      exact h.acks
    · intro hd
      obtain ⟨hq, hserver, hidle⟩ := h.idle (hdoc ▸ hd)
      refine ⟨hqueue.trans hq, ?_, hidle⟩
      rw [runHook, hserver, hnone, List.append_nil]
    · intro doc hd
      exact h.siteId_eq doc (hdoc ▸ hd)
    · rw [hview]
      exact h.indexed
  · obtain ⟨hnodup, hroot, hne⟩ := hdocs doc hdoc
    -- the client edits its replica, under its own site
    have hsent := hmade.sentBy hroot (h.siteId_eq doc hdoc) hsite
    have hrun : (conn.runHook (conn.hook.edit e)).hook.docRef = some doc' := hdoc'
    refine ⟨⟨?_, h.ack_eq, ?_, ?_, ?_, h.broadcast_valid⟩,
      Or.inr ⟨doc, doc', msg, hmade, hsent, hdoc, hdoc', hmsg⟩⟩
    · have hacks := h.acks
      rw [hdoc] at hacks
      rw [runHook, hdoc']
      exact hacks
    · intro hd
      rw [hrun] at hd
      simp at hd
    · intro d hd
      obtain rfl := Option.some.inj (hrun.symm.trans hd)
      exact hmade.siteId_eq.trans (h.siteId_eq doc hdoc)
    · intro v hv
      rw [view_of_docRef hrun] at hv
      obtain rfl := Option.some.inj hv
      obtain ⟨e', he'⟩ := exists_edit hmade.isEdit
      rw [hmade.cells_eq e' he']
      refine ⟨nodup_ids_step hnodup e', fun hmem => ?_⟩
      rcases mem_ids_step hmem with hmem | hgives
      · exact hroot hmem
      · rw [RGAOperation.gives_of_edit he'] at hgives
        exact hne ((congrArg UID.siteId (hmade.inserted_eq _ hgives)).symm.trans rfl)

/-- A publication comes out of Redis. -/
lemma Regular.broadcast (h : Regular siteId conn) (handlers : Nat) {envelope : OperationEnvelope}
    (hvalid : envelope.op.IsEdit ∧ envelope.op.uid ≠ rootUID) :
    Regular siteId (conn.broadcast handlers envelope) ∧
      (conn.broadcast handlers envelope).view = conn.view.map fun v =>
        { v with waiting := v.waiting ++ List.replicate handlers envelope } := by
  rw [Connection.broadcast]
  split
  · have hack : (List.replicate handlers (ServerMessage.broadcast envelope)).countP
        ServerMessage.isJoinAck = 0 := by
      simp [List.countP_replicate, ServerMessage.isJoinAck]
    refine ⟨h.send hack fun sent hmem => ?_, ?_⟩
    · rw [broadcasts_replicate] at hmem
      exact (List.eq_of_mem_replicate hmem).symm ▸ hvalid
    · rw [view_send hack]
      simp only [View.send, broadcasts_replicate]
  · rename_i hjoin
    have hnone : conn.view = none := h.view_eq_none.mpr fun hjoined => hjoin (by
      rw [hjoined]
      rfl)
    rw [hnone]
    exact ⟨h, rfl⟩

/-- A message that leaves the replica alone. -/
lemma Regular.pass (h : Regular siteId conn) {message : ServerMessage} {rest : List ServerMessage}
    (hclient : conn.toClient = message :: rest) (hack : message.isJoinAck = false)
    {hook : CollaborativeDoc} (hdoc : hook.docRef = conn.hook.docRef)
    (hqueue : conn.hook.queueRef = [] → hook.queueRef = [])
    (hwaiting : conn.hook.docRef ≠ none → broadcasts rest = broadcasts conn.toClient) :
    Regular siteId ({ conn with toClient := rest }.runHook (hook, [])) ∧
      ({ conn with toClient := rest }.runHook (hook, [])).view = conn.view := by
  have hview : ({ conn with toClient := rest }.runHook (hook, [])).view = conn.view := by
    cases hd : conn.hook.docRef with
    | some doc =>
        have hd' : ({ conn with toClient := rest }.runHook (hook, [])).hook.docRef = some doc :=
          hdoc.trans hd
        rw [view_of_docRef hd, view_of_docRef hd']
        simp [runHook, hwaiting (by simp [hd])]
    | none =>
        have hd' : ({ conn with toClient := rest }.runHook (hook, [])).hook.docRef = none :=
          hdoc.trans hd
        rw [view_of_none hd, view_of_none hd', hclient, viewFrom_cons hack]
        rfl
  have hsub : rest ⊆ conn.toClient := by
    rw [hclient]
    exact List.subset_cons_self ..
  refine ⟨⟨?_, fun ack hmem => h.ack_eq ack (hsub hmem), fun hd => ?_, ?_, ?_, ?_⟩, hview⟩
  · have hacks := h.acks
    rw [hclient, List.countP_cons, hack] at hacks
    simpa [runHook, hdoc] using hacks
  · obtain ⟨hq, hserver, hidle⟩ := h.idle (hdoc ▸ hd)
    refine ⟨hqueue hq, ?_, hidle⟩
    rw [runHook, hserver]
    rfl
  · intro doc hd
    exact h.siteId_eq doc (hdoc ▸ hd)
  · rw [hview]
    exact h.indexed
  · intro envelope hmem
    exact h.broadcast_valid envelope (mem_broadcasts.mpr (hsub (mem_broadcasts.mp hmem)))

/-- A broadcast that the replica applies. -/
lemma Regular.applyBroadcast (h : Regular siteId conn) {envelope : OperationEnvelope}
    {rest : List ServerMessage} (hclient : conn.toClient = .broadcast envelope :: rest)
    {doc : ClientRGADocument} (hdoc : conn.hook.docRef = some doc) {hook : CollaborativeDoc}
    (hhook : hook.docRef = some (doc.applyOperation envelope.op)) :
    Regular siteId ({ conn with toClient := rest }.runHook (hook, [])) ∧
      ∃ e, envelope.op.edit? = some e ∧
        (doc.applyOperation envelope.op).cells = e.step doc.cells := by
  have hmem : envelope ∈ broadcasts conn.toClient :=
    mem_broadcasts.mpr (hclient ▸ List.mem_cons_self ..)
  obtain ⟨hedit, hroot⟩ := h.broadcast_valid envelope hmem
  obtain ⟨hnodup, hindexed⟩ := h.indexed_docRef hdoc
  obtain ⟨e, he⟩ := exists_edit hedit
  have hcells := ClientRGADocument.cells_applyOperation hnodup hroot he
  have hrun : ({ conn with toClient := rest }.runHook (hook, [])).hook.docRef =
      some (doc.applyOperation envelope.op) := hhook
  refine ⟨⟨?_, fun ack hmem => h.ack_eq ack (hclient ▸ List.mem_cons_of_mem _ hmem), fun hd => ?_,
    fun d hd => ?_, fun v hv => ?_, fun sent hmem => ?_⟩, e, he, hcells⟩
  · have hacks := h.acks
    rw [hclient, hdoc, List.countP_cons] at hacks
    simpa [runHook, hhook, ServerMessage.isJoinAck] using hacks
  · rw [hrun] at hd
    simp at hd
  · obtain rfl := Option.some.inj (hrun.symm.trans hd)
    exact (doc.applyOperation_clock envelope.op).1.trans (h.siteId_eq doc hdoc)
  · rw [view_of_docRef hrun] at hv
    obtain rfl := Option.some.inj hv
    simp only [hcells]
    refine ⟨nodup_ids_step hnodup e, fun hmem => ?_⟩
    rcases mem_ids_step hmem with hmem | hgives
    · exact hindexed hmem
    · rw [RGAOperation.gives_of_edit he] at hgives
      exact hroot (RGAOperation.uid_of_inserted hgives)
  · refine h.broadcast_valid sent (mem_broadcasts.mpr ?_)
    exact hclient ▸ List.mem_cons_of_mem _ (mem_broadcasts.mp hmem)

lemma Regular.handleJoinAck (h : Regular siteId conn) {ack : JoinAckMessage}
    {rest : List ServerMessage} (hclient : conn.toClient = .joinAck ack :: rest) :
    Regular siteId ({ conn with toClient := rest }.runHook (conn.hook.handleJoinAck ack)) ∧
      (conn.hook.handleJoinAck ack).2 = [] ∧
      ({ conn with toClient := rest }.runHook (conn.hook.handleJoinAck ack)).view = conn.view := by
  have hack : .joinAck ack ∈ conn.toClient := hclient ▸ List.mem_cons_self ..
  obtain ⟨hmissed, hsite⟩ := h.ack_eq ack hack
  have hdoc : conn.hook.docRef = none := by
    cases hdoc : conn.hook.docRef with
    | none => rfl
    | some doc => exact absurd rfl (List.countP_eq_zero.mp (h.noJoinAck hdoc) _ hack)
  obtain ⟨hq, -, -⟩ := h.idle hdoc
  let doc := ClientRGADocument.deserialize ack.snapshot.nodes ack.siteId
  have hresult : conn.hook.handleJoinAck ack =
      ({ conn.hook with docRef := some doc, text := doc.toText }, []) := by
    simp [CollaborativeDoc.handleJoinAck, hmissed, hq, ClientRGADocument.applyOperations, doc]
  have hview : ({ conn with toClient := rest }.runHook (conn.hook.handleJoinAck ack)).view =
      conn.view := by
    rw [hresult, view_of_none hdoc, hclient, @view_of_docRef _ doc rfl,
      ClientRGADocument.cells_deserialize]
    rfl
  refine ⟨⟨?_, fun ack' hmem => h.ack_eq ack' (hclient ▸ List.mem_cons_of_mem _ hmem), ?_,
    ?_, hview.symm ▸ h.indexed, fun envelope hmem => ?_⟩, by rw [hresult], hview⟩
  · have hacks := h.acks
    rw [hclient, hdoc, List.countP_cons] at hacks
    simpa [runHook, hresult, ServerMessage.isJoinAck] using hacks
  · rw [hresult]
    nofun
  · intro d hd
    rw [hresult] at hd
    obtain rfl : doc = d := Option.some.inj hd
    exact hsite
  · refine h.broadcast_valid envelope (mem_broadcasts.mpr ?_)
    exact hclient ▸ List.mem_cons_of_mem _ (mem_broadcasts.mp hmem)

/-- **The client handles the next message**: its view stays as it is, or a waiting broadcast is
applied; in no case does it send anything. -/
lemma Regular.handle (h : Regular siteId conn) {message : ServerMessage}
    {rest : List ServerMessage} (hclient : conn.toClient = message :: rest) :
    Regular siteId ({ conn with toClient := rest }.runHook
        (conn.hook.handleServerMessage message)) ∧
      (conn.hook.handleServerMessage message).2 = [] ∧
      (({ conn with toClient := rest }.runHook (conn.hook.handleServerMessage message)).view =
            conn.view ∧
          (∀ doc, conn.hook.docRef = some doc →
            (conn.hook.handleServerMessage message).1.docRef = some doc) ∨
        ∃ doc envelope e, message = .broadcast envelope ∧ conn.hook.docRef = some doc ∧
          (conn.hook.handleServerMessage message).1.docRef =
            some (doc.applyOperation envelope.op) ∧
          envelope.op.edit? = some e ∧
          (doc.applyOperation envelope.op).cells = e.step doc.cells) := by
  cases message with
  | joinAck ack =>
      obtain ⟨hregular, hsent, hview⟩ := h.handleJoinAck hclient
      refine ⟨hregular, hsent, Or.inl ⟨hview, fun doc hdoc => ?_⟩⟩
      -- a client that has its replica is sent no second JOIN_ACK
      have hack := List.countP_eq_zero.mp (h.noJoinAck hdoc) (.joinAck ack)
      exact absurd rfl (hack (hclient ▸ List.mem_cons_self ..))
  | opAck clientSeq serverSeq =>
      have hdoc : (conn.hook.handleOpAck clientSeq serverSeq).docRef = conn.hook.docRef := rfl
      obtain ⟨hregular, hview⟩ := h.pass hclient rfl hdoc
        (fun hq => by simp [CollaborativeDoc.handleOpAck, OfflineQueue.acknowledge, hq])
        fun _ => hclient ▸ rfl
      exact ⟨hregular, rfl, Or.inl ⟨hview, fun _ hdoc => hdoc⟩⟩
  | error error =>
      have hdoc : conn.hook.docRef = conn.hook.docRef := rfl
      obtain ⟨hregular, hview⟩ := h.pass hclient rfl hdoc id
        fun _ => hclient ▸ rfl
      exact ⟨hregular, rfl, Or.inl ⟨hview, fun _ hdoc => hdoc⟩⟩
  | broadcast envelope =>
      cases hdoc : conn.hook.docRef with
      | none =>
          have hsame : (conn.hook.handleBroadcast envelope).docRef = conn.hook.docRef ∧
              (conn.hook.handleBroadcast envelope).queueRef = conn.hook.queueRef := by
            simp [CollaborativeDoc.handleBroadcast, hdoc]
          obtain ⟨hregular, hview⟩ := h.pass hclient rfl hsame.1 (fun hq => hsame.2.trans hq)
            fun hd => absurd hdoc hd
          exact ⟨hregular, rfl, Or.inl ⟨hview, fun _ hd => absurd hd (by simp)⟩⟩
      | some doc =>
          have hhook : (conn.hook.handleBroadcast envelope).docRef =
              some (doc.applyOperation envelope.op) := by
            simp [CollaborativeDoc.handleBroadcast, hdoc]
          obtain ⟨hregular, e, he, hcells⟩ := h.applyBroadcast hclient hdoc hhook
          exact ⟨hregular, rfl, Or.inr ⟨doc, envelope, e, rfl, rfl, hhook, he, hcells⟩⟩

end Connection

/-! ## How views change -/

namespace Collaboration

open WorkerPool

variable {W C : Type*} [DecidableEq W] [DecidableEq C] {P : Participants W C}
  {s s' : Collaboration W C} {a : Action W C} {c : C}

/-- What the pool has to offer: rows of valid messages, indexed documents, and publications of
stored rows only. -/
structure PoolRegular (pool : WorkerPool W (C × Nat)) : Prop where
  recorded : Recorded pool
  indexed : AllIndexed pool
  published : PublishesStored pool

omit [DecidableEq W] [DecidableEq C] in
lemma poolRegular_start (snapshotOpsThreshold : Nat) :
    PoolRegular (W := W) (C := C) (WorkerPool.start snapshotOpsThreshold) :=
  ⟨recorded_start _, allIndexed_start _, by simp [PublishesStored, WorkerPool.start]⟩

lemma PoolRegular.step (h : PoolRegular s.pool) (hstep : s.step P a = some s') :
    PoolRegular s'.pool := by
  rcases pool_step hstep with heq | ⟨b, hb, -⟩
  · exact heq ▸ h
  · exact ⟨h.recorded.step hb, h.indexed.step hb, h.published.step h.recorded hb⟩

omit [DecidableEq W] [DecidableEq C] in
lemma PoolRegular.channel_valid (h : PoolRegular s.pool) {envelope : OperationEnvelope}
    (hmem : envelope ∈ s.pool.channel) : envelope.op.IsEdit ∧ envelope.op.uid ≠ rootUID := by
  obtain ⟨msg, hmsg⟩ := h.recorded.exists_msg (h.published hmem)
  rw [hmsg]
  exact ⟨msg.isEdit, msg.uid_ne_root⟩

omit [DecidableEq W] [DecidableEq C] in
/-- The nodes a client is told with its JOIN_ACK. -/
lemma joinAckFor_spec (s : Collaboration W C) (c : C) (loaded : Loaded) :
    (s.joinAckFor P c loaded).missedOps = [] ∧
      (s.joinAckFor P c loaded).siteId = P.siteId c ∧
      (s.joinAckFor P c loaded).snapshot.nodes.map SerializedRGANode.cell =
        loaded.entry.doc.cells := by
  refine ⟨by simp [joinAckFor, joinAck, missedReply, Participants.joinMessage,
    CollaborativeDoc.joinMessage, CollaborativeDoc.new], rfl, ?_⟩
  simp [joinAckFor, joinAck, missedReply, Participants.joinMessage, CollaborativeDoc.joinMessage,
    CollaborativeDoc.new, RGADocument.cells_serialize]

/-- The ways a view can change, and the operations its client makes meanwhile. -/
inductive ViewMove (P : Participants W C) (s s' : Collaboration W C) (c : C) :
    Action W C → List RGAOperation → Prop
  | same {a : Action W C} (h : (s'.connections c).view = (s.connections c).view)
      (hrest : ∀ doc, (s.connections c).hook.docRef = some doc →
        (s'.connections c).hook.docRef = some doc ∧
          s'.pool.delivered (P.home c) = s.pool.delivered (P.home c)) : ViewMove P s s' c a []
  /-- The JOIN_ACK is sent. -/
  | acknowledged (n : Nat) (loaded : Loaded) (hjoin : (s.connections c).join = .registered n)
      (hloaded : s.pool.loaded (P.home c) n = some loaded)
      (hbefore : (s.connections c).view = none)
      (h : (s'.connections c).view = some ⟨loaded.entry.doc.cells, []⟩) :
      ViewMove P s s' c (.acknowledge c) []
  /-- The client makes an operation. -/
  | made (edit : LocalEdit) (doc doc' : ClientRGADocument) (op : RGAOperation)
      (waiting : List OperationEnvelope) (hmade : ClientRGADocument.Made doc op doc')
      (hdoc : (s.connections c).hook.docRef = some doc)
      (hdoc' : (s'.connections c).hook.docRef = some doc')
      (hbefore : (s.connections c).view = some ⟨doc.cells, waiting⟩)
      (h : (s'.connections c).view = some ⟨doc'.cells, waiting⟩)
      (hdelivered : s'.pool.delivered (P.home c) = s.pool.delivered (P.home c)) :
      ViewMove P s s' c (.edit c edit) [op]
  /-- A publication arrives. -/
  | arrived (v : View) (envelope : OperationEnvelope)
      (hnext : s.pool.channel[s.pool.delivered (P.home c)]? = some envelope)
      (hdoc : (s'.connections c).hook.docRef = (s.connections c).hook.docRef)
      (hbefore : (s.connections c).view = some v)
      (h : (s'.connections c).view = some { v with
        waiting := v.waiting ++ List.replicate (s.opHandlers (P.home c)) envelope })
      (hdelivered : s'.pool.delivered (P.home c) = s.pool.delivered (P.home c) + 1) :
      ViewMove P s s' c (.deliver (P.home c)) []
  /-- The client applies the first waiting broadcast. -/
  | applied (doc : ClientRGADocument) (envelope : OperationEnvelope)
      (waiting : List OperationEnvelope) (e : Edit UID JsValue) (he : envelope.op.edit? = some e)
      (hcells : (doc.applyOperation envelope.op).cells = e.step doc.cells)
      (hdoc : (s.connections c).hook.docRef = some doc)
      (hdoc' : (s'.connections c).hook.docRef = some (doc.applyOperation envelope.op))
      (hbefore : (s.connections c).view = some ⟨doc.cells, envelope :: waiting⟩)
      (h : (s'.connections c).view = some ⟨e.step doc.cells, waiting⟩)
      (hdelivered : s'.pool.delivered (P.home c) = s.pool.delivered (P.home c)) :
      ViewMove P s s' c (.handle c) []

/-! ## How sessions move -/

/-- The call a session is in. -/
def inProcess (s : Collaboration W C) (c : C) : Option (OperationCall W) :=
  if (s.connections c).isProcessing then s.pool.calls (s.callInProcess c) else none

/-- The operations a client has sent and its session has not taken up, oldest first. -/
def queued (s : Collaboration W C) (c : C) : List RGAOperation :=
  (s.connections c).messageQueue.map (fun msg => msg.op) ++
    (s.connections c).toServer.map OperationMessage.op

/-- What becomes of the operations a client has sent, and of the ones it makes. -/
inductive SessionMove (P : Participants W C) (s s' : Collaboration W C) (c : C) :
    Action W C → List RGAOperation → Prop
  | queue {a : Action W C} (made : List RGAOperation)
      (hlog : SameLog s.pool s'.pool ∨ ∃ c₀, c₀ ≠ c ∧ a = .advance c₀)
      (hprocess : s'.inProcess c = s.inProcess c) (hqueued : s'.queued c = s.queued c ++ made) :
      SessionMove P s s' c a made
  | begin (msg : ValidatedOperationMessage) (hlog : SameLog s.pool s'.pool)
      (hbefore : s.inProcess c = none)
      (hprocess : s'.inProcess c = some ⟨P.home c, P.session c, msg, .rateLimit⟩)
      (hqueued : s.queued c = msg.op :: s'.queued c) : SessionMove P s s' c (.process c) []
  | advance (call : OperationCall W) (stage : CallStage) (hbefore : s.inProcess c = some call)
      (hprocess : s'.inProcess c = some { call with stage := stage })
      (hprogress : Progress s.pool s'.pool call call.stage stage)
      (hqueued : s'.queued c = s.queued c) : SessionMove P s s' c (.advance c) []
  | reply (call : OperationCall W) (message : ServerMessage) (hlog : SameLog s.pool s'.pool)
      (hbefore : s.inProcess c = some call) (hreply : replyTo call = some message)
      (hprocess : s'.inProcess c = none) (hqueued : s'.queued c = s.queued c) :
      SessionMove P s s' c (.reply c) []

omit [DecidableEq W] in
lemma replyTo_spec {call : OperationCall W} {message : ServerMessage}
    (h : replyTo call = some message) :
    [message].countP ServerMessage.isJoinAck = 0 ∧ broadcasts [message] = [] := by
  rw [replyTo] at h
  split at h
  · obtain rfl := Option.some.inj h
    exact ⟨rfl, rfl⟩
  · obtain rfl := Option.some.inj h
    exact ⟨rfl, rfl⟩
  · simp at h

omit [DecidableEq W] [DecidableEq C] in
/-- The session and the socket to it stay as they are. -/
lemma SessionMove.rest (hlog : SameLog s.pool s'.pool ∨ ∃ c₀, c₀ ≠ c ∧ a = .advance c₀)
    (hcalls : ∀ m, s'.pool.calls (c, m) = s.pool.calls (c, m))
    (hserver : (s'.connections c).toServer = (s.connections c).toServer)
    (hqueue : (s'.connections c).messageQueue = (s.connections c).messageQueue)
    (hprocessing : (s'.connections c).isProcessing = (s.connections c).isProcessing)
    (hprocessed : (s'.connections c).processed = (s.connections c).processed) :
    SessionMove P s s' c a [] := by
  refine .queue [] hlog ?_ ?_
  · rw [inProcess, inProcess, callInProcess, callInProcess, hprocessing, hprocessed, hcalls]
  · rw [queued, queued, hqueue, hserver, List.append_nil]

omit [DecidableEq W] [DecidableEq C] in
lemma SessionMove.queued_subset {made : List RGAOperation} (h : SessionMove P s s' c a made) :
    ∀ op ∈ s'.queued c, op ∈ s.queued c ∨ op ∈ made := by
  intro op hop
  cases h with
  | queue _ _ _ hqueued =>
      rw [hqueued] at hop
      exact List.mem_append.mp hop
  | begin _ _ _ _ hqueued => exact Or.inl (hqueued ▸ List.mem_cons_of_mem _ hop)
  | advance _ _ _ _ _ hqueued => exact Or.inl (hqueued ▸ hop)
  | reply _ _ _ _ _ _ hqueued => exact Or.inl (hqueued ▸ hop)

/-- What an action means for a client, its view and its session. -/
def ClientMove (P : Participants W C) (s s' : Collaboration W C) (c : C) (a : Action W C) : Prop :=
  (s'.connections c).Regular (P.siteId c) ∧
    ∃ made, ViewMove P s s' c a made ∧ SessionMove P s s' c a made ∧
      ∀ op ∈ made, SentBy (P.siteId c) op

section

omit [DecidableEq W] [DecidableEq C]

/-- The JOIN_ACK brings the nodes of the loaded document. -/
lemma clientMove_acknowledge {n : Nat} {loaded : Loaded} (hpool : PoolRegular s.pool)
    (hconn : (s.connections c).Regular (P.siteId c)) (haside : Aside P s s' c)
    (hlog : SameLog s.pool s'.pool) (hbefore : (s.connections c).join = .registered n)
    (hloaded : s.pool.loaded (P.home c) n = some loaded)
    (h : s'.connections c =
      { s.connections c with join := .joined }.send [.joinAck (s.joinAckFor P c loaded)]) :
    ClientMove P s s' c (.acknowledge c) := by
  obtain ⟨hmissed, hsite, hcells⟩ := joinAckFor_spec (P := P) s c loaded
  have hindexed := hpool.indexed.entries _ n loaded hloaded
  obtain ⟨hnone, hview, hregular⟩ := hconn.acknowledge (by simp [hbefore]) hmissed hsite
    (hcells ▸ hindexed.nodup) (hcells ▸ hindexed.root_notMem)
  rw [← h, hcells] at hview
  refine ⟨h ▸ hregular, [], .acknowledged n loaded hbefore hloaded hnone hview,
    .rest (Or.inl hlog) haside.calls_eq ?_ ?_ ?_ ?_, by simp⟩ <;> rw [h] <;> rfl

/-- An edit of the hook makes one operation, or none. -/
lemma clientMove_edit {e : LocalEdit} (hconn : (s.connections c).Regular (P.siteId c))
    (haside : Aside P s s' c) (hlog : SameLog s.pool s'.pool)
    (h : s'.connections c = (s.connections c).runHook ((s.connections c).hook.edit e)) :
    ClientMove P s s' c (.edit c e) := by
  obtain ⟨hregular, hcases⟩ := hconn.edit (P.siteId_ne_root c) e
  rcases hcases with ⟨hview, hsame, hnone⟩ | ⟨doc, doc', msg, hmade, hby, hdoc, hdoc', hmsg⟩
  · refine ⟨h ▸ hregular, [], .same (h ▸ hview) fun doc hdoc => ⟨?_, haside.delivered_eq⟩,
      .rest (Or.inl hlog) haside.calls_eq ?_ (by rw [h]; rfl) (by rw [h]; rfl)
      (by rw [h]; rfl), by simp⟩
    · rw [h]
      exact hsame.trans hdoc
    · rw [h, Connection.runHook, hnone, List.append_nil]
  · refine ⟨h ▸ hregular, [msg.op], ?_, .queue [msg.op] (Or.inl hlog) ?_ ?_, ?_⟩
    · refine .made e doc doc' msg.op _ hmade hdoc (h ▸ hdoc') (Connection.view_of_docRef hdoc)
        ?_ haside.delivered_eq
      rw [h]
      exact Connection.view_of_docRef hdoc'
    · rw [inProcess, inProcess, callInProcess, callInProcess, haside.calls_eq, h]
      rfl
    · rw [queued, queued, h, Connection.runHook, hmsg]
      simp
    · intro op hop
      exact List.mem_singleton.mp hop ▸ hby

/-- The server queues the next message. -/
lemma clientMove_receive {msg : OperationMessage} {rest : List OperationMessage}
    {valid : ValidatedOperationMessage} (hconn : (s.connections c).Regular (P.siteId c))
    (haside : Aside P s s' c) (hlog : SameLog s.pool s'.pool)
    (hserver : (s.connections c).toServer = msg :: rest)
    (hvalid : validateOperation msg = some valid)
    (h : s'.connections c = { s.connections c with
      toServer := rest, messageQueue := (s.connections c).messageQueue ++ [valid] }) :
    ClientMove P s s' c (.receive c) := by
  refine ⟨?_, [], .same (by rw [h]; exact Connection.view_congr rfl rfl) fun doc hdoc =>
    ⟨by rw [h]; exact hdoc, haside.delivered_eq⟩, .queue [] (Or.inl hlog) ?_ ?_, by simp⟩
  · rw [h]
    refine hconn.of_hook rfl rfl rfl fun hdoc => ?_
    have hempty := (hconn.idle hdoc).2.1
    simp [hserver] at hempty
  · rw [inProcess, inProcess, callInProcess, callInProcess, haside.calls_eq, h]
  · rw [queued, queued, h, hserver]
    simp [op_of_validateOperation hvalid]

/-- The session takes up the next message. -/
lemma clientMove_begin {msg : ValidatedOperationMessage} {rest : List ValidatedOperationMessage}
    (hconn : (s.connections c).Regular (P.siteId c))
    (hidle : (s.connections c).isProcessing = false)
    (hqueue : (s.connections c).messageQueue = msg :: rest)
    (hcalls : ∀ m, s'.pool.calls (c, m) = if m = (s.connections c).processed then
      some ⟨P.home c, P.session c, msg, .rateLimit⟩ else s.pool.calls (c, m))
    (hdelivered : s'.pool.delivered = s.pool.delivered) (hlog : SameLog s.pool s'.pool)
    (h : s'.connections c = { s.connections c with messageQueue := rest, isProcessing := true }) :
    ClientMove P s s' c (.process c) := by
  refine ⟨?_, [], .same (by rw [h]; exact Connection.view_congr rfl rfl) fun doc hdoc =>
    ⟨by rw [h]; exact hdoc, by rw [hdelivered]⟩, .begin msg hlog ?_ ?_ ?_, by simp⟩
  · rw [h]
    refine hconn.of_hook rfl rfl rfl fun hdoc => ?_
    have hempty := (hconn.idle hdoc).2.2.1
    simp [hqueue] at hempty
  · rw [inProcess, hidle]
    rfl
  · rw [inProcess, callInProcess, h, hcalls]
    simp
  · rw [queued, queued, h, hqueue]
    simp

/-- The reply ends the call. -/
lemma clientMove_reply {call : OperationCall W} {message : ServerMessage}
    (hconn : (s.connections c).Regular (P.siteId c)) (haside : Aside P s s' c)
    (hlog : SameLog s.pool s'.pool) (hprocessing : (s.connections c).isProcessing = true)
    (hcall : s.pool.calls (s.callInProcess c) = some call) (hreply : replyTo call = some message)
    (h : s'.connections c = { s.connections c with
      isProcessing := false, processed := (s.connections c).processed + 1 }.send [message]) :
    ClientMove P s s' c (.reply c) := by
  obtain ⟨hack, hnone⟩ := replyTo_spec hreply
  refine ⟨?_, [], .same ?_ fun doc hdoc => ⟨by rw [h]; exact hdoc, haside.delivered_eq⟩,
    .reply call message hlog ?_ hreply ?_ ?_, by simp⟩
  · rw [h]
    have hreplied : Connection.Regular (P.siteId c) { s.connections c with
        isProcessing := false, processed := (s.connections c).processed + 1 } := by
      refine hconn.of_hook rfl rfl rfl fun hdoc => ?_
      have hidle := (hconn.idle hdoc).2.2.2
      simp [hprocessing] at hidle
    exact hreplied.send hack (by simp [hnone])
  · rw [h, Connection.view_send hack]
    simp only [View.send, hnone, List.append_nil]
    exact Option.map_id'.trans (Connection.view_congr rfl rfl)
  · rw [inProcess, if_pos hprocessing, hcall]
  · rw [inProcess, h]
    rfl
  · rw [queued, queued, h]
    rfl

/-- A publication is broadcast to the client. -/
lemma clientMove_broadcast {envelope : OperationEnvelope} (hpool : PoolRegular s.pool)
    (hconn : (s.connections c).Regular (P.siteId c))
    (hnext : s.pool.channel[s.pool.delivered (P.home c)]? = some envelope)
    (hcalls : ∀ m, s'.pool.calls (c, m) = s.pool.calls (c, m))
    (hdelivered : s'.pool.delivered (P.home c) = s.pool.delivered (P.home c) + 1)
    (hlog : SameLog s.pool s'.pool)
    (h : s'.connections c = (s.connections c).broadcast (s.opHandlers (P.home c)) envelope) :
    ClientMove P s s' c (.deliver (P.home c)) := by
  have hmem := List.mem_of_getElem? hnext
  obtain ⟨hregular, hview⟩ :=
    hconn.broadcast (s.opHandlers (P.home c)) (hpool.channel_valid hmem)
  rw [← h] at hregular hview
  have hsession : SessionMove P s s' c (.deliver (P.home c)) [] := by
    refine .rest (Or.inl hlog) hcalls ?_ ?_ ?_ ?_ <;>
    · rw [h, Connection.broadcast]
      split <;> rfl
  cases hv : (s.connections c).view with
  | none =>
      rw [hv] at hview
      refine ⟨hregular, [], .same (hview.trans hv.symm) fun doc hdoc => ?_, hsession, by simp⟩
      simp [Connection.view_of_docRef hdoc] at hv
  | some v =>
      rw [hv] at hview
      refine ⟨hregular, [], .arrived v envelope hnext ?_ hv hview hdelivered, hsession, by simp⟩
      rw [h, Connection.broadcast]
      split <;> rfl

/-- The client handles a message, which sends nothing. -/
lemma clientMove_handle {message : ServerMessage} {rest : List ServerMessage}
    (hconn : (s.connections c).Regular (P.siteId c)) (haside : Aside P s s' c)
    (hlog : SameLog s.pool s'.pool) (hclient : (s.connections c).toClient = message :: rest)
    (h : s'.connections c = { s.connections c with toClient := rest }.runHook
      ((s.connections c).hook.handleServerMessage message)) :
    ClientMove P s s' c (.handle c) := by
  obtain ⟨hregular, hsends, hview⟩ := hconn.handle hclient
  have hsession : SessionMove P s s' c (.handle c) [] := by
    refine .rest (Or.inl hlog) haside.calls_eq ?_ ?_ ?_ ?_
    · rw [h, Connection.runHook, hsends, List.append_nil]
    all_goals
      rw [h]
      rfl
  refine ⟨h ▸ hregular, [], ?_, hsession, by simp⟩
  rcases hview with ⟨hview, hsame⟩ | ⟨doc, envelope, e, rfl, hdoc, hdoc', he, hcells⟩
  · refine .same (h ▸ hview) fun doc hdoc => ⟨?_, haside.delivered_eq⟩
    rw [h]
    exact hsame doc hdoc
  · refine .applied doc envelope (broadcasts rest) e he hcells hdoc (h ▸ hdoc') ?_ ?_
      haside.delivered_eq
    · rw [Connection.view_of_docRef hdoc, hclient]
      rfl
    · rw [h, Connection.view_of_docRef hdoc', hcells]
      rfl

/-- **What an action means for a client**, its view and its session. -/
theorem client_move (hpool : PoolRegular s.pool) (hconn : (s.connections c).Regular (P.siteId c))
    (hsent : ∀ op ∈ s.queued c, SentBy (P.siteId c) op) (hmove : Move P s s' c a) :
    ClientMove P s s' c a := by
  cases hmove with
  | away haside hlog h =>
      exact ⟨h ▸ hconn, [],
        .same (by rw [h]) fun doc hdoc => ⟨by rw [h, hdoc], haside.delivered_eq⟩,
        .rest hlog haside.calls_eq (by rw [h]) (by rw [h]) (by rw [h]) (by rw [h]), by simp⟩
  | joining stage haside hlog hbefore hstage h =>
      refine ⟨?_, [], .same ?_ fun doc hdoc => ⟨by rw [h]; exact hdoc, haside.delivered_eq⟩,
        .rest (Or.inl hlog) haside.calls_eq (by rw [h]) (by rw [h]) (by rw [h]) (by rw [h]),
        by simp⟩
      · rw [h]
        exact hconn.of_hook rfl rfl (by simp [hbefore, hstage]) fun hdoc => (hconn.idle hdoc).2
      · rw [h]
        exact Connection.view_congr rfl rfl
  | acknowledge n loaded haside hlog hbefore hloaded h =>
      exact clientMove_acknowledge hpool hconn haside hlog hbefore hloaded h
  | edit e haside hlog h => exact clientMove_edit hconn haside hlog h
  | receive msg rest valid haside hlog hserver hvalid h =>
      exact clientMove_receive hconn haside hlog hserver hvalid h
  | reject msg rest haside hlog hserver hvalid h =>
      -- what the client has sent passes the schema
      have hmem : msg.op ∈ s.queued c := by
        rw [queued, hserver]
        simp
      obtain ⟨valid, hsome⟩ := validateOperation_of_sentBy (hsent _ hmem)
      simp [hsome] at hvalid
  | begin msg rest hidle hqueue hcalls hdelivered hlog h =>
      exact clientMove_begin hconn hidle hqueue hcalls hdelivered hlog h
  | advance call stage hprocessing hcall hcalls hdelivered hprogress h =>
      refine ⟨h ▸ hconn, [],
        .same (by rw [h]) fun doc hdoc => ⟨by rw [h, hdoc], by rw [hdelivered]⟩,
        .advance call stage ?_ ?_ hprogress ?_, by simp⟩
      · rw [inProcess, if_pos hprocessing, hcall]
      · rw [inProcess, callInProcess, h, if_pos hprocessing, hcalls, if_pos rfl]
      · rw [queued, queued, h]
  | reply call message haside hlog hprocessing hcall hreply h =>
      exact clientMove_reply hconn haside hlog hprocessing hcall hreply h
  | broadcast envelope hnext hcalls hdelivered hlog h =>
      exact clientMove_broadcast hpool hconn hnext hcalls hdelivered hlog h
  | handle message rest haside hlog hclient h =>
      exact clientMove_handle hconn haside hlog hclient h

end

end Collaboration

end SyncEngine
