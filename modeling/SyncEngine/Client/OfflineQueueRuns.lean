import SyncEngine.Client.CollaborativeDoc
import SyncEngine.Lib.Transition

/-!
# The offline queue of a tab

One tab along a run of edits, connections and reloads: the hook, the copy of its queue in the
browser's storage, and the socket, FIFO in both directions.  A reload builds a new hook from the
stored queue, whose counter of `clientSeq`s starts at zero again.

The server is anything that sends one JOIN_ACK per connection, takes the operations of a
connection in order, and sends OP_ACK for those it has accepted and for no others.

An OP_ACK removes every queued operation with its `clientSeq`.  `queue_loses_nothing` says that
this is the operation that was accepted in all runs where no edit reuses the `clientSeq` of a
queued operation; `not_forall_lossless` is a run with a backlog, a reload and a new edit.
-/

namespace SyncEngine

open Transition

/-! ## The tab -/

/-- A tab, its storage and its socket, with what was ever queued and accepted on record. -/
structure Tab where
  hook : CollaborativeDoc
  /-- The queue in `localStorage`. -/
  storage : OfflineQueue
  /-- The socket is open. -/
  connected : Bool
  /-- The server has sent the JOIN_ACK of this connection. -/
  joinAcked : Bool
  toServer : List OperationMessage
  toClient : List ServerMessage
  /-- Everything that was ever queued, in the order it was generated. -/
  generated : List QueuedOperation
  /-- The messages the server has accepted. -/
  accepted : List OperationMessage

/-- What the user, the network or the server does. -/
inductive TabAction where
  | edit (e : UserEdit)
  /-- The socket opens. -/
  | connect
  /-- It closes; what is in flight is lost. -/
  | disconnect
  /-- The page is loaded again. -/
  | reload
  /-- The hook handles the next message from the server. -/
  | handle
  | joinAck (ack : JoinAckMessage)
  | broadcast (envelope : OperationEnvelope)
  /-- The server stores the next operation and acknowledges it. -/
  | accept (serverSeq : Nat)
  /-- It answers with an ERROR. -/
  | reject (code message : JSString)
  /-- It stores the next operation, or not, and does not answer. -/
  | fail (stored : Bool)

namespace Tab

/-- A page opened for the first time. -/
def start (docId : JSString) : Tab :=
  ⟨CollaborativeDoc.new docId, [], false, false, [], [], [], []⟩

/-- The hook has run; what it sends goes out if the socket is open, and the queue is stored. -/
def runHook (s : Tab) (result : CollaborativeDoc × List OperationMessage) : Tab :=
  { s with
    hook := result.1
    storage := result.1.queueRef
    toServer := if s.connected then s.toServer ++ result.2 else s.toServer }

/-- The user edits; what is queued by that is recorded. -/
def edit (s : Tab) (e : UserEdit) : Tab :=
  let result := s.hook.userEdit e
  { s.runHook result with
    generated := s.generated ++ result.1.queueRef.drop s.hook.queueRef.length }

/-- The server is done with the next operation and replies. -/
def answer (s : Tab) (f : OperationMessage → List ServerMessage × Bool) : Option Tab :=
  match s.toServer with
  | [] => none
  | msg :: rest =>
      let (reply, stored) := f msg
      some { s with
        toServer := rest
        toClient := s.toClient ++ reply
        accepted := if stored then s.accepted ++ [msg] else s.accepted }

/-- One action, if it can happen. -/
def step (s : Tab) : TabAction → Option Tab
  | .edit e => some (s.edit e)
  | .connect =>
      if s.connected then none
      else some { s with connected := true, joinAcked := false, toServer := [], toClient := [] }
  | .disconnect => some { s with connected := false, toServer := [], toClient := [] }
  | .reload =>
      some { s with
        hook := CollaborativeDoc.new s.hook.docId s.storage
        connected := false, toServer := [], toClient := [] }
  | .handle =>
      match s.toClient with
      | [] => none
      | message :: rest =>
          some (({ s with toClient := rest }).runHook (s.hook.handleServerMessage message))
  | .joinAck ack =>
      if s.connected && !s.joinAcked then
        some { s with joinAcked := true, toClient := s.toClient ++ [.joinAck ack] }
      else none
  | .broadcast envelope =>
      if s.connected then some { s with toClient := s.toClient ++ [.broadcast envelope] } else none
  | .accept serverSeq => s.answer fun msg => ([.opAck msg.clientSeq serverSeq], true)
  | .reject code message =>
      s.answer fun msg => ([.error ⟨code, message, some msg.clientSeq⟩], false)
  | .fail stored => s.answer fun _ => ([], stored)

/-! ## The property -/

/-- What a run must keep: an operation that was queued stays queued, also in the storage, until
that operation was accepted, and a resend follows the order in which operations were generated. -/
structure Lossless (s : Tab) : Prop where
  kept : ∀ op ∈ s.generated,
    (op ∈ s.hook.queueRef ∧ op ∈ s.storage) ∨ s.hook.operationMessage op ∈ s.accepted
  resent : ∀ ack, (s.hook.handleServerMessage (.joinAck ack)).2.Sublist
    (s.generated.map s.hook.operationMessage)

/-- No operation that the edit sends has the `clientSeq` of one that is still queued. -/
def FreshSeqs (s : Tab) : TabAction → Prop
  | .edit e => ∀ op ∈ s.hook.queueRef, ∀ msg ∈ (s.hook.userEdit e).2, op.clientSeq ≠ msg.clientSeq
  | _ => True

instance (s : Tab) : DecidablePred s.FreshSeqs
  | .edit _ => inferInstanceAs (Decidable (∀ op ∈ s.hook.queueRef, _))
  | .connect => isTrue trivial
  | .disconnect => isTrue trivial
  | .reload => isTrue trivial
  | .handle => isTrue trivial
  | .joinAck _ => isTrue trivial
  | .broadcast _ => isTrue trivial
  | .accept _ => isTrue trivial
  | .reject .. => isTrue trivial
  | .fail _ => isTrue trivial

/-! ## The invariant -/

/-- How many messages of the connection that carry the number are on their way: operations and
acknowledgements. -/
def inFlight (s : Tab) (clientSeq : Nat) : Nat :=
  (s.toServer.map OperationMessage.clientSeq).count clientSeq +
    s.toClient.countP (ServerMessage.isOpAck clientSeq)

/-- How many queued operations carry it. -/
def queuedAs (s : Tab) (clientSeq : Nat) : Nat :=
  (s.hook.queueRef.map QueuedOperation.clientSeq).count clientSeq

/-- The JOIN_ACK of the connection has not been handled yet. -/
def JoinPending (s : Tab) : Prop :=
  s.joinAcked = false ∨ 0 < s.toClient.countP ServerMessage.isJoinAck

lemma operationMessage_congr {hook hook' : CollaborativeDoc} (h : hook'.docId = hook.docId)
    (op : QueuedOperation) : hook'.operationMessage op = hook.operationMessage op := by
  rw [CollaborativeDoc.operationMessage, CollaborativeDoc.operationMessage, h]

/-- What holds along every run that reuses no number of a queued operation. -/
structure Tracked (s : Tab) : Prop where
  storage_eq : s.storage = s.hook.queueRef
  sublist : s.hook.queueRef.Sublist s.generated
  nodup : (s.hook.queueRef.map QueuedOperation.clientSeq).Nodup
  kept : ∀ op ∈ s.generated, op ∈ s.hook.queueRef ∨ s.hook.operationMessage op ∈ s.accepted
  /-- An operation on its way is the queued operation with its number, if there is one. -/
  sent : ∀ msg ∈ s.toServer, ∀ op ∈ s.hook.queueRef, op.clientSeq = msg.clientSeq →
    s.hook.operationMessage op = msg
  acked : ∀ clientSeq, 0 < s.toClient.countP (ServerMessage.isOpAck clientSeq) →
    ∀ op ∈ s.hook.queueRef, op.clientSeq = clientSeq → s.hook.operationMessage op ∈ s.accepted
  /-- Numbers beyond the counter are those of operations queued before the page was loaded, which
  are sent once on a connection: when its JOIN_ACK is handled. -/
  ahead : ∀ clientSeq, s.hook.clientSeqRef < clientSeq →
    s.inFlight clientSeq ≤ s.queuedAs clientSeq
  pending : s.JoinPending → ∀ clientSeq, s.hook.clientSeqRef < clientSeq → s.inFlight clientSeq = 0
  joinAcks : s.toClient.countP ServerMessage.isJoinAck ≤ if s.joinAcked then 1 else 0

lemma tracked_start (docId : JSString) : (start docId).Tracked where
  storage_eq := rfl
  sublist := .refl _
  nodup := .nil
  kept := by simp [start]
  sent := by simp [start]
  acked := by simp [start]
  ahead := by simp [start, inFlight]
  pending := by simp [start, inFlight]
  joinAcks := by simp [start]

/-- A queued operation with a number in flight beyond the counter. -/
lemma Tracked.exists_queued {s : Tab} (h : s.Tracked) {clientSeq : Nat}
    (hlt : s.hook.clientSeqRef < clientSeq) (hflight : 0 < s.inFlight clientSeq) :
    ∃ op ∈ s.hook.queueRef, op.clientSeq = clientSeq := by
  have hqueued := Nat.lt_of_lt_of_le hflight (h.ahead clientSeq hlt)
  exact List.mem_map.mp (List.count_pos_iff.mp hqueued)

/-- The socket is closed, or has just been opened: nothing is in flight. -/
lemma Tracked.of_closed {s s' : Tab} (h : s.Tracked) (hqueue : s'.hook.queueRef = s.hook.queueRef)
    (hstorage : s'.storage = s.storage) (hdoc : s'.hook.docId = s.hook.docId)
    (hgenerated : s'.generated = s.generated) (haccepted : s'.accepted = s.accepted)
    (hserver : s'.toServer = []) (hclient : s'.toClient = []) : s'.Tracked where
  storage_eq := by rw [hstorage, hqueue, h.storage_eq]
  sublist := by rw [hqueue, hgenerated]; exact h.sublist
  nodup := by rw [hqueue]; exact h.nodup
  kept op hop := by
    rw [hqueue, operationMessage_congr hdoc, haccepted]
    exact h.kept op (hgenerated ▸ hop)
  sent := by simp [hserver]
  acked := by simp [hclient]
  ahead := by simp [inFlight, hserver, hclient]
  pending := by simp [inFlight, hserver, hclient]
  joinAcks := by simp [hclient]

/-! ### An edit -/

section Edit

variable {s : Tab} {e : UserEdit} {queued : List QueuedOperation}

lemma generated_edit (hedited : s.hook.Edited (s.hook.userEdit e).1 queued) :
    (s.edit e).generated = s.generated ++ queued := by
  simp only [edit, hedited.queueRef_eq, List.drop_left]

lemma mem_toServer_edit (hsent : (s.hook.userEdit e).2 = queued.map s.hook.operationMessage)
    {msg : OperationMessage} (h : msg ∈ (s.edit e).toServer) :
    msg ∈ s.toServer ∨ ∃ op ∈ queued, msg = s.hook.operationMessage op := by
  simp only [edit, runHook] at h
  split at h
  · rw [hsent, List.mem_append, List.mem_map] at h
    exact h.imp_right fun ⟨op, hop, heq⟩ => ⟨op, hop, heq.symm⟩
  · exact Or.inl h

lemma clientSeq_queued (hedited : s.hook.Edited (s.hook.userEdit e).1 queued)
    {op : QueuedOperation} (hop : op ∈ queued) :
    s.hook.clientSeqRef < op.clientSeq ∧ op.clientSeq ≤ (s.hook.userEdit e).1.clientSeqRef := by
  have hmem : op.clientSeq ∈ List.range' (s.hook.clientSeqRef + 1) queued.length :=
    hedited.clientSeqs ▸ List.mem_map_of_mem hop
  have hle := hedited.clientSeqRef_le
  rw [List.mem_range'_1] at hmem
  omega

/-- Nothing new is in flight beyond the counter. -/
lemma inFlight_edit (hedited : s.hook.Edited (s.hook.userEdit e).1 queued)
    (hsent : (s.hook.userEdit e).2 = queued.map s.hook.operationMessage) {clientSeq : Nat}
    (hlt : (s.hook.userEdit e).1.clientSeqRef < clientSeq) :
    (s.edit e).inFlight clientSeq = s.inFlight clientSeq := by
  have hnew : ((queued.map s.hook.operationMessage).map OperationMessage.clientSeq).count
      clientSeq = 0 := by
    rw [List.count_eq_zero, List.map_map]
    intro hmem
    obtain ⟨op, hop, rfl⟩ := List.mem_map.mp hmem
    exact absurd (clientSeq_queued hedited hop).2 (Nat.not_le.mpr hlt)
  simp only [inFlight, edit, runHook, hsent]
  split
  · rw [List.map_append, List.count_append, hnew, Nat.add_zero]
  · rfl

lemma Tracked.edit (h : s.Tracked) (hfresh : s.FreshSeqs (.edit e)) : (s.edit e).Tracked := by
  obtain ⟨queued, hedited, hsent⟩ := s.hook.edited_userEdit e
  have hdoc : (s.edit e).hook.docId = s.hook.docId := hedited.docId_eq
  have hqueue : (s.edit e).hook.queueRef = s.hook.queueRef ++ queued := hedited.queueRef_eq
  have hgenerated := generated_edit hedited
  have hcounter : s.hook.clientSeqRef ≤ (s.hook.userEdit e).1.clientSeqRef :=
    (Nat.le_add_right _ _).trans hedited.clientSeqRef_le
  have hnodup : (queued.map QueuedOperation.clientSeq).Nodup :=
    hedited.clientSeqs ▸ List.nodup_range'
  have hnew : ∀ op ∈ s.hook.queueRef, ∀ op' ∈ queued, op.clientSeq ≠ op'.clientSeq :=
    fun op hop op' hop' => hfresh op hop (s.hook.operationMessage op')
      (hsent ▸ List.mem_map_of_mem hop')
  -- so a number given out now is not in flight
  have hquiet : ∀ op ∈ queued, s.inFlight op.clientSeq = 0 := by
    intro op hop
    -- what is in flight belongs to a queued operation, and the new numbers differ from those
    by_contra hflight
    obtain ⟨op', hop', heq⟩ := h.exists_queued (clientSeq_queued hedited hop).1
      (Nat.pos_of_ne_zero hflight)
    exact hnew op' hop' op hop heq
  refine ⟨rfl, ?_, ?_, ?_, ?_, ?_, ?_, ?_, h.joinAcks⟩
  · rw [hqueue, hgenerated]
    exact h.sublist.append (.refl queued)
  · rw [hqueue, List.map_append, List.nodup_append]
    refine ⟨h.nodup, hnodup, fun n hn n' hn' heq => ?_⟩
    obtain ⟨op, hop, rfl⟩ := List.mem_map.mp hn
    obtain ⟨op', hop', rfl⟩ := List.mem_map.mp hn'
    exact hnew op hop op' hop' heq
  · intro op hop
    rw [operationMessage_congr hdoc, hqueue]
    rw [hgenerated] at hop
    rcases List.mem_append.mp hop with hop | hop
    · exact (h.kept op hop).imp_left (List.mem_append_left _)
    · exact Or.inl (List.mem_append_right _ hop)
  · intro msg hmsg op hop heq
    rw [operationMessage_congr hdoc]
    rw [hqueue] at hop
    rcases mem_toServer_edit hsent hmsg with hmsg | ⟨op', hop', rfl⟩
    · rcases List.mem_append.mp hop with hop | hop
      · exact h.sent msg hmsg op hop heq
      · have hzero := hquiet op hop
        rw [heq, inFlight, Nat.add_eq_zero_iff, List.count_eq_zero] at hzero
        exact absurd (List.mem_map_of_mem hmsg) hzero.1
    · rcases List.mem_append.mp hop with hop | hop
      · exact absurd heq (hnew op hop op' hop')
      · exact congrArg _ (List.inj_on_of_nodup_map hnodup hop hop' heq)
  · intro clientSeq hack op hop heq
    rw [operationMessage_congr hdoc]
    rw [hqueue] at hop
    rcases List.mem_append.mp hop with hop | hop
    · exact h.acked clientSeq hack op hop heq
    · have hzero := hquiet op hop
      rw [heq, inFlight, Nat.add_eq_zero_iff] at hzero
      exact absurd hzero.2 (Nat.ne_of_gt hack)
  · intro clientSeq hlt
    rw [inFlight_edit hedited hsent hlt]
    refine (h.ahead clientSeq (hcounter.trans_lt hlt)).trans ?_
    rw [queuedAs, queuedAs, hqueue, List.map_append, List.count_append]
    exact Nat.le_add_right _ _
  · intro hpending clientSeq hlt
    rw [inFlight_edit hedited hsent hlt]
    exact h.pending hpending clientSeq (hcounter.trans_lt hlt)

end Edit

/-! ### A message from the server -/

section Handle

variable {s : Tab} {message : ServerMessage} {rest : List ServerMessage}

/-- The hook has handled a message that is neither a JOIN_ACK nor an OP_ACK. -/
lemma Tracked.handle_other (h : s.Tracked) (hclient : s.toClient = message :: rest)
    (hjoin : message.isJoinAck = false) (hack : ∀ n, message.isOpAck n = false)
    {hook : CollaborativeDoc} (hdoc : hook.docId = s.hook.docId)
    (hqueue : hook.queueRef = s.hook.queueRef)
    (hcounter : hook.clientSeqRef = s.hook.clientSeqRef) :
    (({ s with toClient := rest } : Tab).runHook (hook, [])).Tracked := by
  set s' := ({ s with toClient := rest } : Tab).runHook (hook, []) with hs'
  have hdoc' : s'.hook.docId = s.hook.docId := hdoc
  have hserver : s'.toServer = s.toServer := by simp [hs', runHook]
  have hacks : ∀ n, s.toClient.countP (ServerMessage.isOpAck n) =
      rest.countP (ServerMessage.isOpAck n) := by
    intro n
    rw [hclient, List.countP_cons, hack n]
    rfl
  have hjoins : s.toClient.countP ServerMessage.isJoinAck =
      rest.countP ServerMessage.isJoinAck := by
    rw [hclient, List.countP_cons, hjoin]
    rfl
  have hflight : ∀ n, s'.inFlight n = s.inFlight n := by
    intro n
    rw [inFlight, inFlight, hserver, hacks]
    rfl
  refine ⟨rfl, hqueue ▸ h.sublist, hqueue ▸ h.nodup, ?_, ?_, ?_, ?_, ?_, ?_⟩
  · intro op hop
    rw [operationMessage_congr hdoc']
    exact hqueue ▸ h.kept op hop
  · intro msg hmsg op hop heq
    rw [operationMessage_congr hdoc']
    exact h.sent msg (hserver ▸ hmsg) op (hqueue ▸ hop) heq
  · intro n hn op hop heq
    rw [operationMessage_congr hdoc']
    exact h.acked n (hacks n ▸ hn) op (hqueue ▸ hop) heq
  · intro n hn
    rw [hflight, queuedAs]
    exact hqueue ▸ h.ahead n (hcounter ▸ hn)
  · intro hpending n hn
    rw [hflight]
    exact h.pending (hpending.imp_right fun hp => hjoins ▸ hp) n (hcounter ▸ hn)
  · exact hjoins ▸ h.joinAcks

/-- An OP_ACK removes the operation with its number, which was accepted. -/
lemma Tracked.handle_opAck (h : s.Tracked) {clientSeq serverSeq : Nat}
    (hclient : s.toClient = .opAck clientSeq serverSeq :: rest) :
    (({ s with toClient := rest } : Tab).runHook
      (s.hook.handleServerMessage (.opAck clientSeq serverSeq))).Tracked := by
  set s' := ({ s with toClient := rest } : Tab).runHook
    (s.hook.handleServerMessage (.opAck clientSeq serverSeq)) with hs'
  have hserver : s'.toServer = s.toServer := by
    simp [hs', runHook, CollaborativeDoc.handleServerMessage]
  have hqueue : s'.hook.queueRef = s.hook.queueRef.filter fun op => op.clientSeq ≠ clientSeq := rfl
  have hmem : ∀ op, op ∈ s'.hook.queueRef ↔ op ∈ s.hook.queueRef ∧ op.clientSeq ≠ clientSeq := by
    simp [hqueue]
  have hacks : ∀ n, s.toClient.countP (ServerMessage.isOpAck n) =
      rest.countP (ServerMessage.isOpAck n) + if clientSeq = n then 1 else 0 := by
    intro n
    simp [hclient, List.countP_cons, ServerMessage.isOpAck]
  have hjoins : s.toClient.countP ServerMessage.isJoinAck =
      rest.countP ServerMessage.isJoinAck := by
    rw [hclient, List.countP_cons]
    rfl
  have hflight : ∀ n, s.inFlight n = s'.inFlight n + if clientSeq = n then 1 else 0 := by
    intro n
    rw [inFlight, inFlight, hserver, hacks, Nat.add_assoc]
    rfl
  refine ⟨rfl, List.filter_sublist.trans h.sublist, ?_, ?_, ?_, ?_, ?_, ?_, ?_⟩
  · exact (List.filter_sublist.map _).nodup h.nodup
  · intro op hop
    -- the one that leaves the queue has its row: an OP_ACK follows the append
    by_cases heq : op.clientSeq = clientSeq
    · refine Or.inr ((h.kept op hop).elim (fun hqueued => ?_) id)
      exact h.acked clientSeq (by rw [hacks]; simp) op hqueued heq
    · exact (h.kept op hop).imp_left fun hqueued => (hmem op).mpr ⟨hqueued, heq⟩
  · exact fun msg hmsg op hop => h.sent msg (hserver ▸ hmsg) op ((hmem op).mp hop).1
  · intro n hn op hop
    have hn' : 0 < rest.countP (ServerMessage.isOpAck n) := hn
    exact h.acked n (by rw [hacks]; omega) op ((hmem op).mp hop).1
  · intro n hn
    have hle := h.ahead n hn
    rw [hflight] at hle
    by_cases heq : clientSeq = n
    · -- the number is queued once, and one answer to it has just been taken off the wire
      have hone := List.nodup_iff_count_le_one.mp h.nodup n
      rw [queuedAs] at hle
      rw [if_pos heq] at hle
      omega
    · rw [if_neg heq, Nat.add_zero] at hle
      refine hle.trans ?_
      rw [queuedAs, queuedAs, hqueue, List.count_eq_countP, List.count_eq_countP, List.countP_map,
        List.countP_map, List.countP_filter]
      refine List.countP_mono_left fun op _ hop => ?_
      have hseq : op.clientSeq = n := by simpa using hop
      simp [hseq, Ne.symm heq]
  · intro hpending n hn
    have hzero := h.pending (hpending.imp_right fun hp => hjoins ▸ hp) n hn
    rw [hflight] at hzero
    omega
  · exact hjoins ▸ h.joinAcks

lemma Tracked.handle_joinAck (h : s.Tracked) {ack : JoinAckMessage}
    (hclient : s.toClient = .joinAck ack :: rest) :
    (({ s with toClient := rest } : Tab).runHook
      (s.hook.handleServerMessage (.joinAck ack))).Tracked := by
  set s' := ({ s with toClient := rest } : Tab).runHook
    (s.hook.handleServerMessage (.joinAck ack)) with hs'
  have hserver : s'.toServer = if s.connected then
      s.toServer ++ s.hook.queueRef.map s.hook.operationMessage else s.toServer := rfl
  have hjoins : s.toClient.countP ServerMessage.isJoinAck =
      rest.countP ServerMessage.isJoinAck + 1 := by
    rw [hclient, List.countP_cons]
    rfl
  have hjoinAcked : s.joinAcked = true ∧ rest.countP ServerMessage.isJoinAck = 0 := by
    have hle := h.joinAcks
    rw [hjoins] at hle
    split at hle <;> simp_all
  have hacks : ∀ n, s.toClient.countP (ServerMessage.isOpAck n) =
      rest.countP (ServerMessage.isOpAck n) := by
    intro n
    rw [hclient, List.countP_cons]
    rfl
  refine ⟨rfl, h.sublist, h.nodup, h.kept, ?_, ?_, ?_, ?_, ?_⟩
  · intro msg hmsg op hop heq
    rw [hserver] at hmsg
    split at hmsg
    · rcases List.mem_append.mp hmsg with hmsg | hmsg
      · exact h.sent msg hmsg op hop heq
      · obtain ⟨op', hop', rfl⟩ := List.mem_map.mp hmsg
        exact congrArg _ (List.inj_on_of_nodup_map h.nodup hop hop' heq)
    · exact h.sent msg hmsg op hop heq
  · exact fun n hn => h.acked n (hacks n ▸ hn)
  · intro n hn
    have hzero := h.pending (Or.inr (by omega)) n hn
    rw [inFlight, Nat.add_eq_zero_iff, hacks] at hzero
    have hsame : ((s.hook.queueRef.map s.hook.operationMessage).map
        OperationMessage.clientSeq).count n = s.queuedAs n := by
      rw [queuedAs, List.map_map]
      rfl
    have hrest : s'.toClient.countP (ServerMessage.isOpAck n) = 0 := hzero.2
    show s'.inFlight n ≤ s.queuedAs n
    rw [inFlight, hserver, hrest]
    split
    · rw [List.map_append, List.count_append, hzero.1, hsame, Nat.zero_add, Nat.add_zero]
    · rw [hzero.1]
      exact Nat.zero_le _
  · rintro (hpending | hpending)
    · exact absurd (hjoinAcked.1.symm.trans hpending) (by simp)
    · exact absurd hjoinAcked.2 (Nat.ne_of_gt hpending)
  · show rest.countP ServerMessage.isJoinAck ≤ _
    rw [hjoinAcked.2]
    exact Nat.zero_le _

lemma Tracked.handle (h : s.Tracked) (hclient : s.toClient = message :: rest) :
    (({ s with toClient := rest } : Tab).runHook (s.hook.handleServerMessage message)).Tracked := by
  cases message with
  | joinAck ack => exact h.handle_joinAck hclient
  | opAck clientSeq serverSeq => exact h.handle_opAck hclient
  | broadcast envelope =>
      refine h.handle_other hclient rfl (fun _ => rfl) ?_ ?_ ?_ <;>
        (rw [CollaborativeDoc.handleBroadcast]; cases s.hook.docRef <;> simp)
  | error error => exact h.handle_other hclient rfl (fun _ => rfl) rfl rfl rfl

end Handle

/-! ### What the server does -/

section Server

variable {s s' : Tab}

/-- The server sends something that is neither a JOIN_ACK nor an OP_ACK. -/
lemma Tracked.send (h : s.Tracked) {message : ServerMessage} (hjoin : message.isJoinAck = false)
    (hack : ∀ n, message.isOpAck n = false) :
    ({ s with toClient := s.toClient ++ [message] } : Tab).Tracked := by
  have hacks : ∀ n, (s.toClient ++ [message]).countP (ServerMessage.isOpAck n) =
      s.toClient.countP (ServerMessage.isOpAck n) := by
    intro n
    simp [hack n]
  have hjoins : (s.toClient ++ [message]).countP ServerMessage.isJoinAck =
      s.toClient.countP ServerMessage.isJoinAck := by
    simp [hjoin]
  refine ⟨h.storage_eq, h.sublist, h.nodup, h.kept, h.sent, ?_, ?_, ?_, ?_⟩
  · exact fun n hn => h.acked n (hacks n ▸ hn)
  · intro n hn
    have hle := h.ahead n hn
    rw [inFlight] at hle ⊢
    rwa [hacks]
  · intro hpending n hn
    have hzero := h.pending (hpending.imp_right fun hp => hjoins ▸ hp) n hn
    rw [inFlight] at hzero ⊢
    rwa [hacks]
  · exact hjoins ▸ h.joinAcks

lemma Tracked.joinAck (h : s.Tracked) (hfirst : s.joinAcked = false) (ack : JoinAckMessage) :
    ({ s with joinAcked := true, toClient := s.toClient ++ [.joinAck ack] } : Tab).Tracked := by
  have hacks : ∀ n, (s.toClient ++ [ServerMessage.joinAck ack]).countP (ServerMessage.isOpAck n) =
      s.toClient.countP (ServerMessage.isOpAck n) := by
    intro n
    simp [ServerMessage.isOpAck]
  have hzero := h.pending (Or.inl hfirst)
  refine ⟨h.storage_eq, h.sublist, h.nodup, h.kept, h.sent, ?_, ?_, ?_, ?_⟩
  · exact fun n hn => h.acked n (hacks n ▸ hn)
  · intro n hn
    have hle := h.ahead n hn
    rw [inFlight] at hle ⊢
    rwa [hacks]
  · intro _ n hn
    have hnone := hzero n hn
    rw [inFlight] at hnone ⊢
    rwa [hacks]
  · have hjoins := h.joinAcks
    rw [hfirst] at hjoins
    simpa [ServerMessage.isJoinAck] using hjoins

/-- It is done with the next operation: an OP_ACK goes out only for an operation it has stored. -/
lemma Tracked.answer (h : s.Tracked) {f : OperationMessage → List ServerMessage × Bool}
    (hjoin : ∀ msg, (f msg).1.countP ServerMessage.isJoinAck = 0)
    (hack : ∀ msg n, (f msg).1.countP (ServerMessage.isOpAck n) ≤
      if (f msg).2 = true ∧ msg.clientSeq = n then 1 else 0)
    (hanswer : s.answer f = some s') : s'.Tracked := by
  rw [Tab.answer] at hanswer
  split at hanswer
  · simp at hanswer
  · rename_i msg rest hserver
    obtain rfl := Option.some.inj hanswer
    have hacks : ∀ n, (s.toClient ++ (f msg).1).countP (ServerMessage.isOpAck n) =
        s.toClient.countP (ServerMessage.isOpAck n) +
          (f msg).1.countP (ServerMessage.isOpAck n) := fun n => List.countP_append
    have hjoins : (s.toClient ++ (f msg).1).countP ServerMessage.isJoinAck =
        s.toClient.countP ServerMessage.isJoinAck := by
      rw [List.countP_append, hjoin, Nat.add_zero]
    have haccepted : ∀ m ∈ s.accepted,
        m ∈ if (f msg).2 = true then s.accepted ++ [msg] else s.accepted := by
      intro m hm
      split
      · exact List.mem_append_left _ hm
      · exact hm
    have hflight : ∀ n, (rest.map OperationMessage.clientSeq).count n +
        (s.toClient ++ (f msg).1).countP (ServerMessage.isOpAck n) ≤ s.inFlight n := by
      intro n
      have hle := hack msg n
      rw [inFlight, hserver, hacks, List.map_cons, List.count_cons]
      by_cases heq : msg.clientSeq = n
      · have hone : (f msg).1.countP (ServerMessage.isOpAck n) ≤ 1 := hle.trans (by split <;> omega)
        rw [if_pos (beq_iff_eq.mpr heq)]
        omega
      · rw [if_neg (fun hc => heq hc.2)] at hle
        omega
    refine ⟨h.storage_eq, h.sublist, h.nodup, ?_, ?_, ?_, ?_, ?_, ?_⟩
    · exact fun op hop => (h.kept op hop).imp_right (haccepted _)
    · exact fun m hm => h.sent m (hserver ▸ List.mem_cons_of_mem _ hm)
    · intro n hn op hop heq
      by_cases hold : 0 < s.toClient.countP (ServerMessage.isOpAck n)
      · exact haccepted _ (h.acked n hold op hop heq)
      · have hle := hack msg n
        rw [hacks] at hn
        split at hle
        · rename_i hc
          rw [if_pos hc.1,
            h.sent msg (hserver ▸ List.mem_cons_self ..) op hop (heq.trans hc.2.symm)]
          exact List.mem_append_right _ (List.mem_singleton.mpr rfl)
        · omega
    · exact fun n hn => (hflight n).trans (h.ahead n hn)
    · intro hpending n hn
      have hzero := h.pending (hpending.imp_right fun hp => hjoins ▸ hp) n hn
      exact Nat.le_zero.mp (hzero ▸ hflight n)
    · exact hjoins ▸ h.joinAcks

end Server

/-! ## Runs -/

/-- Every action that reuses no number keeps the invariant. -/
lemma Tracked.step {s s' : Tab} {a : TabAction} (h : s.Tracked) (hfresh : s.FreshSeqs a)
    (hstep : s.step a = some s') : s'.Tracked := by
  cases a with
  | edit e =>
      obtain rfl := Option.some.inj hstep
      exact h.edit hfresh
  | connect =>
      simp only [Tab.step] at hstep
      split at hstep
      · simp at hstep
      · obtain rfl := Option.some.inj hstep
        exact h.of_closed rfl rfl rfl rfl rfl rfl rfl
  | disconnect =>
      obtain rfl := Option.some.inj hstep
      exact h.of_closed rfl rfl rfl rfl rfl rfl rfl
  | reload =>
      obtain rfl := Option.some.inj hstep
      exact h.of_closed h.storage_eq rfl rfl rfl rfl rfl rfl
  | handle =>
      simp only [Tab.step] at hstep
      split at hstep
      · simp at hstep
      · rename_i message rest hclient
        obtain rfl := Option.some.inj hstep
        exact h.handle hclient
  | joinAck ack =>
      simp only [Tab.step] at hstep
      split at hstep
      · rename_i hopen
        obtain rfl := Option.some.inj hstep
        rw [Bool.and_eq_true, Bool.not_eq_true'] at hopen
        exact h.joinAck hopen.2 ack
      · simp at hstep
  | broadcast envelope =>
      simp only [Tab.step] at hstep
      split at hstep
      · obtain rfl := Option.some.inj hstep
        exact h.send rfl fun _ => rfl
      · simp at hstep
  | accept serverSeq =>
      simp only [Tab.step] at hstep
      refine h.answer (fun _ => rfl) (fun msg n => ?_) hstep
      by_cases heq : msg.clientSeq = n <;> simp [ServerMessage.isOpAck, heq]
  | reject code message =>
      simp only [Tab.step] at hstep
      exact h.answer (fun _ => rfl) (fun _ _ => by simp [ServerMessage.isOpAck]) hstep
  | fail stored =>
      simp only [Tab.step] at hstep
      exact h.answer (fun _ => rfl) (fun _ _ => by simp) hstep

/-- **The offline queue loses nothing** along every run in which no edit gives an operation the
`clientSeq` of one that is still queued. -/
theorem queue_loses_nothing {docId : JSString} {s : Tab}
    (h : Reach step FreshSeqs (start docId) s) : s.Lossless := by
  have hs : s.Tracked := h.invariant (tracked_start docId) fun s a s' hs hfresh hstep =>
    hs.step hfresh hstep
  refine ⟨fun op hop => (hs.kept op hop).imp_left fun hqueued => ⟨hqueued, ?_⟩, fun ack => ?_⟩
  · rw [hs.storage_eq]
    exact hqueued
  · exact hs.sublist.map _

/-! ## Two runs -/

/-- The JOIN_ACK of an empty document. -/
def emptyAck : JoinAckMessage := ⟨JSString.lit "s", JSString.lit "a", ⟨0, []⟩, []⟩

/-- A connection is made and its JOIN_ACK handled. -/
def joinActions : List TabAction := [.connect, .joinAck emptyAck, .handle]

/-- The user types a character at the beginning. -/
def typeActions (char : String) : List TabAction :=
  [.edit (.single (.insert 0 (JSString.lit char) (JSString.lit char)))]

/-- Two characters are typed and the first is acknowledged; the page is loaded again with the second
in its queue, a third is typed, the second accepted and the third rejected, and the connection is
lost. -/
def reloadedActions : List TabAction :=
  joinActions ++ typeActions "x" ++ typeActions "y" ++ [.accept 1, .handle, .reload] ++
    joinActions ++ typeActions "z" ++
    [.accept 2, .reject (JSString.lit "RATE_LIMITED") (JSString.lit "Rate limit exceeded"), .handle,
      .handle, .disconnect] ++ joinActions

/-- The tab after `reloadedActions`. -/
def reloaded : Tab :=
  (runAllowed step FreshSeqs (start (JSString.lit "d")) reloadedActions).get (by decide +kernel)

theorem queue_loses_nothing_typed :
    reloaded.Lossless ∧ reloaded.hook.queueRef.length = 1 ∧ reloaded.accepted.length = 2 ∧
      reloaded.toServer.length = 1 :=
  ⟨queue_loses_nothing (reach_get _), by decide +kernel, by decide +kernel, by decide +kernel⟩

/-- A character is typed, the page is loaded again and the character sent again; then another one
is typed, and the server accepts the first. -/
def backlogActions : List TabAction :=
  joinActions ++ typeActions "x" ++ [.reload] ++ joinActions ++ typeActions "y" ++
    [.accept 1, .handle]

/-- The tab afterwards. -/
def backlog : Tab :=
  (runAllowed step (fun _ _ => True) (start (JSString.lit "d")) backlogActions).get (by decide)

/-- The acknowledgement of the first character has removed the second one from the queue. -/
theorem not_forall_lossless :
    ¬ ∀ (docId : JSString) (s : Tab), Reach step (fun _ _ => True) (start docId) s →
      s.Lossless := by
  intro h
  have hkept := (h (JSString.lit "d") backlog (reach_get _)).kept
  exact absurd hkept (by decide)

end Tab

end SyncEngine
