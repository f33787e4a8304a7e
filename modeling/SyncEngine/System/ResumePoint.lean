import SyncEngine.Client.Outlook
import SyncEngine.Lib.Transition
import SyncEngine.System.RejoinMoves

/-!
# The resume point of a client

A client that reconnects asks for what was stored after `lastSeqRef`, the greatest seq that an
OP_ACK, a BROADCAST or a missed operation has told it (`client/hooks/useCollaborativeDoc.ts`).
Whatever was stored up to there it is never sent again, so it had better be in the replica
(`ResumeSound`).

The messages come from different sources.  An OP_ACK is sent by the worker as soon as the call has
returned; a BROADCAST has come out of Redis, where operations are in the order in which they were
published.  Nothing makes the seqs of what a client is told ascend: its own operation may be
acknowledged while an earlier one of somebody else is still on its way to its worker
(`not_forall_resumeSound`).  A JOIN_ACK replaces the replica, and brings no nodes unless the
client starts anew or missed too much, so that a client which has been told of an operation
forgets it when it rejoins.

What has to hold is said by `ToldInOrder`, of whatever is put on the socket of a client that is
there.  Then the resume point is sound along the whole run, over any number of rejoins, and remains
so for whatever is stored afterwards (`resumeSound`).
-/

namespace SyncEngine

open Transition

namespace Rejoining

open WorkerPool CollaborativeDoc

variable {W C : Type*} {P : Visitors C} {s s' : Rejoining W C} {a : RejoinAction W C} {c : C}
  {k : Nat} {link link' : Link W C} {m : ServerMessage}

/-- What is on its way to a client. -/
def incoming (s : Rejoining W C) (c : C) : List ServerMessage :=
  (((s.tabs c).socket.bind fun k => s.links[k]?).map Link.toClient).getD []

/-- If the client of a connection is there, the message comes in order. -/
def MaySend (s : Rejoining W C) (k : Nat) (message : ServerMessage) : Prop :=
  ∀ link ∈ s.links[k]?, link.closed = false → (s.tabs link.client).socket = some k →
    (s.tabs link.client).hook.InOrder s.pool.db link.toClient message

/-- **Seqs are told in order**: an OP_ACK, when all that was stored up to the operation is in the
client's replica or on its way, a BROADCAST, when this holds of all that was stored in front of it
and of the node that it builds on, and a JOIN_ACK, when it brings all that was stored up to
whatever the client has been told. -/
def ToldInOrder (P : Visitors C) (s : Rejoining W C) : RejoinAction W C → Prop
  | .acknowledge k => ∀ link ∈ s.links[k]?, ∀ ack ∈ s.joinAck? P k link, s.MaySend k (.joinAck ack)
  | .reply k => ∀ link ∈ s.links[k]?, ∀ call ∈ s.pool.calls (k, link.processed),
      ∀ messages ∈ answerTo call, ∀ message ∈ messages, s.MaySend k message
  | .deliver w => ∀ envelope ∈ s.pool.channel[s.pool.delivered w]?, s.subscribed w = true →
      0 < s.opHandlers w → ∀ k < s.links.length, ∀ link ∈ s.links[k]?, link.worker = w →
        link.stage.isRegistered = true → s.MaySend k (.broadcast envelope)
  | _ => True

variable [DecidableEq W] [DecidableEq C]

/-! ## Along a run -/

lemma extends_pool {pool pool' : WorkerPool W (Nat × Nat)} (h : PoolMove pool pool') :
    pool'.db.Extends pool.db ∧ pool.db.operations ⊆ pool'.db.operations := by
  rcases h with rfl | ⟨b, hb⟩
  · exact ⟨.refl _, List.Subset.refl _⟩
  · have hgrows := step_grows hb
    exact ⟨⟨hgrows.documentSeq_le, hgrows.new_row⟩, hgrows.operations_subset⟩

/-- What holds of the pool and of the connections, whatever the clients are told. -/
structure Wired (s : Rejoining W C) : Prop where
  recorded : Recorded s.pool
  indexed : AllIndexed s.pool
  published : PublishesStored s.pool
  replies : ∀ link ∈ s.links, ∀ reply ∈ link.stage.reply?,
    reply.missedOps ⊆ s.pool.db.operations
  /-- A client's socket is its own. -/
  sockets : ∀ c k, (s.tabs c).socket = some k → ∃ link, s.links[k]? = some link ∧ link.client = c

omit [DecidableEq W] [DecidableEq C] in
lemma wired_start (snapshotOpsThreshold : Nat) :
    Wired (start P snapshotOpsThreshold : Rejoining W C) where
  recorded := recorded_start _
  indexed := allIndexed_start _
  published := by simp [PublishesStored, start, WorkerPool.start]
  replies := by simp [start]
  sockets := by simp [start]

omit [DecidableEq C] in
/-- Replies are kept or have just been read, connections keep their clients, and a socket is an old
one or a new connection of the client. -/
lemma Wired.of_pool (h : Wired s) (hpool : PoolMove s.pool s'.pool)
    (hreplies : ∀ link' ∈ s'.links, ∀ reply ∈ link'.stage.reply?,
      (∃ link ∈ s.links, reply ∈ link.stage.reply?) ∨ reply.missedOps ⊆ s.pool.db.operations)
    (hclients : ∀ (k : Nat) link, s.links[k]? = some link →
      ∃ link', s'.links[k]? = some link' ∧ link'.client = link.client)
    (hsockets : ∀ c k, (s'.tabs c).socket = some k → (s.tabs c).socket = some k ∨
      ∃ link, s'.links[k]? = some link ∧ link.client = c) : Wired s' := by
  have hread : ∀ link' ∈ s'.links, ∀ reply ∈ link'.stage.reply?,
      reply.missedOps ⊆ s'.pool.db.operations := by
    intro link' hlink' reply hreply
    have hsubset := (extends_pool hpool).2
    rcases hreplies link' hlink' reply hreply with ⟨link, hlink, hold⟩ | hnew
    · exact fun row hrow => hsubset (h.replies link hlink reply hold hrow)
    · exact fun row hrow => hsubset (hnew hrow)
  have howned : ∀ c k, (s'.tabs c).socket = some k →
      ∃ link, s'.links[k]? = some link ∧ link.client = c := by
    intro c k hsocket
    rcases hsockets c k hsocket with hold | hnew
    · obtain ⟨link, hlink, hc⟩ := h.sockets c k hold
      obtain ⟨link', hlink', hclient⟩ := hclients k link hlink
      exact ⟨link', hlink', hclient.trans hc⟩
    · exact hnew
  rcases hpool with heq | ⟨b, hb⟩
  · exact ⟨heq ▸ h.recorded, heq ▸ h.indexed, heq ▸ h.published, hread, howned⟩
  · exact ⟨h.recorded.step hb, h.indexed.step hb, h.published.step h.recorded hb, hread, howned⟩

omit [DecidableEq W] in
lemma socket_update {tabs : C → VisitorPage} {c c' : C} {tab : VisitorPage} {k : Nat}
    (h : (Function.update tabs c tab c').socket = some k) :
    (c' = c ∧ tab.socket = some k) ∨ (c' ≠ c ∧ (tabs c').socket = some k) := by
  rw [Function.update_apply] at h
  split at h
  · exact Or.inl ⟨‹_›, h⟩
  · exact Or.inr ⟨‹_›, h⟩

omit [DecidableEq W] in
lemma socket_update_hook {tabs : C → VisitorPage} {c c' : C} {hook : CollaborativeDoc} {k : Nat}
    (h : (Function.update tabs c { tabs c with hook := hook } c').socket = some k) :
    (tabs c').socket = some k := by
  rcases socket_update h with ⟨rfl, hk⟩ | ⟨-, hk⟩
  · exact hk
  · exact hk

omit [DecidableEq W] [DecidableEq C] in
lemma getElem?_set_client {links : List (Link W C)} (hlink : links[k]? = some link)
    (hclient : link'.client = link.client) (j : Nat) (l : Link W C) (hl : links[j]? = some l) :
    ∃ l', (links.set k link')[j]? = some l' ∧ l'.client = l.client := by
  rw [List.getElem?_set]
  by_cases hj : k = j
  · subst hj
    obtain rfl := Option.some.inj (hlink.symm.trans hl)
    have hlen := (List.getElem?_eq_some_iff.mp hlink).1
    exact ⟨link', by simp [hlen], hclient⟩
  · exact ⟨l, by simp [hj, hl], rfl⟩

omit [DecidableEq W] [DecidableEq C] in
/-- The messages to the clients have stayed as they were. -/
lemma exists_of_received_eq {links links' : List (Link W C)}
    (h : links'.map Link.received = links.map Link.received) {k : Nat}
    (hlink : links[k]? = some link) :
    ∃ link', links'[k]? = some link' ∧ link'.received = link.received := by
  have hk : (links'.map Link.received)[k]? = some link.received := by
    rw [h, List.getElem?_map, hlink]
    rfl
  rw [List.getElem?_map] at hk
  exact Option.map_eq_some_iff.mp hk

theorem Wired.step (h : Wired s) (hstep : s.step P a = some s') : Wired s' := by
  -- where neither sockets nor tabs change, only the pool has to be looked at
  have hkept : ∀ {links tabs}, Remains s s' links tabs → s.links = links → s.tabs = tabs →
      Wired s' := by
    rintro links tabs ⟨hlinks, htabs, hpool⟩ rfl rfl
    exact h.of_pool hpool (fun l hl reply hreply => Or.inl ⟨l, hlinks ▸ hl, hreply⟩)
      (fun j l hl => ⟨l, hlinks ▸ hl, rfl⟩) fun c j hsocket => Or.inl (htabs ▸ hsocket)
  cases stepped hstep with
  | link k link link' messages hlink hs hmove =>
      obtain ⟨hlinks, htabs, hpool⟩ := hs
      refine h.of_pool hpool (fun l hl reply hreply => ?_)
        (hlinks ▸ getElem?_set_client hlink hmove.client_eq)
        fun c j hsocket => Or.inl (htabs ▸ hsocket)
      rw [hlinks] at hl
      rcases List.mem_or_eq_of_mem_set hl with hl | rfl
      · exact Or.inl ⟨l, hl, hreply⟩
      · exact (hmove.reply_old reply hreply).imp
          (fun hold => ⟨link, List.mem_of_getElem? hlink, hold⟩) id
  | pool hs => exact hkept hs rfl rfl
  | connect c w link hsocket hclient hempty hstage hs =>
      obtain ⟨hlinks, htabs, hpool⟩ := hs
      refine h.of_pool hpool (fun l hl reply hreply => ?_) (fun j l hl => ?_)
        fun c' j hsocket' => ?_
      · rw [hlinks] at hl
        rcases List.mem_append.mp hl with hl | hl
        · exact Or.inl ⟨l, hl, hreply⟩
        · rw [List.mem_singleton.mp hl, hstage] at hreply
          simp [RejoinStage.reply?] at hreply
      · have hlen := (List.getElem?_eq_some_iff.mp hl).1
        exact ⟨l, by rw [hlinks, List.getElem?_append_left hlen, hl], rfl⟩
      · rw [htabs] at hsocket'
        rcases socket_update hsocket' with ⟨rfl, hj⟩ | ⟨-, hj⟩
        · obtain rfl := Option.some.inj hj
          exact Or.inr ⟨link, by simp [hlinks], hclient⟩
        · exact Or.inl hj
  | hangUp c hs =>
      obtain ⟨hlinks, htabs, hpool⟩ := hs
      refine h.of_pool hpool (fun l hl reply hreply => Or.inl ⟨l, hlinks ▸ hl, hreply⟩)
        (fun j l hl => ⟨l, hlinks ▸ hl, rfl⟩) fun c' j hsocket' => ?_
      rw [htabs] at hsocket'
      rcases socket_update hsocket' with ⟨-, hj⟩ | ⟨-, hj⟩
      · simp at hj
      · exact Or.inl hj
  | edit c e links hreceived hs =>
      obtain ⟨hlinks, htabs, hpool⟩ := hs
      refine h.of_pool hpool (fun l' hl' reply hreply => ?_) (fun j l hl => ?_)
        fun c' j hsocket' => Or.inl (socket_update_hook (htabs ▸ hsocket'))
      · obtain ⟨j, hj⟩ := List.getElem?_of_mem (hlinks ▸ hl')
        obtain ⟨l, hl, heq⟩ := exists_of_received_eq hreceived.symm hj
        have hstage : l.stage = l'.stage := congrArg (fun r => r.2.2) heq
        exact Or.inl ⟨l, List.mem_of_getElem? hl, hstage ▸ hreply⟩
      · obtain ⟨l', hl', heq⟩ := exists_of_received_eq hreceived hl
        exact ⟨l', hlinks ▸ hl', congrArg Prod.fst heq⟩
  | handle c k link m rest toServer hsocket hlink hclient hs =>
      obtain ⟨hlinks, htabs, hpool⟩ := hs
      refine h.of_pool hpool (fun l hl reply hreply => ?_)
        (hlinks ▸ getElem?_set_client hlink rfl)
        fun c' j hsocket' => Or.inl (socket_update_hook (htabs ▸ hsocket'))
      rw [hlinks] at hl
      rcases List.mem_or_eq_of_mem_set hl with hl | rfl
      · exact Or.inl ⟨l, hl, hreply⟩
      · exact Or.inl ⟨link, List.mem_of_getElem? hlink, hreply⟩
  | deliver w envelope hnext hsubscribed hs =>
      obtain ⟨hlinks, htabs, hpool⟩ := hs
      refine h.of_pool hpool (fun l' hl' reply hreply => ?_) (fun j l hl => ?_)
        fun c j hsocket => Or.inl (htabs ▸ hsocket)
      · rw [hlinks] at hl'
        obtain ⟨l, hl, rfl⟩ := List.mem_map.mp hl'
        exact Or.inl ⟨l, hl, by simpa [apply_ite Link.stage] using hreply⟩
      · refine ⟨_, by rw [hlinks, List.getElem?_map, hl]; rfl, ?_⟩
        simp [apply_ite Link.client]

/-! ### What is sent -/

section

omit [DecidableEq W] [DecidableEq C]

lemma Wired.editsNodes (h : Wired s) : EditsNodes s.pool.db := by
  intro row hrow
  obtain ⟨msg, hmsg⟩ := h.recorded.exists_msg hrow
  exact hmsg ▸ ⟨msg.isEdit, msg.uid_ne_root⟩

lemma Wired.backs (h : Wired s) (hlink : s.links[k]? = some link) (hsends : Sends P s k link a m) :
    Backs s.pool.db m := by
  cases hsends with
  | error error => exact trivial
  | opAck call envelope hcall hstored hanswer =>
      exact s.pool.db.operations_le _ (h.recorded.stored_mem _ call envelope hcall hstored).1
  | joinAck ack hack =>
      rw [joinAck?] at hack
      split at hack
      · rename_i n reply hstage
        obtain ⟨loaded, hloaded, rfl⟩ := Option.map_eq_some_iff.mp hack
        have hindexed := h.indexed.entries link.worker n loaded hloaded
        have hread : reply.missedOps ⊆ s.pool.db.operations :=
          h.replies link (List.mem_of_getElem? hlink) reply (by rw [hstage]; rfl)
        constructor
        · simp only [Outlook.ofJoinAck, joinAck]
          split
          · rw [RGADocument.cells_serialize]
            exact hindexed.nodup
          · exact List.nodup_nil
        · intro row hrow
          simp only [joinAck] at hrow
          split at hrow
          · simp at hrow
          · exact hread hrow
      · simp at hack

lemma Sends.maySend (h : Sends P s k link a m) (hlink : s.links[k]? = some link)
    (hallowed : s.ToldInOrder P a) : s.MaySend k m := by
  cases h with
  | error error => exact fun _ _ _ _ => trivial
  | joinAck ack hack => exact hallowed link hlink ack hack
  | opAck call envelope hcall hstored hanswer =>
      exact hallowed link hlink call hcall _ hanswer _ (List.mem_singleton_self _)

lemma incoming_eq (hsocket : (s.tabs c).socket = some k) (hlink : s.links[k]? = some link) :
    s.incoming c = link.toClient := by
  rw [incoming, hsocket, Option.bind_some, hlink]
  rfl

lemma incoming_of_none (hsocket : (s.tabs c).socket = none) : s.incoming c = [] := by
  rw [incoming, hsocket]
  rfl

lemma incoming_set_of_ne (h : Wired s) (hlinks : s'.links = s.links.set k link')
    (htab : (s'.tabs c).socket = (s.tabs c).socket) (hne : (s.tabs c).socket ≠ some k) :
    s'.incoming c = s.incoming c := by
  cases hsocket : (s.tabs c).socket with
  | none => rw [incoming_of_none (htab.trans hsocket), incoming_of_none hsocket]
  | some j =>
      obtain ⟨l, hl, -⟩ := h.sockets c j hsocket
      have hj : k ≠ j := fun hkj => hne (hkj ▸ hsocket)
      have hl' : s'.links[j]? = some l := by rw [hlinks, List.getElem?_set_ne hj, hl]
      rw [incoming_eq (htab.trans hsocket) hl', incoming_eq hsocket hl]

lemma incoming_set_self (hlinks : s'.links = s.links.set k link')
    (hlink : s.links[k]? = some link) (hsocket : (s'.tabs c).socket = some k) :
    s'.incoming c = link'.toClient := by
  have hlen := (List.getElem?_eq_some_iff.mp hlink).1
  exact incoming_eq hsocket (by rw [hlinks, List.getElem?_set_self hlen])

end

/-! ### One lemma for each kind of step -/

omit [DecidableEq C] in
/-- A worker takes a step on a connection. -/
lemma informed_link {messages : List ServerMessage} (h : Wired s)
    (hin : Informed s.pool.db (s.tabs c).hook (s.incoming c)) (hlink : s.links[k]? = some link)
    (hmove : LinkMove P s k link link' a messages) (hallowed : s.ToldInOrder P a)
    (hs : Remains s s' (s.links.set k link') s.tabs) :
    Informed s.pool.db (s'.tabs c).hook (s'.incoming c) := by
  obtain ⟨hlinks, htabs, -⟩ := hs
  rw [htabs]
  by_cases hsocket : (s.tabs c).socket = some k
  · rw [incoming_eq hsocket hlink] at hin
    rw [incoming_set_self hlinks hlink (htabs ▸ hsocket), hmove.toClient_eq]
    obtain ⟨l, hl, rfl⟩ := h.sockets c k hsocket
    obtain rfl := Option.some.inj (hlink.symm.trans hl)
    cases hclosed : link.closed with
    | true => simpa using hin
    | false =>
        have hsends := hmove.sends
        have hlength := hmove.length_le
        match messages with
        | [] => simpa using hin
        | [m] =>
            have hm := hsends m (List.mem_singleton_self _)
            exact hin.send h.editsNodes (h.backs hlink hm)
              (hm.maySend hlink hallowed link hlink hclosed hsocket)
        | m :: m' :: rest => simp at hlength
  · rw [incoming_set_of_ne h hlinks (by rw [htabs]) hsocket]
    exact hin

/-- A client opens a connection. -/
lemma informed_connect {c' : C} (h : Wired s)
    (hin : Informed s.pool.db (s.tabs c').hook (s.incoming c')) (hempty : link.toClient = [])
    (hs : Remains s s' (s.links ++ [link])
      (Function.update s.tabs c ⟨(s.tabs c).hook, some s.links.length⟩)) :
    Informed s.pool.db (s'.tabs c').hook (s'.incoming c') := by
  obtain ⟨hlinks, htabs, -⟩ := hs
  by_cases hc : c' = c
  · subst hc
    have htab : s'.tabs c' = ⟨(s.tabs c').hook, some s.links.length⟩ := by
      rw [htabs, Function.update_self]
    have hsocket : (s'.tabs c').socket = some s.links.length := by rw [htab]
    have hlink : s'.links[s.links.length]? = some link := by simp [hlinks]
    rw [incoming_eq hsocket hlink, hempty, htab]
    exact hin.cut
  · have htab : s'.tabs c' = s.tabs c' := by rw [htabs, Function.update_of_ne hc]
    have hincoming : s'.incoming c' = s.incoming c' := by
      cases hsocket : (s.tabs c').socket with
      | none => rw [incoming_of_none (htab ▸ hsocket), incoming_of_none hsocket]
      | some j =>
          obtain ⟨l, hl, -⟩ := h.sockets c' j hsocket
          have hlen := (List.getElem?_eq_some_iff.mp hl).1
          rw [incoming_eq (htab ▸ hsocket) (by rw [hlinks, List.getElem?_append_left hlen, hl]),
            incoming_eq hsocket hl]
    rw [htab, hincoming]
    exact hin

lemma informed_hangUp {c' : C} (hin : Informed s.pool.db (s.tabs c').hook (s.incoming c'))
    (hs : Remains s s' s.links (Function.update s.tabs c { s.tabs c with socket := none })) :
    Informed s.pool.db (s'.tabs c').hook (s'.incoming c') := by
  obtain ⟨hlinks, htabs, -⟩ := hs
  by_cases hc : c' = c
  · subst hc
    have htab : s'.tabs c' = { s.tabs c' with socket := none } := by
      rw [htabs, Function.update_self]
    rw [incoming_of_none (by rw [htab]), htab]
    exact hin.cut
  · have htab : s'.tabs c' = s.tabs c' := by rw [htabs, Function.update_of_ne hc]
    have hincoming : s'.incoming c' = s.incoming c' := by rw [incoming, incoming, hlinks, htab]
    rw [hincoming, htab]
    exact hin

/-- A client edits its replica. -/
lemma informed_edit {c' : C} {e : UserEdit} {links : List (Link W C)} (h : Wired s)
    (hin : Informed s.pool.db (s.tabs c').hook (s.incoming c'))
    (hreceived : links.map Link.received = s.links.map Link.received)
    (hs : Remains s s' links
      (Function.update s.tabs c { s.tabs c with hook := ((s.tabs c).hook.userEdit e).1 })) :
    Informed s.pool.db (s'.tabs c').hook (s'.incoming c') := by
  obtain ⟨hlinks, htabs, -⟩ := hs
  have htab : (s'.tabs c').socket = (s.tabs c').socket := by
    rw [htabs, Function.update_apply]
    split
    · rename_i hc
      rw [hc]
    · rfl
  have hincoming : s'.incoming c' = s.incoming c' := by
    cases hsocket : (s.tabs c').socket with
    | none => rw [incoming_of_none (htab.trans hsocket), incoming_of_none hsocket]
    | some j =>
        obtain ⟨l, hl, -⟩ := h.sockets c' j hsocket
        obtain ⟨l', hl', heq⟩ := exists_of_received_eq hreceived hl
        rw [incoming_eq (htab.trans hsocket) (hlinks ▸ hl'), incoming_eq hsocket hl]
        exact congrArg (fun r => r.2.1) heq
  rw [hincoming, htabs, Function.update_apply]
  split
  · rename_i hc
    subst hc
    exact hin.edit e
  · exact hin

/-- A client handles a message. -/
lemma informed_handle {c' : C} {rest : List ServerMessage} {toServer : List OperationMessage}
    (h : Wired s) (hin : Informed s.pool.db (s.tabs c').hook (s.incoming c'))
    (hsocket : (s.tabs c).socket = some k) (hlink : s.links[k]? = some link)
    (hclient : link.toClient = m :: rest)
    (hs : Remains s s' (s.links.set k { link with toClient := rest, toServer := toServer })
      (Function.update s.tabs c
        { s.tabs c with hook := ((s.tabs c).hook.handleServerMessage m).1 })) :
    Informed s.pool.db (s'.tabs c').hook (s'.incoming c') := by
  obtain ⟨hlinks, htabs, -⟩ := hs
  by_cases hc : c' = c
  · subst hc
    have htab : s'.tabs c' =
        { s.tabs c' with hook := ((s.tabs c').hook.handleServerMessage m).1 } := by
      rw [htabs, Function.update_self]
    rw [incoming_eq hsocket hlink, hclient] at hin
    rw [incoming_set_self hlinks hlink (by rw [htab]; exact hsocket), htab]
    exact hin.handle
  · have htab : s'.tabs c' = s.tabs c' := by rw [htabs, Function.update_of_ne hc]
    have hne : (s.tabs c').socket ≠ some k := by
      intro hsocket'
      obtain ⟨l, hl, hown⟩ := h.sockets c k hsocket
      obtain ⟨l', hl', hown'⟩ := h.sockets c' k hsocket'
      obtain rfl := Option.some.inj (hl.symm.trans hl')
      exact hc (hown'.symm.trans hown)
    rw [incoming_set_of_ne h hlinks (by rw [htab]) hne, htab]
    exact hin

omit [DecidableEq C] in
/-- A publication comes out of Redis. -/
lemma informed_deliver {w : W} {envelope : OperationEnvelope} (h : Wired s)
    (hin : Informed s.pool.db (s.tabs c).hook (s.incoming c))
    (hnext : s.pool.channel[s.pool.delivered w]? = some envelope)
    (hsubscribed : s.subscribed w = true) (hallowed : s.ToldInOrder P (.deliver w))
    (hs : Remains s s' (s.links.map fun link =>
      if link.worker = w then link.broadcast (s.opHandlers w) envelope else link) s.tabs) :
    Informed s.pool.db (s'.tabs c).hook (s'.incoming c) := by
  obtain ⟨hlinks, htabs, -⟩ := hs
  rw [htabs]
  cases hsocket : (s.tabs c).socket with
  | none =>
      rw [incoming_of_none hsocket] at hin
      rwa [incoming_of_none (htabs ▸ hsocket)]
  | some k =>
      obtain ⟨link, hlink, rfl⟩ := h.sockets c k hsocket
      rw [incoming_eq hsocket hlink] at hin
      have hlink' : s'.links[k]? = some (if link.worker = w then
          link.broadcast (s.opHandlers w) envelope else link) := by
        rw [hlinks, List.getElem?_map, hlink]
        rfl
      rw [incoming_eq (htabs ▸ hsocket) hlink']
      by_cases hw : link.worker = w ∧ link.stage.isRegistered = true ∧ link.closed = false ∧
          0 < s.opHandlers w
      · obtain ⟨hworker, hregistered, hclosed, hpos⟩ := hw
        have hlen := (List.getElem?_eq_some_iff.mp hlink).1
        rw [if_pos hworker, Link.broadcast, if_pos hregistered, Link.toClient_send, hclosed]
        exact hin.send_replicate h.editsNodes (h.published (List.mem_of_getElem? hnext))
          (hallowed envelope hnext hsubscribed hpos k hlen link hlink hworker hregistered link hlink
            hclosed hsocket) _
      · -- nothing is sent on the connection
        have hsame : (if link.worker = w then link.broadcast (s.opHandlers w) envelope
            else link).toClient = link.toClient := by
          split
          · rename_i hworker
            rw [Link.broadcast]
            split
            · rename_i hregistered
              rw [Link.toClient_send]
              cases hclosed : link.closed with
              | true => simp
              | false =>
                  have hzero : s.opHandlers w = 0 := by
                    by_contra hne
                    exact hw ⟨hworker, hregistered, hclosed, Nat.pos_of_ne_zero hne⟩
                  simp [hzero]
            · rfl
          · rfl
        rwa [hsame]

/-- Every client is informed. -/
def AllInformed (s : Rejoining W C) : Prop :=
  ∀ c, Informed s.pool.db (s.tabs c).hook (s.incoming c)

/-- **What is known of the clients is kept** by every step that tells them seqs in order. -/
theorem AllInformed.step (h : AllInformed s) (hwired : Wired s) (hallowed : s.ToldInOrder P a)
    (hstep : s.step P a = some s') : AllInformed s' := by
  intro c
  have hin := h c
  have hinversion := stepped hstep
  refine Informed.grow ?_ (extends_pool hinversion.pool_move).1
  cases hinversion with
  | link k link link' messages hlink hs hmove =>
      exact informed_link hwired hin hlink hmove hallowed hs
  | pool hs =>
      rw [incoming, hs.links_eq, hs.tabs_eq]
      exact hin
  | connect c₀ w link hsocket hclient hempty hstage hs =>
      exact informed_connect hwired hin hempty hs
  | hangUp c₀ hs => exact informed_hangUp hin hs
  | edit c₀ e links hreceived hs => exact informed_edit hwired hin hreceived hs
  | handle c₀ k link m rest toServer hsocket hlink hclient hs =>
      exact informed_handle hwired hin hsocket hlink hclient hs
  | deliver w envelope hnext hsubscribed hs =>
      exact informed_deliver hwired hin hnext hsubscribed hallowed hs

lemma extends_run (h : Reach (step P) (fun _ _ => True) s s') :
    s'.pool.db.Extends s.pool.db := by
  induction h with
  | refl => exact .refl _
  | tail a _ _ hstep ih => exact ih.trans (extends_pool (stepped hstep).pool_move).1

/-- **The resume point is sound** in every state that is reached while seqs are told in order,
with any number of connections that are lost and opened again: of all that is stored by then or
at any later time, what the client would not ask for when it rejoins is in its replica. -/
theorem resumeSound {snapshotOpsThreshold : Nat}
    (h : Reach (step P) (ToldInOrder P) (start P snapshotOpsThreshold) s)
    (hlater : Reach (step P) (fun _ _ => True) s s') (c : C) :
    ResumeSound s'.pool.db (s.tabs c).hook := by
  have hrun : Wired s ∧ AllInformed s := by
    refine h.invariant ⟨wired_start _, fun c => ?_⟩ fun _ _ _ hrun hallowed hstep =>
      And.intro (hrun.1.step hstep) (hrun.2.step hrun.1 hallowed hstep)
    exact informed_new P.docId (P.queue c) rfl
  exact ((hrun.2 c).grow (extends_run hlater)).along.now.sound

/-! ### Two runs -/

instance (s : Rejoining W C) (k : Nat) (message : ServerMessage) :
    Decidable (s.MaySend k message) :=
  inferInstanceAs (Decidable (∀ link ∈ s.links[k]?, link.closed = false →
    (s.tabs link.client).socket = some k →
      (s.tabs link.client).hook.InOrder s.pool.db link.toClient message))

instance (s : Rejoining W C) : ∀ a, Decidable (s.ToldInOrder P a)
  | .acknowledge k => inferInstanceAs (Decidable (∀ link ∈ s.links[k]?,
      ∀ ack ∈ s.joinAck? P k link, s.MaySend k (.joinAck ack)))
  | .reply k => inferInstanceAs (Decidable (∀ link ∈ s.links[k]?,
      ∀ call ∈ s.pool.calls (k, link.processed), ∀ messages ∈ answerTo call,
        ∀ message ∈ messages, s.MaySend k message))
  | .deliver w => inferInstanceAs (Decidable (∀ envelope ∈ s.pool.channel[s.pool.delivered w]?,
      s.subscribed w = true → 0 < s.opHandlers w → ∀ k < s.links.length, ∀ link ∈ s.links[k]?,
        link.worker = w → link.stage.isRegistered = true → s.MaySend k (.broadcast envelope)))
  | .connect .. | .hangUp _ | .close _ | .arrive _ | .load _ | .readMissed _ | .register _
  | .edit .. | .receive _ | .process _ | .advance _ | .throwAppend _ | .subscribe _ | .handle _
  | .background _ => isTrue trivial

/-- Two clients with nothing queued. -/
def pair : Visitors Bool where
  docId := JSString.lit "d"
  clientId := fun c => if c then JSString.lit "b" else JSString.lit "a"
  userId := fun _ => JSString.lit "u"
  queue := fun _ => []
  sessionId := fun k => JSString.lit "s" ++ List.replicate k (JSString.codeUnit '0')

/-- A client opens a connection to the only worker and is given the document. -/
def joins (c : Bool) (k : Nat) : List (RejoinAction Unit Bool) :=
  [.connect c (), .arrive k, .load k, .acknowledge k, .handle c]

/-- The first one to do so waits for the load. -/
def joinsFirst (c : Bool) : List (RejoinAction Unit Bool) :=
  [.connect c (), .arrive 0] ++ List.replicate 3 (.background (.load () 0)) ++
    [.load 0, .acknowledge 0, .subscribe (), .handle c]

/-- The client types a character at the beginning, which is stored and published. -/
def types (c : Bool) (k : Nat) (char : String) : List (RejoinAction Unit Bool) :=
  [.edit c (.single (.insert 0 (JSString.lit char) (JSString.lit char))), .receive k, .process k] ++
    List.replicate 7 (.advance k)

/-- The second client comes and goes, and comes back when the first one has typed a character. -/
def cameBack : Rejoining Unit Bool :=
  (runAllowed (step pair) (ToldInOrder pair) (start pair 100) (joinsFirst true ++ [.hangUp true] ++
    joins false 1 ++ types false 1 "x" ++ [.reply 1, .handle false] ++ joins true 2 ++
      [.deliver (), .handle true])).get (by decide +kernel)

theorem resumeSound_cameBack : ResumeSound cameBack.pool.db (cameBack.tabs true).hook := by
  have hreach : Reach (step pair) (ToldInOrder pair) (start pair 100) cameBack := reach_get _
  exact resumeSound hreach .refl true

/-- Two clients type at the same time.  The second one is told that its character is stored before
the first one's has come out of Redis, and would not ask for it. -/
theorem not_forall_resumeSound :
    ¬ ∀ s : Rejoining Unit Bool, Reach (step pair) (fun _ _ => True) (start pair 100) s →
      ∀ c, ResumeSound s.pool.db (s.tabs c).hook := by
  intro h
  have hrun : ∃ s ∈ runAllowed (step pair) (fun _ _ => True) (start pair 100)
      (joinsFirst false ++ joins true 1 ++ types false 0 "x" ++ types true 1 "y" ++
        [.reply 1, .handle true]),
      ∃ row ∈ s.pool.db.operations, row.seq ≤ (s.tabs true).hook.lastSeqRef ∧
        ∀ doc ∈ (s.tabs true).hook.docRef, ¬ Encodes doc.cells row.op := by decide +kernel
  obtain ⟨s, hs, row, hmem, hle, hnone⟩ := hrun
  obtain ⟨doc, hdoc, hencodes⟩ := h s (reach_of_runAllowed .refl hs) true row hmem hle
  exact hnone doc hdoc hencodes

/-- A client that has typed a character and knows that it is stored has lost it when it comes
back. -/
example : ∃ s ∈ runAllowed (step pair) (fun _ _ => True) (start pair 100)
    (joinsFirst false ++ types false 0 "x" ++ [.reply 0, .handle false, .hangUp false,
      .connect false (), .arrive 1, .load 1, .readMissed 1, .register 1, .acknowledge 1,
      .handle false]),
    (s.tabs false).hook.lastSeqRef = 1 ∧ ∃ doc ∈ (s.tabs false).hook.docRef, doc.cells = [] := by
  decide +kernel

end Rejoining

end SyncEngine
