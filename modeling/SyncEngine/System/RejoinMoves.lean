import SyncEngine.Server.CallProgress
import SyncEngine.System.Rejoining

/-!
# What an action does to the connections

`stepped` is the inversion of `Rejoining.step`, as far as messages to the clients go.  A worker's
step on a connection sends at most one message, and what it may be is told by `Sends`; the other
steps open or close a connection, run a client's hook, or bring a publication to all sessions of
a worker.

Invariants of the system are derived from this theorem and never from `step` itself.
-/

namespace SyncEngine

/-! ## What is sent on a connection -/

namespace Link

variable {W C : Type*} (link : Link W C) (messages : List ServerMessage)

/-- A connection without what the client sends and what has become of it. -/
def received : C × List ServerMessage × RejoinStage := (link.client, link.toClient, link.stage)

lemma toClient_send :
    (link.send messages).toClient = link.toClient ++ if link.closed then [] else messages := by
  rw [send]
  split
  · exact (List.append_nil _).symm
  · rfl

@[simp] lemma client_send : (link.send messages).client = link.client := by
  rw [send]
  split <;> rfl

@[simp] lemma stage_send : (link.send messages).stage = link.stage := by
  rw [send]
  split <;> rfl

@[simp] lemma client_broadcast (handlers : Nat) (envelope : OperationEnvelope) :
    (link.broadcast handlers envelope).client = link.client := by
  rw [broadcast]
  split
  · exact client_send ..
  · rfl

@[simp] lemma stage_broadcast (handlers : Nat) (envelope : OperationEnvelope) :
    (link.broadcast handlers envelope).stage = link.stage := by
  rw [broadcast]
  split
  · exact stage_send ..
  · rfl

end Link

namespace Rejoining

open WorkerPool CollaborativeDoc

variable {W C : Type*} {P : Visitors C} {s s' : Rejoining W C} {a : RejoinAction W C} {c : C}
  {k : Nat} {link link' : Link W C} {m : ServerMessage}

/-- What a worker sends on a connection when it takes a step. -/
inductive Sends (P : Visitors C) (s : Rejoining W C) (k : Nat) (link : Link W C) :
    RejoinAction W C → ServerMessage → Prop
  | error {a : RejoinAction W C} (error : ErrorMessage) : Sends P s k link a (.error error)
  | joinAck (ack : JoinAckMessage) (hack : s.joinAck? P k link = some ack) :
      Sends P s k link (.acknowledge k) (.joinAck ack)
  | opAck (call : OperationCall W) (envelope : OperationEnvelope)
      (hcall : s.pool.calls (k, link.processed) = some call)
      (hstored : call.stored = some envelope)
      (hanswer : answerTo call = some [.opAck call.msg.clientSeq envelope.seq]) :
      Sends P s k link (.reply k) (.opAck call.msg.clientSeq envelope.seq)

/-- The end of a connection at the worker after a step. -/
structure LinkMove (P : Visitors C) (s : Rejoining W C) (k : Nat) (link link' : Link W C)
    (a : RejoinAction W C) (messages : List ServerMessage) : Prop where
  client_eq : link'.client = link.client
  toClient_eq : link'.toClient = link.toClient ++ if link.closed then [] else messages
  reply_old : ∀ reply ∈ link'.stage.reply?, reply ∈ link.stage.reply? ∨
    reply.missedOps ⊆ s.pool.db.operations
  sends : ∀ m ∈ messages, Sends P s k link a m
  length_le : messages.length ≤ 1

section Moves

variable [DecidableEq W]

/-- The pool after a step. -/
def PoolMove (pool pool' : WorkerPool W (Nat × Nat)) : Prop :=
  pool' = pool ∨ ∃ b, pool.step b = some pool'

/-- A state, up to the count of the handlers and the subscriptions. -/
structure Remains (s s' : Rejoining W C) (links : List (Link W C)) (tabs : C → VisitorPage) :
    Prop where
  links_eq : s'.links = links
  tabs_eq : s'.tabs = tabs
  pool : PoolMove s.pool s'.pool

variable [DecidableEq C]

/-- What a step does to the connections and to the tabs. -/
inductive Stepped (P : Visitors C) (s s' : Rejoining W C) : RejoinAction W C → Prop
  | link {a : RejoinAction W C} (k : Nat) (link link' : Link W C) (messages : List ServerMessage)
      (hlink : s.links[k]? = some link) (h : Remains s s' (s.links.set k link') s.tabs)
      (hmove : LinkMove P s k link link' a messages) : Stepped P s s' a
  /-- The step is one of the pool, or of Redis. -/
  | pool {a : RejoinAction W C} (h : Remains s s' s.links s.tabs) : Stepped P s s' a
  | connect (c : C) (w : W) (link : Link W C) (hsocket : (s.tabs c).socket = none)
      (hclient : link.client = c) (hempty : link.toClient = []) (hstage : link.stage = .connecting)
      (h : Remains s s' (s.links ++ [link])
        (Function.update s.tabs c ⟨(s.tabs c).hook, some s.links.length⟩)) :
      Stepped P s s' (.connect c w)
  | hangUp (c : C)
      (h : Remains s s' s.links (Function.update s.tabs c { s.tabs c with socket := none })) :
      Stepped P s s' (.hangUp c)
  | edit (c : C) (e : UserEdit) (links : List (Link W C))
      (hlinks : links.map Link.received = s.links.map Link.received)
      (h : Remains s s' links
        (Function.update s.tabs c { s.tabs c with hook := ((s.tabs c).hook.userEdit e).1 })) :
      Stepped P s s' (.edit c e)
  | handle (c : C) (k : Nat) (link : Link W C) (m : ServerMessage) (rest : List ServerMessage)
      (toServer : List OperationMessage) (hsocket : (s.tabs c).socket = some k)
      (hlink : s.links[k]? = some link) (hclient : link.toClient = m :: rest)
      (h : Remains s s' (s.links.set k { link with toClient := rest, toServer := toServer })
        (Function.update s.tabs c
          { s.tabs c with hook := ((s.tabs c).hook.handleServerMessage m).1 })) :
      Stepped P s s' (.handle c)
  | deliver (w : W) (envelope : OperationEnvelope)
      (hnext : s.pool.channel[s.pool.delivered w]? = some envelope)
      (hsubscribed : s.subscribed w = true)
      (h : Remains s s' (s.links.map fun link =>
        if link.worker = w then link.broadcast (s.opHandlers w) envelope else link) s.tabs) :
      Stepped P s s' (.deliver w)

end Moves

/-! ## Inversion -/

lemma sends_of_answerTo {call : OperationCall W} {messages : List ServerMessage}
    (hcall : s.pool.calls (k, link.processed) = some call) (h : answerTo call = some messages) :
    (∀ m ∈ messages, Sends P s k link (.reply k) m) ∧ messages.length ≤ 1 := by
  have hanswer := h
  rw [answerTo] at h
  split at h
  · obtain rfl := Option.some.inj h
    simp
  · rw [Collaboration.replyTo] at h
    split at h
    · rename_i n ok envelope hstage
      obtain rfl := Option.some.inj h
      refine ⟨fun m hm => ?_, Nat.le_refl _⟩
      obtain rfl := List.mem_singleton.mp hm
      exact .opAck call envelope hcall (OperationCall.stored_of_stage hstage) hanswer
    · obtain rfl := Option.some.inj h
      refine ⟨fun m hm => ?_, Nat.le_refl _⟩
      obtain rfl := List.mem_singleton.mp hm
      exact .error _
    · simp at h

/-- A step that changes one connection sends what it puts there. -/
lemma linkMove_send {messages : List ServerMessage}
    (hclient : link'.client = link.client) (htoClient : link'.toClient = link.toClient)
    (hclosed : link'.closed = link.closed)
    (hreply : ∀ reply ∈ link'.stage.reply?, reply ∈ link.stage.reply? ∨
      reply.missedOps ⊆ s.pool.db.operations)
    (hsends : (∀ m ∈ messages, Sends P s k link a m) ∧ messages.length ≤ 1) :
    LinkMove P s k link (link'.send messages) a messages := by
  refine ⟨by rw [Link.client_send, hclient], ?_, by rwa [Link.stage_send], hsends.1, hsends.2⟩
  rw [Link.toClient_send, htoClient, hclosed]

lemma linkMove_silent (hclient : link'.client = link.client)
    (htoClient : link'.toClient = link.toClient)
    (hreply : ∀ reply ∈ link'.stage.reply?, reply ∈ link.stage.reply? ∨
      reply.missedOps ⊆ s.pool.db.operations) : LinkMove P s k link link' a [] :=
  ⟨hclient, by simp [htoClient], hreply, by simp, by simp⟩

lemma sends_single (h : Sends P s k link a m) :
    (∀ m' ∈ [m], Sends P s k link a m') ∧ [m].length ≤ 1 :=
  ⟨fun _ hm' => List.mem_singleton.mp hm' ▸ h, Nat.le_refl _⟩

lemma missedOps_subset (db : Database) (msg : JoinMessage) :
    (missedReply db msg).missedOps ⊆ db.operations := by
  intro row hrow
  rw [missedReply] at hrow
  split at hrow
  · simp only at hrow
    split at hrow
    · simp at hrow
    · rw [getMissedOperations] at hrow
      split at hrow
      · simp at hrow
      · exact (Database.mem_of_mem_loadOperationsAfterSeq hrow).1
  · simp at hrow

lemma received_runHook [DecidableEq C] (s : Rejoining W C) (c : C)
    (result : CollaborativeDoc × List OperationMessage) :
    (s.runHook c result).links.map Link.received = s.links.map Link.received := by
  rw [runHook]
  cases (s.tabs c).socket with
  | none => rfl
  | some k =>
      refine List.ext_getElem? fun j => ?_
      rw [List.getElem?_map, List.getElem?_map, List.getElem?_modify]
      split
      · cases s.links[j]? <;> rfl
      · simp

variable [DecidableEq W] [DecidableEq C]

omit [DecidableEq W] in
/-- The message comes off the socket, and what the hook sends goes onto it. -/
lemma links_runHook (hsocket : (s.tabs c).socket = some k) (link : Link W C)
    (result : CollaborativeDoc × List OperationMessage) :
    ((s.setLink k link).runHook c result).links =
      s.links.set k { link with toServer := link.toServer ++ result.2 } := by
  have hsame : ((s.setLink k link).tabs c).socket = some k := hsocket
  rw [runHook, hsame]
  refine List.ext_getElem? fun j => ?_
  simp only [setLink, List.getElem?_modify, List.getElem?_set]
  by_cases hj : k = j
  · subst hj
    by_cases hlen : k < s.links.length <;> simp [hlen]
  · simp [hj]

omit [DecidableEq C] in
lemma remains_call {b : PoolAction W (Nat × Nat)} (h : s.call link b = some s') :
    Remains s s' s.links s.tabs := by
  rw [call] at h
  split at h
  · obtain ⟨pool, hpool, rfl⟩ := Option.map_eq_some_iff.mp h
    exact ⟨rfl, rfl, Or.inr ⟨b, hpool⟩⟩
  · simp at h

lemma stepped_arrive (hlink : s.links[k]? = some link) (h : s.arrive k link = some s') :
    Stepped P s s' (.arrive k) := by
  rw [arrive] at h
  split at h
  · split at h
    · simp at h
    · obtain rfl := Option.some.inj h
      exact .link k link _ [] hlink ⟨rfl, rfl, Or.inr ⟨.join link.worker, rfl⟩⟩
        (linkMove_silent rfl rfl (by simp [RejoinStage.reply?]))
  · simp at h

lemma stepped_load (hlink : s.links[k]? = some link) (h : s.load k link = some s') :
    Stepped P s s' (.load k) := by
  rw [load] at h
  split at h
  · obtain ⟨-, -, rfl⟩ := Option.map_eq_some_iff.mp h
    refine .link k link _ [] hlink ⟨rfl, rfl, Or.inl rfl⟩
      (linkMove_silent rfl rfl fun reply hreply => ?_)
    by_cases hlast : link.joinMessage.lastSeq > 0
    · simp [hlast, RejoinStage.reply?] at hreply
    · simp only [hlast, if_false, RejoinStage.reply?] at hreply
      obtain rfl := Option.some.inj hreply
      exact Or.inr (List.nil_subset _)
  · simp at h

lemma stepped_readMissed (hlink : s.links[k]? = some link) (h : s.readMissed k link = some s') :
    Stepped P s s' (.readMissed k) := by
  rw [readMissed] at h
  split at h
  · obtain rfl := Option.some.inj h
    refine .link k link _ [] hlink ⟨rfl, rfl, Or.inl rfl⟩
      (linkMove_silent rfl rfl fun reply hreply => ?_)
    obtain rfl := Option.some.inj hreply
    exact Or.inr (missedOps_subset ..)
  · simp at h

lemma stepped_register (hlink : s.links[k]? = some link) (h : s.register k link = some s') :
    Stepped P s s' (.register k) := by
  rw [register] at h
  split at h
  · rename_i n reply hstage
    obtain rfl := Option.some.inj h
    refine .link k link _ [] hlink ⟨rfl, rfl, Or.inl rfl⟩
      (linkMove_silent rfl rfl fun reply hreply => ?_)
    rw [hstage]
    exact Or.inl hreply
  · simp at h

lemma stepped_acknowledge (hlink : s.links[k]? = some link) (h : s.acknowledge P k link = some s') :
    Stepped P s s' (.acknowledge k) := by
  obtain ⟨ack, hack, rfl⟩ := Option.map_eq_some_iff.mp h
  refine .link k link _ [.joinAck ack] hlink ⟨rfl, rfl, Or.inl rfl⟩
    (linkMove_send rfl rfl rfl (by simp [RejoinStage.reply?]) (sends_single ?_))
  exact .joinAck ack hack

lemma stepped_receive (hlink : s.links[k]? = some link) (h : s.receive k link = some s') :
    Stepped P s s' (.receive k) := by
  rw [receive] at h
  split at h
  · simp at h
  · simp at h
  · simp at h
  · rename_i msg rest hstage hclosed hserver
    simp only at h
    split at h
    · split at h
      · obtain rfl := Option.some.inj h
        exact .link k link _ [] hlink ⟨rfl, rfl, Or.inl rfl⟩
          (linkMove_silent rfl rfl fun _ => Or.inl)
      · obtain rfl := Option.some.inj h
        exact .link k link _ [.error invalidOperation] hlink ⟨rfl, rfl, Or.inl rfl⟩
          (linkMove_send rfl rfl rfl (fun _ => Or.inl) (sends_single (.error _)))
    · obtain rfl := Option.some.inj h
      refine .link k link _ [.error invalidJoin] hlink ⟨rfl, rfl, Or.inl rfl⟩ ?_
      have hmove : LinkMove P s k link (({ link with toServer := rest } : Link W C).send
          [.error invalidJoin]) (.receive k) [.error invalidJoin] :=
        linkMove_send rfl rfl rfl (fun _ => Or.inl) (sends_single (.error _))
      exact ⟨hmove.client_eq, hmove.toClient_eq, hmove.reply_old, hmove.sends, hmove.length_le⟩

lemma stepped_process (hlink : s.links[k]? = some link) (h : s.process P k link = some s') :
    Stepped P s s' (.process k) := by
  rw [process] at h
  split at h
  · obtain ⟨pool, hpool, rfl⟩ := Option.map_eq_some_iff.mp h
    exact .link k link _ [] hlink ⟨rfl, rfl, Or.inr ⟨_, hpool⟩⟩
      (linkMove_silent rfl rfl fun _ => Or.inl)
  · simp at h

lemma stepped_reply (hlink : s.links[k]? = some link) (h : s.reply k link = some s') :
    Stepped P s s' (.reply k) := by
  rw [reply] at h
  split at h
  · obtain ⟨call, hcall, h⟩ := Option.bind_eq_some_iff.mp h
    obtain ⟨messages, hanswer, rfl⟩ := Option.map_eq_some_iff.mp h
    exact .link k link _ messages hlink ⟨rfl, rfl, Or.inl rfl⟩
      (linkMove_send rfl rfl rfl (fun _ => Or.inl) (sends_of_answerTo hcall hanswer))
  · simp at h

lemma stepped_connect {w : W} (h : s.connect P c w = some s') : Stepped P s s' (.connect c w) := by
  rw [connect] at h
  split at h
  · simp at h
  · rename_i hsocket
    obtain rfl := Option.some.inj h
    exact .connect c w _ hsocket rfl rfl rfl ⟨rfl, rfl, Or.inl rfl⟩

lemma stepped_deliver {w : W} (h : s.deliver w = some s') : Stepped P s s' (.deliver w) := by
  obtain ⟨envelope, hnext, h⟩ := Option.bind_eq_some_iff.mp h
  obtain ⟨pool, hpool, rfl⟩ := Option.map_eq_some_iff.mp h
  cases hsubscribed : s.subscribed w with
  | true =>
      exact .deliver w envelope hnext hsubscribed ⟨rfl, rfl, Or.inr ⟨_, hpool⟩⟩
  | false => exact .pool ⟨rfl, rfl, Or.inr ⟨_, hpool⟩⟩

lemma stepped_handle (h : s.handle c = some s') : Stepped P s s' (.handle c) := by
  obtain ⟨k, hsocket, h⟩ := Option.bind_eq_some_iff.mp h
  obtain ⟨link, hlink, h⟩ := Option.bind_eq_some_iff.mp h
  split at h
  · simp at h
  · rename_i m rest hclient
    obtain rfl := Option.some.inj h
    exact .handle c k link m rest _ hsocket hlink hclient
      ⟨links_runHook hsocket .., rfl, Or.inl rfl⟩

/-- **What a step can do**, to the connections and to the tabs. -/
theorem stepped (h : s.step P a = some s') : Stepped P s s' a := by
  cases a with
  | connect c w => exact stepped_connect h
  | hangUp c =>
      obtain rfl := Option.some.inj h
      exact .hangUp c ⟨rfl, rfl, Or.inl rfl⟩
  | close k =>
      obtain ⟨link, hlink, rfl⟩ := Option.map_eq_some_iff.mp h
      exact .link k link _ [] hlink ⟨rfl, rfl, Or.inl rfl⟩
        (linkMove_silent rfl rfl fun _ => Or.inl)
  | arrive k =>
      obtain ⟨link, hlink, h⟩ := Option.bind_eq_some_iff.mp h
      exact stepped_arrive hlink h
  | load k =>
      obtain ⟨link, hlink, h⟩ := Option.bind_eq_some_iff.mp h
      exact stepped_load hlink h
  | readMissed k =>
      obtain ⟨link, hlink, h⟩ := Option.bind_eq_some_iff.mp h
      exact stepped_readMissed hlink h
  | register k =>
      obtain ⟨link, hlink, h⟩ := Option.bind_eq_some_iff.mp h
      exact stepped_register hlink h
  | acknowledge k =>
      obtain ⟨link, hlink, h⟩ := Option.bind_eq_some_iff.mp h
      exact stepped_acknowledge hlink h
  | edit c e =>
      obtain rfl := Option.some.inj h
      exact .edit c e _ (received_runHook ..) ⟨rfl, rfl, Or.inl rfl⟩
  | receive k =>
      obtain ⟨link, hlink, h⟩ := Option.bind_eq_some_iff.mp h
      exact stepped_receive hlink h
  | process k =>
      obtain ⟨link, hlink, h⟩ := Option.bind_eq_some_iff.mp h
      exact stepped_process hlink h
  | advance k =>
      obtain ⟨link, hlink, h⟩ := Option.bind_eq_some_iff.mp h
      exact .pool (remains_call h)
  | throwAppend k =>
      obtain ⟨link, hlink, h⟩ := Option.bind_eq_some_iff.mp h
      exact .pool (remains_call h)
  | reply k =>
      obtain ⟨link, hlink, h⟩ := Option.bind_eq_some_iff.mp h
      exact stepped_reply hlink h
  | subscribe w =>
      rw [step, subscribe] at h
      split at h
      · obtain rfl := Option.some.inj h
        exact .pool ⟨rfl, rfl, Or.inl rfl⟩
      · simp at h
  | deliver w => exact stepped_deliver h
  | handle c => exact stepped_handle h
  | background b =>
      rw [step] at h
      split at h
      · obtain ⟨pool, hpool, rfl⟩ := Option.map_eq_some_iff.mp h
        exact .pool ⟨rfl, rfl, Or.inr ⟨b, hpool⟩⟩
      · simp at h

lemma Stepped.pool_move (h : Stepped P s s' a) : PoolMove s.pool s'.pool := by
  cases h with
  | link _ _ _ _ _ hs => exact hs.pool
  | pool hs => exact hs.pool
  | connect _ _ _ _ _ _ _ hs => exact hs.pool
  | hangUp _ hs => exact hs.pool
  | edit _ _ _ _ hs => exact hs.pool
  | handle _ _ _ _ _ _ _ _ _ hs => exact hs.pool
  | deliver _ _ _ _ hs => exact hs.pool

end Rejoining

end SyncEngine
