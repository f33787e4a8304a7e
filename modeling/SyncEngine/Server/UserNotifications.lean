import SyncEngine.Lib.Transition
import SyncEngine.Server.RedisPubSub

/-!
# Notifications of a user

The way of a notification from `publishUserNotification` through Redis to the sessions of the user
on one worker (`server/fanout/redis-pubsub.ts`, `server/transport/websocket-server.ts`).

Redis takes the SUBSCRIBE and UNSUBSCRIBE commands of the worker in their order, and puts what is
published on a channel into the worker's inbox as long as the channel is subscribed.  The router
takes messages out of the inbox, the user out of the name of the channel, and calls the handlers
of the user.  A handler belongs to one session and calls `sendToSession`; that it is called does
not depend on whether the session is still there.  What is recorded are the calls: `sendToSession`
refuses a socket that is not open, and closes one that is slow.

`unsubscribeFromUser` is called with a handler that is made for the call, which is in no set.  So
a handler is never removed, and a channel is unsubscribed only before it has had its first one.

Publications, commands, deliveries, JOINs and disconnects happen in any order.
`notifications_once` says what `sendToSession` is called with for a session: the notifications of
its user, in their order, each once, from some point on that is not later than its own SUBSCRIBE.
-/

namespace SyncEngine

open Transition

/-! ## Channels of users -/

/-- `user:{userId}:notifications`. -/
def userChannel (userId : JSString) : JSString :=
  JSString.lit "user:" ++ userId ++ JSString.lit ":notifications"

/-- The user a message on the channel is for, as the router finds it: by the ending of the
channel, and then `channel.split(':')[1]`. -/
def routedUser (channel : JSString) : Option JSString :=
  if JSString.lit ":ops" <:+ channel then none
  else if JSString.lit ":presence" <:+ channel then none
  else if JSString.lit ":notifications" <:+ channel then (channel.splitOn JSString.colon)[1]?
  else none

lemma userChannel_inj {userId userId' : JSString} :
    userChannel userId = userChannel userId' ↔ userId = userId' := by
  simp [userChannel]

/-- The channel of a user is taken for that of the user. -/
lemma routedUser_userChannel {userId : JSString} (h : JSString.colon ∉ userId) :
    routedUser (userChannel userId) = some userId := by
  have hends : JSString.lit ":notifications" <:+ userChannel userId := List.suffix_append _ _
  -- a shorter ending would be an ending of `:notifications`
  have hops : ¬ JSString.lit ":ops" <:+ userChannel userId := fun hsuffix =>
    absurd (List.suffix_of_suffix_length_le hsuffix hends (by decide)) (by decide)
  have hpresence : ¬ JSString.lit ":presence" <:+ userChannel userId := fun hsuffix =>
    absurd (List.suffix_of_suffix_length_le hsuffix hends (by decide)) (by decide)
  have hsplit : userChannel userId =
      JSString.lit "user" ++ JSString.colon :: (userId ++ JSString.colon ::
        JSString.lit "notifications") := by
    rw [userChannel, List.append_assoc]
    rfl
  rw [routedUser, if_neg hops, if_neg hpresence, if_pos hends, hsplit,
    List.splitOn_append_cons_self, List.splitOn_append_cons_self, List.splitOn_eq_singleton h]
  rfl

/-! ## The worker and Redis -/

/-- `(notification) => sendToSession(session, …)`. -/
structure NotificationHandler where
  identity : Nat
  sessionId : JSString
deriving DecidableEq

/-- A command on the connection of the subscriber.  Whose JOIN a SUBSCRIBE comes from is on
record. -/
inductive RedisCommand where
  | subscribe (channel : JSString) (sessionId : JSString)
  | unsubscribe (channel : JSString)
deriving DecidableEq

/-- A worker and Redis, with what was published, routed and called on record. -/
structure NotificationBus (N : Type*) where
  /-- `userNotificationHandlers`. -/
  handlers : SetMap JSString NotificationHandler
  /-- How many handlers have been made. -/
  closures : Nat
  /-- The router is installed. -/
  router : Bool
  /-- What Redis has yet to take from the worker. -/
  commands : List RedisCommand
  /-- The channels that the worker is subscribed to, in Redis. -/
  channels : List JSString
  /-- What the router has yet to take from Redis. -/
  inbox : List (JSString × N)
  /-- The user of every session that has subscribed. -/
  userOf : JSString → Option JSString
  /-- The notifications that were published for a user. -/
  published : JSString → List N
  /-- Those that the router has passed on. -/
  routed : JSString → List N
  /-- What `sendToSession` is called with, by session. -/
  calls : JSString → List N
  /-- How many were published when Redis took the SUBSCRIBE of a session. -/
  subscribedAt : JSString → Option Nat

/-- What happens, anywhere in the system. -/
inductive NotificationEvent (N : Type*)
  /-- `subscribeToUser`, with the handler of a session. -/
  | subscribeToUser (userId sessionId : JSString)
  /-- `unsubscribeFromUser`, with a handler that is made for the call. -/
  | unsubscribeFromUser (userId : JSString)
  /-- `publishUserNotification`, on this worker or on another one. -/
  | publishUserNotification (userId : JSString) (notification : N)
  /-- Redis takes the next command. -/
  | command
  /-- The router takes the next message. -/
  | deliver

namespace NotificationBus

variable {N : Type*}

/-- Nobody has subscribed, and nothing was published. -/
def start : NotificationBus N where
  handlers := .empty
  closures := 0
  router := false
  commands := []
  channels := []
  inbox := []
  userOf := fun _ => none
  published := fun _ => []
  routed := fun _ => []
  calls := fun _ => []
  subscribedAt := fun _ => none

/-- The handler joins those of its user, and a SUBSCRIBE is sent. -/
def subscribeToUser (b : NotificationBus N) (userId sessionId : JSString) : NotificationBus N :=
  { b with
    handlers := b.handlers.add userId ⟨b.closures, sessionId⟩
    closures := b.closures + 1
    router := true
    commands := b.commands ++ [.subscribe (userChannel userId) sessionId]
    userOf := Function.update b.userOf sessionId (some userId) }

/-- A handler that is not in the set is taken out; an UNSUBSCRIBE is sent if the set is empty. -/
def unsubscribeFromUser (b : NotificationBus N) (userId : JSString) : NotificationBus N :=
  -- the handler of the call belongs to no session
  let handlers := b.handlers.delete userId ⟨b.closures, []⟩
  if handlers.members userId = [] then
    { b with
      handlers := handlers.drop userId
      closures := b.closures + 1
      commands := b.commands ++ [.unsubscribe (userChannel userId)] }
  else { b with handlers := handlers, closures := b.closures + 1 }

/-- PUBLISH, as far as this worker is concerned. -/
def publishUserNotification (b : NotificationBus N) (userId : JSString) (notification : N) :
    NotificationBus N :=
  { b with
    published := Function.update b.published userId (b.published userId ++ [notification])
    inbox := if userChannel userId ∈ b.channels then b.inbox ++ [(userChannel userId, notification)]
      else b.inbox }

/-- Redis takes a command. -/
def takeCommand (b : NotificationBus N) : RedisCommand → NotificationBus N
  | .subscribe channel sessionId =>
      { b with
        channels := if channel ∈ b.channels then b.channels else b.channels ++ [channel]
        subscribedAt := Function.update b.subscribedAt sessionId
          ((b.userOf sessionId).map fun userId => (b.published userId).length) }
  | .unsubscribe channel => { b with channels := b.channels.filter (· ≠ channel) }

/-- The handlers of the user are called, each sends to its session. -/
def callHandlers (b : NotificationBus N) (userId : JSString) (notification : N) :
    NotificationBus N :=
  { b with
    routed := Function.update b.routed userId (b.routed userId ++ [notification])
    calls := (b.handlers.members userId).foldl (fun calls h =>
      Function.update calls h.sessionId (calls h.sessionId ++ [notification])) b.calls }

/-- The router takes a message. -/
def takeMessage (b : NotificationBus N) (channel : JSString) (notification : N) :
    NotificationBus N :=
  if b.router = true then
    match routedUser channel with
    | some userId => b.callHandlers userId notification
    | none => b
  else b

/-- One event, if it can happen. -/
def step (b : NotificationBus N) : NotificationEvent N → Option (NotificationBus N)
  | .subscribeToUser userId sessionId => some (b.subscribeToUser userId sessionId)
  | .unsubscribeFromUser userId => some (b.unsubscribeFromUser userId)
  | .publishUserNotification userId notification =>
      some (b.publishUserNotification userId notification)
  | .command =>
      match b.commands with
      | [] => none
      | command :: commands => some ({ b with commands := commands }.takeCommand command)
  | .deliver =>
      match b.inbox with
      | [] => none
      | (channel, notification) :: inbox =>
          some ({ b with inbox := inbox }.takeMessage channel notification)

/-- A session subscribes once, and the id of its user, a UUID, contains no colon. -/
def Allowed (b : NotificationBus N) : NotificationEvent N → Prop
  | .subscribeToUser userId sessionId => b.userOf sessionId = none ∧ JSString.colon ∉ userId
  | _ => True

instance (b : NotificationBus N) : DecidablePred b.Allowed
  | .subscribeToUser userId sessionId =>
      inferInstanceAs (Decidable (b.userOf sessionId = none ∧ JSString.colon ∉ userId))
  | .unsubscribeFromUser _ => isTrue trivial
  | .publishUserNotification _ _ => isTrue trivial
  | .command => isTrue trivial
  | .deliver => isTrue trivial

/-- The bus after any events. -/
def Reachable (b : NotificationBus N) : Prop := Reach step Allowed start b

/-- What is in the inbox for a user. -/
def pending (b : NotificationBus N) (userId : JSString) : List N :=
  b.inbox.filterMap fun m => if m.1 = userChannel userId then some m.2 else none

/-! ## The invariant -/

/-- Who has handlers, what is subscribed to, and how far a notification has come. -/
structure Served (b : NotificationBus N) : Prop where
  handler : ∀ {userId h}, h ∈ b.handlers.members userId →
    h.identity < b.closures ∧ b.userOf h.sessionId = some userId
  nodup : ∀ userId, ((b.handlers.members userId).map (·.sessionId)).Nodup
  handled : ∀ {sessionId userId}, b.userOf sessionId = some userId →
    sessionId ∈ (b.handlers.members userId).map (·.sessionId)
  colon_notMem : ∀ {sessionId userId}, b.userOf sessionId = some userId → JSString.colon ∉ userId
  router : ∀ {sessionId userId}, b.userOf sessionId = some userId → b.router = true
  /-- No command takes back a SUBSCRIBE that was sent before it. -/
  ordered : b.commands.Pairwise fun c c' =>
    ∀ channel sessionId, c = .subscribe channel sessionId → c' ≠ .unsubscribe channel
  subscribe_user : ∀ {channel sessionId}, .subscribe channel sessionId ∈ b.commands →
    ∃ userId, b.userOf sessionId = some userId ∧ channel = userChannel userId
  subscribed : ∀ {userId}, userChannel userId ∈ b.channels →
    .unsubscribe (userChannel userId) ∉ b.commands ∧ ∃ sessionId, b.userOf sessionId = some userId
  quiet : ∀ {userId}, userChannel userId ∉ b.channels → b.pending userId = [] ∧ b.routed userId = []
  inbox_user : ∀ m ∈ b.inbox, ∃ sessionId userId,
    b.userOf sessionId = some userId ∧ m.1 = userChannel userId
  stream : ∀ userId, b.routed userId ++ b.pending userId <:+ b.published userId
  calls_suffix : ∀ {sessionId userId}, b.userOf sessionId = some userId →
    b.calls sessionId <:+ b.routed userId
  unknown : ∀ {sessionId}, b.userOf sessionId = none →
    b.calls sessionId = [] ∧ b.subscribedAt sessionId = none
  live : ∀ {sessionId userId n}, b.userOf sessionId = some userId →
    b.subscribedAt sessionId = some n → userChannel userId ∈ b.channels ∧
      (b.published userId).length ≤
        n + (b.calls sessionId).length + (b.pending userId).length

variable {b b' : NotificationBus N} {userId sessionId : JSString} {notification : N}

lemma served_start : (start : NotificationBus N).Served := by
  constructor <;> simp [start, pending]

lemma Served.handler_notMem (h : b.Served) (userId sessionId : JSString) :
    (⟨b.closures, sessionId⟩ : NotificationHandler) ∉ b.handlers.members userId :=
  fun hmem => absurd (h.handler hmem).1 (lt_irrefl _)

lemma Served.subscribeToUser (h : b.Served) (hnew : b.userOf sessionId = none)
    (hcolon : JSString.colon ∉ userId) : (b.subscribeToUser userId sessionId).Served := by
  have hmembers : ∀ userId', (b.handlers.add userId ⟨b.closures, sessionId⟩).members userId' =
      if userId' = userId then b.handlers.members userId ++ [⟨b.closures, sessionId⟩]
      else b.handlers.members userId' := by
    intro userId'
    rw [SetMap.members_add, if_neg (h.handler_notMem userId sessionId), Function.update_apply]
  have hold : ∀ {sessionId' userId'}, b.userOf sessionId' = some userId' →
      Function.update b.userOf sessionId (some userId) sessionId' = some userId' := by
    intro sessionId' userId' huser
    have hne : sessionId' ≠ sessionId := by
      rintro rfl
      simp [hnew] at huser
    rw [Function.update_of_ne hne, huser]
  -- a user of a session is the new one or one the session had before
  have hcases : ∀ {sessionId' userId'},
      Function.update b.userOf sessionId (some userId) sessionId' = some userId' →
        sessionId' = sessionId ∧ userId' = userId ∨
          sessionId' ≠ sessionId ∧ b.userOf sessionId' = some userId' := by
    intro sessionId' userId' huser
    by_cases hid : sessionId' = sessionId
    · subst hid
      exact Or.inl ⟨rfl, by simpa using huser.symm⟩
    · exact Or.inr ⟨hid, by simpa [hid] using huser⟩
  obtain ⟨hcalls, hat⟩ := h.unknown hnew
  refine ⟨?_, ?_, ?_, ?_, fun _ => rfl, ?_, ?_, ?_, h.quiet, ?_, h.stream, ?_, ?_, ?_⟩
  · intro userId' handler hmem
    rcases SetMap.mem_members_add.mp hmem with hmem | ⟨rfl, rfl⟩
    · obtain ⟨hlt, huser⟩ := h.handler hmem
      exact ⟨Nat.lt_succ_of_lt hlt, hold huser⟩
    · exact ⟨Nat.lt_succ_self _, Function.update_self ..⟩
  · intro userId'
    show (((b.handlers.add userId ⟨b.closures, sessionId⟩).members userId').map _).Nodup
    rw [hmembers]
    split_ifs with huser
    · refine nodup_map_append_singleton (h.nodup userId) fun handler hmem heq => ?_
      have huser' := (h.handler hmem).2
      rw [show handler.sessionId = sessionId from heq, hnew] at huser'
      simp at huser'
    · exact h.nodup userId'
  · intro sessionId' userId' huser
    show sessionId' ∈ ((b.handlers.add userId ⟨b.closures, sessionId⟩).members userId').map _
    rw [hmembers]
    rcases hcases huser with ⟨rfl, rfl⟩ | ⟨-, huser⟩
    · simp
    · split_ifs with hsame
      · rw [List.map_append]
        exact List.mem_append_left _ (hsame ▸ h.handled huser)
      · exact h.handled huser
  · intro sessionId' userId' huser
    rcases hcases huser with ⟨-, rfl⟩ | ⟨-, huser⟩
    · exact hcolon
    · exact h.colon_notMem huser
  · -- the SUBSCRIBE stands last, so nothing comes after it
    refine List.pairwise_append.mpr ⟨h.ordered, List.pairwise_singleton _ _, ?_⟩
    intro c _ c' hc' channel sessionId' _ heq
    rw [List.mem_singleton.mp hc'] at heq
    simp at heq
  · intro channel sessionId' hmem
    rcases List.mem_append.mp hmem with hmem | hmem
    · obtain ⟨userId', huser, hchannel⟩ := h.subscribe_user hmem
      exact ⟨userId', hold huser, hchannel⟩
    · obtain ⟨rfl, rfl⟩ : channel = userChannel userId ∧ sessionId' = sessionId := by
        simpa using hmem
      exact ⟨userId, Function.update_self .., rfl⟩
  · intro userId' hchannel
    obtain ⟨hnot, sessionId', huser⟩ := h.subscribed hchannel
    exact ⟨fun hmem => hnot (by simpa [NotificationBus.subscribeToUser] using hmem),
      sessionId', hold huser⟩
  · intro m hm
    obtain ⟨sessionId', userId', huser, hchannel⟩ := h.inbox_user m hm
    exact ⟨sessionId', userId', hold huser, hchannel⟩
  · intro sessionId' userId' huser
    rcases hcases huser with ⟨rfl, rfl⟩ | ⟨-, huser⟩
    · show b.calls sessionId' <:+ _
      rw [hcalls]
      exact List.nil_suffix
    · exact h.calls_suffix huser
  · intro sessionId' hnone
    have hid : sessionId' ≠ sessionId := by
      rintro rfl
      simp [NotificationBus.subscribeToUser] at hnone
    have hnone' : b.userOf sessionId' = none := by
      simpa [NotificationBus.subscribeToUser, hid] using hnone
    exact h.unknown hnone'
  · intro sessionId' userId' n huser hn
    rcases hcases huser with ⟨rfl, rfl⟩ | ⟨-, huser⟩
    · have hnone : b.subscribedAt sessionId' = some n := hn
      simp [hat] at hnone
    · exact h.live huser hn

lemma Served.of_members (h : b.Served) {handlers : SetMap JSString NotificationHandler}
    (hmembers : handlers.members = b.handlers.members) :
    ({ b with handlers := handlers, closures := b.closures + 1 } : NotificationBus N).Served := by
  refine ⟨?_, ?_, ?_, h.colon_notMem, h.router, h.ordered, h.subscribe_user, h.subscribed, h.quiet,
    h.inbox_user, h.stream, h.calls_suffix, h.unknown, h.live⟩
  · rw [hmembers]
    exact fun hmem => ⟨Nat.lt_succ_of_lt (h.handler hmem).1, (h.handler hmem).2⟩
  · rw [hmembers]
    exact h.nodup
  · rw [hmembers]
    exact h.handled

lemma Served.unsubscribe (h : b.Served) (hnone : ∀ sessionId, b.userOf sessionId ≠ some userId) :
    ({ b with commands := b.commands ++ [.unsubscribe (userChannel userId)] } :
      NotificationBus N).Served := by
  refine ⟨h.handler, h.nodup, h.handled, h.colon_notMem, h.router, ?_, ?_, ?_, h.quiet,
    h.inbox_user, h.stream, h.calls_suffix, h.unknown, h.live⟩
  · refine List.pairwise_append.mpr ⟨h.ordered, List.pairwise_singleton _ _, ?_⟩
    rintro c hc c' hc' channel sessionId rfl hunsub
    obtain ⟨userId', huser, hchannel⟩ := h.subscribe_user hc
    rw [List.mem_singleton.mp hc', RedisCommand.unsubscribe.injEq, hchannel,
      userChannel_inj] at hunsub
    exact hnone sessionId (hunsub ▸ huser)
  · intro channel sessionId hmem
    rcases List.mem_append.mp hmem with hmem | hmem
    · exact h.subscribe_user hmem
    · simp at hmem
  · intro userId' hchannel
    obtain ⟨hnot, sessionId, huser⟩ := h.subscribed hchannel
    refine ⟨fun hmem => ?_, sessionId, huser⟩
    rcases List.mem_append.mp hmem with hmem | hmem
    · exact hnot hmem
    · rw [List.mem_singleton, RedisCommand.unsubscribe.injEq, userChannel_inj] at hmem
      exact hnone sessionId (hmem ▸ huser)

/-- `unsubscribeFromUser` removes no handler, and unsubscribes the channel only while nobody has
one. -/
lemma Served.unsubscribeFromUser (h : b.Served) (userId : JSString) :
    (b.unsubscribeFromUser userId).Served := by
  have hdelete : (b.handlers.delete userId ⟨b.closures, []⟩).members = b.handlers.members :=
    SetMap.members_delete_of_notMem (h.handler_notMem userId [])
  simp only [NotificationBus.unsubscribeFromUser]
  split_ifs with hempty
  · rw [hdelete] at hempty
    have hdrop : ((b.handlers.delete userId ⟨b.closures, []⟩).drop userId).members =
        b.handlers.members := by
      rw [SetMap.members_drop, hdelete, ← hempty, Function.update_eq_self]
    refine (h.of_members hdrop).unsubscribe fun sessionId huser => ?_
    have hmem := h.handled huser
    simp [hempty] at hmem
  · exact h.of_members hdelete

lemma pending_publish (b : NotificationBus N) (userId userId' : JSString) (notification : N) :
    (b.publishUserNotification userId notification).pending userId' =
      if userId' = userId ∧ userChannel userId ∈ b.channels then
        b.pending userId' ++ [notification]
      else b.pending userId' := by
  rw [pending, publishUserNotification]
  by_cases hchannel : userChannel userId ∈ b.channels
  · by_cases huser : userId' = userId
    · simp [hchannel, huser, pending]
    · simp [hchannel, huser, pending, userChannel_inj, Ne.symm huser]
  · simp [hchannel, pending]

/-- What is published on a subscribed channel is on its way, what is published on another one
comes before everything that will be. -/
lemma Served.publishUserNotification (h : b.Served) (userId : JSString) (notification : N) :
    (b.publishUserNotification userId notification).Served := by
  have hpublished : ∀ userId', (b.publishUserNotification userId notification).published userId' =
      if userId' = userId then b.published userId' ++ [notification] else b.published userId' := by
    intro userId'
    show Function.update b.published userId _ userId' = _
    rw [Function.update_apply]
    split_ifs with huser
    · rw [huser]
    · rfl
  refine ⟨h.handler, h.nodup, h.handled, h.colon_notMem, h.router, h.ordered, h.subscribe_user,
    h.subscribed, ?_, ?_, ?_, h.calls_suffix, h.unknown, ?_⟩
  · intro userId' hchannel
    have hnot : ¬ (userId' = userId ∧ userChannel userId ∈ b.channels) := by
      rintro ⟨rfl, hmem⟩
      exact hchannel hmem
    rw [pending_publish, if_neg hnot]
    exact h.quiet hchannel
  · intro m hm
    have hm' : m ∈ b.inbox ∨ userChannel userId ∈ b.channels ∧ m.1 = userChannel userId := by
      simp only [NotificationBus.publishUserNotification] at hm
      split_ifs at hm with hchannel
      · rcases List.mem_append.mp hm with hm | hm
        · exact Or.inl hm
        · rw [List.mem_singleton] at hm
          exact Or.inr ⟨hchannel, by rw [hm]⟩
      · exact Or.inl hm
    rcases hm' with hm' | ⟨hchannel, hm'⟩
    · exact h.inbox_user m hm'
    · obtain ⟨-, sessionId, huser⟩ := h.subscribed hchannel
      exact ⟨sessionId, userId, huser, hm'⟩
  · intro userId'
    rw [hpublished, pending_publish]
    show b.routed userId' ++ _ <:+ _
    by_cases huser : userId' = userId
    · by_cases hchannel : userChannel userId ∈ b.channels
      · rw [if_pos ⟨huser, hchannel⟩, if_pos huser, ← List.append_assoc]
        exact List.suffix_append_self_iff.mpr (h.stream userId')
      · obtain ⟨hpending, hrouted⟩ := h.quiet (huser.symm ▸ hchannel)
        rw [if_neg fun hboth => hchannel hboth.2, hpending, hrouted]
        exact List.nil_suffix
    · rw [if_neg fun hboth => huser hboth.1, if_neg huser]
      exact h.stream userId'
  · intro sessionId userId' n huserOf hn
    obtain ⟨hchannel, hle⟩ := h.live huserOf hn
    refine ⟨hchannel, ?_⟩
    rw [hpublished, pending_publish]
    show _ ≤ n + (b.calls sessionId).length + _
    by_cases huser : userId' = userId
    · rw [if_pos huser, if_pos ⟨huser, huser ▸ hchannel⟩]
      simp only [List.length_append, List.length_singleton]
      omega
    · rw [if_neg huser, if_neg fun hboth => huser hboth.1]
      exact hle

lemma Served.subscribe {channel : JSString} {commands : List RedisCommand} (h : b.Served)
    (hcommands : b.commands = .subscribe channel sessionId :: commands) :
    ({ b with commands := commands }.takeCommand (.subscribe channel sessionId) :
      NotificationBus N).Served := by
  obtain ⟨userId, huser, rfl⟩ := h.subscribe_user (hcommands ▸ List.mem_cons_self ..)
  obtain ⟨hfirst, hordered⟩ := List.pairwise_cons.mp (hcommands ▸ h.ordered)
  have hmem : ∀ {c}, c ∈ commands → c ∈ b.commands :=
    fun hc => hcommands ▸ List.mem_cons_of_mem _ hc
  have hchannels : ∀ {c}, c ∈ (if userChannel userId ∈ b.channels then b.channels
      else b.channels ++ [userChannel userId]) ↔ c ∈ b.channels ∨ c = userChannel userId := by
    intro c
    split_ifs with hin
    · exact ⟨Or.inl, fun hc => hc.elim (fun h => h) fun h => h ▸ hin⟩
    · simp
  refine ⟨h.handler, h.nodup, h.handled, h.colon_notMem, h.router, hordered,
    fun hc => h.subscribe_user (hmem hc), ?_, ?_, h.inbox_user, h.stream, h.calls_suffix, ?_, ?_⟩
  · intro userId' hchannel
    rcases hchannels.mp hchannel with hold | hnew
    · obtain ⟨hnot, hsome⟩ := h.subscribed hold
      exact ⟨fun hc => hnot (hmem hc), hsome⟩
    · obtain rfl := userChannel_inj.mp hnew
      exact ⟨fun hc => hfirst _ hc _ _ rfl rfl, sessionId, huser⟩
  · intro userId' hchannel
    exact h.quiet fun hold => hchannel (hchannels.mpr (Or.inl hold))
  · intro sessionId' hnone
    have hid : sessionId' ≠ sessionId := by
      rintro rfl
      have hnone' : b.userOf sessionId' = none := hnone
      simp [huser] at hnone'
    obtain ⟨hcalls, hat⟩ := h.unknown hnone
    exact ⟨hcalls, (Function.update_of_ne hid ..).trans hat⟩
  · intro sessionId' userId' n huser' hn
    have hn' : Function.update b.subscribedAt sessionId
        ((b.userOf sessionId).map fun userId => (b.published userId).length) sessionId' =
          some n := hn
    by_cases hid : sessionId' = sessionId
    · subst hid
      obtain rfl : userId' = userId := Option.some.inj (Eq.trans (Eq.symm huser') huser)
      rw [Function.update_self, huser, Option.map_some, Option.some.injEq] at hn'
      refine ⟨hchannels.mpr (Or.inr rfl), ?_⟩
      show (b.published userId').length ≤ n + (b.calls sessionId').length +
        (b.pending userId').length
      omega
    · rw [Function.update_of_ne hid] at hn'
      obtain ⟨hchannel, hle⟩ := h.live huser' hn'
      exact ⟨hchannels.mpr (Or.inl hchannel), hle⟩

/-- Redis takes an UNSUBSCRIBE, which is not for a channel that is in use. -/
lemma Served.takeUnsubscribe {channel : JSString} {commands : List RedisCommand} (h : b.Served)
    (hcommands : b.commands = .unsubscribe channel :: commands) :
    ({ b with commands := commands }.takeCommand (.unsubscribe channel) :
      NotificationBus N).Served := by
  have hmem : ∀ {c}, c ∈ commands → c ∈ b.commands :=
    fun hc => hcommands ▸ List.mem_cons_of_mem _ hc
  have hunused : ∀ {userId}, userChannel userId ∈ b.channels → userChannel userId ≠ channel := by
    rintro userId hchannel rfl
    exact (h.subscribed hchannel).1 (hcommands ▸ List.mem_cons_self ..)
  have hchannels : ∀ {userId}, userChannel userId ∈ b.channels.filter (· ≠ channel) ↔
      userChannel userId ∈ b.channels := by
    intro userId
    rw [List.mem_filter]
    exact ⟨fun hc => hc.1, fun hc => ⟨hc, by simpa using hunused hc⟩⟩
  refine ⟨h.handler, h.nodup, h.handled, h.colon_notMem, h.router,
    (List.pairwise_cons.mp (hcommands ▸ h.ordered)).2, fun hc => h.subscribe_user (hmem hc), ?_, ?_,
    h.inbox_user, h.stream, h.calls_suffix, h.unknown, ?_⟩
  · intro userId hchannel
    obtain ⟨hnot, hsome⟩ := h.subscribed (hchannels.mp hchannel)
    exact ⟨fun hc => hnot (hmem hc), hsome⟩
  · exact fun hchannel => h.quiet fun hold => hchannel (hchannels.mpr hold)
  · intro sessionId userId n huser hn
    obtain ⟨hchannel, hle⟩ := h.live huser hn
    exact ⟨hchannels.mpr hchannel, hle⟩

/-- The loop over the handlers of a user calls each session that has one, once. -/
lemma foldl_calls {handlers : List NotificationHandler} {calls : JSString → List N}
    (hnd : (handlers.map (·.sessionId)).Nodup) (sessionId : JSString) (notification : N) :
    handlers.foldl (fun calls h =>
        Function.update calls h.sessionId (calls h.sessionId ++ [notification])) calls sessionId =
      if sessionId ∈ handlers.map (·.sessionId) then calls sessionId ++ [notification]
      else calls sessionId := by
  induction handlers generalizing calls with
  | nil => simp
  | cons h handlers ih =>
      obtain ⟨hnotMem, hnd'⟩ := List.nodup_cons.mp hnd
      rw [List.foldl_cons, ih hnd']
      by_cases hid : sessionId = h.sessionId
      · subst hid
        rw [if_neg hnotMem, Function.update_self, if_pos (by simp)]
      · rw [Function.update_of_ne hid]
        simp [hid]

/-- The router takes the next message, which goes from the inbox to the sessions of its user. -/
lemma Served.takeMessage_eq {channel : JSString} {inbox : List (JSString × N)} (h : b.Served)
    (hinbox : b.inbox = (channel, notification) :: inbox) :
    ∃ userId, ({ b with inbox := inbox }.takeMessage channel notification : NotificationBus N) =
        { b with inbox := inbox }.callHandlers userId notification ∧
      (∀ userId', b.pending userId' = (if userId' = userId then [notification] else []) ++
        ({ b with inbox := inbox }.callHandlers userId notification).pending userId') ∧
      ∀ {sessionId userId'}, b.userOf sessionId = some userId' →
        ({ b with inbox := inbox }.callHandlers userId notification).calls sessionId =
          b.calls sessionId ++ if userId' = userId then [notification] else [] := by
  obtain ⟨sessionId₀, userId, huser₀, hchannel⟩ :=
    h.inbox_user _ (hinbox ▸ List.mem_cons_self ..)
  have hchannel' : channel = userChannel userId := hchannel
  subst hchannel'
  refine ⟨userId, ?_, fun userId' => ?_, fun {sessionId userId'} huser => ?_⟩
  · have hrouter : ({ b with inbox := inbox } : NotificationBus N).router = true :=
      h.router huser₀
    rw [NotificationBus.takeMessage, if_pos hrouter,
      routedUser_userChannel (h.colon_notMem huser₀)]
  · rw [pending, hinbox, List.filterMap_cons]
    by_cases huser : userId' = userId
    · simp only [huser, if_true]
      rfl
    · have hne : userChannel userId ≠ userChannel userId' := by
        simpa [userChannel_inj] using Ne.symm huser
      simp only [hne, huser, if_false]
      rfl
  · have hloop := @foldl_calls _ _ b.calls (h.nodup userId) sessionId notification
    show (b.handlers.members userId).foldl _ b.calls sessionId = _
    rw [hloop]
    by_cases hsame : userId' = userId
    · subst hsame
      rw [if_pos (h.handled huser), if_pos rfl]
    · have hnot : sessionId ∉ (b.handlers.members userId).map (·.sessionId) := by
        intro hmem
        obtain ⟨handler, hhandler, rfl⟩ := List.mem_map.mp hmem
        exact hsame (Option.some.inj (huser.symm.trans (h.handler hhandler).2))
      rw [if_neg hnot, if_neg hsame, List.append_nil]

lemma Served.takeMessage {channel : JSString} {inbox : List (JSString × N)} (h : b.Served)
    (hinbox : b.inbox = (channel, notification) :: inbox) :
    ({ b with inbox := inbox }.takeMessage channel notification : NotificationBus N).Served := by
  obtain ⟨userId, htake, hpending, hcalls⟩ := h.takeMessage_eq hinbox
  rw [htake]
  set b' : NotificationBus N := { b with inbox := inbox }.callHandlers userId notification with hb'
  have hrouted : ∀ userId', b'.routed userId' =
      b.routed userId' ++ if userId' = userId then [notification] else [] := by
    intro userId'
    show Function.update b.routed userId _ userId' = _
    rw [Function.update_apply]
    split_ifs with huser
    · rw [huser]
    · rw [List.append_nil]
  refine ⟨h.handler, h.nodup, h.handled, h.colon_notMem, h.router, h.ordered, h.subscribe_user,
    h.subscribed, ?_, ?_, ?_, ?_, ?_, ?_⟩
  · intro userId' hnot
    obtain ⟨hempty, hnone⟩ := h.quiet hnot
    rw [hpending] at hempty
    obtain ⟨hhead, htail⟩ := List.append_eq_nil_iff.mp hempty
    exact ⟨htail, by rw [hrouted, hnone, hhead, List.nil_append]⟩
  · exact fun m hm => h.inbox_user m (hinbox ▸ List.mem_cons_of_mem _ hm)
  · intro userId'
    have hstream := h.stream userId'
    rwa [hpending, ← List.append_assoc, ← hrouted] at hstream
  · intro sessionId userId' huser
    rw [hcalls huser, hrouted]
    exact List.suffix_append_self_iff.mpr (h.calls_suffix huser)
  · intro sessionId hnone
    obtain ⟨hempty, hat⟩ := h.unknown hnone
    refine ⟨?_, hat⟩
    have hnot : sessionId ∉ (b.handlers.members userId).map (·.sessionId) := by
      intro hmem
      obtain ⟨handler, hhandler, rfl⟩ := List.mem_map.mp hmem
      have hsome := (h.handler hhandler).2
      have hnone' : b.userOf handler.sessionId = none := hnone
      simp [hnone'] at hsome
    have hloop := @foldl_calls _ _ b.calls (h.nodup userId) sessionId notification
    rw [if_neg hnot] at hloop
    exact hloop.trans hempty
  · intro sessionId userId' n huser hn
    obtain ⟨hchannel, hle⟩ := h.live huser hn
    refine ⟨hchannel, ?_⟩
    have hlen := congrArg List.length (hpending userId')
    rw [hcalls huser]
    show (b.published userId').length ≤ _
    simp only [List.length_append] at hlen ⊢
    omega

lemma Served.step {event : NotificationEvent N} (h : b.Served) (hallowed : b.Allowed event)
    (hstep : b.step event = some b') : b'.Served := by
  cases event with
  | subscribeToUser userId sessionId =>
      obtain rfl := Option.some.inj hstep
      exact h.subscribeToUser hallowed.1 hallowed.2
  | unsubscribeFromUser userId =>
      obtain rfl := Option.some.inj hstep
      exact h.unsubscribeFromUser userId
  | publishUserNotification userId notification =>
      obtain rfl := Option.some.inj hstep
      exact h.publishUserNotification userId notification
  | command =>
      simp only [NotificationBus.step] at hstep
      split at hstep
      · simp at hstep
      · rename_i command commands hcommands
        obtain rfl := Option.some.inj hstep
        cases command with
        | subscribe channel sessionId => exact h.subscribe hcommands
        | unsubscribe channel => exact h.takeUnsubscribe hcommands
  | deliver =>
      simp only [NotificationBus.step] at hstep
      split at hstep
      · simp at hstep
      · rename_i channel notification inbox hinbox
        obtain rfl := Option.some.inj hstep
        exact h.takeMessage hinbox

lemma Reachable.served (h : b.Reachable) : b.Served :=
  h.invariant served_start fun _ _ _ => Served.step

/-- The calls for a session, with what is in the inbox for its user. -/
lemma Served.sent_suffix (h : b.Served) (huser : b.userOf sessionId = some userId) :
    b.calls sessionId ++ b.pending userId <:+ b.published userId :=
  (List.suffix_append_self_iff.mpr (h.calls_suffix huser)).trans (h.stream userId)

/-- Nothing but a publication adds to the calls for a session, those to come included. -/
lemma Served.sent_eq {event : NotificationEvent N} (h : b.Served) (hallowed : b.Allowed event)
    (hstep : b.step event = some b')
    (hevent : ∀ userId n, event ≠ .publishUserNotification userId n)
    (huser : b.userOf sessionId = some userId) :
    b'.userOf sessionId = some userId ∧ b.calls sessionId <+: b'.calls sessionId ∧
      b'.calls sessionId ++ b'.pending userId = b.calls sessionId ++ b.pending userId ∧
      (b.subscribedAt sessionId ≠ none → b'.subscribedAt sessionId ≠ none) := by
  cases event with
  | subscribeToUser userId' sessionId' =>
      obtain rfl := Option.some.inj hstep
      have hid : sessionId ≠ sessionId' := by
        rintro rfl
        exact absurd (hallowed.1.symm.trans huser) (by simp)
      exact ⟨(Function.update_of_ne hid ..).trans huser, List.prefix_rfl, rfl, fun hat => hat⟩
  | unsubscribeFromUser userId' =>
      obtain rfl := Option.some.inj hstep
      have hfields : (b.unsubscribeFromUser userId').userOf = b.userOf ∧
          (b.unsubscribeFromUser userId').calls = b.calls ∧
          (b.unsubscribeFromUser userId').inbox = b.inbox ∧
          (b.unsubscribeFromUser userId').subscribedAt = b.subscribedAt := by
        rw [NotificationBus.unsubscribeFromUser]
        split <;> exact ⟨rfl, rfl, rfl, rfl⟩
      obtain ⟨huserOf, hcalls, hinbox, hat⟩ := hfields
      rw [huserOf, hcalls, pending, hinbox, hat]
      exact ⟨huser, List.prefix_rfl, rfl, fun hat => hat⟩
  | publishUserNotification userId' n => exact absurd rfl (hevent userId' n)
  | command =>
      simp only [NotificationBus.step] at hstep
      split at hstep
      · simp at hstep
      · rename_i command commands hcommands
        obtain rfl := Option.some.inj hstep
        cases command with
        | subscribe channel sessionId' =>
            refine ⟨huser, List.prefix_rfl, rfl, fun hat => ?_⟩
            show Function.update b.subscribedAt sessionId' _ sessionId ≠ none
            by_cases hid : sessionId = sessionId'
            · subst hid
              simp [huser]
            · rwa [Function.update_of_ne hid]
        | unsubscribe channel => exact ⟨huser, List.prefix_rfl, rfl, fun hat => hat⟩
  | deliver =>
      simp only [NotificationBus.step] at hstep
      split at hstep
      · simp at hstep
      · rename_i channel notification inbox hinbox
        obtain rfl := Option.some.inj hstep
        obtain ⟨userId', htake, hpending, hcalls⟩ := h.takeMessage_eq hinbox
        rw [htake, hcalls huser, hpending userId, List.append_assoc]
        exact ⟨huser, List.prefix_append _ _, rfl, fun hat => hat⟩

/-- Nothing else publishes, and nothing else subscribes. -/
lemma record_step {event : NotificationEvent N} (hstep : b.step event = some b')
    (hevent : ∀ userId n, event ≠ .publishUserNotification userId n) :
    b'.published = b.published ∧ ∀ {sessionId userId}, b'.userOf sessionId = some userId →
      b.userOf sessionId = some userId ∨ event = .subscribeToUser userId sessionId := by
  have hsame : ∀ {b' : NotificationBus N}, b'.published = b.published → b'.userOf = b.userOf →
      b'.published = b.published ∧ ∀ {sessionId userId}, b'.userOf sessionId = some userId →
        b.userOf sessionId = some userId ∨ event = .subscribeToUser userId sessionId :=
    fun hpublished huserOf => ⟨hpublished, fun huser => Or.inl (huserOf ▸ huser)⟩
  cases event with
  | subscribeToUser userId sessionId =>
      obtain rfl := Option.some.inj hstep
      refine ⟨rfl, fun {sessionId' userId'} huser => ?_⟩
      have huser' : Function.update b.userOf sessionId (some userId) sessionId' = some userId' :=
        huser
      by_cases hid : sessionId' = sessionId
      · subst hid
        rw [Function.update_self, Option.some.injEq] at huser'
        exact Or.inr (by rw [huser'])
      · rw [Function.update_of_ne hid] at huser'
        exact Or.inl huser'
  | unsubscribeFromUser userId =>
      obtain rfl := Option.some.inj hstep
      rw [NotificationBus.unsubscribeFromUser]
      split <;> exact hsame rfl rfl
  | publishUserNotification userId n => exact absurd rfl (hevent userId n)
  | command =>
      simp only [NotificationBus.step] at hstep
      split at hstep
      · simp at hstep
      · rename_i command commands hcommands
        obtain rfl := Option.some.inj hstep
        cases command <;> exact hsame rfl rfl
  | deliver =>
      simp only [NotificationBus.step] at hstep
      split at hstep
      · simp at hstep
      · obtain rfl := Option.some.inj hstep
        rw [NotificationBus.takeMessage]
        split
        · split <;> exact hsame rfl rfl
        · exact hsame rfl rfl

/-- **Notifications come to a session in order and once.**  What `sendToSession` has been called
with for it, with what is in the inbox for its user, is what was published for the user from some
point on; and if Redis has taken the SUBSCRIBE of the session, nothing that was published since is
missing. -/
theorem notifications_once (h : b.Reachable) (huser : b.userOf sessionId = some userId) :
    b.calls sessionId ++ b.pending userId <:+ b.published userId ∧
      ∀ n, b.subscribedAt sessionId = some n →
        (b.published userId).drop n <:+ b.calls sessionId ++ b.pending userId := by
  have hb := h.served
  refine ⟨hb.sent_suffix huser, fun n hn => ?_⟩
  refine List.suffix_of_suffix_length_le (List.drop_suffix n _) (hb.sent_suffix huser) ?_
  have hle := (hb.live huser hn).2
  rw [List.length_drop, List.length_append]
  omega

/-- A user opens a tab, gets two notifications, opens another tab and closes the first. -/
def twoTabs : NotificationBus Nat :=
  (runAllowed step Allowed start
    [.publishUserNotification (JSString.ofNat 7) 1, .unsubscribeFromUser (JSString.ofNat 7),
      .subscribeToUser (JSString.ofNat 7) (JSString.ofNat 101), .command, .command,
      .publishUserNotification (JSString.ofNat 7) 2, .publishUserNotification (JSString.ofNat 7) 3,
      .deliver, .subscribeToUser (JSString.ofNat 7) (JSString.ofNat 102),
      .publishUserNotification (JSString.ofNat 7) 4, .command,
      .unsubscribeFromUser (JSString.ofNat 7), .publishUserNotification (JSString.ofNat 7) 5,
      .deliver, .deliver]).get (by decide +kernel)

theorem notifications_once_twoTabs :
    let user := JSString.ofNat 7
    let tab := JSString.ofNat 102
    (twoTabs.calls tab ++ twoTabs.pending user <:+ twoTabs.published user ∧
        ∀ n, twoTabs.subscribedAt tab = some n →
          (twoTabs.published user).drop n <:+ twoTabs.calls tab ++ twoTabs.pending user) ∧
      twoTabs.subscribedAt tab = some 4 ∧ twoTabs.calls tab = [3, 4] ∧
      twoTabs.pending user = [5] := by
  have hreach : twoTabs.Reachable := reach_get _
  exact ⟨notifications_once hreach (by decide +kernel), by decide +kernel, by decide +kernel,
    by decide +kernel⟩

end NotificationBus

end SyncEngine
