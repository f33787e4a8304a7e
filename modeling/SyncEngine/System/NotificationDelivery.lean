import SyncEngine.Server.UserNotifications
import SyncEngine.System.NotificationCenter

/-!
# From the table to the notification center

The notification center of a tab together with the way that notifications take to it
(`NotificationTab`, `NotificationBus`): POST `/:id/invites` inserts a notification and then
publishes it, Redis and the worker pass it on to the session of the tab, and the tab takes what the
session was sent in its order.  The history is fetched by another connection, at any time.

The socket of the session may end at any time.  At the server it does when the heartbeat terminates
it, which it does to a tab that sends nothing after its JOIN; when the consumer is slow; or when the
tab is gone.  `sendToSession` returns false from then on, and nobody looks at that.  At the tab it
ends when the hook closes it, for a new token or as the page is taken down, or with the connection.
The hook opens another one for a new token only, and what comes by that one is, for this session, a
notification from elsewhere.

A notification that is inserted after the GET and published before the SUBSCRIBE is in neither.
`no_notification_missed` says that this and the end of the socket are the only ways to miss one:
when the SUBSCRIBE was there before a history was read, what was published for the user is shown or
on its way, unless it is deleted, older than the history goes, or came too late for the socket.

A page that is reloaded begins anew, with another session.
-/

namespace SyncEngine

open NotificationStore Transition

/-- A tab, and a session of it. -/
structure NotificationDelivery where
  bus : NotificationBus NotificationRow
  tab : NotificationTab
  /-- The socket of the session is OPEN at the server. -/
  isOpen : Bool
  /-- The notifications that `sendToSession` has sent. -/
  sent : List NotificationRow
  /-- How many of them have arrived. -/
  received : Nat
  /-- The tab takes messages from the socket. -/
  listens : Bool
  /-- The tables that were read for the tab when its SUBSCRIBE was there. -/
  late : List (List NotificationRow)

/-- What happens at either end of the socket, or between them. -/
inductive DeliveryAction where
  /-- Redis and the worker, but for publications. -/
  | bus (event : NotificationEvent NotificationRow)
  /-- `publishUserNotification` with a notification that was inserted. -/
  | publish (r : NotificationRow)
  /-- The tab and the server, but for notifications that arrive by the socket. -/
  | tab (a : NotificationAction)
  /-- The next message on the socket arrives. -/
  | receive
  /-- The socket ends at the server. -/
  | terminate
  /-- The socket ends at the tab. -/
  | hangUp

namespace NotificationDelivery

/-- A page that is opened while there are no notifications, and its open socket. -/
def start (userId : JSString) : NotificationDelivery :=
  ⟨.start, .start userId, true, [], 0, true, []⟩

/-- A GET is executed. -/
def readsHistory : NotificationAction → Bool
  | .execute .history _ _ => true
  | _ => false

/-- A step, where the session of the tab is `sessionId`. -/
def step (sessionId : JSString) (s : NotificationDelivery) :
    DeliveryAction → Option NotificationDelivery
  | .bus event =>
      (s.bus.step event).map fun bus =>
        { s with
          bus := bus
          -- a call is refused when the socket is not open
          sent := if s.isOpen = true then
            s.sent ++ (bus.calls sessionId).drop (s.bus.calls sessionId).length else s.sent }
  | .publish r =>
      if r ∈ s.tab.created then
        some { s with bus := s.bus.publishUserNotification r.userId r }
      else none
  | .tab a =>
      (s.tab.step a).map fun tab =>
        { s with
          tab := tab
          late := if readsHistory a = true ∧ s.bus.subscribedAt sessionId ≠ none then
            s.tab.table :: s.late else s.late }
  | .receive =>
      if s.listens = true then
        s.sent[s.received]?.map fun r =>
          { s with tab := s.tab.receive r.toNotification, received := s.received + 1 }
      else none
  | .terminate => some { s with isOpen := false }
  | .hangUp => some { s with listens := false }

/-- The session joins as the user of the tab. -/
def AllowedEvent (sessionId userId : JSString) : NotificationEvent NotificationRow → Prop
  | .subscribeToUser userId' sessionId' => sessionId' = sessionId → userId' = userId
  | .publishUserNotification .. => False
  | _ => True

instance (sessionId userId : JSString) : DecidablePred (AllowedEvent sessionId userId)
  | .subscribeToUser userId' sessionId' =>
      inferInstanceAs (Decidable (sessionId' = sessionId → userId' = userId))
  | .publishUserNotification .. => isFalse fun h => h
  | .unsubscribeFromUser _ => isTrue trivial
  | .command => isTrue trivial
  | .deliver => isTrue trivial

/-- The restrictions of the bus and of the tab, for one page and one session. -/
def Allowed (sessionId : JSString) (s : NotificationDelivery) : DeliveryAction → Prop
  | .bus event => s.bus.Allowed event ∧ AllowedEvent sessionId s.tab.userId event
  | .tab a => s.tab.Allowed a ∧ NotificationTab.Stays a
  | _ => True

instance (sessionId : JSString) (s : NotificationDelivery) : DecidablePred (s.Allowed sessionId)
  | .bus event => inferInstanceAs
      (Decidable (s.bus.Allowed event ∧ AllowedEvent sessionId s.tab.userId event))
  | .publish _ => isTrue trivial
  | .tab a => inferInstanceAs (Decidable (s.tab.Allowed a ∧ NotificationTab.Stays a))
  | .receive => isTrue trivial
  | .terminate => isTrue trivial
  | .hangUp => isTrue trivial

/-- A run of a page of a user. -/
def Reachable (sessionId : JSString) (s : NotificationDelivery) : Prop :=
  ∃ userId, Reach (step sessionId) (fun s => s.Allowed sessionId) (start userId) s

/-- What will arrive, as long as neither end closes. -/
def onItsWay (s : NotificationDelivery) : List NotificationRow :=
  if s.listens = false then []
  else if s.isOpen = false then s.sent.drop s.received
  else s.sent.drop s.received ++ s.bus.pending s.tab.userId

/-- What will not arrive by the socket, which came or comes after its end. -/
def missed (s : NotificationDelivery) (sessionId : JSString) : List NotificationRow :=
  if s.listens = false then
    (s.bus.calls sessionId).drop s.received ++ s.bus.pending s.tab.userId
  else if s.isOpen = false then
    (s.bus.calls sessionId).drop s.sent.length ++ s.bus.pending s.tab.userId
  else []

/-! ## The invariant -/

variable {s s' : NotificationDelivery} {sessionId : JSString} {r : NotificationRow}

/-- The table holds what had been published when it was read, but for what has been deleted, and
the rest goes to the session. -/
def CaughtUp (s : NotificationDelivery) (sessionId : JSString) (table : List NotificationRow) :
    Prop :=
  ∃ k ≤ (s.bus.published s.tab.userId).length,
    (∀ r ∈ (s.bus.published s.tab.userId).take k, r.id ∈ table.map NotificationRow.id ∨
      r.id ∉ s.tab.table.map NotificationRow.id) ∧
    ∀ r ∈ (s.bus.published s.tab.userId).drop k,
      r ∈ s.bus.calls sessionId ++ s.bus.pending s.tab.userId

/-- The invariant. -/
structure Delivered (sessionId : JSString) (s : NotificationDelivery) : Prop where
  served : s.bus.Served
  sound : s.tab.Sound
  user : ∀ {userId}, s.bus.userOf sessionId = some userId → userId = s.tab.userId
  published : ∀ {userId}, ∀ r ∈ s.bus.published userId, r ∈ s.tab.created ∧ r.userId = userId
  /-- Calls are refused from some point on, if at all. -/
  sent : s.sent <+: s.bus.calls sessionId
  sent_eq : s.isOpen = true → s.sent = s.bus.calls sessionId
  received_le : s.received ≤ s.sent.length
  told : ∀ r ∈ s.sent.take s.received, r.toNotification ∈ s.tab.told
  read : ∀ table ∈ s.late, ∀ r ∈ table, r.unread ∈ s.tab.created
  late : ∀ table ∈ s.late,
    s.bus.subscribedAt sessionId ≠ none ∧ s.CaughtUp sessionId table

lemma AllowedEvent.ne_publish {userId : JSString} {event : NotificationEvent NotificationRow}
    (h : AllowedEvent sessionId userId event) (userId' : JSString) (n : NotificationRow) :
    event ≠ .publishUserNotification userId' n := by
  rintro rfl
  exact h

lemma delivered_start (userId : JSString) : (start userId).Delivered sessionId where
  served := NotificationBus.served_start
  sound := NotificationTab.sound_start userId
  user := by simp [start, NotificationBus.start]
  published := by simp [start, NotificationBus.start]
  sent := List.nil_prefix
  sent_eq _ := rfl
  received_le := Nat.zero_le _
  told := by simp [start]
  read := by simp [start]
  late := by simp [start]

/-- A session that has not subscribed has been sent nothing. -/
lemma Delivered.user_cases (h : s.Delivered sessionId) :
    s.bus.calls sessionId = [] ∨ s.bus.userOf sessionId = some s.tab.userId := by
  cases huser : s.bus.userOf sessionId with
  | none => exact Or.inl (h.served.unknown huser).1
  | some userId => exact Or.inr (congrArg some (h.user huser))

lemma Delivered.user_of_subscribed (h : s.Delivered sessionId)
    (hsubscribed : s.bus.subscribedAt sessionId ≠ none) :
    s.bus.userOf sessionId = some s.tab.userId := by
  cases huser : s.bus.userOf sessionId with
  | none => exact absurd (h.served.unknown huser).2 hsubscribed
  | some userId => exact congrArg some (h.user huser)

/-- Nothing is taken back that the session was called with. -/
lemma Delivered.calls_prefix (h : s.Delivered sessionId)
    {event : NotificationEvent NotificationRow} {bus : NotificationBus NotificationRow}
    (hallowed : s.Allowed sessionId (.bus event)) (hstep : s.bus.step event = some bus) :
    s.bus.calls sessionId <+: bus.calls sessionId := by
  rcases h.user_cases with hnil | hsome
  · exact hnil ▸ List.nil_prefix
  · exact (h.served.sent_eq hallowed.1 hstep hallowed.2.ne_publish hsome).2.1

lemma Delivered.onBus (h : s.Delivered sessionId) {event : NotificationEvent NotificationRow}
    {bus : NotificationBus NotificationRow} (hallowed : s.Allowed sessionId (.bus event))
    (hstep : s.bus.step event = some bus) :
    Delivered sessionId
      { s with
        bus := bus
        sent := if s.isOpen = true then
          s.sent ++ (bus.calls sessionId).drop (s.bus.calls sessionId).length else s.sent } := by
  obtain ⟨more, hmore⟩ := h.calls_prefix hallowed hstep
  obtain ⟨hallowed, hevent⟩ := hallowed
  obtain ⟨hpublished, huserOf⟩ := NotificationBus.record_step hstep hevent.ne_publish
  have huser : ∀ {userId}, bus.userOf sessionId = some userId → userId = s.tab.userId := by
    intro userId hsome
    rcases huserOf hsome with hold | rfl
    · exact h.user hold
    · exact hevent rfl
  have hcreated : ∀ {userId}, ∀ r ∈ bus.published userId, r ∈ s.tab.created ∧ r.userId = userId :=
    hpublished ▸ h.published
  rw [← hmore, List.drop_left]
  -- what the bus hands over is sent while the socket is open, and refused from then on
  refine ⟨h.served.step hallowed hstep, h.sound, huser, hcreated, ?_, fun hopen => ?_, ?_, ?_,
    h.read, ?_⟩
  · show (if s.isOpen = true then s.sent ++ more else s.sent) <+: bus.calls sessionId
    rw [← hmore]
    split
    · rename_i hopen
      rw [h.sent_eq hopen]
    · exact h.sent.trans (List.prefix_append _ _)
  · show (if s.isOpen = true then s.sent ++ more else s.sent) = bus.calls sessionId
    have hopen' : s.isOpen = true := hopen
    rw [if_pos hopen', h.sent_eq hopen', hmore]
  · show s.received ≤ (if s.isOpen = true then s.sent ++ more else s.sent).length
    split
    · rw [List.length_append]
      exact Nat.le_add_right_of_le h.received_le
    · exact h.received_le
  · show ∀ r ∈ (if s.isOpen = true then s.sent ++ more else s.sent).take s.received, _
    split
    · rw [List.take_append_of_le_length h.received_le]
      exact h.told
    · exact h.told
  · intro table htable
    obtain ⟨hsubscribed, k, hk, htake, hdrop⟩ := h.late table htable
    obtain ⟨-, -, hsent, hat⟩ :=
      h.served.sent_eq hallowed hstep hevent.ne_publish (h.user_of_subscribed hsubscribed)
    refine ⟨hat hsubscribed, k, ?_⟩
    show k ≤ (bus.published s.tab.userId).length ∧ _
    rw [hpublished]
    exact ⟨hk, htake, fun r hr => hsent.symm ▸ hdrop r hr⟩

lemma Delivered.publish (h : s.Delivered sessionId) (hr : r ∈ s.tab.created) :
    Delivered sessionId { s with bus := s.bus.publishUserNotification r.userId r } := by
  have hpublished : ∀ userId, (s.bus.publishUserNotification r.userId r).published userId =
      s.bus.published userId ++ if userId = r.userId then [r] else [] := by
    intro userId
    show Function.update s.bus.published r.userId _ userId = _
    rw [Function.update_apply]
    split_ifs with huser
    · rw [huser]
    · rw [List.append_nil]
  refine ⟨h.served.publishUserNotification r.userId r, h.sound, h.user, ?_, h.sent, h.sent_eq,
    h.received_le, h.told, h.read, ?_⟩
  · intro userId r' hr'
    have hr'' := hpublished userId ▸ hr'
    rcases List.mem_append.mp hr'' with hold | hnew
    · exact h.published r' hold
    · split at hnew
      · rename_i huser
        rw [List.mem_singleton.mp hnew]
        exact ⟨hr, huser.symm⟩
      · simp at hnew
  · intro table htable
    obtain ⟨hsubscribed, k, hk, htake, hdrop⟩ := h.late table htable
    refine ⟨hsubscribed, k, ?_⟩
    show k ≤ ((s.bus.publishUserNotification r.userId r).published s.tab.userId).length ∧ _
    rw [hpublished]
    refine ⟨?_, ?_, ?_⟩
    · rw [List.length_append]
      exact Nat.le_add_right_of_le hk
    · rw [List.take_append_of_le_length hk]
      exact htake
    · show ∀ r' ∈ (_ ++ _ : List NotificationRow).drop k, r' ∈ s.bus.calls sessionId ++
        (s.bus.publishUserNotification r.userId r).pending s.tab.userId
      -- the subscription has been confirmed, so the publication reaches the channel
      rw [List.drop_append_of_le_length hk, NotificationBus.pending_publish]
      obtain ⟨n, hn⟩ := Option.ne_none_iff_exists'.mp hsubscribed
      have hchannel := (h.served.live (h.user_of_subscribed hsubscribed) hn).1
      intro r' hr'
      rcases List.mem_append.mp hr' with hold | hnew
      · rcases List.mem_append.mp (hdrop r' hold) with hcalls | hpending
        · exact List.mem_append_left _ hcalls
        · refine List.mem_append_right _ ?_
          split
          · exact List.mem_append_left _ hpending
          · exact hpending
      · split at hnew
        · rename_i hsame
          rw [if_pos ⟨hsame, hsame ▸ hchannel⟩]
          exact List.mem_append_right _ (List.mem_append_right _ hnew)
        · simp at hnew

/-- What has been published is known, and stays deleted once it is. -/
lemma Delivered.caughtUp_keeps (h : s.Delivered sessionId) {tab : NotificationTab}
    (hkeeps : s.tab.Keeps tab) {table : List NotificationRow}
    (hcaught : s.CaughtUp sessionId table) :
    CaughtUp { s with tab := tab } sessionId table := by
  obtain ⟨k, hk, htake, hdrop⟩ := hcaught
  refine ⟨k, ?_⟩
  show k ≤ (s.bus.published tab.userId).length ∧
    (∀ r ∈ (s.bus.published tab.userId).take k, _) ∧
    ∀ r ∈ (s.bus.published tab.userId).drop k,
      r ∈ s.bus.calls sessionId ++ s.bus.pending tab.userId
  rw [hkeeps.userId]
  refine ⟨hk, fun r hr => (htake r hr).imp_right fun hgone => ?_, hdrop⟩
  have hcreated := (h.published r (List.mem_of_mem_take hr)).1
  exact hkeeps.gone r.id (List.mem_map_of_mem hcreated) hgone

lemma Delivered.inTab (h : s.Delivered sessionId) {a : NotificationAction} {tab : NotificationTab}
    (hallowed : s.Allowed sessionId (.tab a)) (hstep : s.tab.step a = some tab) :
    Delivered sessionId
      { s with
        tab := tab
        late := if readsHistory a = true ∧ s.bus.subscribedAt sessionId ≠ none then
          s.tab.table :: s.late else s.late } := by
  have hkeeps := NotificationTab.keeps_step hallowed.1 hallowed.2 hstep
  refine ⟨h.served, h.sound.step hallowed.1 hstep,
    fun huser => (h.user huser).trans hkeeps.userId.symm, fun r hr => ?_, h.sent, h.sent_eq,
    h.received_le, fun r hr => hkeeps.told (h.told r hr), ?_, ?_⟩
  · exact ⟨hkeeps.created (h.published r hr).1, (h.published r hr).2⟩
  · intro table htable r hr
    change table ∈ (if readsHistory a = true ∧ s.bus.subscribedAt sessionId ≠ none then
      s.tab.table :: s.late else s.late) at htable
    refine hkeeps.created ?_
    split at htable
    · rcases List.mem_cons.mp htable with rfl | htable
      · exact h.sound.stored.row r hr
      · exact h.read table htable r hr
    · exact h.read table htable r hr
  · have hold : ∀ table ∈ s.late, s.bus.subscribedAt sessionId ≠ none ∧
        CaughtUp { s with tab := tab } sessionId table := fun table htable =>
      ⟨(h.late table htable).1, h.caughtUp_keeps hkeeps (h.late table htable).2⟩
    intro table htable
    change table ∈ (if readsHistory a = true ∧ s.bus.subscribedAt sessionId ≠ none then
      s.tab.table :: s.late else s.late) at htable
    split at htable
    · rename_i hreads
      rcases List.mem_cons.mp htable with rfl | htable
      · -- all that has been published so far is in the table or deleted
        refine ⟨hreads.2, h.caughtUp_keeps hkeeps ⟨_, le_refl _, fun r _ => ?_, ?_⟩⟩
        · exact Classical.em _
        · simp
      · exact hold table htable
    · exact hold table htable

lemma Delivered.receive (h : s.Delivered sessionId) (hr : s.sent[s.received]? = some r) :
    Delivered sessionId
      { s with tab := s.tab.receive r.toNotification, received := s.received + 1 } := by
  obtain ⟨hlt, hget⟩ := List.getElem?_eq_some_iff.mp hr
  have hmem : r ∈ s.bus.calls sessionId := h.sent.subset (List.mem_of_getElem? hr)
  have huser : s.bus.userOf sessionId = some s.tab.userId := by
    rcases h.user_cases with hcalls | hsome
    · simp [hcalls] at hmem
    · exact hsome
  obtain ⟨hcreated, hown⟩ := h.published r
    ((h.served.sent_suffix huser).subset (List.mem_append_left _ hmem))
  have hkeeps := NotificationTab.keeps_receive s.tab r.toNotification
  refine ⟨h.served, h.sound.receive hcreated hown,
    fun huser => (h.user huser).trans hkeeps.userId.symm,
    fun r' hr' => ⟨hkeeps.created (h.published r' hr').1, (h.published r' hr').2⟩, h.sent,
    h.sent_eq, hlt, ?_, fun table htable r' hr' => hkeeps.created (h.read table htable r' hr'),
    fun table htable => ⟨(h.late table htable).1, h.caughtUp_keeps hkeeps (h.late table htable).2⟩⟩
  intro r' hr'
  have hr'' : r' ∈ s.sent.take (s.received + 1) := hr'
  rw [List.take_add_one, hr] at hr''
  rcases List.mem_append.mp hr'' with hold | hnew
  · exact hkeeps.told (h.told r' hold)
  · rw [List.mem_singleton.mp hnew]
    exact s.tab.mem_told_receive r.toNotification

lemma Delivered.terminate (h : s.Delivered sessionId) :
    Delivered sessionId { s with isOpen := false } :=
  ⟨h.served, h.sound, h.user, h.published, h.sent, fun hopen => absurd hopen (by simp),
    h.received_le, h.told, h.read, h.late⟩

lemma Delivered.hangUp (h : s.Delivered sessionId) :
    Delivered sessionId { s with listens := false } :=
  ⟨h.served, h.sound, h.user, h.published, h.sent, h.sent_eq, h.received_le, h.told, h.read, h.late⟩

lemma Delivered.step {a : DeliveryAction} (h : s.Delivered sessionId)
    (hallowed : s.Allowed sessionId a) (hstep : step sessionId s a = some s') :
    s'.Delivered sessionId := by
  cases a with
  | bus event =>
      obtain ⟨bus, hbus, rfl⟩ := Option.map_eq_some_iff.mp hstep
      exact h.onBus hallowed hbus
  | publish r =>
      simp only [NotificationDelivery.step, Option.ite_none_right_eq_some,
        Option.some.injEq] at hstep
      obtain ⟨hr, rfl⟩ := hstep
      exact h.publish hr
  | tab a =>
      obtain ⟨tab, htab, rfl⟩ := Option.map_eq_some_iff.mp hstep
      exact h.inTab hallowed htab
  | receive =>
      simp only [NotificationDelivery.step, Option.ite_none_right_eq_some,
        Option.map_eq_some_iff] at hstep
      obtain ⟨-, r, hr, rfl⟩ := hstep
      exact h.receive hr
  | terminate =>
      obtain rfl := Option.some.inj hstep
      exact h.terminate
  | hangUp =>
      obtain rfl := Option.some.inj hstep
      exact h.hangUp

lemma Reachable.delivered (h : s.Reachable sessionId) : s.Delivered sessionId := by
  obtain ⟨userId, hreach⟩ := h
  exact hreach.invariant (delivered_start userId) fun _ _ _ hs hallowed hstep =>
    hs.step hallowed hstep

/-- What a session was called with and has not received is on its way or missed. -/
lemma Delivered.onItsWay_or_missed (h : s.Delivered sessionId)
    (hr : r ∈ (s.bus.calls sessionId).drop s.received ∨ r ∈ s.bus.pending s.tab.userId) :
    r ∈ s.onItsWay ∨ r ∈ s.missed sessionId := by
  have hboth : r ∈ (s.bus.calls sessionId).drop s.received ++ s.bus.pending s.tab.userId :=
    List.mem_append.mpr hr
  unfold onItsWay missed
  split
  · exact Or.inr hboth
  split
  · -- what was sent comes, and nothing after that
    obtain ⟨refused, hrefused⟩ := h.sent
    rw [← hrefused, List.drop_append_of_le_length h.received_le, List.append_assoc] at hboth
    rw [← hrefused, List.drop_left]
    exact List.mem_append.mp hboth
  · rename_i hopen
    rw [h.sent_eq (Bool.not_eq_false _ ▸ hopen)]
    exact Or.inl hboth

/-! ## What is missed -/

/-- A step of the bus takes nothing from the calls that are left or to come. -/
lemma Delivered.rest_eq (h : s.Delivered sessionId) {event : NotificationEvent NotificationRow}
    {bus : NotificationBus NotificationRow} (hallowed : s.Allowed sessionId (.bus event))
    (hstep : s.bus.step event = some bus) (hsubscribed : s.bus.subscribedAt sessionId ≠ none)
    {k : Nat} (hk : k ≤ (s.bus.calls sessionId).length) :
    (bus.calls sessionId).drop k ++ bus.pending s.tab.userId =
      (s.bus.calls sessionId).drop k ++ s.bus.pending s.tab.userId := by
  have hprefix := h.calls_prefix hallowed hstep
  obtain ⟨-, -, hsame, -⟩ :=
    h.served.sent_eq hallowed.1 hstep hallowed.2.ne_publish (h.user_of_subscribed hsubscribed)
  rw [← List.drop_append_of_le_length (hk.trans hprefix.length_le), hsame,
    List.drop_append_of_le_length hk]

/-- What is missed does not come by this socket any more. -/
lemma Delivered.missed_step {a : DeliveryAction} (h : s.Delivered sessionId)
    (hsubscribed : s.bus.subscribedAt sessionId ≠ none) (hallowed : s.Allowed sessionId a)
    (hstep : NotificationDelivery.step sessionId s a = some s') :
    s'.bus.subscribedAt sessionId ≠ none ∧ s.missed sessionId ⊆ s'.missed sessionId := by
  cases a with
  | bus event =>
      obtain ⟨bus, hbus, rfl⟩ := Option.map_eq_some_iff.mp hstep
      obtain ⟨-, -, -, hat⟩ :=
        h.served.sent_eq hallowed.1 hbus hallowed.2.ne_publish (h.user_of_subscribed hsubscribed)
      refine ⟨hat hsubscribed, ?_⟩
      unfold missed
      split
      · have hle := h.received_le.trans h.sent.length_le
        rw [h.rest_eq hallowed hbus hsubscribed hle]
        exact List.Subset.refl _
      split
      · rename_i hclosed
        simp only [hclosed, Bool.false_eq_true, if_false]
        rw [h.rest_eq hallowed hbus hsubscribed h.sent.length_le]
        exact List.Subset.refl _
      · exact List.nil_subset _
  | publish r =>
      simp only [NotificationDelivery.step, Option.ite_none_right_eq_some,
        Option.some.injEq] at hstep
      obtain ⟨-, rfl⟩ := hstep
      have hrest : ∀ rest : List NotificationRow, rest ++ s.bus.pending s.tab.userId ⊆
          rest ++ (s.bus.publishUserNotification r.userId r).pending s.tab.userId := by
        intro rest
        rw [NotificationBus.pending_publish]
        split
        · rw [← List.append_assoc]
          exact List.subset_append_left _ _
        · exact List.Subset.refl _
      refine ⟨hsubscribed, ?_⟩
      unfold missed
      split
      · exact hrest _
      split
      · exact hrest _
      · exact List.nil_subset _
  | tab a =>
      obtain ⟨tab, htab, rfl⟩ := Option.map_eq_some_iff.mp hstep
      have huser := (NotificationTab.keeps_step hallowed.1 hallowed.2 htab).userId
      refine ⟨hsubscribed, ?_⟩
      simp only [missed, huser]
      exact List.Subset.refl _
  | receive =>
      simp only [NotificationDelivery.step, Option.ite_none_right_eq_some,
        Option.map_eq_some_iff] at hstep
      obtain ⟨hlistens, r, -, rfl⟩ := hstep
      have huser := (NotificationTab.keeps_receive s.tab r.toNotification).userId
      refine ⟨hsubscribed, ?_⟩
      simp only [missed, huser, hlistens, Bool.true_eq_false, if_false]
      exact List.Subset.refl _
  | terminate =>
      obtain rfl := Option.some.inj hstep
      refine ⟨hsubscribed, ?_⟩
      unfold missed
      split
      · exact List.Subset.refl _
      split
      · exact List.Subset.refl _
      · exact List.nil_subset _
  | hangUp =>
      obtain rfl := Option.some.inj hstep
      refine ⟨hsubscribed, ?_⟩
      unfold missed
      rw [if_pos rfl]
      split
      · exact List.Subset.refl _
      split
      · -- what was refused comes after what was sent
        exact List.append_subset.mpr ⟨List.subset_append_of_subset_left _
          (List.drop_subset_drop_left _ h.received_le), List.subset_append_right _ _⟩
      · exact List.nil_subset _

/-- What is missed does not come by this socket, however long the page lives. -/
lemma missed_run (h : s.Reachable sessionId) (hsubscribed : s.bus.subscribedAt sessionId ≠ none)
    (hrun : Reach (step sessionId) (fun s => s.Allowed sessionId) s s') :
    s.missed sessionId ⊆ s'.missed sessionId := by
  have hall : s'.Delivered sessionId ∧ s'.bus.subscribedAt sessionId ≠ none ∧
      s.missed sessionId ⊆ s'.missed sessionId := by
    refine @Reach.invariant _ _ _ _ _ _ (fun t => t.Delivered sessionId ∧
      t.bus.subscribedAt sessionId ≠ none ∧ s.missed sessionId ⊆ t.missed sessionId) hrun
      ⟨h.delivered, hsubscribed, List.Subset.refl _⟩ ?_
    rintro s₁ a s₂ ⟨hs₁, hsub, hmissed⟩ hallowed hstep
    obtain ⟨hsub', hmissed'⟩ := hs₁.missed_step hsub hallowed hstep
    exact ⟨hs₁.step hallowed hstep, hsub', List.Subset.trans hmissed hmissed'⟩
  exact hall.2.2

/-- **No notification is missed** by a page that shows a history which was read after its
SUBSCRIBE, but by the end of its socket: what was published for the user and has not been deleted
is shown, or older than twenty that are, or on its way to the tab, or missed.  Nothing is missed as
long as neither end of the socket has closed, and what is missed stays so. -/
theorem no_notification_missed (h : s.Reachable sessionId) {table : List NotificationRow}
    (hshown : table ∈ s.tab.histories) (hlate : table ∈ s.late)
    (hr : r ∈ s.bus.published s.tab.userId) (hkept : r.id ∈ s.tab.table.map NotificationRow.id) :
    (r.id ∈ s.tab.center.notifications.map Notification.id ∨
      (∃ page : List Notification, page.length = 20 ∧ (page.map Notification.id).Nodup ∧
        ∀ n ∈ page, n.id ∈ s.tab.center.notifications.map Notification.id ∧
          r.toNotification.createdAt ≤ n.createdAt) ∨
      r ∈ s.onItsWay ∨ r ∈ s.missed sessionId) ∧
    (s.isOpen = true → s.listens = true → s.missed sessionId = []) ∧
    ∀ s', Reach (step sessionId) (fun s => s.Allowed sessionId) s s' →
      s.missed sessionId ⊆ s'.missed sessionId := by
  have hs := h.delivered
  have hmissed : s.isOpen = true → s.listens = true → s.missed sessionId = [] :=
    fun hopen hlistens => by simp [missed, hopen, hlistens]
  refine ⟨?_, hmissed, fun _ => missed_run h (hs.late table hlate).1⟩
  obtain ⟨-, k, hk, htake, hdrop⟩ := hs.late table hlate
  have hblank := hs.sound.shown.blank_of_mem_histories hshown
  have hids : ∀ n : Notification, n.unread ∈ s.tab.told.map Notification.unread →
      n.id ∈ s.tab.center.notifications.map Notification.id := fun n hn =>
    hs.sound.shown.id_of_told hblank hn
  -- `k` publications came before the table was read
  rw [← List.take_append_drop k (s.bus.published s.tab.userId)] at hr
  rcases List.mem_append.mp hr with hbefore | hafter
  · -- it was in the table, and the table is covered by what is shown
    obtain ⟨r', hr', hid⟩ := List.mem_map.mp ((htake r hbefore).resolve_right fun hgone =>
      hgone hkept)
    obtain ⟨hcreated, huser⟩ := hs.published r (List.mem_of_mem_take hbefore)
    have hsame : r'.unread = r := List.inj_on_of_nodup_map hs.sound.stored.created_unique
      (hs.read table hlate r' hr') hcreated hid
    subst hsame
    rcases hs.sound.shown.covered table hshown r' hr' huser with htold | hpage
    · exact Or.inl (hids r'.toNotification htold)
    · obtain ⟨page, hlength, hnodup, hpage⟩ := hpage
      exact Or.inr (Or.inl ⟨page, hlength, hnodup, fun n hn =>
        ⟨hids n (hpage n hn).1, (hpage n hn).2⟩⟩)
  · rcases List.mem_append.mp (hdrop r hafter) with hcalls | hpending
    · rw [← List.take_append_drop s.received (s.bus.calls sessionId)] at hcalls
      rcases List.mem_append.mp hcalls with harrived | hlater
      · -- what has arrived was sent
        obtain ⟨refused, hrefused⟩ := hs.sent
        rw [← hrefused, List.take_append_of_le_length hs.received_le] at harrived
        exact Or.inl (hids r.toNotification (List.mem_map_of_mem (hs.told r harrived)))
      · exact Or.inr (Or.inr (hs.onItsWay_or_missed (Or.inl hlater)))
    · exact Or.inr (Or.inr (hs.onItsWay_or_missed (Or.inr hpending)))

/-- The tab of Bob joins; one invitation is there when the history is read, another comes then.  The
heartbeat ends the socket before the third. -/
def joining : List DeliveryAction :=
  let bob := JSString.lit "bob"
  let ann := JSString.lit "ann"
  [.bus (.subscribeToUser bob (JSString.lit "s")), .bus .command,
    .tab (.invite (JSString.lit "1") 1000 bob ann (JSString.lit "A") (JSString.lit "a1")),
    .publish NotificationTab.first, .tab .toggle,
    .tab (.execute .history 0 [NotificationTab.first]), .bus .deliver, .receive,
    .tab (.invite (JSString.lit "2") 2000 bob ann (JSString.lit "B") (JSString.lit "b2")),
    .publish NotificationTab.second, .bus .deliver,
    .tab (.answer (.historyAnswer [NotificationTab.first.toNotification] [NotificationTab.first])
      true 0),
    .terminate,
    .tab (.invite (JSString.lit "3") 3000 bob ann (JSString.lit "C") (JSString.lit "c3")),
    .publish (NotificationTab.invitedByAnn (JSString.lit "3") 3000 (JSString.lit "C")
      (JSString.lit "c3")),
    .bus .deliver]

/-- The tab after `joining`. -/
def joined : NotificationDelivery :=
  (runAllowed (step (JSString.lit "s")) (fun s => s.Allowed (JSString.lit "s"))
    (start (JSString.lit "bob")) joining).get (by decide +kernel)

lemma reachable_joined : joined.Reachable (JSString.lit "s") := ⟨JSString.lit "bob", reach_get _⟩

theorem no_notification_missed_joined :
    (NotificationTab.second.id ∈ joined.tab.center.notifications.map Notification.id ∨
      (∃ page : List Notification, page.length = 20 ∧ (page.map Notification.id).Nodup ∧
        ∀ n ∈ page, n.id ∈ joined.tab.center.notifications.map Notification.id ∧
          NotificationTab.second.toNotification.createdAt ≤ n.createdAt) ∨
      NotificationTab.second ∈ joined.onItsWay ∨
        NotificationTab.second ∈ joined.missed (JSString.lit "s")) ∧
      joined.onItsWay = [NotificationTab.second] ∧
      (joined.missed (JSString.lit "s")).map NotificationRow.id = [JSString.lit "3"] :=
  ⟨(@no_notification_missed _ _ _ reachable_joined [NotificationTab.first] (by decide +kernel)
    (by decide +kernel) (by decide +kernel) (by decide +kernel)).1, by decide +kernel,
    by decide +kernel⟩

end NotificationDelivery

end SyncEngine
