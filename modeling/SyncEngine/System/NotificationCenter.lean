import Mathlib.Data.List.Sort
import SyncEngine.Lib.Transition
import SyncEngine.Server.NotificationStore

/-!
# The notification center

The list of notifications of a user in one tab (`client/hooks/useNotifications.ts`,
`client/components/NotificationCenter.tsx`), over the table that it is read from and written to by
requests.

A notification is inserted when somebody is invited (POST `/:id/invites`), and published.  It may
arrive at the tab at any time, or never.  The history is fetched when the center is opened and has
not got it yet, so that more than one GET may be under way.  A request is executed on the server
some time after it was sent, and answered some time after that; it may be answered without having
been executed, by an error, or fail.  Other requests of the user and of others are executed in
between.

When the answer to the GET is an error, `r.json()` is an object without `forEach`.  The updater then
throws while React renders, nothing catches that, and React takes the whole page down: it is blank
until it is reloaded.
-/

namespace SyncEngine

open KeyedTable NotificationStore Transition

/-- `Notification` of `useNotifications`.  Times are in milliseconds. -/
structure Notification where
  id : JSString
  userId : JSString
  type : JSString
  message : JSString
  readAt : Option Nat
  metadata : NotificationMetadata
  createdAt : Nat
deriving DecidableEq

/-- A row in JSON. -/
def NotificationRow.toNotification (r : NotificationRow) : Notification :=
  ⟨r.id, r.userId, r.type, r.message, r.readAt.map (· / 1000), r.metadata, r.createdAt / 1000⟩

/-- A notification as it was created. -/
def Notification.unread (n : Notification) : Notification := { n with readAt := none }

/-! ## The component -/

/-- The state of the component, with that of its hook. -/
structure NotificationCenter where
  notifications : List Notification
  isOpen : Bool
  historyLoaded : Bool
deriving DecidableEq

namespace NotificationCenter

/-- The component as it is mounted. -/
def start : NotificationCenter := ⟨[], false, false⟩

/-- `NOTIFICATION_CREATED`. -/
def notificationCreated (c : NotificationCenter) (n : Notification) : NotificationCenter :=
  { c with notifications := n :: c.notifications }

/-- The values of `new Map(prev.map(n => [n.id, n]))`. -/
def byId (prev : List Notification) : List Notification :=
  prev.foldl (fun map n => upsert Notification.id n map) []

/-- The history is merged into what is shown, newest first. -/
def merge (prev data : List Notification) : List Notification :=
  (data.foldl (fun map n => insertNew Notification.id n map) (byId prev)).insertionSort
    fun a b => b.createdAt ≤ a.createdAt

/-- The answer to the GET. -/
def mergeHistory (c : NotificationCenter) (data : List Notification) : NotificationCenter :=
  { c with notifications := merge c.notifications data, historyLoaded := true }

/-- The number on the badge. -/
def unreadCount (c : NotificationCenter) : Nat :=
  (c.notifications.filter fun n => n.readAt = none).length

/-- What `markAsRead` does when it is answered. -/
def markAsRead (c : NotificationCenter) (id : JSString) (now : Nat) : NotificationCenter :=
  { c with
    notifications := c.notifications.map fun n =>
      if n.id = id then { n with readAt := some now } else n }

/-- What `markAllAsRead` does when it is answered. -/
def markAllAsRead (c : NotificationCenter) (now : Nat) : NotificationCenter :=
  { c with notifications := c.notifications.map fun n => { n with readAt := some now } }

variable {prev data : List Notification} {n : Notification} {id : JSString}

lemma mem_merge (h : n ∈ merge prev data) : n ∈ data ∨ n ∈ prev := by
  have hmem := (List.perm_insertionSort _ _).mem_iff.mp h
  rcases (puts_insertNew.foldl data (byId prev)).2.1 n hmem with hn | hn
  · exact Or.inl hn
  · rcases (puts_upsert.foldl prev []).2.1 n hn with hn | hn
    · exact Or.inr hn
    · simp at hn

lemma exists_merge (h : n ∈ data ∨ n ∈ prev) : ∃ m ∈ merge prev data, m.id = n.id := by
  have hbyId : (∃ m ∈ byId prev, m.id = n.id) ↔ ∃ m ∈ prev, m.id = n.id :=
    ((puts_upsert.foldl prev []).2.2 n.id).trans (by simp)
  have hexists : (∃ m ∈ data, m.id = n.id) ∨ ∃ m ∈ byId prev, m.id = n.id :=
    h.imp (fun hn => ⟨n, hn, rfl⟩) fun hn => hbyId.mpr ⟨n, hn, rfl⟩
  obtain ⟨m, hm, hid⟩ := ((puts_insertNew.foldl data (byId prev)).2.2 n.id).mpr hexists
  exact ⟨m, (List.perm_insertionSort _ _).mem_iff.mpr hm, hid⟩

lemma nodup_merge (prev data : List Notification) :
    ((merge prev data).map Notification.id).Nodup := by
  have hbyId : Keyed Notification.id (byId prev) := (puts_upsert.foldl prev []).1 List.nodup_nil
  have hkeyed := (puts_insertNew.foldl data (byId prev)).1 hbyId
  exact ((List.perm_insertionSort _ _).map _).nodup_iff.mpr hkeyed

lemma pairwise_merge (prev data : List Notification) :
    (merge prev data).Pairwise fun a b => b.createdAt ≤ a.createdAt :=
  List.pairwise_insertionSort (fun a b : Notification => b.createdAt ≤ a.createdAt) _

lemma unread_markAsRead (c : NotificationCenter) (id : JSString) (now : Nat) :
    (c.markAsRead id now).notifications.map Notification.unread =
      c.notifications.map Notification.unread := by
  rw [markAsRead, List.map_map]
  refine List.map_congr_left fun n _ => ?_
  show (if n.id = id then { n with readAt := some now } else n).unread = n.unread
  split <;> rfl

lemma unread_markAllAsRead (c : NotificationCenter) (now : Nat) :
    (c.markAllAsRead now).notifications.map Notification.unread =
      c.notifications.map Notification.unread := by
  rw [markAllAsRead, List.map_map]
  rfl

end NotificationCenter

/-- `/`. -/
def JSString.slash : CodeUnit := JSString.codeUnit '/'

/-- The link to an invitation. -/
def inviteLink (token : JSString) : JSString := JSString.lit "/invite/" ++ token

/-- `link.split('/').pop()`. -/
def linkToken (link : JSString) : JSString := ((link.splitOn JSString.slash).getLast?).getD []

/-- **The token comes back** out of the link. -/
lemma linkToken_inviteLink {token : JSString} (h : JSString.slash ∉ token) :
    linkToken (inviteLink token) = token := by
  have hlink : inviteLink token = [] ++ JSString.slash :: (JSString.lit "invite" ++
      JSString.slash :: token) := rfl
  rw [linkToken, hlink, List.splitOn_append_cons_self, List.splitOn_append_cons_self,
    List.splitOn_eq_singleton h, ← List.append_assoc, List.getLast?_concat, Option.getD_some]

/-! ## The tab and the server -/

/-- A request of the center. -/
inductive CenterRequest where
  /-- GET `/api/notifications`, and its answer, with the table that it was read from. -/
  | history
  | historyAnswer (data : List Notification) (table : List NotificationRow)
  /-- PATCH `/:id/read`. -/
  | markAsRead (id : JSString) (executed : Bool)
  /-- PATCH `/read-all`.  When it was executed the user had the notifications `ids`. -/
  | markAllAsRead (ids : Option (List JSString))
  /-- POST `/api/invites/:token/accept` or `/reject`, for the notification `id`. -/
  | invitation (token : JSString) (accept : Bool) (id : JSString)
deriving DecidableEq

/-- A tab of a user, and the table on the server. -/
structure NotificationTab where
  userId : JSString
  table : List NotificationRow
  center : NotificationCenter
  /-- React has taken the page down. -/
  blank : Bool
  /-- The requests that are not answered. -/
  requests : List CenterRequest
  /-- The notifications that were inserted. -/
  created : List NotificationRow
  /-- What has arrived since a history was merged, the last first. -/
  recent : List Notification
  /-- What has arrived since the page was loaded, or was in a history that was merged. -/
  told : List Notification
  /-- The tables that the histories are from that were merged into what is shown. -/
  histories : List (List NotificationRow)
  /-- What was marked by an answer without being read on the server by that request: because it
  was not executed, or because the notification was inserted after the UPDATE. -/
  unserved : List JSString

/-- What the user, the server or somebody else does. -/
inductive NotificationAction where
  /-- POST `/:id/invites` inserts the notification. -/
  | invite (id : JSString) (now : Nat) (targetUserId currentUserEmail title token : JSString)
  /-- A statement for anybody else, or for a request of this user from elsewhere. -/
  | elsewhere (s : NotificationStatement)
  | notificationCreated (r : NotificationRow)
  | toggle
  /-- The effect is run again, with a new `token`. -/
  | newToken
  | markAllAsRead
  | handleAction (n : Notification) (accept : Bool)
  /-- A request is executed, with the rows of the user in the order of a SELECT. -/
  | execute (r : CenterRequest) (now : Nat) (rows : List NotificationRow)
  | answer (r : CenterRequest) (ok : Bool) (now : Nat)
  | fail (r : CenterRequest)
  | reload

namespace NotificationTab

/-- A page that is opened while there are no notifications. -/
def start (userId : JSString) : NotificationTab :=
  ⟨userId, [], .start, false, [], [], [], [], [], []⟩

/-- `createNotification`, as POST `/:id/invites` calls it. -/
def inviteNotification (id : JSString) (now : Nat)
    (targetUserId currentUserEmail title token : JSString) : NotificationStatement :=
  .createNotification id now targetUserId (JSString.lit "INVITATION")
    (JSString.lit "Document Invitation")
    (currentUserEmail ++ JSString.lit " invited you to edit \"" ++ title ++ JSString.lit "\"")
    (some (inviteLink token))

/-- The notifications of the user, as they were created. -/
def own (s : NotificationTab) : List Notification :=
  (s.created.filter fun r => r.userId = s.userId).map NotificationRow.toNotification

/-- A statement is executed. -/
def exec (s : NotificationTab) (statement : NotificationStatement) : Option NotificationTab :=
  (NotificationStore.exec s.table statement).map fun table =>
    { s with
      table := table
      created := match statement with
        | .createNotification id now userId type title message link =>
            s.created ++ [newNotification id now userId type title message link]
        | _ => s.created }

/-- A notification arrives.  There is nothing left to show it once the page is down. -/
def receive (s : NotificationTab) (n : Notification) : NotificationTab :=
  if s.blank = true then { s with told := n :: s.told }
  else
    { s with
      center := s.center.notificationCreated n
      recent := n :: s.recent
      told := n :: s.told }

/-- A request goes out. -/
def send (s : NotificationTab) (r : CenterRequest) : NotificationTab :=
  { s with requests := r :: s.requests }

/-- The effect. -/
def fetchHistory (s : NotificationTab) : NotificationTab :=
  if s.center.isOpen = true ∧ s.center.historyLoaded = false then s.send .history else s

/-- The bell is clicked. -/
def toggle (s : NotificationTab) : NotificationTab :=
  fetchHistory { s with center := { s.center with isOpen := !s.center.isOpen } }

/-- Accept or Reject. -/
def handleAction (s : NotificationTab) (n : Notification) (accept : Bool) : NotificationTab :=
  match n.metadata.link with
  | none => s.send (.markAsRead n.id false)
  | some link =>
      if n.type = JSString.lit "INVITATION" ∧ link ≠ [] then
        s.send (.invitation (linkToken link) accept n.id)
      else s.send (.markAsRead n.id false)

/-- `window.location.reload()`. -/
def reload (s : NotificationTab) : NotificationTab :=
  { s with center := .start, blank := false, requests := [], recent := [], told := []
           histories := [], unserved := [] }

/-- The history that was asked for is there. -/
def mergeHistory (s : NotificationTab) (data : List Notification) (table : List NotificationRow) :
    NotificationTab :=
  if s.blank = true then s
  else
    { s with
      center := s.center.mergeHistory data
      recent := []
      told := data ++ s.told
      histories := table :: s.histories }

/-- The updater throws in a render, and React unmounts all there is. -/
def unmount (s : NotificationTab) : NotificationTab :=
  { s with center := .start, blank := true, recent := [], histories := [], unserved := [] }

/-- The table after a request was executed, and what there is to be answered. -/
def execute (s : NotificationTab) (now : Nat) (rows : List NotificationRow) :
    CenterRequest → Option (List NotificationRow × CenterRequest)
  | .history =>
      if IsNewestFirst s.table s.userId rows then
        some (s.table, .historyAnswer
          ((getUserNotifications rows 20 0).map NotificationRow.toNotification) s.table)
      else none
  | .markAsRead id false =>
      some (markNotificationAsRead id s.userId now s.table, .markAsRead id true)
  | .markAllAsRead none =>
      some (markAllNotificationsAsRead s.userId now s.table,
        .markAllAsRead (some (s.own.map Notification.id)))
  | _ => none

/-- What an answer makes of the tab, where `ok` says that it is no error.  To a POST that is an
alert; for a PATCH it does not matter. -/
def answered (s : NotificationTab) (ok : Bool) (now : Nat) : CenterRequest → NotificationTab
  | .history => s.unmount
  | .historyAnswer data table => if ok = true then s.mergeHistory data table else s.unmount
  | .markAsRead id executed =>
      { s with
        center := s.center.markAsRead id now
        unserved := if executed then s.unserved else id :: s.unserved }
  | .markAllAsRead ids =>
      { s with
        center := s.center.markAllAsRead now
        unserved := (s.center.notifications.map Notification.id).filter
          (fun id => !(ids.getD []).contains id) ++ s.unserved }
  | .invitation _ accept id =>
      if ok = true then
        -- the PATCH that is sent before a reload is one from elsewhere
        if accept = true then s.reload else s.send (.markAsRead id false)
      else s

/-- One action, if it can happen. -/
def step (s : NotificationTab) : NotificationAction → Option NotificationTab
  | .invite id now targetUserId currentUserEmail title token =>
      s.exec (inviteNotification id now targetUserId currentUserEmail title token)
  | .elsewhere statement => s.exec statement
  | .notificationCreated r => some (s.receive r.toNotification)
  | .toggle => if s.blank = true then none else some s.toggle
  | .newToken => if s.blank = true then none else some s.fetchHistory
  | .markAllAsRead =>
      if s.center.isOpen = true ∧ 0 < s.center.unreadCount then some (s.send (.markAllAsRead none))
      else none
  | .handleAction n accept =>
      -- the buttons of an unread invitation
      if s.center.isOpen = true ∧ n ∈ s.center.notifications ∧
          n.type = JSString.lit "INVITATION" ∧ n.readAt = none then
        some (s.handleAction n accept)
      else none
  | .execute r now rows =>
      if r ∈ s.requests then
        (s.execute now rows r).map fun p =>
          { s with table := p.1, requests := p.2 :: s.requests.erase r }
      else none
  | .answer r ok now =>
      -- a GET that was not executed is answered by an error
      if r ∈ s.requests ∧ (r = .history → ok = false) then
        some ({ s with requests := s.requests.erase r }.answered ok now r)
      else none
  | .fail r =>
      if r ∈ s.requests then some { s with requests := s.requests.erase r } else none
  | .reload => some s.reload

/-- Ids are not drawn twice, tokens are hexadecimal; nothing else inserts notifications, and only
those of the user arrive. -/
def Allowed (s : NotificationTab) : NotificationAction → Prop
  | .invite id _ _ _ _ token => id ∉ s.created.map NotificationRow.id ∧ JSString.slash ∉ token
  | .elsewhere (.createNotification ..) => False
  | .notificationCreated r => r ∈ s.created ∧ r.userId = s.userId
  | _ => True

instance (s : NotificationTab) : DecidablePred s.Allowed
  | .invite id _ _ _ _ token =>
      inferInstanceAs
        (Decidable (id ∉ s.created.map NotificationRow.id ∧ JSString.slash ∉ token))
  | .elsewhere (.createNotification ..) => isFalse id
  | .elsewhere (.markNotificationAsRead ..) => isTrue trivial
  | .elsewhere (.markAllNotificationsAsRead ..) => isTrue trivial
  | .elsewhere (.deleteNotification ..) => isTrue trivial
  | .notificationCreated r => inferInstanceAs (Decidable (r ∈ s.created ∧ r.userId = s.userId))
  | .toggle => isTrue trivial
  | .newToken => isTrue trivial
  | .markAllAsRead => isTrue trivial
  | .handleAction .. => isTrue trivial
  | .execute .. => isTrue trivial
  | .answer .. => isTrue trivial
  | .fail _ => isTrue trivial
  | .reload => isTrue trivial

/-- A run of the tab of a user. -/
def Reachable (s : NotificationTab) : Prop := ∃ userId, Reach step Allowed (start userId) s

/-! ## The invariant -/

variable {s s' : NotificationTab} {r : NotificationRow} {n : Notification} {id : JSString}

/-- A row as `createNotification` inserts it for an invitation. -/
def Invites (r : NotificationRow) (token : JSString) : Prop :=
  r.readAt = none ∧ r.type = JSString.lit "INVITATION" ∧
    r.metadata.link = some (inviteLink token) ∧ JSString.slash ∉ token

/-- What the table has to do with what was inserted. -/
structure Stored (s : NotificationTab) : Prop where
  keyed : Keyed NotificationRow.id s.table
  created_unique : (s.created.map NotificationRow.id).Nodup
  row : ∀ r ∈ s.table, r.unread ∈ s.created
  invited : ∀ r ∈ s.created, ∃ token, Invites r token

/-- A notification of the user is read on the server, unless it has been deleted there. -/
def Read (s : NotificationTab) (id : JSString) : Prop :=
  id ∈ s.own.map Notification.id ∧ ∀ r ∈ s.table, r.id = id → r.readAt ≠ none

/-- What statements do to the table. -/
structure Grows (s s' : NotificationTab) : Prop where
  userId : s'.userId = s.userId
  created : s.created ⊆ s'.created
  read : ∀ {id}, s.Read id → s'.Read id

/-- A row that is not in a history, which is in a list of notifications as far as that goes, is
older than twenty others. -/
def Covers (userId : JSString) (table : List NotificationRow) (data : List Notification) : Prop :=
  ∀ r ∈ table, r.userId = userId → r.toNotification.unread ∈ data.map Notification.unread ∨
    ∃ page : List Notification, page.length = 20 ∧ (page.map Notification.id).Nodup ∧
      ∀ n ∈ page, n.unread ∈ data.map Notification.unread ∧
        r.toNotification.createdAt ≤ n.createdAt

/-- What a request and its answer are about. -/
def Holds (s : NotificationTab) : CenterRequest → Prop
  | .history => True
  | .historyAnswer data table =>
      (∀ n ∈ data, n.unread ∈ s.own ∧ (n.readAt ≠ none → s.Read n.id)) ∧
        Covers s.userId table data
  | .markAsRead id executed => id ∈ s.own.map Notification.id ∧ (executed = true → s.Read id)
  | .markAllAsRead ids => ∀ id ∈ ids.getD [], s.Read id
  | .invitation token _ id =>
      ∃ r ∈ s.created, r.userId = s.userId ∧ r.id = id ∧ Invites r token

/-- What is shown, which is nothing when the page is down. -/
structure Shown (s : NotificationTab) : Prop where
  blank : s.blank = true → s.center = .start ∧ s.histories = []
  layout : ∃ rest, s.center.notifications.map Notification.unread = s.recent ++ rest ∧
    (rest.Pairwise fun a b => b.createdAt ≤ a.createdAt) ∧ (rest.map Notification.id).Nodup
  told : s.blank = false → ∀ n, n ∈ s.center.notifications.map Notification.unread ↔
    n ∈ s.told.map Notification.unread
  own : ∀ n ∈ s.told, n.unread ∈ s.own
  loaded : s.center.historyLoaded = true → s.histories ≠ []
  covered : ∀ table ∈ s.histories, Covers s.userId table s.told
  read : ∀ n ∈ s.center.notifications, n.readAt ≠ none → s.Read n.id ∨ n.id ∈ s.unserved

/-- The invariant. -/
structure Sound (s : NotificationTab) : Prop where
  stored : s.Stored
  shown : s.Shown
  holds : ∀ r ∈ s.requests, s.Holds r

lemma mem_own : n ∈ s.own ↔ ∃ r ∈ s.created, r.userId = s.userId ∧ r.toNotification = n := by
  simp [own, and_assoc]

lemma mem_own_id :
    id ∈ s.own.map Notification.id ↔ ∃ r ∈ s.created, r.userId = s.userId ∧ r.id = id := by
  constructor
  · intro h
    obtain ⟨n, hn, rfl⟩ := List.mem_map.mp h
    obtain ⟨r, hr, huser, rfl⟩ := mem_own.mp hn
    exact ⟨r, hr, huser, rfl⟩
  · rintro ⟨r, hr, huser, rfl⟩
    exact List.mem_map.mpr ⟨r.toNotification, mem_own.mpr ⟨r, hr, huser, rfl⟩, rfl⟩

lemma Stored.own_inj (h : s.Stored) {m : Notification} (hn : n ∈ s.own) (hm : m ∈ s.own)
    (hid : n.id = m.id) : n = m := by
  obtain ⟨r, hr, -, rfl⟩ := mem_own.mp hn
  obtain ⟨r', hr', -, rfl⟩ := mem_own.mp hm
  rw [List.inj_on_of_nodup_map h.created_unique hr hr' hid]

lemma Stored.user_of_own (h : s.Stored) (hr : r ∈ s.table)
    (hid : r.id ∈ s.own.map Notification.id) : r.userId = s.userId := by
  obtain ⟨r₀, hr₀, huser, hsame⟩ := mem_own_id.mp hid
  rw [← huser, List.inj_on_of_nodup_map h.created_unique hr₀ (h.row r hr) hsame]
  rfl

lemma Grows.own (h : Grows s s') (hn : n ∈ s.own) : n ∈ s'.own := by
  obtain ⟨r, hr, huser, rfl⟩ := mem_own.mp hn
  exact mem_own.mpr ⟨r, h.created hr, huser.trans h.userId.symm, rfl⟩

lemma Grows.holds (h : Grows s s') {r : CenterRequest} (hr : s.Holds r) : s'.Holds r := by
  have hids : s.own.map Notification.id ⊆ s'.own.map Notification.id :=
    List.map_subset _ fun _ => h.own
  cases r with
  | history => trivial
  | historyAnswer data table =>
      refine ⟨fun n hn => ?_, h.userId ▸ hr.2⟩
      exact ⟨h.own (hr.1 n hn).1, fun hread => h.read ((hr.1 n hn).2 hread)⟩
  | markAsRead id executed => exact ⟨hids hr.1, fun hexecuted => h.read (hr.2 hexecuted)⟩
  | markAllAsRead ids => exact fun id hid => h.read (hr id hid)
  | invitation token accept id =>
      obtain ⟨r, hr, huser, hrest⟩ := hr
      exact ⟨r, h.created hr, huser.trans h.userId.symm, hrest⟩

/-! ## Statements -/

/-- What is shown does not depend on what else is done to the table. -/
lemma Shown.grows {table created : List NotificationRow} (h : s.Shown)
    (hgrows : Grows s { s with table := table, created := created }) :
    Shown { s with table := table, created := created } where
  blank := h.blank
  layout := h.layout
  told := h.told
  own n hn := hgrows.own (h.own n hn)
  loaded := h.loaded
  covered := h.covered
  read n hn hread := (h.read n hn hread).imp_left hgrows.read

lemma Sound.grows {table created : List NotificationRow} (h : s.Sound)
    (hstored : Stored { s with table := table, created := created })
    (hgrows : Grows s { s with table := table, created := created }) :
    Sound { s with table := table, created := created } :=
  ⟨hstored, h.shown.grows hgrows, fun r hr => hgrows.holds (h.holds r hr)⟩

lemma Stored.kept {table : List NotificationRow} (h : s.Stored) (hkept : Kept s.table table) :
    Stored { s with table := table } ∧ Grows s { s with table := table } := by
  refine ⟨⟨hkept.ids.nodup h.keyed, h.created_unique, fun r hr => ?_, h.invited⟩,
    ⟨rfl, fun _ hr => hr, fun {id} hread => ⟨hread.1, fun r hr hid => ?_⟩⟩⟩
  · obtain ⟨r₀, hr₀, hsame, -⟩ := hkept.row r hr
    exact hsame ▸ h.row r₀ hr₀
  · obtain ⟨r₀, hr₀, hsame, hreads⟩ := hkept.row r hr
    have hid₀ : r₀.unread.id = r.unread.id := by rw [hsame]
    exact hreads (hread.2 r₀ hr₀ (hid₀.trans hid))

/-- The notification of an invitation is inserted. -/
lemma Stored.created {table : List NotificationRow} {token : JSString} (h : s.Stored)
    (hinsert : KeyedTable.insert NotificationRow.id r s.table = some table)
    (hnew : r.id ∉ s.created.map NotificationRow.id) (hinvites : Invites r token) :
    Stored { s with table := table, created := s.created ++ [r] } ∧
      Grows s { s with table := table, created := s.created ++ [r] } := by
  obtain ⟨rfl, -⟩ := insert_eq_some hinsert
  have hunread : r.unread = r := by
    rw [NotificationRow.unread, ← hinvites.1]
  refine ⟨⟨h.keyed.insert hinsert, ?_, fun r' hr' => ?_, fun r' hr' => ?_⟩,
    ⟨rfl, List.subset_append_left _ _, fun {id} hread => ⟨?_, fun r' hr' hid => ?_⟩⟩⟩
  · rw [List.map_append, List.map_singleton, ← List.concat_eq_append]
    exact h.created_unique.concat hnew
  · rcases List.mem_append.mp hr' with hr' | hr'
    · exact List.mem_append_left _ (h.row r' hr')
    · rw [List.mem_singleton.mp hr', hunread]
      exact List.mem_append_right _ (List.mem_singleton_self _)
  · rcases List.mem_append.mp hr' with hr' | hr'
    · exact h.invited r' hr'
    · exact ⟨token, List.mem_singleton.mp hr' ▸ hinvites⟩
  · obtain ⟨r₀, hr₀, huser, hid⟩ := mem_own_id.mp hread.1
    exact mem_own_id.mpr ⟨r₀, List.mem_append_left _ hr₀, huser, hid⟩
  · rcases List.mem_append.mp hr' with hr' | hr'
    · exact hread.2 r' hr' hid
    · -- the id of the new row is none of the ids there were
      obtain ⟨r₀, hr₀, -, hid₀⟩ := mem_own_id.mp hread.1
      rw [List.mem_singleton.mp hr'] at hid
      exact absurd (List.mem_map.mpr ⟨r₀, hr₀, hid₀.trans hid.symm⟩) hnew

lemma Sound.elsewhere (h : s.Sound) {statement : NotificationStatement}
    (hallowed : s.Allowed (.elsewhere statement)) (hexec : s.exec statement = some s') :
    s'.Sound := by
  obtain ⟨table, htable, rfl⟩ := Option.map_eq_some_iff.mp hexec
  rcases exec_cases htable with ⟨id, now, userId, type, title, message, link, rfl, -⟩ | hkept
  · exact hallowed.elim
  · obtain ⟨hstored, hgrows⟩ := h.stored.kept hkept
    cases statement with
    | createNotification => exact hallowed.elim
    | markNotificationAsRead => exact h.grows hstored hgrows
    | markAllNotificationsAsRead => exact h.grows hstored hgrows
    | deleteNotification => exact h.grows hstored hgrows

lemma Sound.invite (h : s.Sound) {now : Nat} {targetUserId currentUserEmail title token : JSString}
    (hallowed : s.Allowed (.invite id now targetUserId currentUserEmail title token))
    (hexec : s.exec (inviteNotification id now targetUserId currentUserEmail title token) =
      some s') : s'.Sound := by
  obtain ⟨table, htable, rfl⟩ := Option.map_eq_some_iff.mp hexec
  obtain ⟨hstored, hgrows⟩ :=
    @Stored.created _ _ _ token h.stored htable hallowed.1 ⟨rfl, rfl, rfl, hallowed.2⟩
  exact h.grows hstored hgrows

/-! ## Requests and answers -/

lemma Sound.inTab (h : s.Sound) (huser : s'.userId = s.userId) (htable : s'.table = s.table)
    (hcreated : s'.created = s.created) (hshown : s'.Shown)
    (hrequests : ∀ r ∈ s'.requests, s.Holds r) : s'.Sound := by
  have hgrows : Grows s s' := by
    refine ⟨huser, hcreated ▸ List.Subset.refl _, fun {id} hread => ?_⟩
    rw [Read, own, huser, htable, hcreated]
    exact hread
  refine ⟨?_, hshown, fun r hr => hgrows.holds (hrequests r hr)⟩
  exact ⟨htable ▸ h.stored.keyed, hcreated ▸ h.stored.created_unique,
    by rw [htable, hcreated]; exact h.stored.row, hcreated ▸ h.stored.invited⟩

lemma Sound.withRequests (h : s.Sound) {requests : List CenterRequest}
    (hrequests : ∀ r ∈ requests, s.Holds r) : Sound { s with requests := requests } :=
  h.inTab rfl rfl rfl
    ⟨h.shown.blank, h.shown.layout, h.shown.told, h.shown.own, h.shown.loaded, h.shown.covered,
      h.shown.read⟩
    hrequests

lemma Sound.send (h : s.Sound) {r : CenterRequest} (hr : s.Holds r) : (s.send r).Sound := by
  refine h.withRequests fun r' hr' => ?_
  rcases List.mem_cons.mp hr' with rfl | hr'
  · exact hr
  · exact h.holds r' hr'

lemma Sound.fetchHistory (h : s.Sound) : s.fetchHistory.Sound := by
  rw [NotificationTab.fetchHistory]
  split
  · exact h.send trivial
  · exact h

lemma Sound.toggle (h : s.Sound) (hblank : s.blank = false) : s.toggle.Sound := by
  refine Sound.fetchHistory (h.inTab rfl rfl rfl ?_ h.holds)
  exact ⟨fun hdown => absurd hdown (by simp [hblank]), h.shown.layout, h.shown.told, h.shown.own,
    h.shown.loaded, h.shown.covered, h.shown.read⟩

lemma Shown.blank_of_mem (h : s.Shown) (hn : n ∈ s.center.notifications) : s.blank = false := by
  refine Bool.eq_false_iff.mpr fun hdown => ?_
  rw [(h.blank hdown).1] at hn
  simp [NotificationCenter.start] at hn

lemma Shown.blank_of_mem_histories (h : s.Shown) {table : List NotificationRow}
    (htable : table ∈ s.histories) : s.blank = false := by
  refine Bool.eq_false_iff.mpr fun hdown => ?_
  rw [(h.blank hdown).2] at htable
  simp at htable

lemma Shown.own_of_mem (h : s.Shown) (hn : n ∈ s.center.notifications) : n.unread ∈ s.own := by
  obtain ⟨m, hm, hsame⟩ := List.mem_map.mp
    ((h.told (h.blank_of_mem hn) n.unread).mp (List.mem_map_of_mem hn))
  exact hsame ▸ h.own m hm

lemma Shown.id_of_told (h : s.Shown) (hblank : s.blank = false)
    (hn : n.unread ∈ s.told.map Notification.unread) :
    n.id ∈ s.center.notifications.map Notification.id := by
  obtain ⟨m, hm, hsame⟩ := List.mem_map.mp ((h.told hblank _).mpr hn)
  have hid : m.unread.id = n.unread.id := by rw [hsame]
  exact List.mem_map.mpr ⟨m, hm, hid⟩

lemma Shown.id_of_mem (h : s.Shown) (hn : n ∈ s.center.notifications) :
    n.id ∈ s.own.map Notification.id :=
  List.mem_map.mpr ⟨n.unread, h.own_of_mem hn, rfl⟩

lemma Sound.handleAction (h : s.Sound) (hn : n ∈ s.center.notifications) (accept : Bool) :
    (s.handleAction n accept).Sound := by
  have hmark : s.Holds (.markAsRead n.id false) := ⟨h.shown.id_of_mem hn, by simp⟩
  rw [NotificationTab.handleAction]
  split
  · exact h.send hmark
  · rename_i link hlink
    split
    · obtain ⟨r, hr, huser, hsame⟩ := mem_own.mp (h.shown.own_of_mem hn)
      obtain ⟨token, hinvites⟩ := h.stored.invited r hr
      have hmetadata : r.metadata = n.metadata := congrArg Notification.metadata hsame
      have htoken : linkToken link = token := by
        have hlink' := hinvites.2.2.1
        rw [hmetadata, hlink, Option.some.injEq] at hlink'
        rw [hlink', linkToken_inviteLink hinvites.2.2.2]
      exact h.send ⟨r, hr, huser, congrArg Notification.id hsame, htoken ▸ hinvites⟩
    · exact h.send hmark

lemma Stored.toNotification_own (h : s.Stored) (hr : r ∈ s.table) (huser : r.userId = s.userId) :
    r.toNotification.unread ∈ s.own :=
  mem_own.mpr ⟨r.unread, h.row r hr, huser, rfl⟩

lemma Stored.holds_history (h : s.Stored) {rows : List NotificationRow}
    (horder : IsNewestFirst s.table s.userId rows) :
    s.Holds (.historyAnswer ((getUserNotifications rows 20 0).map NotificationRow.toNotification)
      s.table) := by
  constructor
  · intro n hn
    obtain ⟨r, hr, rfl⟩ := List.mem_map.mp hn
    obtain ⟨htable, huser⟩ := mem_of_mem_getUserNotifications horder hr
    have hown := h.toNotification_own htable huser
    refine ⟨hown, fun hread => ⟨List.mem_map.mpr ⟨_, hown, rfl⟩, fun r' hr' hid => ?_⟩⟩
    rw [List.inj_on_of_nodup_map h.keyed hr' htable hid]
    simpa [NotificationRow.toNotification] using hread
  · intro r hr huser
    rcases mem_getUserNotifications_or horder 20 hr huser with hpage | ⟨hlength, hnewer⟩
    · left
      rw [List.map_map]
      exact List.mem_map.mpr ⟨r, hpage, rfl⟩
    · right
      refine ⟨(getUserNotifications rows 20 0).map NotificationRow.toNotification, ?_, ?_, ?_⟩
      · rw [List.length_map, hlength]
      · have hnodup : (rows.map NotificationRow.id).Nodup :=
          (horder.1.map _).nodup_iff.mpr ((List.filter_sublist.map _).nodup h.keyed)
        rw [List.map_map]
        exact ((List.take_sublist _ _).map _).nodup hnodup
      · intro n hn
        obtain ⟨r', hr', rfl⟩ := List.mem_map.mp hn
        exact ⟨List.mem_map_of_mem hn, Nat.div_le_div_right (hnewer r' hr')⟩

lemma Sound.execute (h : s.Sound) {r r' : CenterRequest} {now : Nat}
    {rows table : List NotificationRow} (hmem : r ∈ s.requests)
    (hexec : s.execute now rows r = some (table, r')) :
    Sound { s with table := table, requests := r' :: s.requests.erase r } := by
  have hrest : ∀ r' ∈ s.requests.erase r, s.Holds r' := fun r' hr' =>
    h.holds r' (List.mem_of_mem_erase hr')
  have hboth : ∀ {table r'}, Kept s.table table → Holds { s with table := table } r' →
      Sound { s with table := table, requests := r' :: s.requests.erase r } := by
    intro table r' hkept hr'
    obtain ⟨hstored, hgrows⟩ := h.stored.kept hkept
    exact Sound.withRequests (h.grows hstored hgrows)
      (List.forall_mem_cons.mpr ⟨hr', fun r hr => hgrows.holds (hrest r hr)⟩)
  have hholds := h.holds r hmem
  unfold NotificationTab.execute at hexec
  split at hexec
  · split at hexec
    · rename_i horder
      obtain ⟨rfl, rfl⟩ := Prod.mk.inj (Option.some.inj hexec)
      exact h.withRequests (List.forall_mem_cons.mpr ⟨h.stored.holds_history horder, hrest⟩)
    · simp at hexec
  · rename_i id
    obtain ⟨rfl, rfl⟩ := Prod.mk.inj (Option.some.inj hexec)
    have hkept := kept_markNotificationAsRead id s.userId now s.table
    refine hboth hkept ⟨hholds.1, fun _ => ⟨hholds.1, fun r hr hid => ?_⟩⟩
    have huser := (h.stored.kept hkept).1.user_of_own hr (hid ▸ hholds.1)
    exact read_markNotificationAsRead hr hid huser
  · obtain ⟨rfl, rfl⟩ := Prod.mk.inj (Option.some.inj hexec)
    have hkept := kept_markAllNotificationsAsRead s.userId now s.table
    refine hboth hkept fun id hid => ⟨hid, fun r hr hsame => ?_⟩
    have huser := (h.stored.kept hkept).1.user_of_own hr (hsame ▸ hid)
    exact read_markAllNotificationsAsRead hr huser
  · simp at hexec

lemma Covers.mono {userId : JSString} {table : List NotificationRow}
    {data data' : List Notification} (h : Covers userId table data) (hsub : data ⊆ data') :
    Covers userId table data' := by
  have hmap := List.map_subset Notification.unread hsub
  intro r hr huser
  rcases h r hr huser with hdata | ⟨page, hlength, hnodup, hpage⟩
  · exact Or.inl (hmap hdata)
  · exact Or.inr ⟨page, hlength, hnodup, fun n hn => ⟨hmap (hpage n hn).1, (hpage n hn).2⟩⟩

lemma Sound.receive (h : s.Sound) (hr : r ∈ s.created) (huser : r.userId = s.userId) :
    (s.receive r.toNotification).Sound := by
  obtain ⟨token, hunread, -⟩ := h.stored.invited r hr
  have hread : r.toNotification.readAt = none := by
    simp [NotificationRow.toNotification, hunread]
  have hsame : r.toNotification.unread = r.toNotification := by
    rw [Notification.unread, ← hread]
  have hown : ∀ n ∈ r.toNotification :: s.told, n.unread ∈ s.own :=
    List.forall_mem_cons.mpr ⟨hsame.symm ▸ mem_own.mpr ⟨r, hr, huser, rfl⟩, h.shown.own⟩
  have hcovered : ∀ table ∈ s.histories, Covers s.userId table (r.toNotification :: s.told) :=
    fun table htable => (h.shown.covered table htable).mono (List.subset_cons_self _ _)
  rw [NotificationTab.receive]
  split
  · rename_i hdown
    exact h.inTab rfl rfl rfl ⟨h.shown.blank, h.shown.layout, fun hblank =>
      absurd (hdown.symm.trans hblank) (by simp), hown, h.shown.loaded, hcovered, h.shown.read⟩
      h.holds
  rename_i hblank
  refine h.inTab rfl rfl rfl ⟨fun hdown => absurd hdown hblank, ?_, fun _ n => ?_, hown,
    h.shown.loaded, hcovered, ?_⟩ h.holds
  · obtain ⟨rest, hlayout, hrest⟩ := h.shown.layout
    refine ⟨rest, ?_, hrest⟩
    show r.toNotification.unread :: s.center.notifications.map Notification.unread = _
    rw [hlayout, hsame]
    rfl
  · show n ∈ (_ :: _ : List Notification) ↔ n ∈ (_ :: _ : List Notification)
    rw [List.mem_cons, List.mem_cons]
    exact or_congr_right (h.shown.told (Bool.eq_false_iff.mpr hblank) n)
  · exact List.forall_mem_cons.mpr ⟨fun hne => absurd hread hne, h.shown.read⟩

lemma Shown.mergeHistory (h : s.Shown) (hstored : s.Stored) {data : List Notification}
    {table : List NotificationRow} (hdata : s.Holds (.historyAnswer data table)) :
    (s.mergeHistory data table).Shown := by
  rw [NotificationTab.mergeHistory]
  split
  · exact h
  rename_i hblank
  -- the page is up, so what is shown is what the tab has been told
  set notifications := NotificationCenter.merge s.center.notifications data
  have hown : ∀ n ∈ data ++ s.told, n.unread ∈ s.own := by
    intro n hn
    rcases List.mem_append.mp hn with hn | hn
    · exact (hdata.1 n hn).1
    · exact h.own n hn
  have hold : ∀ n ∈ notifications, n.unread ∈ s.own := fun n hn =>
    (NotificationCenter.mem_merge hn).elim (fun hn => (hdata.1 n hn).1) h.own_of_mem
  have htold := h.told (Bool.eq_false_iff.mpr hblank)
  refine ⟨fun hdown => absurd hdown hblank, ⟨notifications.map Notification.unread, rfl, ?_, ?_⟩,
    fun _ n => ?_, hown, fun _ => List.cons_ne_nil _ _, ?_, fun n hn hread => ?_⟩
  · exact List.pairwise_map.mpr (NotificationCenter.pairwise_merge _ _)
  · rw [List.map_map]
    exact NotificationCenter.nodup_merge _ _
  · show n ∈ notifications.map Notification.unread ↔ n ∈ (data ++ s.told).map Notification.unread
    constructor
    · intro hn
      obtain ⟨m, hm, rfl⟩ := List.mem_map.mp hn
      rw [List.map_append]
      rcases NotificationCenter.mem_merge hm with hm | hm
      · exact List.mem_append_left _ (List.mem_map_of_mem hm)
      · exact List.mem_append_right _ ((htold _).mp (List.mem_map_of_mem hm))
    · intro hn
      obtain ⟨m, hm, rfl⟩ := List.mem_map.mp hn
      -- what is shown under its id is the same notification
      have hexists : ∃ m' ∈ notifications, m'.id = m.id := by
        rcases List.mem_append.mp hm with hdata' | hold'
        · exact NotificationCenter.exists_merge (Or.inl hdata')
        · obtain ⟨m', hm', hsame⟩ := List.mem_map.mp
            ((htold m.unread).mpr (List.mem_map_of_mem hold'))
          obtain ⟨m'', hm'', hid⟩ := @NotificationCenter.exists_merge _ data _ (Or.inr hm')
          have hid' : m'.unread.id = m.unread.id := by rw [hsame]
          exact ⟨m'', hm'', hid.trans hid'⟩
      obtain ⟨m', hm', hid⟩ := hexists
      rw [← hstored.own_inj (hold m' hm') (hown m hm) hid]
      exact List.mem_map_of_mem hm'
  · intro table' htable'
    rcases List.mem_cons.mp htable' with rfl | htable'
    · exact hdata.2.mono (List.subset_append_left _ _)
    · exact (h.covered table' htable').mono (List.subset_append_right _ _)
  · rcases NotificationCenter.mem_merge hn with hn | hn
    · exact Or.inl ((hdata.1 n hn).2 hread)
    · exact h.read n hn hread

lemma Sound.mergeHistory (h : s.Sound) {data : List Notification} {table : List NotificationRow}
    (hdata : s.Holds (.historyAnswer data table)) : (s.mergeHistory data table).Sound := by
  have hshown := h.shown.mergeHistory h.stored hdata
  rw [NotificationTab.mergeHistory] at hshown ⊢
  split
  · exact h
  · rename_i hblank
    rw [if_neg hblank] at hshown
    exact h.inTab rfl rfl rfl hshown h.holds

/-- Marks do not change which notifications are shown. -/
lemma Shown.marked (h : s.Shown) {center : NotificationCenter} {unserved : List JSString}
    (hsame : center.notifications.map Notification.unread =
      s.center.notifications.map Notification.unread)
    (hloaded : center.historyLoaded = s.center.historyLoaded)
    (hblank : s.blank = true → center = .start)
    (hread : ∀ n ∈ center.notifications, n.readAt ≠ none → s.Read n.id ∨ n.id ∈ unserved) :
    Shown { s with center := center, unserved := unserved } where
  blank hdown := ⟨hblank hdown, (h.blank hdown).2⟩
  layout := by rw [hsame]; exact h.layout
  told hblank n := by rw [hsame]; exact h.told hblank n
  own := h.own
  loaded hcenter := h.loaded (hloaded ▸ hcenter)
  covered := h.covered
  read := hread

lemma Sound.markAsRead (h : s.Sound) {executed : Bool} (hholds : s.Holds (.markAsRead id executed))
    (ok : Bool) (now : Nat) : (s.answered ok now (.markAsRead id executed)).Sound := by
  refine h.inTab rfl rfl rfl (h.shown.marked (s.center.unread_markAsRead id now) rfl ?_ ?_) h.holds
  · intro hdown
    rw [(h.shown.blank hdown).1]
    rfl
  intro n hn hread
  obtain ⟨m, hm, rfl⟩ := List.mem_map.mp hn
  by_cases hid : m.id = id
  · have hid' : (if m.id = id then { m with readAt := some now } else m).id = id := by
      rw [if_pos hid]
      exact hid
    rw [hid']
    cases executed with
    | true => exact Or.inl (hholds.2 rfl)
    | false => exact Or.inr List.mem_cons_self
  · rw [if_neg hid] at hread ⊢
    refine (h.shown.read m hm hread).imp_right fun hmem => ?_
    split
    · exact hmem
    · exact List.mem_cons_of_mem _ hmem

lemma Sound.markAllAsRead (h : s.Sound) {ids : Option (List JSString)}
    (hholds : s.Holds (.markAllAsRead ids)) (ok : Bool) (now : Nat) :
    (s.answered ok now (.markAllAsRead ids)).Sound := by
  refine h.inTab rfl rfl rfl (h.shown.marked (s.center.unread_markAllAsRead now) rfl ?_ ?_) h.holds
  · intro hdown
    rw [(h.shown.blank hdown).1]
    rfl
  intro n hn _
  obtain ⟨m, hm, rfl⟩ := List.mem_map.mp hn
  show s.Read m.id ∨ m.id ∈ _
  by_cases hid : m.id ∈ ids.getD []
  · exact Or.inl (hholds m.id hid)
  · refine Or.inr (List.mem_append_left _ (List.mem_filter.mpr ⟨List.mem_map_of_mem hm, ?_⟩))
    simpa using hid

lemma Sound.reload (h : s.Sound) : s.reload.Sound := by
  refine h.inTab rfl rfl rfl ⟨?_, ⟨[], rfl, List.Pairwise.nil, List.nodup_nil⟩, fun _ n => Iff.rfl,
    ?_, ?_, ?_, ?_⟩ ?_ <;> simp [NotificationTab.reload, NotificationCenter.start]

lemma Sound.unmount (h : s.Sound) : s.unmount.Sound := by
  refine h.inTab rfl rfl rfl ⟨fun _ => ⟨rfl, rfl⟩, ⟨[], rfl, List.Pairwise.nil, List.nodup_nil⟩,
    ?_, h.shown.own, ?_, ?_, ?_⟩ h.holds <;>
    simp [NotificationTab.unmount, NotificationCenter.start]

lemma Sound.answered (h : s.Sound) {r : CenterRequest} (hholds : s.Holds r) (ok : Bool)
    (now : Nat) : (s.answered ok now r).Sound := by
  cases r with
  | history => exact h.unmount
  | historyAnswer data table =>
      rw [NotificationTab.answered]
      split
      · exact h.mergeHistory hholds
      · exact h.unmount
  | markAsRead id executed => exact h.markAsRead hholds ok now
  | markAllAsRead ids => exact h.markAllAsRead hholds ok now
  | invitation token accept id =>
      rw [NotificationTab.answered]
      split
      · split
        · exact h.reload
        · obtain ⟨r, hr, huser, hid, -⟩ := hholds
          exact h.send ⟨mem_own_id.mpr ⟨r, hr, huser, hid⟩, by simp⟩
      · exact h

lemma sound_start (userId : JSString) : (start userId).Sound where
  stored := ⟨List.nodup_nil, List.nodup_nil, by simp [start], by simp [start]⟩
  shown := by
    refine ⟨?_, ⟨[], rfl, List.Pairwise.nil, List.nodup_nil⟩, fun _ n => Iff.rfl, ?_, ?_, ?_,
      ?_⟩ <;> simp [start, NotificationCenter.start]
  holds := by simp [start]

lemma Sound.step {a : NotificationAction} (h : s.Sound) (hallowed : s.Allowed a)
    (hstep : s.step a = some s') : s'.Sound := by
  have hrest : ∀ r, ∀ r' ∈ s.requests.erase r, s.Holds r' := fun r r' hr' =>
    h.holds r' (List.mem_of_mem_erase hr')
  cases a with
  | invite id now targetUserId currentUserEmail title token => exact h.invite hallowed hstep
  | elsewhere statement => exact h.elsewhere hallowed hstep
  | notificationCreated r =>
      obtain rfl := Option.some.inj hstep
      exact h.receive hallowed.1 hallowed.2
  | toggle =>
      simp only [NotificationTab.step, Option.ite_none_left_eq_some, Option.some.injEq] at hstep
      obtain ⟨hblank, rfl⟩ := hstep
      exact h.toggle (Bool.eq_false_iff.mpr hblank)
  | newToken =>
      simp only [NotificationTab.step, Option.ite_none_left_eq_some, Option.some.injEq] at hstep
      obtain ⟨-, rfl⟩ := hstep
      exact h.fetchHistory
  | markAllAsRead =>
      simp only [NotificationTab.step, Option.ite_none_right_eq_some, Option.some.injEq] at hstep
      obtain ⟨-, rfl⟩ := hstep
      exact h.send (by simp [Holds])
  | handleAction n accept =>
      simp only [NotificationTab.step, Option.ite_none_right_eq_some, Option.some.injEq] at hstep
      obtain ⟨⟨-, hn, -⟩, rfl⟩ := hstep
      exact h.handleAction hn accept
  | execute r now rows =>
      simp only [NotificationTab.step, Option.ite_none_right_eq_some, Option.map_eq_some_iff]
        at hstep
      obtain ⟨hr, ⟨table, r'⟩, hexec, rfl⟩ := hstep
      exact h.execute hr hexec
  | answer r ok now =>
      simp only [NotificationTab.step, Option.ite_none_right_eq_some, Option.some.injEq] at hstep
      obtain ⟨⟨hr, -⟩, rfl⟩ := hstep
      exact (h.withRequests (hrest r)).answered (h.holds r hr) ok now
  | fail r =>
      simp only [NotificationTab.step, Option.ite_none_right_eq_some, Option.some.injEq] at hstep
      obtain ⟨-, rfl⟩ := hstep
      exact h.withRequests (hrest r)
  | reload =>
      obtain rfl := Option.some.inj hstep
      exact h.reload

lemma Reachable.sound (h : s.Reachable) : s.Sound := by
  obtain ⟨userId, hreach⟩ := h
  exact hreach.invariant (sound_start userId) fun _ _ _ hs hallowed hstep => hs.step hallowed hstep

/-! ## The life of a page -/

/-- A page goes down when a GET of the history is answered by an error. -/
theorem answer_of_blank {a : NotificationAction} (hstep : s.step a = some s')
    (hblank : s.blank = false) (hdown : s'.blank = true) :
    ∃ r now, a = .answer r false now ∧
      (r = .history ∨ ∃ data table, r = .historyAnswer data table) := by
  -- everything but an answer keeps `blank`, and a page that is up stays up
  have hsame : s'.blank = s.blank → ∃ r now, a = .answer r false now ∧
      (r = .history ∨ ∃ data table, r = .historyAnswer data table) := fun hsame =>
    absurd (hsame.symm.trans hdown) (by simp [hblank])
  cases a with
  | invite id now targetUserId currentUserEmail title token =>
      obtain ⟨table, -, rfl⟩ := Option.map_eq_some_iff.mp hstep
      exact hsame rfl
  | elsewhere statement =>
      obtain ⟨table, -, rfl⟩ := Option.map_eq_some_iff.mp hstep
      exact hsame rfl
  | notificationCreated r =>
      obtain rfl := Option.some.inj hstep
      rw [NotificationTab.receive] at hsame
      exact hsame (by split <;> rfl)
  | toggle =>
      simp only [NotificationTab.step, Option.ite_none_left_eq_some, Option.some.injEq] at hstep
      obtain ⟨-, rfl⟩ := hstep
      rw [NotificationTab.toggle, NotificationTab.fetchHistory] at hsame
      exact hsame (by split <;> rfl)
  | newToken =>
      simp only [NotificationTab.step, Option.ite_none_left_eq_some, Option.some.injEq] at hstep
      obtain ⟨-, rfl⟩ := hstep
      rw [NotificationTab.fetchHistory] at hsame
      exact hsame (by split <;> rfl)
  | markAllAsRead =>
      simp only [NotificationTab.step, Option.ite_none_right_eq_some, Option.some.injEq] at hstep
      obtain ⟨-, rfl⟩ := hstep
      exact hsame rfl
  | handleAction n accept =>
      simp only [NotificationTab.step, Option.ite_none_right_eq_some, Option.some.injEq] at hstep
      obtain ⟨-, rfl⟩ := hstep
      rw [NotificationTab.handleAction] at hsame
      refine hsame ?_
      split
      · rfl
      · split <;> rfl
  | execute r now rows =>
      simp only [NotificationTab.step, Option.ite_none_right_eq_some, Option.map_eq_some_iff]
        at hstep
      obtain ⟨-, p, -, rfl⟩ := hstep
      exact hsame rfl
  | answer r ok now =>
      simp only [NotificationTab.step, Option.ite_none_right_eq_some, Option.some.injEq] at hstep
      obtain ⟨⟨-, herror⟩, rfl⟩ := hstep
      cases r with
      | history => exact ⟨_, now, by rw [herror rfl], Or.inl rfl⟩
      | historyAnswer data table =>
          cases ok with
          | false => exact ⟨_, now, rfl, Or.inr ⟨data, table, rfl⟩⟩
          | true =>
              rw [NotificationTab.answered, if_pos rfl, NotificationTab.mergeHistory] at hsame
              exact hsame (by split <;> rfl)
      | markAsRead id executed => exact hsame rfl
      | markAllAsRead ids => exact hsame rfl
      | invitation token accept id =>
          rw [NotificationTab.answered] at hdown
          split at hdown
          · split at hdown
            · simp [NotificationTab.reload] at hdown
            · exact absurd (hdown.symm.trans hblank) (by simp)
          · exact absurd (hdown.symm.trans hblank) (by simp)
  | fail r =>
      simp only [NotificationTab.step, Option.ite_none_right_eq_some, Option.some.injEq] at hstep
      obtain ⟨-, rfl⟩ := hstep
      exact hsame rfl
  | reload =>
      obtain rfl := Option.some.inj hstep
      simp [NotificationTab.reload] at hdown

/-- The page is not reloaded. -/
def Stays : NotificationAction → Prop
  | .answer (.invitation _ accept _) ok _ => ¬ (accept = true ∧ ok = true)
  | .reload => False
  | _ => True

instance : DecidablePred Stays
  | .answer (.invitation _ accept _) ok _ =>
      inferInstanceAs (Decidable (¬ (accept = true ∧ ok = true)))
  | .answer .history .. => isTrue trivial
  | .answer (.historyAnswer ..) .. => isTrue trivial
  | .answer (.markAsRead ..) .. => isTrue trivial
  | .answer (.markAllAsRead _) .. => isTrue trivial
  | .invite .. => isTrue trivial
  | .elsewhere _ => isTrue trivial
  | .notificationCreated _ => isTrue trivial
  | .toggle => isTrue trivial
  | .newToken => isTrue trivial
  | .markAllAsRead => isTrue trivial
  | .handleAction .. => isTrue trivial
  | .execute .. => isTrue trivial
  | .fail _ => isTrue trivial
  | .reload => isFalse fun h => h

/-- What a page does not lose, and that what is deleted does not come back. -/
structure Keeps (s s' : NotificationTab) : Prop where
  userId : s'.userId = s.userId
  created : s.created ⊆ s'.created
  told : s.told ⊆ s'.told
  gone : ∀ id ∈ s.created.map NotificationRow.id, id ∉ s.table.map NotificationRow.id →
    id ∉ s'.table.map NotificationRow.id

lemma keeps_of_eq (huser : s'.userId = s.userId) (hcreated : s'.created = s.created)
    (htold : s.told ⊆ s'.told) (htable : s'.table = s.table) : Keeps s s' :=
  ⟨huser, hcreated ▸ List.Subset.refl _, htold, fun _ _ hgone => htable ▸ hgone⟩

lemma keeps_of_kept (huser : s'.userId = s.userId) (hcreated : s'.created = s.created)
    (htold : s'.told = s.told) (hkept : Kept s.table s'.table) : Keeps s s' :=
  ⟨huser, hcreated ▸ List.Subset.refl _, htold ▸ List.Subset.refl _,
    fun _ _ hgone hmem => hgone (hkept.ids.subset hmem)⟩

lemma keeps_exec {statement : NotificationStatement} (hexec : s.exec statement = some s')
    (hnew : ∀ id now userId type title message link,
      statement = .createNotification id now userId type title message link →
        id ∉ s.created.map NotificationRow.id) : Keeps s s' := by
  obtain ⟨table, htable, rfl⟩ := Option.map_eq_some_iff.mp hexec
  rcases exec_cases htable with
    ⟨id, now, userId, type, title, message, link, rfl, rfl, -⟩ | hkept
  · refine ⟨rfl, List.subset_append_left _ _, List.Subset.refl _, fun id' hid' hgone hmem => ?_⟩
    rw [List.map_append, List.map_singleton] at hmem
    rcases List.mem_append.mp hmem with hmem | hmem
    · exact hgone hmem
    · have hid : id' = id := List.mem_singleton.mp hmem
      exact hnew id now userId type title message link rfl (hid ▸ hid')
  · refine ⟨rfl, ?_, List.Subset.refl _, fun _ _ hgone hmem => hgone (hkept.ids.subset hmem)⟩
    show s.created ⊆ _
    split
    · exact List.subset_append_left _ _
    · exact List.Subset.refl _

lemma kept_execute {r r' : CenterRequest} {now : Nat} {rows table : List NotificationRow}
    (hexec : s.execute now rows r = some (table, r')) : Kept s.table table := by
  unfold NotificationTab.execute at hexec
  split at hexec
  · split at hexec
    · obtain ⟨rfl, -⟩ := Prod.mk.inj (Option.some.inj hexec)
      exact ⟨fun r hr => ⟨r, hr, rfl, fun hread => hread⟩, List.Sublist.refl _⟩
    · simp at hexec
  · obtain ⟨rfl, -⟩ := Prod.mk.inj (Option.some.inj hexec)
    exact kept_markNotificationAsRead _ _ _ _
  · obtain ⟨rfl, -⟩ := Prod.mk.inj (Option.some.inj hexec)
    exact kept_markAllNotificationsAsRead _ _ _
  · simp at hexec

lemma keeps_receive (s : NotificationTab) (n : Notification) : Keeps s (s.receive n) := by
  rw [NotificationTab.receive]
  split <;> exact keeps_of_eq rfl rfl (List.subset_cons_self _ _) rfl

lemma mem_told_receive (s : NotificationTab) (n : Notification) : n ∈ (s.receive n).told := by
  rw [NotificationTab.receive]
  split <;> exact List.mem_cons_self

lemma keeps_answered {r : CenterRequest} {ok : Bool} {now : Nat}
    (hstays : Stays (.answer r ok now)) : Keeps s (s.answered ok now r) := by
  cases r with
  | history => exact keeps_of_eq rfl rfl (List.Subset.refl _) rfl
  | historyAnswer data table =>
      rw [NotificationTab.answered, NotificationTab.mergeHistory]
      split
      · split
        · exact keeps_of_eq rfl rfl (List.Subset.refl _) rfl
        · exact keeps_of_eq rfl rfl (List.subset_append_right _ _) rfl
      · exact keeps_of_eq rfl rfl (List.Subset.refl _) rfl
  | markAsRead id executed => exact keeps_of_eq rfl rfl (List.Subset.refl _) rfl
  | markAllAsRead ids => exact keeps_of_eq rfl rfl (List.Subset.refl _) rfl
  | invitation token accept id =>
      rw [NotificationTab.answered]
      split
      · rename_i hok
        rw [if_neg fun haccept => hstays ⟨haccept, hok⟩]
        exact keeps_of_eq rfl rfl (List.Subset.refl _) rfl
      · exact keeps_of_eq rfl rfl (List.Subset.refl _) rfl

lemma keeps_step {a : NotificationAction} (hallowed : s.Allowed a) (hstays : Stays a)
    (hstep : s.step a = some s') : Keeps s s' := by
  cases a with
  | invite id now targetUserId currentUserEmail title token =>
      refine keeps_exec hstep fun id' now' userId type title message link heq => ?_
      obtain ⟨rfl, -⟩ := NotificationStatement.createNotification.inj heq
      exact hallowed.1
  | elsewhere statement =>
      refine keeps_exec hstep fun id now userId type title message link heq => ?_
      subst heq
      exact hallowed.elim
  | notificationCreated r =>
      obtain rfl := Option.some.inj hstep
      exact keeps_receive s _
  | toggle =>
      simp only [NotificationTab.step, Option.ite_none_left_eq_some, Option.some.injEq] at hstep
      obtain ⟨-, rfl⟩ := hstep
      rw [NotificationTab.toggle, NotificationTab.fetchHistory]
      split <;> exact keeps_of_eq rfl rfl (List.Subset.refl _) rfl
  | newToken =>
      simp only [NotificationTab.step, Option.ite_none_left_eq_some, Option.some.injEq] at hstep
      obtain ⟨-, rfl⟩ := hstep
      rw [NotificationTab.fetchHistory]
      split <;> exact keeps_of_eq rfl rfl (List.Subset.refl _) rfl
  | markAllAsRead =>
      simp only [NotificationTab.step, Option.ite_none_right_eq_some, Option.some.injEq] at hstep
      obtain ⟨-, rfl⟩ := hstep
      exact keeps_of_eq rfl rfl (List.Subset.refl _) rfl
  | handleAction n accept =>
      simp only [NotificationTab.step, Option.ite_none_right_eq_some, Option.some.injEq] at hstep
      obtain ⟨-, rfl⟩ := hstep
      rw [NotificationTab.handleAction]
      split
      · exact keeps_of_eq rfl rfl (List.Subset.refl _) rfl
      · split <;> exact keeps_of_eq rfl rfl (List.Subset.refl _) rfl
  | execute r now rows =>
      simp only [NotificationTab.step, Option.ite_none_right_eq_some, Option.map_eq_some_iff]
        at hstep
      obtain ⟨-, ⟨table, r'⟩, hexec, rfl⟩ := hstep
      exact keeps_of_kept rfl rfl rfl (kept_execute hexec)
  | answer r ok now =>
      simp only [NotificationTab.step, Option.ite_none_right_eq_some, Option.some.injEq] at hstep
      obtain ⟨-, rfl⟩ := hstep
      have hkeeps := @keeps_answered { s with requests := s.requests.erase r } r ok now hstays
      exact ⟨hkeeps.userId, hkeeps.created, hkeeps.told, hkeeps.gone⟩
  | fail r =>
      simp only [NotificationTab.step, Option.ite_none_right_eq_some, Option.some.injEq] at hstep
      obtain ⟨-, rfl⟩ := hstep
      exact keeps_of_eq rfl rfl (List.Subset.refl _) rfl
  | reload => exact hstays.elim

/-! ## What the center shows -/

/-- An invitation of Bob by Ann, as it is inserted. -/
def invitedByAnn (id : JSString) (now : Nat) (title token : JSString) : NotificationRow :=
  newNotification id now (JSString.lit "bob") (JSString.lit "INVITATION")
    (JSString.lit "Document Invitation")
    (JSString.lit "ann" ++ JSString.lit " invited you to edit \"" ++ title ++ JSString.lit "\"")
    (some (inviteLink token))

/-- The first invitation of Bob. -/
def first : NotificationRow :=
  invitedByAnn (JSString.lit "1") 1000 (JSString.lit "A") (JSString.lit "a1")

/-- The second one. -/
def second : NotificationRow :=
  invitedByAnn (JSString.lit "2") 2000 (JSString.lit "B") (JSString.lit "b2")

/-- Bob opens the center; a second invitation comes while the history is fetched, and he rejects
it.  Then he marks all as read. -/
def rejecting : List NotificationAction :=
  [.invite (JSString.lit "1") 1000 (JSString.lit "bob") (JSString.lit "ann") (JSString.lit "A")
      (JSString.lit "a1"),
    .toggle, .execute .history 0 [first],
    .invite (JSString.lit "2") 2000 (JSString.lit "bob") (JSString.lit "ann") (JSString.lit "B")
      (JSString.lit "b2"),
    .answer (.historyAnswer [first.toNotification] [first]) true 0,
    .notificationCreated second, .handleAction second.toNotification false,
    .markAllAsRead, .execute (.markAllAsRead none) 5000 [],
    .answer (.markAllAsRead (some [JSString.lit "1", JSString.lit "2"])) true 6]

/-- The tab after `rejecting`. -/
def rejected : NotificationTab :=
  (runAllowed step Allowed (start (JSString.lit "bob")) rejecting).get (by decide +kernel)

lemma reachable_rejected : rejected.Reachable := ⟨JSString.lit "bob", reach_get _⟩

/-- **The list of notifications**: those that have arrived since a history was merged, the last
first, and then the others, newest first and each once.  All that has arrived or was in a history
is among them, unless the page is down, which shows nothing; and they are the user's, as they were
created. -/
theorem shown_notifications (h : s.Reachable) :
    (∃ rest, s.center.notifications.map Notification.unread = s.recent ++ rest ∧
      (rest.Pairwise fun a b => b.createdAt ≤ a.createdAt) ∧
      (rest.map Notification.id).Nodup) ∧
    (s.blank = false → ∀ n, n ∈ s.center.notifications.map Notification.unread ↔
      n ∈ s.told.map Notification.unread) ∧
    (s.blank = true → s.center.notifications = []) ∧
    ∀ n ∈ s.center.notifications, ∃ r ∈ s.created, r.userId = s.userId ∧
      r.toNotification = n.unread := by
  have hs := h.sound.shown
  refine ⟨hs.layout, hs.told, fun hdown => ?_, fun n hn => mem_own.mp (hs.own_of_mem hn)⟩
  rw [(hs.blank hdown).1]
  rfl

theorem shown_notifications_rejected :
    ∃ rest, rejected.center.notifications.map Notification.unread =
      [second.toNotification] ++ rest ∧
      (rest.Pairwise fun a b => b.createdAt ≤ a.createdAt) ∧ (rest.map Notification.id).Nodup :=
  (shown_notifications reachable_rejected).1

/-- The GET of Bob is answered by an error: what had arrived is gone with the page. -/
example : ((runAllowed step Allowed (start (JSString.lit "bob"))
    [.invite (JSString.lit "1") 1000 (JSString.lit "bob") (JSString.lit "ann") (JSString.lit "A")
      (JSString.lit "a1"), .notificationCreated first, .toggle,
      .answer .history false 0]).map fun s => (s.blank, s.center.notifications, s.told)) =
    some (true, [], [first.toNotification]) := by
  decide +kernel

/-- **The history**: once it is loaded there is a table that it was read from, and each
notification of the user in it is shown, or it is older than twenty that are, until the page is
reloaded or goes down. -/
theorem history_shown (h : s.Reachable) :
    (s.center.historyLoaded = true → s.histories ≠ []) ∧
    ∀ table ∈ s.histories, ∀ r ∈ table, r.userId = s.userId →
      r.id ∈ s.center.notifications.map Notification.id ∨
        ∃ page : List Notification, page.length = 20 ∧ (page.map Notification.id).Nodup ∧
          ∀ n ∈ page, n.id ∈ s.center.notifications.map Notification.id ∧
            r.toNotification.createdAt ≤ n.createdAt := by
  have hs := h.sound.shown
  refine ⟨hs.loaded, fun table htable r hr huser => ?_⟩
  have hblank := hs.blank_of_mem_histories htable
  rcases hs.covered table htable r hr huser with hdata | ⟨page, hlength, hnodup, hpage⟩
  · exact Or.inl (@Shown.id_of_told _ r.toNotification hs hblank hdata)
  · exact Or.inr ⟨page, hlength, hnodup, fun n hn => ⟨hs.id_of_told hblank (hpage n hn).1,
      (hpage n hn).2⟩⟩

theorem history_shown_rejected :
    first.id ∈ rejected.center.notifications.map Notification.id ∨
      ∃ page : List Notification, page.length = 20 ∧ (page.map Notification.id).Nodup ∧
        ∀ n ∈ page, n.id ∈ rejected.center.notifications.map Notification.id ∧
          first.toNotification.createdAt ≤ n.createdAt :=
  (history_shown reachable_rejected).2 [first] (by decide +kernel) first (by decide +kernel) rfl

/-- **Marks**: what is shown as read is read on the server or deleted, unless it was marked by an
answer to a request that did not read it there; so of the notifications that are shown, the badge
counts at least those that are unread on the server. -/
theorem marks_served (h : s.Reachable) :
    (∀ n ∈ s.center.notifications, n.readAt ≠ none →
      (∀ r ∈ s.table, r.id = n.id → r.readAt ≠ none) ∨ n.id ∈ s.unserved) ∧
    (s.table.filter fun r => r.readAt = none ∧
      r.id ∈ s.center.notifications.map Notification.id ∧ r.id ∉ s.unserved).length ≤
        s.center.unreadCount := by
  have hs := h.sound
  have hmarks : ∀ n ∈ s.center.notifications, n.readAt ≠ none →
      (∀ r ∈ s.table, r.id = n.id → r.readAt ≠ none) ∨ n.id ∈ s.unserved := fun n hn hread =>
    (hs.shown.read n hn hread).imp_left And.right
  refine ⟨hmarks, ?_⟩
  set rows := s.table.filter fun r => r.readAt = none ∧
    r.id ∈ s.center.notifications.map Notification.id ∧ r.id ∉ s.unserved
  have hnodup : (rows.map NotificationRow.id).Nodup :=
    (List.filter_sublist.map _).nodup hs.stored.keyed
  have hsub : rows.map NotificationRow.id ⊆
      (s.center.notifications.filter fun n => n.readAt = none).map Notification.id := by
    intro id hid
    obtain ⟨r, hr, rfl⟩ := List.mem_map.mp hid
    obtain ⟨hr, hunread⟩ := List.mem_filter.mp hr
    obtain ⟨hread, hshown, hserved⟩ := of_decide_eq_true hunread
    obtain ⟨n, hn, hsame⟩ := List.mem_map.mp hshown
    refine List.mem_map.mpr ⟨n, List.mem_filter.mpr ⟨hn, decide_eq_true ?_⟩, hsame⟩
    by_contra hne
    rcases hmarks n hn hne with hall | hmem
    · exact hall r hr hsame.symm hread
    · exact hserved (hsame ▸ hmem)
  calc rows.length = (rows.map NotificationRow.id).length := (List.length_map _).symm
    _ ≤ ((s.center.notifications.filter fun n => n.readAt = none).map Notification.id).length :=
        (List.subperm_of_subset hnodup hsub).length_le
    _ = s.center.unreadCount := List.length_map _

theorem marks_served_rejected :
    (rejected.table.filter fun r => r.readAt = none ∧
      r.id ∈ rejected.center.notifications.map Notification.id ∧
        r.id ∉ rejected.unserved).length ≤ 0 :=
  (marks_served reachable_rejected).2

/-- **Whom an answer is for**: a POST of the center carries the token of an invitation that its
user has got. -/
theorem posted_token (h : s.Reachable) {token : JSString} {accept : Bool}
    (hr : .invitation token accept id ∈ s.requests) :
    ∃ r ∈ s.created, r.userId = s.userId ∧ r.id = id ∧ Invites r token :=
  h.sound.holds _ hr

theorem posted_token_rejected : ∃ r ∈ rejected.created, r.userId = rejected.userId ∧
    r.id = JSString.lit "2" ∧ Invites r (JSString.lit "b2") :=
  @posted_token _ _ reachable_rejected _ false (by decide +kernel)

end NotificationTab

end SyncEngine
