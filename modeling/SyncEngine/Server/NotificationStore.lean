import SyncEngine.Lib.KeyedTable
import SyncEngine.Shared.JsString

/-!
# Notifications in the database

The table `notifications` and the statements on it (`server/persistence/notification-store.ts`),
which the routes of `api/routes/notifications.ts` run for the user of the request.

`exec_cases` says what a statement does to the rows: they stay what they were, but for `read_at`,
which is set and never reset, and there may be a new one.
-/

namespace SyncEngine

open KeyedTable

/-- `metadata` of a notification. -/
structure NotificationMetadata where
  title : JSString
  link : Option JSString
deriving DecidableEq

/-- A row of `notifications`.  Times are in microseconds. -/
structure NotificationRow where
  id : JSString
  userId : JSString
  type : JSString
  message : JSString
  readAt : Option Nat
  metadata : NotificationMetadata
  createdAt : Nat
deriving DecidableEq

/-- A row as it was inserted. -/
def NotificationRow.unread (r : NotificationRow) : NotificationRow := { r with readAt := none }

/-- A statement that writes.  The id, a UUID, and the times are drawn by the database. -/
inductive NotificationStatement where
  | createNotification (id : JSString) (now : Nat) (userId type title message : JSString)
      (link : Option JSString)
  | markNotificationAsRead (id userId : JSString) (now : Nat)
  | markAllNotificationsAsRead (userId : JSString) (now : Nat)
  | deleteNotification (id userId : JSString)
deriving DecidableEq

namespace NotificationStore

/-- The row of an INSERT. -/
def newNotification (id : JSString) (now : Nat) (userId type title message : JSString)
    (link : Option JSString) : NotificationRow :=
  ⟨id, userId, type, message, none, ⟨title, link⟩, now⟩

/-- UPDATE of one notification of the user. -/
def markNotificationAsRead (id userId : JSString) (now : Nat) (t : List NotificationRow) :
    List NotificationRow :=
  t.map fun r => if r.id = id ∧ r.userId = userId then { r with readAt := some now } else r

/-- UPDATE of the user's unread notifications. -/
def markAllNotificationsAsRead (userId : JSString) (now : Nat) (t : List NotificationRow) :
    List NotificationRow :=
  t.map fun r => if r.userId = userId ∧ r.readAt = none then { r with readAt := some now } else r

/-- DELETE of one notification of the user. -/
def deleteNotification (id userId : JSString) (t : List NotificationRow) : List NotificationRow :=
  t.filter fun r => ¬ (r.id = id ∧ r.userId = userId)

/-- A statement is executed; a row with an id that is taken is refused. -/
def exec (t : List NotificationRow) : NotificationStatement → Option (List NotificationRow)
  | .createNotification id now userId type title message link =>
      KeyedTable.insert NotificationRow.id
        (newNotification id now userId type title message link) t
  | .markNotificationAsRead id userId now => some (markNotificationAsRead id userId now t)
  | .markAllNotificationsAsRead userId now => some (markAllNotificationsAsRead userId now t)
  | .deleteNotification id userId => some (deleteNotification id userId t)

/-- `ORDER BY created_at DESC` on the notifications of a user.  Those of one time may stand in any
order. -/
def IsNewestFirst (t : List NotificationRow) (userId : JSString) (rows : List NotificationRow) :
    Prop :=
  rows.Perm (t.filter fun r => r.userId = userId) ∧
    rows.Pairwise fun a b => b.createdAt ≤ a.createdAt

instance (t : List NotificationRow) (userId : JSString) (rows : List NotificationRow) :
    Decidable (IsNewestFirst t userId rows) :=
  inferInstanceAs (Decidable (_ ∧ _))

/-- `getUserNotifications`, of the rows in the order that the query has put them in. -/
def getUserNotifications (rows : List NotificationRow) (limit offset : Nat) :
    List NotificationRow :=
  (rows.drop offset).take limit

variable {t t' rows : List NotificationRow} {r : NotificationRow} {userId : JSString}

/-- Nothing but `read_at` changes, which is not reset, and nothing is new. -/
structure Kept (t t' : List NotificationRow) : Prop where
  row : ∀ r' ∈ t', ∃ r ∈ t, r.unread = r'.unread ∧ (r.readAt ≠ none → r'.readAt ≠ none)
  ids : (t'.map NotificationRow.id).Sublist (t.map NotificationRow.id)

lemma kept_map {f : NotificationRow → NotificationRow} (t : List NotificationRow)
    (hsame : ∀ r, (f r).unread = r.unread) (hread : ∀ r, r.readAt ≠ none → (f r).readAt ≠ none) :
    Kept t (t.map f) := by
  constructor
  · intro r' hr'
    obtain ⟨r, hr, rfl⟩ := List.mem_map.mp hr'
    exact ⟨r, hr, (hsame r).symm, hread r⟩
  · have hids : (t.map f).map NotificationRow.id = t.map NotificationRow.id := by
      rw [List.map_map]
      refine List.map_congr_left fun r _ => ?_
      show (f r).unread.id = r.unread.id
      rw [hsame]
    rw [hids]

lemma kept_markNotificationAsRead (id userId : JSString) (now : Nat) (t : List NotificationRow) :
    Kept t (markNotificationAsRead id userId now t) := by
  refine kept_map t (fun r => ?_) fun r hr => ?_
  · split <;> rfl
  · split
    · simp
    · exact hr

lemma kept_markAllNotificationsAsRead (userId : JSString) (now : Nat) (t : List NotificationRow) :
    Kept t (markAllNotificationsAsRead userId now t) := by
  refine kept_map t (fun r => ?_) fun r hr => ?_
  · split <;> rfl
  · split
    · simp
    · exact hr

lemma kept_deleteNotification (id userId : JSString) (t : List NotificationRow) :
    Kept t (deleteNotification id userId t) where
  row r' hr' := ⟨r', List.mem_of_mem_filter hr', rfl, fun hread => hread⟩
  ids := List.filter_sublist.map _

/-- What a statement does. -/
lemma exec_cases {s : NotificationStatement} (h : exec t s = some t') :
    (∃ id now userId type title message link,
      s = .createNotification id now userId type title message link ∧
      t' = t ++ [newNotification id now userId type title message link] ∧
      ∀ r ∈ t, r.id ≠ id) ∨ Kept t t' := by
  cases s with
  | createNotification id now userId type title message link =>
      obtain ⟨rfl, hnew⟩ := insert_eq_some h
      exact Or.inl ⟨id, now, userId, type, title, message, link, rfl, rfl, hnew⟩
  | markNotificationAsRead id userId now =>
      obtain rfl := Option.some.inj h
      exact Or.inr (kept_markNotificationAsRead id userId now t)
  | markAllNotificationsAsRead userId now =>
      obtain rfl := Option.some.inj h
      exact Or.inr (kept_markAllNotificationsAsRead userId now t)
  | deleteNotification id userId =>
      obtain rfl := Option.some.inj h
      exact Or.inr (kept_deleteNotification id userId t)

lemma read_markNotificationAsRead {id : JSString} {now : Nat}
    (hr : r ∈ markNotificationAsRead id userId now t) (hid : r.id = id)
    (huser : r.userId = userId) : r.readAt ≠ none := by
  obtain ⟨r₀, -, rfl⟩ := List.mem_map.mp hr
  by_cases hmatch : r₀.id = id ∧ r₀.userId = userId
  · simp [hmatch]
  · simp only [hmatch, if_false] at hid huser
    exact absurd ⟨hid, huser⟩ hmatch

lemma read_markAllNotificationsAsRead {now : Nat}
    (hr : r ∈ markAllNotificationsAsRead userId now t) (huser : r.userId = userId) :
    r.readAt ≠ none := by
  obtain ⟨r₀, -, rfl⟩ := List.mem_map.mp hr
  by_cases hmatch : r₀.userId = userId ∧ r₀.readAt = none
  · simp [hmatch]
  · simp only [hmatch, if_false] at huser ⊢
    exact fun hread => hmatch ⟨huser, hread⟩

/-- **A page misses a row** only for newer ones, as many as it has room for. -/
lemma mem_getUserNotifications_or (horder : IsNewestFirst t userId rows) (limit : Nat)
    (hr : r ∈ t) (huser : r.userId = userId) :
    r ∈ getUserNotifications rows limit 0 ∨
      (getUserNotifications rows limit 0).length = limit ∧
        ∀ r' ∈ getUserNotifications rows limit 0, r.createdAt ≤ r'.createdAt := by
  have hmem : r ∈ rows := horder.1.mem_iff.mpr (List.mem_filter.mpr ⟨hr, by simpa using huser⟩)
  have hsplit : rows = rows.take limit ++ rows.drop limit := (List.take_append_drop ..).symm
  show r ∈ rows.take limit ∨ (rows.take limit).length = limit ∧
    ∀ r' ∈ rows.take limit, r.createdAt ≤ r'.createdAt
  by_cases htake : r ∈ rows.take limit
  · exact Or.inl htake
  · have hdrop : r ∈ rows.drop limit := by
      rw [hsplit] at hmem
      exact (List.mem_append.mp hmem).resolve_left htake
    right
    constructor
    · have hlt : limit < rows.length := by
        by_contra hle
        rw [List.drop_eq_nil_of_le (by omega)] at hdrop
        simp at hdrop
      rw [List.length_take]
      omega
    · intro r' hr'
      have hpairs := horder.2
      rw [hsplit] at hpairs
      exact (List.pairwise_append.mp hpairs).2.2 r' hr' r hdrop

lemma mem_of_mem_getUserNotifications (horder : IsNewestFirst t userId rows) {limit offset : Nat}
    (hr : r ∈ getUserNotifications rows limit offset) : r ∈ t ∧ r.userId = userId := by
  have hmem : r ∈ rows := List.mem_of_mem_drop (List.mem_of_mem_take hr)
  obtain ⟨ht, huser⟩ := List.mem_filter.mp (horder.1.mem_iff.mp hmem)
  exact ⟨ht, by simpa using huser⟩

end NotificationStore

end SyncEngine
