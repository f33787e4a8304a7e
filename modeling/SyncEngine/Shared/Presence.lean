import SyncEngine.Shared.Operation

/-!
# Presence

Cursor positions and the messages that carry them (`shared/types/presence.ts`,
`shared/types/protocol.ts`).  A cursor is anchored to the node it stands behind, `null` at the
beginning of the document.

`lastSeen` is left out.
-/

namespace SyncEngine

/-- A cursor, by the nodes around it. -/
structure CursorPosition where
  /-- The node the cursor is after. -/
  afterUid : Option UID
  /-- Where a selection starts, `null` when nothing is selected. -/
  anchorUid : Option UID
deriving DecidableEq, Repr

/-- What the others are shown of a session. -/
structure UserPresence where
  sessionId : JSString
  userId : JSString
  displayName : JSString
  color : JSString
  cursor : Option CursorPosition
  isTyping : Bool
deriving DecidableEq, Repr

/-- What a client says of itself. -/
structure PresenceUpdate where
  sessionId : JSString
  cursor : Option CursorPosition
  isTyping : Bool
deriving DecidableEq, Repr

/-- What a client sends of its cursor. -/
structure PresenceMessage where
  docId : JSString
  update : PresenceUpdate
deriving DecidableEq, Repr

end SyncEngine
