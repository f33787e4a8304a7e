import SyncEngine.Crdt.Convergence
import SyncEngine.Crdt.CausalBuffer
import SyncEngine.Crdt.TombstoneGc
import SyncEngine.Server.OfflineMerger
import SyncEngine.Server.CacheCompleteness
import SyncEngine.Server.SnapshotCompleteness
import SyncEngine.System.Reconnect
import SyncEngine.System.RejectedEdits
import SyncEngine.Server.AcknowledgedInsert
import SyncEngine.Server.ReplayProtection
import SyncEngine.Server.Authorization
import SyncEngine.Server.RestoreAtomicity
import SyncEngine.Client.OfflineQueueRuns
import SyncEngine.Client.UidUniqueness
import SyncEngine.System.ResumePoint
import SyncEngine.System.Rollback
import SyncEngine.Server.HistoryImmutability
import SyncEngine.System.StoredLog
import SyncEngine.System.LiveConvergence
import SyncEngine.Client.ServerAgreement
import SyncEngine.Client.Admission
import SyncEngine.Crdt.UndoText
import SyncEngine.Crdt.BufferAccounting
import SyncEngine.Crdt.Intention
import SyncEngine.Server.DocumentSequence
import SyncEngine.Crdt.LinkedRuns
import SyncEngine.Server.DocumentLoading
import SyncEngine.Server.CacheInvalidation
import SyncEngine.Server.MessageQueue
import SyncEngine.Client.CaretPosition
import SyncEngine.Server.RateLimiter
import SyncEngine.Server.PendingConnections
import SyncEngine.Server.OrphanSessions
import SyncEngine.Server.Fanout
import SyncEngine.Server.PresenceGhosts
import SyncEngine.Crdt.VectorClock
import SyncEngine.Server.SessionIndexes
import SyncEngine.Client.MachineDiff
import SyncEngine.Server.RefreshTokens
import SyncEngine.Server.CollaboratorLimit
import SyncEngine.Server.Ownership
import SyncEngine.Server.Invitations
import SyncEngine.Crdt.Formatting
import SyncEngine.Server.SendQueue
import SyncEngine.Server.Heartbeat
import SyncEngine.Server.UserNotifications
import SyncEngine.Server.HistoryPages
import SyncEngine.Client.Reconnection
import SyncEngine.Server.DocumentCaches
import SyncEngine.Server.SnapshotRetention
import SyncEngine.Server.ConnectionPool
import SyncEngine.Client.EditorSync
import SyncEngine.Lib.ExpiringStore
import SyncEngine.Server.PresenceKeys
import SyncEngine.System.Collaborators
import SyncEngine.Client.CursorTracking
import SyncEngine.System.NotificationDelivery
