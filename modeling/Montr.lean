import Montr.Client.CacheQuota
import Montr.Client.ConnectionTask
import Montr.Client.EndOfFile
import Montr.Client.EndOfItem
import Montr.Client.LruAccounting
import Montr.Client.OfflineAgreement
import Montr.Client.PlaybackProgress
import Montr.Client.Status
import Montr.Client.VerifiedContent
import Montr.Lib.KeyedDedupe
import Montr.Lib.Series
import Montr.Lib.SharedConnection
import Montr.Server.AssignmentPush
import Montr.Server.AutoResume
import Montr.Server.ChunkedAssembly
import Montr.Server.ClientService
import Montr.Server.EffectivePriority
import Montr.Server.PlaylistSync
import Montr.Server.Registration
import Montr.Server.SingleCompletion
import Montr.Server.SqliteAdapter
import Montr.Server.Telemetry
import Montr.Server.UploadCompletion
import Montr.Lib.Numbering
import Montr.Server.PlaylistOrder
import Montr.Server.ConnectionTable
import Montr.Server.Presence
import Montr.Server.EventSchedules
import Montr.Server.Attribution
import Montr.Client.PlaylistDedupe
import Montr.Client.InterruptAgreement
import Montr.Lib.Successors
import Montr.Server.Simulation
import Montr.Server.ScheduleScope
import Montr.Server.SchedulePushes
import Montr.Server.PriorityAssignment
import Montr.Server.FolderTree
import Montr.Server.FolderDeletion
import Montr.Server.ReferentialDeletes
import Montr.Lib.Answers
import Montr.Server.JobTable
import Montr.Server.QueueWorker
import Montr.Server.JobClaims
import Montr.Lib.JsonTree
import Montr.Lib.Schemas
import Montr.Client.ClientMessage
import Montr.Server.MessageSchemas
import Montr.Protocol.ClientToServer
import Montr.Lib.Readers
import Montr.Client.Deserialize
import Montr.Server.MessageJson
import Montr.Protocol.ServerToClient
import Montr.Client.OutgoingQueue
import Montr.Lib.AtomicReplace
import Montr.Client.Persistence
import Montr.Server.MigrationRunner
import Montr.Client.HttpDownload
import Montr.Lib.Eviction
import Montr.Client.EvictionOrder
import Montr.Client.EvictionPass
import Montr.Client.CachePaths
import Montr.Server.SimulatedConflicts
import Montr.Lib.SqlTables
import Montr.Lib.SqlFrames
import Montr.Lib.SqlRetry
import Montr.Server.SqliteMigrations
import Montr.Server.MigrationScripts
import Montr.Server.MigrationRetry
import Montr.Server.MigrationRollback
import Montr.Lib.Cyclic
import Montr.Client.QueueNavigation
import Montr.Client.Preload
import Montr.Lib.FirstMatch
import Montr.Client.SubtitleSelector
import Montr.Server.SubtitleTable
import Montr.Protocol.SubtitleNumbers
import Montr.Server.HealthChecks
import Montr.Lib.Brackets
import Montr.Client.AnalyticsSessions
import Montr.Server.BulkAdd
import Montr.Client.Reconnect
import Montr.Server.Users
import Montr.Server.UserRuns
import Montr.Server.Semaphore
import Montr.Client.SelfUpdate
import Montr.Client.VerifiedBinary
import Montr.Lib.Slots
import Montr.Client.LogRotation
import Montr.Protocol.PlayerLink
import Montr.Protocol.PlaylistDelivery
import Montr.Server.SentMessages
import Montr.Client.KeptPlaylist
import Montr.Lib.Paths
import Montr.Server.StorageNames
import Montr.Server.LocalStorage
import Montr.Server.MediaShelf
