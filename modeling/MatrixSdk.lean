import MatrixSdk.Lib.System
import MatrixSdk.Lib.JsObject
import MatrixSdk.Lib.WaitsFor
import MatrixSdk.Lib.Links
import MatrixSdk.Lib.Loops
import MatrixSdk.Lib.Segments
import MatrixSdk.Lib.Concat
import MatrixSdk.Crypto.DeviceListSerialiser
import MatrixSdk.Crypto.DeviceListTracking
import MatrixSdk.Crypto.DeviceInfo
import MatrixSdk.Crypto.DeviceListProcessing
import MatrixSdk.Crypto.DeviceEntries
import MatrixSdk.Crypto.OlmSessions
import MatrixSdk.Crypto.GroupSessions
import MatrixSdk.Crypto.KeyEvents
import MatrixSdk.Crypto.MegolmDecryption
import MatrixSdk.Crypto.OutgoingRoomKeyRequests
import MatrixSdk.Crypto.KeyBackup
import MatrixSdk.Crypto.Verification
import MatrixSdk.Crypto.MegolmEncryption
import MatrixSdk.Crypto.RoomEncryption
import MatrixSdk.Models.EventTimelineSet
import MatrixSdk.Models.AddEvents
import MatrixSdk.Models.TimelineSetCalls
import MatrixSdk.Models.TimelineLinks
import MatrixSdk.Models.TimelineIndex
import MatrixSdk.Sync.LiveTimeline
import MatrixSdk.Sync.Scrollback
import MatrixSdk.Models.Receipts
import MatrixSdk.Models.TimelineWindow
import MatrixSdk.Models.WindowPlaces
import MatrixSdk.Models.WindowRuns
import MatrixSdk.Models.WindowRemoval
import MatrixSdk.Models.Room
import MatrixSdk.Models.IndexedTimelines
import MatrixSdk.Models.PendingEvents
import MatrixSdk.Lib.Grouping
import MatrixSdk.Models.Relations
import MatrixSdk.Models.AnnotationTables
import MatrixSdk.Models.RelationsInvariant
import MatrixSdk.Models.Annotations
import MatrixSdk.Models.RelationsCalls
import MatrixSdk.Models.LocalEchoes
import MatrixSdk.Models.EchoInvariant
import MatrixSdk.Models.EchoCalls
import MatrixSdk.Models.LocalRedactions
import MatrixSdk.Lib.Batches
import MatrixSdk.Lib.NestedObject
import MatrixSdk.Sync.SyncAccumulator
import MatrixSdk.Sync.AccumulatedRooms
import MatrixSdk.Sync.AccumulatedTimelines
import MatrixSdk.Sync.EventMaps
import MatrixSdk.Sync.RolledBackState
import MatrixSdk.Crypto.CrossSigningKeys
import MatrixSdk.Crypto.IdentityKeyIndex
import MatrixSdk.Crypto.DeviceListSaves
import MatrixSdk.Crypto.SAS
import MatrixSdk.Crypto.RequestPhases
import MatrixSdk.Crypto.SessionExport
import MatrixSdk.Crypto.MegolmRotation
import MatrixSdk.Crypto.InRoomOrder
import MatrixSdk.Client.RealtimeCallbacks
import MatrixSdk.Crypto.SecretRequests
import MatrixSdk.Crypto.DeviceExport
import MatrixSdk.Store.OutOfBandMembers
import MatrixSdk.Models.RoomStateMembers
import MatrixSdk.Models.SyncedMembers
import MatrixSdk.Client.HighlightCount
import MatrixSdk.Client.CallEnds
import MatrixSdk.Client.IncomingCalls
import MatrixSdk.Client.InteractiveAuth
import MatrixSdk.Store.CryptoStores
import MatrixSdk.Models.EventOrder
import MatrixSdk.Crypto.GroupSessionAdds
import MatrixSdk.Crypto.ToDeviceChannel
import MatrixSdk.Lib.Radix
import MatrixSdk.Crypto.RecoveryKey
import MatrixSdk.Client.Filter
import MatrixSdk.Lib.JsonValue
import MatrixSdk.Utils.DeepCompare
import MatrixSdk.Lib.Members
import MatrixSdk.Crypto.ObjectSignatures
import MatrixSdk.Crypto.KeyBackupTrust
import MatrixSdk.Models.PowerLevels
import MatrixSdk.Models.Redaction
import MatrixSdk.Lib.RegExp
import MatrixSdk.Utils.GlobToRegexp
import MatrixSdk.Client.PushProcessor
import MatrixSdk.Client.PushRules
import MatrixSdk.Client.MatchingRule
import MatrixSdk.Lib.Slices
import MatrixSdk.Crypto.DeviceSlices
import MatrixSdk.Sync.AccumulatedSummaries
import MatrixSdk.Client.AutoDiscovery
import MatrixSdk.Crypto.ToDeviceRequests
import MatrixSdk.Crypto.SecretStorage
import MatrixSdk.Client.CandidateQueue
import MatrixSdk.Crypto.WedgedSessions
import MatrixSdk.Models.DisplayNames
import MatrixSdk.Models.TimelinePagination
