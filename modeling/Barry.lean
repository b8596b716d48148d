import Barry.Protocol
import Barry.Socket
import Barry.Field
import Barry.Room
import Barry.Lib.Program
import Barry.SocketZero
import Barry.Lib.Lists
import Barry.Router
import Barry.DBData
import Barry.Lib.Hex
import Barry.TarFile
import Barry.Restore
import Barry.Pipe
import Barry.Builders
import Barry.DeviceParser
import Barry.Record
import Barry.Recur
import Barry.SmallRecords
import Barry.Calendar
import Barry.Task
import Barry.Contact
import Barry.Bookmark
import Barry.Message
import Barry.ServiceBook
import Barry.RecordClass
import Barry.Bounds
import Barry.Desktop
import Barry.Pump
import Barry.Operations
import Barry.IpModem
import Barry.Handles
import Barry.Edits
import Barry.SyncPlugin
import Barry.Sessions
import Barry.HashPlugin
import Barry.HashSessions
import Barry.ContactRoundTrip
import Barry.TaskRoundTrip
import Barry.CalendarRoundTrip
import Barry.Contents
import Barry.Fragments
import Barry.DebugReply
import Barry.DebugServer
import Barry.Cod
import Barry.Identity
import Barry.Lib.Text
import Barry.VFormat
import Barry.Lib.Civil
import Barry.VTime
import Barry.VBase
import Barry.VEvent
import Barry.VEventRoundTrip
import Barry.Lib.Base64
import Barry.VCard
import Barry.Converters
import Barry.VTodo
import Barry.MimeIO
import Barry.Interest
import Barry.Lib.Runs
import Barry.WaitPop
import Barry.RestoreTotal
import Barry.Lib.Packed
import Barry.Tables
import Barry.ContentStoreRoundTrip
import Barry.Minutes
import Barry.PackedFields
import Barry.BookmarkFlags
import Barry.RecurRule
import Barry.Ldif
import Barry.LdifRecord
import Barry.LdifRoundTrip
import Barry.Lib.TzVariable
import Barry.TimeZoneOffsets
import Barry.CategoryText
import Barry.Base64Calls
import Barry.UtcMktime
import Barry.IsoText
import Barry.Conversions
import Barry.Lib.WeakOrder
import Barry.NamedFieldCmp
import Barry.RecurInvariants
import Barry.Lib.RepeatedDays
import Barry.RecurCount
import Barry.PhoneNumbers
import Barry.IdMap
import Barry.MappedRecordId
import Barry.FailedCommit
import Barry.ReportedUids
import Barry.JavaLoader
import Barry.Eventlog
import Barry.JLDirectory
import Barry.VTodoRoundTrip
import Barry.CardRoundTrip
import Barry.Lib.Gsm
import Barry.SmsBody
import Barry.Lib.Transducer
import Barry.PppFilter
import Barry.Lib.Loop
import Barry.JvmLists
import Barry.BtarCmp
import Barry.Lib.Matching
import Barry.GroupCompare
import Barry.IConvHandle
import Barry.Lib.Words
import Barry.Pin
import Barry.FifoArgs
import Barry.PluginConfig
import Barry.Lib.SortedMap
import Barry.ConfigFile
import Barry.GlobalConfigFile
import Barry.HexDump
import Barry.Lib.Grid
import Barry.Bmp
import Barry.EndpointPairs
import Barry.Tokenize
import Barry.EmailText
import Barry.Lib.SearchTree
import Barry.LdifMap
import Barry.LdifDump
import Barry.LdifRuns
import Barry.AlxParser
import Barry.AlxSection
import Barry.AlxDocument
import Barry.AlxMoves
import Barry.AlxNesting
import Barry.AlxRegister
import Barry.Lib.Sessions
import Barry.SyncConflict
import Barry.ConflictDlg
import Barry.ConflictConnection
import Barry.ConflictSession
import Barry.Lib.BlockHash
import Barry.Sha1
import Barry.Checksum
import Barry.PathSplit
import Barry.Bfuse
import Barry.SyncRoster
import Barry.DeviceExtras
import Barry.DeviceSet
import Barry.Migrate
import Barry.Connector
import Barry.OptOut
