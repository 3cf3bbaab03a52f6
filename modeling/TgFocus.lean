import TgFocus.Library.Strings
import TgFocus.Library.Utf8
import TgFocus.Library.Utf8Chars
import TgFocus.Library.Utf16
import TgFocus.Library.Loop
import TgFocus.Library.Ranges
import TgFocus.Library.Transition
import TgFocus.Library.Stdio
import TgFocus.Library.Socket
import TgFocus.Library.FirstDecision
import TgFocus.Library.Headings
import TgFocus.Library.Toml
import TgFocus.Library.TomlReader
import TgFocus.Text
import TgFocus.Common
import TgFocus.UtfUtils
import TgFocus.Theorems.Utf16Loops
import TgFocus.Theorems.Utf16Texts
import TgFocus.PosixRegex
import TgFocus.TgMsg
import TgFocus.DecorPos
import TgFocus.Filter
import TgFocus.UserData
import TgFocus.StoredIds
import TgFocus.IpcMsg
import TgFocus.Theorems.IpcCodec
import TgFocus.IpcClient
import TgFocus.ChatCmd
import TgFocus.TdColl
import TgFocus.TdUpdates
import TgFocus.Decoration
import TgFocus.Theorems.HelpTurns
import TgFocus.Theorems.HelpRanges
import TgFocus.Theorems.ReplyRanges
import TgFocus.TdQueries
import TgFocus.Theorems.QueryAnswers
import TgFocus.Theorems.QueuedText
import TgFocus.Theorems.Dispatch
import TgFocus.Theorems.Handlers
import TgFocus.Theorems.Replies
import TgFocus.Theorems.FilterStore
import TgFocus.Theorems.StoredIds
import TgFocus.Theorems.Decision
import TgFocus.Theorems.Escape
import TgFocus.Theorems.StoredText
import TgFocus.Theorems.Edits
import TgFocus.Theorems.SavedFilters
import TgFocus.Theorems.GroupEdits
import TgFocus.Theorems.DecisionShift
import TgFocus.Theorems.Numbers
import TgFocus.Theorems.Int32Input
import TgFocus.Theorems.LabelOffsets
import TgFocus.Theorems.EditForm
import TgFocus.Theorems.FilterIds
import TgFocus.Theorems.FailedCommands
import TgFocus.Worker.Pipeline
import TgFocus.Theorems.PipelineSteps
import TgFocus.Theorems.PipelineInv
import TgFocus.Theorems.Handoff
import TgFocus.Theorems.ConsumerStop
import TgFocus.Theorems.Settled
import TgFocus.Theorems.ArrivalOrder
import TgFocus.Theorems.PauseStops
import TgFocus.Theorems.ChatCreation
import TgFocus.Theorems.ChatRequests
import TgFocus.Theorems.FlagReturns
import TgFocus.Worker.Lifecycle
import TgFocus.Theorems.LifecycleSteps
import TgFocus.Theorems.SoleCollector
import TgFocus.Theorems.TrueReplies
import TgFocus.Worker.IpcConnHandler
import TgFocus.Theorems.StreamReads
import TgFocus.Theorems.IpcReplies
import TgFocus.Worker.IpcMsgDequer
import TgFocus.Theorems.IpcWakeups
import TgFocus.Theorems.QueueOrder
import TgFocus.FiltersFile
import TgFocus.Theorems.WholeVersions
import TgFocus.FilterSessions
import TgFocus.FiltersTmp
import TgFocus.Theorems.CliSaves
import TgFocus.Theorems.KeptChanges
import TgFocus.LocaleConf
import TgFocus.DataRoot
import TgFocus.TdAuth
import TgFocus.Cli
import TgFocus.Startup
import TgFocus.Forwarded
import TgFocus.Worker.Shutdown
import TgFocus.Worker.Forwarding
import TgFocus.Worker.Collector
import TgFocus.Theorems.Settings
import TgFocus.Theorems.LoginSessions
import TgFocus.Theorems.HostLocale
import TgFocus.Theorems.CommandLine
import TgFocus.Theorems.CliReplies
import TgFocus.Theorems.SoleDaemon
import TgFocus.Theorems.DaemonSteps
import TgFocus.Theorems.DaemonParts
import TgFocus.Theorems.DaemonEnd
import TgFocus.Theorems.Forwarding
import TgFocus.Theorems.CollectorStop
import TgFocus.Theorems.CollectorRuns
import TgFocus.Theorems.ToldNames
import TgFocus.Theorems.UndoneEdits
import TgFocus.Theorems.FiltersRanges
import TgFocus.Theorems.ForwardedText
import TgFocus.Theorems.EditorTexts
import TgFocus.Theorems.QueueDrains
