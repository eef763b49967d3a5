import Watchcat.Base.Calendar
import Watchcat.Base.Clock
import Watchcat.Base.Error
import Watchcat.Base.JsonText
import Watchcat.Base.Jsonl
import Watchcat.Base.Lowering
import Watchcat.Base.Numeral
import Watchcat.Base.Text
import Watchcat.Base.Utf8
import Watchcat.Base.Value
import Watchcat.Core.Chunks
import Watchcat.Core.File
import Watchcat.Core.Forest
import Watchcat.Core.Imperative
import Watchcat.Core.Interleaving
import Watchcat.Core.Lines
import Watchcat.Core.LockOrder
import Watchcat.Core.Merging
import Watchcat.Core.Monitor
import Watchcat.Core.Paging
import Watchcat.Core.Pieces
import Watchcat.Core.Program
import Watchcat.Core.Recent
import Watchcat.Core.Schedule
import Watchcat.Core.Sequential
import Watchcat.Core.Substitution
import Watchcat.Core.Table
import Watchcat.Core.Window
import Watchcat.Correctness.Accounting
import Watchcat.Correctness.Acknowledgement
import Watchcat.Correctness.Activity
import Watchcat.Correctness.Agreement
import Watchcat.Correctness.Backoff
import Watchcat.Correctness.Budget
import Watchcat.Correctness.Consent
import Watchcat.Correctness.CrashSafety
import Watchcat.Correctness.Dates
import Watchcat.Correctness.DeadlockFreedom
import Watchcat.Correctness.Delays
import Watchcat.Correctness.Delivery
import Watchcat.Correctness.DialogLog
import Watchcat.Correctness.Discovery
import Watchcat.Correctness.DryRun
import Watchcat.Correctness.ErrorClassification
import Watchcat.Correctness.EventLog
import Watchcat.Correctness.Expiry
import Watchcat.Correctness.FailedRequests
import Watchcat.Correctness.Framing
import Watchcat.Correctness.HandledOnce
import Watchcat.Correctness.HotReload
import Watchcat.Correctness.Idempotence
import Watchcat.Correctness.Inspection
import Watchcat.Correctness.LogReadability
import Watchcat.Correctness.LogRetention
import Watchcat.Correctness.LostEdits
import Watchcat.Correctness.Membership
import Watchcat.Correctness.Orphans
import Watchcat.Correctness.Paging
import Watchcat.Correctness.PressAuthority
import Watchcat.Correctness.Prompts
import Watchcat.Correctness.RegistryRuns
import Watchcat.Correctness.Responses
import Watchcat.Correctness.RetryLimits
import Watchcat.Correctness.Revision
import Watchcat.Correctness.SendGuard
import Watchcat.Correctness.SessionDiscovery
import Watchcat.Correctness.Subscribers
import Watchcat.Correctness.TranscriptLogs
import Watchcat.Correctness.Transcripts
import Watchcat.Correctness.Validity
import Watchcat.Daemon.Activity
import Watchcat.Daemon.Control
import Watchcat.Daemon.Cycles
import Watchcat.Daemon.Effects
import Watchcat.Daemon.Encoding
import Watchcat.Daemon.Heralds
import Watchcat.Daemon.Histories
import Watchcat.Daemon.Locks
import Watchcat.Daemon.Outcomes
import Watchcat.Daemon.Playing
import Watchcat.Daemon.Reconcile
import Watchcat.Daemon.Retries
import Watchcat.Daemon.RetryTasks
import Watchcat.Daemon.Revisions
import Watchcat.Daemon.Sample
import Watchcat.Daemon.Serve
import Watchcat.Daemon.Stores
import Watchcat.Daemon.System
import Watchcat.Daemon.Types
import Watchcat.Daemon.Uses
import Watchcat.Engine.Manual
import Watchcat.Engine.Observations
import Watchcat.Engine.Pass
import Watchcat.Engine.Rounds
import Watchcat.Engine.Runs
import Watchcat.Engine.Sends
import Watchcat.Engine.Times
import Watchcat.Engine.Types
import Watchcat.Engine.Uses
import Watchcat.OsPermissions.Accessibility
import Watchcat.OsPermissions.Consent
import Watchcat.OsPermissions.Events
import Watchcat.OsPermissions.Inspection
import Watchcat.OsPermissions.Monitor
import Watchcat.OsPermissions.Rules
import Watchcat.OsPermissions.Runs
import Watchcat.OsPermissions.Scan
import Watchcat.OsPermissions.Tree
import Watchcat.OsPermissions.Uses
import Watchcat.Protocol.Frames
import Watchcat.Protocol.Messages
import Watchcat.Providers.Claude
import Watchcat.Providers.ClaudeCatalog
import Watchcat.Providers.Codex
import Watchcat.Providers.CodexCatalog
import Watchcat.Providers.CodexErrors
import Watchcat.Providers.CodexMessages
import Watchcat.Providers.SessionLogs
import Watchcat.Providers.Transcripts
import Watchcat.Service.Calls
import Watchcat.Service.Sample
import Watchcat.Settings.Conditions
import Watchcat.Settings.Config
import Watchcat.Settings.Dialogs
import Watchcat.State.Discovery
import Watchcat.State.EventLogAppends
import Watchcat.State.EventLogStore
import Watchcat.State.Models
import Watchcat.State.RetryLedger
import Watchcat.State.RetryRegistry
import Watchcat.State.Runtime
import Watchcat.State.SampleLog
import Watchcat.State.SessionLog
import Watchcat.State.Watchlist
import Watchcat.Transport.Attempts
import Watchcat.Transport.CodexDesktop
import Watchcat.Transport.DesktopMessages
import Watchcat.Transport.Exchanges
import Watchcat.Transport.JsonRpc
import Watchcat.Transport.Wire
