import Mailwake.Transition
import Mailwake.Channel
import Mailwake.CommandReport
import Mailwake.Lane
import Mailwake.LaneMoves
import Mailwake.LaneCompletion
import Mailwake.FsState
import Mailwake.FsStateMoves
import Mailwake.FsStateProvenance
import Mailwake.FsStateQuiescence
import Mailwake.EventRunner
import Mailwake.Pipeline
import Mailwake.ImapIdle
import Mailwake.ImapNotice
import Mailwake.Framing
import Mailwake.ImapWire
import Mailwake.ProcessGroup
import Mailwake.ShellProcess
import Mailwake.ShellProcessKill
import Mailwake.GmailApiPoll
import Mailwake.MailboxWatcher
import Mailwake.ShellProcessBound
import Mailwake.StartupGap
import Mailwake.GmailHistory
import Mailwake.CatchUp
import Mailwake.AcceptedConfig
import Mailwake.Daemon
import Mailwake.Pace
import Mailwake.MailboxPace
import Mailwake.GmailPace
import Mailwake.HeartbeatPace
import Mailwake.Wiring
import Mailwake.RuntimeEntries
import Mailwake.Staleness
import Mailwake.Supervision
import Mailwake.ShellCapture
import Mailwake.HelperOutput
import Mailwake.LaneOrder
import Mailwake.TestTarget
import Mailwake.LaneCoalescing
import Mailwake.RunnerAlarm
import Mailwake.FalseAlarm
import Mailwake.StatusTask
import Mailwake.PublishedStatus
import Mailwake.SelfTrigger
import Mailwake.ResumeBroadcast
import Mailwake.Window
import Mailwake.DaemonExit
import Mailwake.RunnerRounds
import Mailwake.ResumeSettling
import Mailwake.DebounceTiming
import Mailwake.Overrun
import Mailwake.LaneCooldown
import Mailwake.FsStateSettling
import Mailwake.LaneShutdown
import Mailwake.LaneProgress
import Mailwake.IdleClassification
import Mailwake.HelperCheck
import Mailwake.Deadlines
import Mailwake.SessionWire
import Mailwake.Feed
import Mailwake.SourceFeed
import Mailwake.ImapSource
import Mailwake.GmailSource
import Mailwake.Assignments
import Mailwake.WatchdogPings
import Mailwake.ServiceManager
import Mailwake.SecretFlow
import Mailwake.Batching
import Mailwake.LaneBatches
import Mailwake.Registry
import Mailwake.WellFormedConfig
import Mailwake.LossyText
import Mailwake.CommandOutput
import Mailwake.GmailHttp
import Mailwake.Backoff
import Mailwake.FsSource
import Mailwake.Retries
import Mailwake.ParseLocation
import Mailwake.DaemonWakeups
import Mailwake.SystemWakeup
import Mailwake.DaemonExitInvariant
import Mailwake.DaemonExitProgress
import Mailwake.FsStateClock
import Mailwake.ImapCommands
import Mailwake.SessionFraming
import Mailwake.WireConformance
