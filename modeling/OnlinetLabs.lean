import OnlinetLabs.Admin.Browse
import OnlinetLabs.Admin.Registry
import OnlinetLabs.Agents.Models
import OnlinetLabs.Analytics.Annotation
import OnlinetLabs.Analytics.Assignment
import OnlinetLabs.Analytics.CheckIdentity
import OnlinetLabs.Analytics.Cohort.Metrics
import OnlinetLabs.Analytics.Cohort.Service
import OnlinetLabs.Analytics.Cohort.Survival
import OnlinetLabs.Analytics.Collector
import OnlinetLabs.Analytics.ControlLaw
import OnlinetLabs.Analytics.Criterion
import OnlinetLabs.Analytics.Delivery
import OnlinetLabs.Analytics.ErrorPoll
import OnlinetLabs.Analytics.Events
import OnlinetLabs.Analytics.ExactlyOnce
import OnlinetLabs.Analytics.FailingCycles
import OnlinetLabs.Analytics.Features
import OnlinetLabs.Analytics.Frames
import OnlinetLabs.Analytics.Freshness
import OnlinetLabs.Analytics.Identifier
import OnlinetLabs.Analytics.Monitor
import OnlinetLabs.Analytics.OfflinePolicy
import OnlinetLabs.Analytics.OperatingCurve
import OnlinetLabs.Analytics.Outages
import OnlinetLabs.Analytics.Outcomes
import OnlinetLabs.Analytics.ProcessState
import OnlinetLabs.Analytics.ProgressObserver
import OnlinetLabs.Analytics.Reproducibility
import OnlinetLabs.Analytics.SelfObservation
import OnlinetLabs.Analytics.Spells
import OnlinetLabs.Analytics.Thresholds
import OnlinetLabs.Analytics.TieOrder
import OnlinetLabs.Analytics.Totality
import OnlinetLabs.Analytics.Truncation
import OnlinetLabs.Analytics.World
import OnlinetLabs.Auth.Accounts
import OnlinetLabs.Auth.BackendToken
import OnlinetLabs.Chat.Borders
import OnlinetLabs.Chat.Reply
import OnlinetLabs.Chat.Stream
import OnlinetLabs.Chat.Transcript
import OnlinetLabs.Clients.McpClient
import OnlinetLabs.Consent.Consent
import OnlinetLabs.Consent.Interface
import OnlinetLabs.Console.Capture
import OnlinetLabs.Console.Enters
import OnlinetLabs.Console.Framing
import OnlinetLabs.Console.Lossless
import OnlinetLabs.Console.Passwords
import OnlinetLabs.Console.Proxy
import OnlinetLabs.Console.Queue
import OnlinetLabs.Console.Reconstruct
import OnlinetLabs.Console.Replay
import OnlinetLabs.Console.Text
import OnlinetLabs.Experiment.Agreement
import OnlinetLabs.Experiment.Arms
import OnlinetLabs.Experiment.Finalizer
import OnlinetLabs.Experiment.Participants
import OnlinetLabs.Experiment.RowOrder
import OnlinetLabs.Gns3.AdminClient
import OnlinetLabs.Gns3.Creation
import OnlinetLabs.Gns3.EventBroker
import OnlinetLabs.Gns3.EventStream
import OnlinetLabs.Gns3.Forwarders
import OnlinetLabs.Gns3.Lifecycle
import OnlinetLabs.Gns3.Models
import OnlinetLabs.Gns3.Projects
import OnlinetLabs.Gns3.RbacGate
import OnlinetLabs.Gns3.Realtime
import OnlinetLabs.Gns3.Snapshots
import OnlinetLabs.Gns3.StateSnapshot
import OnlinetLabs.Gns3.Supervision
import OnlinetLabs.Gns3.WsProxy
import OnlinetLabs.Instructor.Overview
import OnlinetLabs.Labs.Catalog
import OnlinetLabs.Lib.Bisect
import OnlinetLabs.Lib.Blocks
import OnlinetLabs.Lib.Charging
import OnlinetLabs.Lib.Chunks
import OnlinetLabs.Lib.Cooldown
import OnlinetLabs.Lib.CoordinateDescent
import OnlinetLabs.Lib.Deque
import OnlinetLabs.Lib.Dialogue
import OnlinetLabs.Lib.Dict
import OnlinetLabs.Lib.Distinct
import OnlinetLabs.Lib.Effect
import OnlinetLabs.Lib.Entropy
import OnlinetLabs.Lib.FirstLine
import OnlinetLabs.Lib.Generator
import OnlinetLabs.Lib.GroupBy
import OnlinetLabs.Lib.Grouping
import OnlinetLabs.Lib.History
import OnlinetLabs.Lib.Incremental
import OnlinetLabs.Lib.Interleaving
import OnlinetLabs.Lib.IsoTime
import OnlinetLabs.Lib.Journal
import OnlinetLabs.Lib.Json
import OnlinetLabs.Lib.Lines
import OnlinetLabs.Lib.Loop
import OnlinetLabs.Lib.Margins
import OnlinetLabs.Lib.NamedValues
import OnlinetLabs.Lib.Naming
import OnlinetLabs.Lib.Newest
import OnlinetLabs.Lib.Numbering
import OnlinetLabs.Lib.Paging
import OnlinetLabs.Lib.Recent
import OnlinetLabs.Lib.Regex
import OnlinetLabs.Lib.Reports
import OnlinetLabs.Lib.Retention
import OnlinetLabs.Lib.Rounding
import OnlinetLabs.Lib.Runs
import OnlinetLabs.Lib.StepFunction
import OnlinetLabs.Lib.Streaks
import OnlinetLabs.Lib.Sweep
import OnlinetLabs.Lib.Table
import OnlinetLabs.Lib.Ties
import OnlinetLabs.Lib.Trailing
import OnlinetLabs.Lib.Trim
import OnlinetLabs.Lib.TrimmedLog
import OnlinetLabs.Lib.UnitOfWork
import OnlinetLabs.McpSdk.Bound
import OnlinetLabs.McpSdk.ConnectionPool
import OnlinetLabs.McpSdk.Ownership
import OnlinetLabs.Observability.ActivityLog
import OnlinetLabs.Observability.Feeds
import OnlinetLabs.Observability.Redact
import OnlinetLabs.Observability.Secrets
import OnlinetLabs.Observability.Sweeps
import OnlinetLabs.Progress.Attempts
import OnlinetLabs.Progress.Concurrent
import OnlinetLabs.Progress.Service
import OnlinetLabs.Sessions.Activity
import OnlinetLabs.Sessions.Arrivals
import OnlinetLabs.Sessions.Caps
import OnlinetLabs.Sessions.Ending
import OnlinetLabs.Sessions.Environments
import OnlinetLabs.Sessions.Finalized
import OnlinetLabs.Sessions.Gateway
import OnlinetLabs.Sessions.InUse
import OnlinetLabs.Sessions.Invariants
import OnlinetLabs.Sessions.Models
import OnlinetLabs.Sessions.Monitors
import OnlinetLabs.Sessions.Overtaking
import OnlinetLabs.Sessions.Pauses
import OnlinetLabs.Sessions.Queue
import OnlinetLabs.Sessions.QueueCalls
import OnlinetLabs.Sessions.Reclaim
import OnlinetLabs.Sessions.Registry
import OnlinetLabs.Sessions.Rows
import OnlinetLabs.Sessions.Slots
import OnlinetLabs.Sessions.StateFreshness
import OnlinetLabs.Sessions.StateView
import OnlinetLabs.Sessions.System
import OnlinetLabs.Sessions.Tickets
import OnlinetLabs.Sessions.WellFormed
import OnlinetLabs.Simulation.Cohort
import OnlinetLabs.Simulation.Student
import OnlinetLabs.Users.Background
import OnlinetLabs.Users.DataExport
import OnlinetLabs.Users.Finality
import OnlinetLabs.Users.Subject
import OnlinetLabs.Validation.Agreement
import OnlinetLabs.Validation.Consoles
import OnlinetLabs.Validation.Credit
import OnlinetLabs.Validation.Decoder
import OnlinetLabs.Validation.Handlers
import OnlinetLabs.Validation.Parsers
import OnlinetLabs.Validation.RoundTrip
import OnlinetLabs.Validation.Runner
import OnlinetLabs.Validation.Service
import OnlinetLabs.Validation.Silence
import OnlinetLabs.Validation.Stream
