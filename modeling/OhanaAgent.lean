import OhanaAgent.Companions.Credentials
import OhanaAgent.Exporters.Delivery
import OhanaAgent.Host.Convergence
import OhanaAgent.Host.DhcpRoundTrip
import OhanaAgent.Jobs.Completions
import OhanaAgent.Jobs.Credentials
import OhanaAgent.Jobs.Idempotence
import OhanaAgent.Jobs.Journal
import OhanaAgent.Jobs.PlannedWake
import OhanaAgent.Jobs.Renaming
import OhanaAgent.Jobs.Shutdown
import OhanaAgent.Tsunade.Incidents
import OhanaAgent.Tsunade.Lessons
import OhanaAgent.Tsunade.LogAcceptance
import OhanaAgent.Tsunade.OpenRepairs
import OhanaAgent.Host.NetworkHelper
import OhanaAgent.Host.NetworkTransactions
import OhanaAgent.Time.Clock
import OhanaAgent.Jobs.Timestamps
import OhanaAgent.Jobs.NightJobs
import OhanaAgent.Jobs.PowerJournal
import OhanaAgent.Jobs.WakeStatistics
import OhanaAgent.Jobs.WakeRetries
import OhanaAgent.Plugins.ZwaveDiscovery
import OhanaAgent.Plugins.ZwaveSettling
import OhanaAgent.Tsunade.DailyTrends
import OhanaAgent.Plugins.BackupTransfers
import OhanaAgent.Plugins.PublishedBackups
import OhanaAgent.Runtime.FailedWrites
import OhanaAgent.Api.Listeners
import OhanaAgent.Api.Routing
import OhanaAgent.Jobs.Identities
import OhanaAgent.Api.Handlers
import OhanaAgent.Api.Authentication
import OhanaAgent.Observation.Activations
import OhanaAgent.Observation.PeriodOrder
import OhanaAgent.Scheduler.CronTrigger
import OhanaAgent.Scheduler.Occurrences
import OhanaAgent.Scheduler.NextRun
import OhanaAgent.Store.Scope
import OhanaAgent.Tsunade.RejectedAnswers
import OhanaAgent.Tsunade.Cadence
import OhanaAgent.Tsunade.LogDecisions
import OhanaAgent.Tsunade.LogEscalation
import OhanaAgent.Encoding.Trimming
import OhanaAgent.Tsunade.BoundedEvidence
import OhanaAgent.Host.DhcpWrites
import OhanaAgent.Host.FailedDhcpWrites
import OhanaAgent.Host.NetworkGuarantees
import OhanaAgent.Encoding.Masking
import OhanaAgent.Privacy.Patterns
import OhanaAgent.Privacy.Stability
import OhanaAgent.Privacy.Heads
import OhanaAgent.Plugins.HostHealth
import OhanaAgent.Tsunade.AdguardPause
import OhanaAgent.Plugins.HealthSummary
import OhanaAgent.Plugins.ZwaveTopology
import OhanaAgent.Store.Dictionary
import OhanaAgent.Store.Ranking
import OhanaAgent.Tsunade.BackupFreshness
import OhanaAgent.Tsunade.LogGrowth
import OhanaAgent.Host.LeasePurge
import OhanaAgent.Plugins.SourceArchives
import OhanaAgent.Plugins.ArchiveContents
import OhanaAgent.Plugins.RemoteRetention
import OhanaAgent.Plugins.KeptBackups
import OhanaAgent.Store.Relates
import OhanaAgent.Plugins.HaosBackups
import OhanaAgent.Privacy.Masked
import OhanaAgent.Runtime.Capabilities
import OhanaAgent.Scheduler.Histories
import OhanaAgent.Scheduler.Settled
import OhanaAgent.Scheduler.Suspensions
import OhanaAgent.Tsunade.Reports
import OhanaAgent.Tsunade.Timeline
import OhanaAgent.Companions.Deliveries
