import SeoPlatform.Competitor.Analyze
import SeoPlatform.Competitor.InputOrder
import SeoPlatform.Competitor.Mirror
import SeoPlatform.Competitor.SmallSamples
import SeoPlatform.Content.Analyze
import SeoPlatform.Content.TwoThirds
import SeoPlatform.Crawler.BoundedSearch
import SeoPlatform.Crawler.Crawling
import SeoPlatform.Crawler.Fetching
import SeoPlatform.Crawler.Inlinks
import SeoPlatform.Crawler.Models
import SeoPlatform.Crawler.Parallelism
import SeoPlatform.Crawler.Parsing
import SeoPlatform.Crawler.Spellings
import SeoPlatform.Engine.AuditReport
import SeoPlatform.Engine.Canonicals
import SeoPlatform.Engine.Clusters
import SeoPlatform.Engine.DashboardJobs
import SeoPlatform.Engine.Hreflang
import SeoPlatform.Engine.KeywordExport
import SeoPlatform.Engine.Keywords
import SeoPlatform.Engine.MoreIssues
import SeoPlatform.Engine.OrphanRule
import SeoPlatform.Engine.Research
import SeoPlatform.Engine.RobotsAlarm
import SeoPlatform.Engine.ScoreRanges
import SeoPlatform.Foundation.Accounts
import SeoPlatform.Foundation.Calendar
import SeoPlatform.Foundation.CivilTime
import SeoPlatform.Foundation.ClockChanges
import SeoPlatform.Foundation.ConstrainedTable
import SeoPlatform.Foundation.Counter
import SeoPlatform.Foundation.Doubles
import SeoPlatform.Foundation.ExceptFlow
import SeoPlatform.Foundation.FirstOfEach
import SeoPlatform.Foundation.Grouping
import SeoPlatform.Foundation.IpAddress
import SeoPlatform.Foundation.JsonScanners
import SeoPlatform.Foundation.JsonSchema
import SeoPlatform.Foundation.JsonShape
import SeoPlatform.Foundation.JsonText
import SeoPlatform.Foundation.JsonValue
import SeoPlatform.Foundation.Mapping
import SeoPlatform.Foundation.Markup
import SeoPlatform.Foundation.PercentDecoding
import SeoPlatform.Foundation.PythonJson
import SeoPlatform.Foundation.QueueSearch
import SeoPlatform.Foundation.Rounding
import SeoPlatform.Foundation.RowLocks
import SeoPlatform.Foundation.SequentialFlow
import SeoPlatform.Foundation.SortedLists
import SeoPlatform.Foundation.SqlTransaction
import SeoPlatform.Foundation.TextTable
import SeoPlatform.Foundation.ThreadPool
import SeoPlatform.Foundation.TidyText
import SeoPlatform.Foundation.Tokens
import SeoPlatform.Foundation.TransitionSystem
import SeoPlatform.Foundation.TwoRuns
import SeoPlatform.Foundation.Unordered
import SeoPlatform.Foundation.UrlParse
import SeoPlatform.Foundation.UrlSpelling
import SeoPlatform.Foundation.UrlText
import SeoPlatform.Gateway.ChannelCalls
import SeoPlatform.Gateway.GhostDeliveries
import SeoPlatform.Gateway.ScheduleCalls
import SeoPlatform.Gateway.ServiceClient
import SeoPlatform.Gateway.SilentSchedules
import SeoPlatform.Gateway.ToldOnce
import SeoPlatform.Gateway.Unsubscribed
import SeoPlatform.InternalLinks.Authority
import SeoPlatform.InternalLinks.Building
import SeoPlatform.InternalLinks.Findings
import SeoPlatform.InternalLinks.FullResult
import SeoPlatform.InternalLinks.OrphanLists
import SeoPlatform.InternalLinks.Reported
import SeoPlatform.InternalLinks.SpelledTwice
import SeoPlatform.InternalLinks.Undescribed
import SeoPlatform.Interplay.Bus
import SeoPlatform.Interplay.Pipeline
import SeoPlatform.Interplay.Quiescence
import SeoPlatform.Interplay.Tenancy
import SeoPlatform.Notifications.ChannelApi
import SeoPlatform.Notifications.Channels
import SeoPlatform.Notifications.Deliver
import SeoPlatform.Notifications.Reach
import SeoPlatform.Notifications.SendOnce
import SeoPlatform.Notifications.Store
import SeoPlatform.Notifications.Worker
import SeoPlatform.Optimizer.Covering
import SeoPlatform.Optimizer.Planning
import SeoPlatform.Optimizer.Rewriting
import SeoPlatform.Optimizer.Titles
import SeoPlatform.Orchestrator.Absorbing
import SeoPlatform.Orchestrator.Acknowledgement
import SeoPlatform.Orchestrator.AdvanceOutcomes
import SeoPlatform.Orchestrator.Announcement
import SeoPlatform.Orchestrator.Api
import SeoPlatform.Orchestrator.BadSchedules
import SeoPlatform.Orchestrator.Changes
import SeoPlatform.Orchestrator.Coherence
import SeoPlatform.Orchestrator.Conclusions
import SeoPlatform.Orchestrator.Deliveries
import SeoPlatform.Orchestrator.Engine
import SeoPlatform.Orchestrator.Enriching
import SeoPlatform.Orchestrator.Firings
import SeoPlatform.Orchestrator.FlowView
import SeoPlatform.Orchestrator.Frames
import SeoPlatform.Orchestrator.HandledCompletions
import SeoPlatform.Orchestrator.HandlerOutcomes
import SeoPlatform.Orchestrator.HeldSchedules
import SeoPlatform.Orchestrator.History
import SeoPlatform.Orchestrator.Interleavings
import SeoPlatform.Orchestrator.Isolation
import SeoPlatform.Orchestrator.LegibleReports
import SeoPlatform.Orchestrator.NextRuns
import SeoPlatform.Orchestrator.NoWork
import SeoPlatform.Orchestrator.Occurrences
import SeoPlatform.Orchestrator.OneAudit
import SeoPlatform.Orchestrator.OwnCrawl
import SeoPlatform.Orchestrator.OwnHandlers
import SeoPlatform.Orchestrator.OwnRows
import SeoPlatform.Orchestrator.OwnTransactions
import SeoPlatform.Orchestrator.Owners
import SeoPlatform.Orchestrator.Passes
import SeoPlatform.Orchestrator.Payloads
import SeoPlatform.Orchestrator.Planner
import SeoPlatform.Orchestrator.Plans
import SeoPlatform.Orchestrator.Reads
import SeoPlatform.Orchestrator.Refinement
import SeoPlatform.Orchestrator.ReportTrends
import SeoPlatform.Orchestrator.Reports
import SeoPlatform.Orchestrator.Requests
import SeoPlatform.Orchestrator.Resumption
import SeoPlatform.Orchestrator.Rivals
import SeoPlatform.Orchestrator.ScheduleApi
import SeoPlatform.Orchestrator.ScheduleGaps
import SeoPlatform.Orchestrator.Schedulers
import SeoPlatform.Orchestrator.Schedules
import SeoPlatform.Orchestrator.SingleFlight
import SeoPlatform.Orchestrator.Skipping
import SeoPlatform.Orchestrator.Snapshots
import SeoPlatform.Orchestrator.Soundness
import SeoPlatform.Orchestrator.Staging
import SeoPlatform.Orchestrator.StepLives
import SeoPlatform.Orchestrator.StepResults
import SeoPlatform.Orchestrator.Store
import SeoPlatform.Orchestrator.StoreSpecs
import SeoPlatform.Orchestrator.Summaries
import SeoPlatform.Orchestrator.TrackedKeywords
import SeoPlatform.Orchestrator.Trends
import SeoPlatform.Orchestrator.Verdicts
import SeoPlatform.Orchestrator.Workers
import SeoPlatform.Reporting.AutomaticDocuments
import SeoPlatform.Reporting.EnrichedReports
import SeoPlatform.Reporting.Escaping
import SeoPlatform.Reporting.Rendering
import SeoPlatform.Reporting.Tables
import SeoPlatform.Security.CheckedRequests
import SeoPlatform.Security.MetadataRefusal
import SeoPlatform.Serp.Analyze
import SeoPlatform.Serp.OwnSite
import SeoPlatform.Services.AckedJobs
import SeoPlatform.Services.Announcements
import SeoPlatform.Services.Competitor
import SeoPlatform.Services.Completions
import SeoPlatform.Services.Content
import SeoPlatform.Services.Crawl
import SeoPlatform.Services.EventCounts
import SeoPlatform.Services.HandledRequests
import SeoPlatform.Services.JobOwners
import SeoPlatform.Services.JobWorker
import SeoPlatform.Services.Keyword
import SeoPlatform.Services.Links
import SeoPlatform.Services.Optimizer
import SeoPlatform.Services.Runs
import SeoPlatform.Services.Serp
import SeoPlatform.Shared.Contracts
import SeoPlatform.Shared.Events
import SeoPlatform.Shared.Exceptions
import SeoPlatform.Shared.FileStore
import SeoPlatform.Shared.Interchange
import SeoPlatform.Shared.JobSpecs
import SeoPlatform.Shared.Jobs
import SeoPlatform.Shared.Lossless
import SeoPlatform.Shared.Netguard
import SeoPlatform.Shared.Outbound
import SeoPlatform.Shared.PostgresStore
import SeoPlatform.Shared.Queues
import SeoPlatform.Shared.RecentJobs
import SeoPlatform.Shared.Relay
import SeoPlatform.Shared.RelaySafety
import SeoPlatform.Shared.Republishing
import SeoPlatform.Shared.Restarts
import SeoPlatform.Shared.SharedDirectory
import SeoPlatform.Shared.Text
import SeoPlatform.Shared.Wire
