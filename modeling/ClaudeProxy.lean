import ClaudeProxy.Kit.Dict
import ClaudeProxy.Kit.Machine
import ClaudeProxy.Trees.SnapshotQueue
import ClaudeProxy.Trees.Data
import ClaudeProxy.Trees.Frame
import ClaudeProxy.Trees.Processor
import ClaudeProxy.Trees.Control
import ClaudeProxy.Trees.Exclusion
import ClaudeProxy.Trees.Progress
import ClaudeProxy.Trees.Order
import ClaudeProxy.Kit.Search
import ClaudeProxy.Providers.ThinkTagParser
import ClaudeProxy.Trees.Fifo
import ClaudeProxy.Providers.ThinkScan
import ClaudeProxy.Providers.HeuristicToolParser
import ClaudeProxy.Kit.Generator
import ClaudeProxy.Kit.Json
import ClaudeProxy.Providers.SSEBuilder
import ClaudeProxy.Providers.ErrorMapping
import ClaudeProxy.Providers.OpenAICompat
import ClaudeProxy.Providers.BlockLedger
import ClaudeProxy.Providers.BlockOrder
import ClaudeProxy.Providers.StreamOrder
import ClaudeProxy.Providers.TextHold
import ClaudeProxy.Providers.StreamText
import ClaudeProxy.Kit.ForeignKey
import ClaudeProxy.Sessions.Refinement
import ClaudeProxy.Limiter.Worker
import ClaudeProxy.Limiter.Compaction
import ClaudeProxy.Handler.EventParser
import ClaudeProxy.Handler.ProcessNode
import ClaudeProxy.Handler.FinalState
import ClaudeProxy.Handler.Settled
import ClaudeProxy.Providers.ChunkInvariance
import ClaudeProxy.Limiter.Shutdown
import ClaudeProxy.Sessions.Saving
import ClaudeProxy.Sessions.WriteOrder
import ClaudeProxy.Kit.SlidingWindow
import ClaudeProxy.Limiter.Slots
import ClaudeProxy.Providers.RateLimit
import ClaudeProxy.Limiter.StrictWindow
import ClaudeProxy.Providers.ReactiveBlock
import ClaudeProxy.Kit.Dedupe
import ClaudeProxy.Webhooks.Deliveries
import ClaudeProxy.Webhooks.DuplicateReports
import ClaudeProxy.Automation.Schedule
import ClaudeProxy.Automation.DailyRun
import ClaudeProxy.Api.Rbac
import ClaudeProxy.Api.Schemas
import ClaudeProxy.Api.Handlers
import ClaudeProxy.Api.Touched
import ClaudeProxy.Api.WorkspaceScope
import ClaudeProxy.Manager.Repository
import ClaudeProxy.Manager.Conversations
import ClaudeProxy.Manager.Reload
import ClaudeProxy.Manager.Filing
import ClaudeProxy.Manager.ReplyRouting
import ClaudeProxy.Manager.MessageHandler
import ClaudeProxy.Manager.Steady
import ClaudeProxy.Manager.Reach
import ClaudeProxy.Manager.GlobalClear
import ClaudeProxy.Manager.Unchanged
import ClaudeProxy.Manager.Persistence
import ClaudeProxy.Manager.Owing
import ClaudeProxy.Manager.AtRest
import ClaudeProxy.Kit.Walk
import ClaudeProxy.Manager.TreeStructure
import ClaudeProxy.Cli.SessionManager
import ClaudeProxy.Cli.Session
import ClaudeProxy.Kit.EventStream
import ClaudeProxy.Providers.NativeStream
import ClaudeProxy.Providers.TaskCalls
import ClaudeProxy.Api.AnthropicModels
import ClaudeProxy.Api.RequestUtils
import ClaudeProxy.Kit.Exchange
import ClaudeProxy.Kit.JsonText
import ClaudeProxy.Providers.MessageConverter
import ClaudeProxy.Providers.ToolProtocol
import ClaudeProxy.Manager.Serialise
import ClaudeProxy.Manager.Restoring
import ClaudeProxy.Manager.Mapping
import ClaudeProxy.Manager.Integrity
import ClaudeProxy.Manager.StartUp
import ClaudeProxy.Manager.Preserved
import ClaudeProxy.Automation.Enqueueing
import ClaudeProxy.Automation.Evaluation
import ClaudeProxy.Automation.Isolation
import ClaudeProxy.Automation.Ticks
import ClaudeProxy.Automation.Midnight
import ClaudeProxy.Manager.ErrorPropagation
import ClaudeProxy.Providers.ControlTokens
import ClaudeProxy.Providers.ParallelCalls
import ClaudeProxy.Providers.BlockCounts
import ClaudeProxy.Providers.EmptyAnswer
import ClaudeProxy.Transcript.Buffer
import ClaudeProxy.Kit.MarkdownV2
import ClaudeProxy.Transcript.Render
import ClaudeProxy.Transcript.SubagentDepth
import ClaudeProxy.Transcript.TelegramMarkdown
import ClaudeProxy.Transcript.Truncation
import ClaudeProxy.Api.RateLimit
import ClaudeProxy.Transcript.KeptTail
import ClaudeProxy.Api.RateScopes
import ClaudeProxy.Kit.Words
import ClaudeProxy.Api.CommandUtils
import ClaudeProxy.Handler.DeleteMessages
import ClaudeProxy.Realtime.Subscribers
import ClaudeProxy.Automation.ExecuteCandidate
import ClaudeProxy.Automation.ExecutionRecord
import ClaudeProxy.Kit.Base64
import ClaudeProxy.Kit.JsonKeys
import ClaudeProxy.Api.OauthState
import ClaudeProxy.Kit.Calendar
import ClaudeProxy.Kit.IsoFormat
import ClaudeProxy.Integrations.SyncConflicts
import ClaudeProxy.Integrations.Convergence
import ClaudeProxy.Integrations.SyncMapping
import ClaudeProxy.Integrations.MappingBack
import ClaudeProxy.Kit.FencedLines
import ClaudeProxy.Rendering.GfmTables
import ClaudeProxy.Sessions.MessageLog
import ClaudeProxy.Sessions.MessageOrder
import ClaudeProxy.Trees.QueueIndex
import ClaudeProxy.Kit.Backlog
import ClaudeProxy.Realtime.SlowSubscriber
import ClaudeProxy.Kit.EventFrames
import ClaudeProxy.Kit.JsonAscii
import ClaudeProxy.Providers.SSEWire
import ClaudeProxy.Kit.Tasks
import ClaudeProxy.Platforms.VoiceNotes
import ClaudeProxy.Platforms.VoiceSettled
import ClaudeProxy.Kit.Semaphore
import ClaudeProxy.Providers.ConcurrencySlot
import ClaudeProxy.Storage.Migrations
import ClaudeProxy.Api.Filepaths
import ClaudeProxy.Api.GatewayRouting
import ClaudeProxy.Api.IntegrationAccounts
import ClaudeProxy.Api.AccountProvenance
import ClaudeProxy.Kit.SerialTable
import ClaudeProxy.Api.Effects
import ClaudeProxy.Api.Integrity
import ClaudeProxy.Api.WorkspaceEvents
import ClaudeProxy.Realtime.WorkspaceMirror
import ClaudeProxy.Kit.Paging
import ClaudeProxy.Api.Listings
import ClaudeProxy.Kit.Retry
import ClaudeProxy.Sessions.RetryOnce
