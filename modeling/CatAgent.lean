import CatAgent.Binary64
import CatAgent.MonadRelation
import CatAgent.PyStr
import CatAgent.PyDict
import CatAgent.Table
import CatAgent.Json
import CatAgent.Machine
import CatAgent.Host
import CatAgent.TaskStore
import CatAgent.EventStore
import CatAgent.SystemRuntime
import CatAgent.RunTable
import CatAgent.QueryInbox
import CatAgent.TaskEngine
import CatAgent.Snapshot
import CatAgent.Transaction
import CatAgent.EngineStep
import CatAgent.Lifecycle
import CatAgent.Order
import CatAgent.Grants
import CatAgent.MqttEventMonitor
import CatAgent.MqttCache
import CatAgent.MqttEdges
import CatAgent.NotificationOutbox
import CatAgent.Offers
import CatAgent.OutboxGuarantees
import CatAgent.Serving
import CatAgent.ShellWords
import CatAgent.Inbox
import CatAgent.Program
import CatAgent.TaskRpc
import CatAgent.NativeTaskWorker
import CatAgent.QueryPublish
import CatAgent.QueryListing
import CatAgent.Arrivals
import CatAgent.WorkerHistory
import CatAgent.WorkerOutlines
import CatAgent.WorkerGuarantees
import CatAgent.WorkerRuns
import CatAgent.WorkerSystem
import CatAgent.Fencing
import CatAgent.MqttProvenance
import CatAgent.CoreServer
import CatAgent.HandOff
import CatAgent.Future
import CatAgent.McpRuntime
import CatAgent.McpInvariant
import CatAgent.McpGuarantees
import CatAgent.Leases
import CatAgent.LostOffers
import CatAgent.Registries
import CatAgent.Threads
import CatAgent.CoreScheduler
import CatAgent.SchedulerThreads
import CatAgent.SchedulerInvariant
import CatAgent.SchedulerRequests
import CatAgent.SchedulerDriver
import CatAgent.SchedulerFutures
import CatAgent.SchedulerPool
import CatAgent.SchedulerContexts
import CatAgent.SchedulerOutlines
import CatAgent.SchedulerLoop
import CatAgent.SchedulerExecutor
import CatAgent.SchedulerRuns
import CatAgent.SchedulerGuarantees
import CatAgent.FileTree
import CatAgent.DataPaths
import CatAgent.JsonHooks
import CatAgent.JsonText
import CatAgent.JsonPrefix
import CatAgent.TextLines
import CatAgent.TaskFile
import CatAgent.TaskFileGuarantees
import CatAgent.Reconciling
import CatAgent.Delegation
import CatAgent.NativeAgent
import CatAgent.NativeManager
import CatAgent.Bisect
import CatAgent.Unwinding
import CatAgent.WireSize
import CatAgent.ToolGuard
import CatAgent.InferenceService
import CatAgent.SlotOwnership
import CatAgent.KvIsolation
import CatAgent.AgentProtocol
import CatAgent.AgentWorker
import CatAgent.PyValue
import CatAgent.McpResult
import CatAgent.ToolDispatcher
import CatAgent.McpReplay
import CatAgent.ReadPartly
import CatAgent.ResultPaging
import CatAgent.PeriodRouting
import CatAgent.Grid
import CatAgent.TimerGrid
import CatAgent.Journal
import CatAgent.Coalescing
import CatAgent.WorkerBookkeeping
import CatAgent.CyclicProcess
import CatAgent.VoiceStream
import CatAgent.ChatClient
import CatAgent.ManagerDialogues
import CatAgent.AgentIsolation
import CatAgent.PriorityScheduler
import CatAgent.ManagerRuntime
