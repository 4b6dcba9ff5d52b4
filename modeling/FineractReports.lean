import FineractReports.Assistant.CalendarPeriods
import FineractReports.Assistant.CanonicalFacts
import FineractReports.Assistant.CanonicalStore
import FineractReports.Assistant.Clarification
import FineractReports.Assistant.ClarificationPlanner
import FineractReports.Assistant.CurrentTurn
import FineractReports.Assistant.ExtractionMetadata
import FineractReports.Assistant.FactMerge
import FineractReports.Assistant.HeldDigits
import FineractReports.Assistant.IdentifierCuts
import FineractReports.Assistant.IdentifierIntake
import FineractReports.Assistant.IdentifierRedaction
import FineractReports.Assistant.IdentifierSpans
import FineractReports.Assistant.Intent
import FineractReports.Assistant.LlmProvider
import FineractReports.Assistant.MergeFold
import FineractReports.Assistant.MessageFacts
import FineractReports.Assistant.MessageTokens
import FineractReports.Assistant.NamedEntities
import FineractReports.Assistant.NumberReaders
import FineractReports.Assistant.ReplaySafety
import FineractReports.Assistant.RequestFacts
import FineractReports.Assistant.StablePlan
import FineractReports.Assistant.Temporal
import FineractReports.Assistant.TemporalResolution
import FineractReports.Assistant.TransactionAmounts
import FineractReports.Assistant.VerbatimEntities
import FineractReports.Audit.LlmTraces
import FineractReports.Audit.Worker
import FineractReports.Auth.ApiKeys
import FineractReports.Auth.KeyScope
import FineractReports.Auth.RevocationCache
import FineractReports.Auth.SessionSafety
import FineractReports.Auth.SessionService
import FineractReports.Conversation.Archiving
import FineractReports.Conversation.Isolation
import FineractReports.Conversation.Store
import FineractReports.Conversation.Views
import FineractReports.Execution.AlignedBinds
import FineractReports.Execution.BindPositions
import FineractReports.Execution.Binds
import FineractReports.Execution.BoundParameters
import FineractReports.Execution.CarriedPlan
import FineractReports.Execution.Clarification
import FineractReports.Execution.ContextBuilder
import FineractReports.Execution.ExecutableDatasets
import FineractReports.Execution.LosslessBinds
import FineractReports.Execution.LostContinuation
import FineractReports.Execution.OfferedChoices
import FineractReports.Execution.ParameterSource
import FineractReports.Execution.Parameters
import FineractReports.Execution.PendingClarification
import FineractReports.Execution.Plan
import FineractReports.Execution.PlannerBinder
import FineractReports.Execution.PreparedStatements
import FineractReports.Execution.QueryRequest
import FineractReports.Execution.RowCeiling
import FineractReports.Execution.SelectedCapability
import FineractReports.Execution.SelectedPlan
import FineractReports.Execution.SemanticRoute
import FineractReports.Execution.Statement
import FineractReports.Execution.StatementSafety
import FineractReports.Execution.TrustedFacts
import FineractReports.Execution.TurnResponse
import FineractReports.Execution.VisibleCatalog
import FineractReports.Job.AnswerOnce
import FineractReports.Job.AnsweredTurn
import FineractReports.Job.AuditTrail
import FineractReports.Job.Chunk
import FineractReports.Job.ClarificationResponse
import FineractReports.Job.IdentifierLimit
import FineractReports.Job.MergeableFacts
import FineractReports.Job.Model
import FineractReports.Job.OfferedOptions
import FineractReports.Job.OrphanedJobs
import FineractReports.Job.RangeLimit
import FineractReports.Job.Repository
import FineractReports.Job.ResponseProjection
import FineractReports.Job.RunStory
import FineractReports.Job.Service
import FineractReports.Job.ServiceEffect
import FineractReports.Job.SessionConflict
import FineractReports.Job.SessionMemory
import FineractReports.Job.SessionRuns
import FineractReports.Job.StoredDocuments
import FineractReports.Job.StoredIdentifiers
import FineractReports.Job.Stream
import FineractReports.Job.StreamEnd
import FineractReports.Job.TerminalStatus
import FineractReports.Json
import FineractReports.Knowledge.ComposedStatement
import FineractReports.Knowledge.DatasetCompose
import FineractReports.Knowledge.DatasetExpr
import FineractReports.Knowledge.DatasetGrammar
import FineractReports.Knowledge.DatasetPlan
import FineractReports.Knowledge.DatasetPredicates
import FineractReports.Knowledge.DatasetResolve
import FineractReports.Knowledge.DatasetRules
import FineractReports.Knowledge.DefaultEvaluation
import FineractReports.Knowledge.DefaultGrammar
import FineractReports.Knowledge.Model
import FineractReports.Knowledge.ParameterPolicy
import FineractReports.Knowledge.ProseClaims
import FineractReports.Knowledge.SqlSafety
import FineractReports.Knowledge.StatementSafety
import FineractReports.Knowledge.Validator
import FineractReports.Library.Assoc
import FineractReports.Library.BestByKey
import FineractReports.Library.BinaryRounding
import FineractReports.Library.Budget
import FineractReports.Library.Calendar
import FineractReports.Library.Checks
import FineractReports.Library.DayNumber
import FineractReports.Library.DecimalText
import FineractReports.Library.DirectedGraph
import FineractReports.Library.DistinctKeys
import FineractReports.Library.Escapes
import FineractReports.Library.ExpiringCounter
import FineractReports.Library.Formats
import FineractReports.Library.GroupedSums
import FineractReports.Library.Hex
import FineractReports.Library.ImmutableTable
import FineractReports.Library.KeyedLists
import FineractReports.Library.Keyset
import FineractReports.Library.Pieces
import FineractReports.Library.Retry
import FineractReports.Library.RowTable
import FineractReports.Library.Stretch
import FineractReports.Library.Text
import FineractReports.Library.Tokens
import FineractReports.Library.Transition
import FineractReports.Library.UnicodeCase
import FineractReports.Library.Unwinding
import FineractReports.Library.Utf8
import FineractReports.Management.AuditEvent
import FineractReports.Management.AuditListing
import FineractReports.Management.AuditPages
import FineractReports.Management.Dashboard
import FineractReports.Management.ExactlyOnce
import FineractReports.Management.KnowledgeInventory
import FineractReports.Management.LlmUsage
import FineractReports.Management.Outbox
import FineractReports.Policy.Authorization
import FineractReports.Policy.OfficeScope
import FineractReports.Presentation.Builder
import FineractReports.Presentation.CurrencyTotals
import FineractReports.Presentation.FixedResponses
import FineractReports.Presentation.HiddenFields
import FineractReports.Presentation.Renderer
import FineractReports.Presentation.Response
import FineractReports.Presentation.TableText
import FineractReports.Retrieval.CatalogDocuments
import FineractReports.Retrieval.CatalogIndex
import FineractReports.Retrieval.Engine
import FineractReports.Retrieval.EvidenceMerge
import FineractReports.Retrieval.IndexedCatalog
import FineractReports.Retrieval.RankedCandidates
import FineractReports.Retrieval.Reranker
import FineractReports.Retrieval.StaleIndex
import FineractReports.Retrieval.Sufficiency
import FineractReports.Workflow.Ambiguity
import FineractReports.Workflow.AuditSchema
import FineractReports.Workflow.BranchWays
import FineractReports.Workflow.BudgetAdmission
import FineractReports.Workflow.BudgetArithmetic
import FineractReports.Workflow.BudgetExactness
import FineractReports.Workflow.BudgetLedger
import FineractReports.Workflow.ComparisonFacts
import FineractReports.Workflow.Compile
import FineractReports.Workflow.CompiledNodes
import FineractReports.Workflow.CompiledVerifies
import FineractReports.Workflow.Compose
import FineractReports.Workflow.ComposeSensitivity
import FineractReports.Workflow.Contract
import FineractReports.Workflow.DataTools
import FineractReports.Workflow.EntityOptions
import FineractReports.Workflow.FrontGraph
import FineractReports.Workflow.Graph
import FineractReports.Workflow.GuardAgreement
import FineractReports.Workflow.GuardSoundness
import FineractReports.Workflow.IterationExpansion
import FineractReports.Workflow.NodeExecutor
import FineractReports.Workflow.PersistedOutput
import FineractReports.Workflow.ProducerOrder
import FineractReports.Workflow.Progress
import FineractReports.Workflow.ReadyWidth
import FineractReports.Workflow.Response
import FineractReports.Workflow.RowOrigins
import FineractReports.Workflow.RowSteps
import FineractReports.Workflow.Run
import FineractReports.Workflow.Runner
import FineractReports.Workflow.RunnerInvariant
import FineractReports.Workflow.RunnerReachable
import FineractReports.Workflow.SchedulerSafety
import FineractReports.Workflow.SelectionResume
import FineractReports.Workflow.SingleCapability
import FineractReports.Workflow.State
import FineractReports.Workflow.StrandedRuns
import FineractReports.Workflow.Verify
