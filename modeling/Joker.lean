import Joker.Base.AverageCost
import Joker.Base.Checks
import Joker.Base.Runs
import Joker.Base.Coroutine
import Joker.Base.TextOrder
import Joker.Base.Datetime
import Joker.Base.Decimal
import Joker.Base.Dict
import Joker.Base.Firsts
import Joker.Base.Json
import Joker.Base.PyFloat
import Joker.Base.Text
import Joker.Base.Thread
import Joker.Base.Totals
import Joker.Base.Interference
import Joker.Base.Ticks
import Joker.Base.Reordering
import Joker.Base.DatetimeOrder
import Joker.Base.LevelChanges
import Joker.Base.Readings
import Joker.Base.WeightedMean
import Joker.Base.Rounding
import Joker.Base.Slices
import Joker.Base.FirstSeen
import Joker.Base.History
import Joker.Base.EventLog
import Joker.Base.IsoText
import Joker.Base.JsonText
import Joker.Base.SlidingWindow
import Joker.Base.Upserts
import Joker.Base.UtcTime
import Joker.Ledger.Schemas
import Joker.Ledger.Projector
import Joker.Ledger.Replay
import Joker.Ledger.CashFlow
import Joker.Ledger.FillTally
import Joker.Ledger.CommittedSales
import Joker.Ledger.Reconciliation
import Joker.Ledger.ReconcileSoundness
import Joker.Ledger.Corrections
import Joker.Ledger.FillCap
import Joker.Ledger.SubmissionStatus
import Joker.Ledger.FilledOrders
import Joker.Ledger.ProjectionKeys
import Joker.Ledger.OrderCorrections
import Joker.Ledger.Store
import Joker.Ledger.StoreInterleaving
import Joker.Ledger.OrderRoom
import Joker.Ledger.NetFills
import Joker.Ledger.PricedPositions
import Joker.Ledger.EventOrder
import Joker.Ledger.AveragePrice
import Joker.Ledger.Chronology
import Joker.Ledger.RepeatedFills
import Joker.Ledger.StatusOrder
import Joker.Broker.Domain
import Joker.Broker.ContractId
import Joker.Broker.Interface
import Joker.Broker.Positions
import Joker.Broker.Webull
import Joker.Broker.PaperCash
import Joker.Market.OptionSurface
import Joker.Market.Bars
import Joker.Market.BarEmission
import Joker.Market.BarTape
import Joker.Market.BarRedelivery
import Joker.Market.BarTimeframes
import Joker.Market.BarVolume
import Joker.Market.Quality
import Joker.Market.BarCalls
import Joker.Market.BarGaps
import Joker.Market.BarOrder
import Joker.Market.BarTelescope
import Joker.Market.BarTolerance
import Joker.Market.BarFold
import Joker.Data.SurfaceFetch
import Joker.Data.SurfaceCompleteness
import Joker.Data.Freshness
import Joker.Data.OptionsRateLimit
import Joker.Data.OptionsProvider
import Joker.Data.ProviderRuns
import Joker.Data.SurfaceCache
import Joker.Cognition.Context
import Joker.Cognition.ModelRequests
import Joker.Cognition.ModelRouter
import Joker.Cognition.Payloads
import Joker.Cognition.ReusedOutputs
import Joker.Cognition.DurableReuse
import Joker.Cognition.Routing
import Joker.Cognition.RoutingBound
import Joker.Compliance.DataClassification
import Joker.Compliance.OpraSanitizer
import Joker.Compliance.CleanedNodes
import Joker.Compliance.Stripping
import Joker.Compliance.Exposure
import Joker.Compliance.CleanPayloads
import Joker.Compliance.OpraScanner
import Joker.Persistence.ArtifactStore
import Joker.Persistence.CycleRegistry
import Joker.Events.Bus
import Joker.Events.Delivery
import Joker.Events.Closing
import Joker.Risk.CapitalBudget
import Joker.Risk.AggressionCap
import Joker.Risk.Sizing
import Joker.Risk.Reservations
import Joker.Risk.Governor
import Joker.Risk.GovernorPolicy
import Joker.Execution.ExitManager
import Joker.Execution.TrailingStop
import Joker.Agents.Decision
import Joker.Runtime.ExecutionRuntime
import Joker.Runtime.Submission
import Joker.Runtime.AtMostOnce
import Joker.Runtime.ReactiveEngine
import Joker.Runtime.WorkingOrders
import Joker.Runtime.MarketHandler
import Joker.Runtime.HandlerSteps
import Joker.Runtime.BookedProfit
import Joker.Runtime.NewEntryCycles
import Joker.Runtime.FlatEntries
import Joker.Runtime.OrderActionGateway
import Joker.Runtime.GatewayAcceptance
import Joker.Runtime.LiveOrders
import Joker.Runtime.ManagedExits
import Joker.Runtime.NoOversell
import Joker.Runtime.OrphanEntries
import Joker.Runtime.PaperSubmission
import Joker.Runtime.ReconciliationRun
import Joker.Runtime.VerifiedFills
import Joker.Runtime.PaperAgreement
import Joker.Runtime.RestartSubmission
import Joker.Runtime.RecoveryClaim
import Joker.Runtime.Replacements
import Joker.Runtime.DegradedClose
import Joker.Runtime.SnapshotOrder
import Joker.Runtime.MarketTicks
import Joker.Runtime.ClockedSession
import Joker.Runtime.FailedEntries
import Joker.Runtime.GatewaySubmission
import Joker.Runtime.OrderManagement
import Joker.Runtime.OrderUpdates
import Joker.Runtime.PolledFills
import Joker.Runtime.PositionEvents
import Joker.Runtime.ProvenanceRegistry
import Joker.Runtime.BarWindows
import Joker.Runtime.QualityVerdicts
import Joker.Runtime.CycleRecovery
import Joker.Runtime.CycleResumption
import Joker.Runtime.DecisionLoop
import Joker.Runtime.HandlerStages
import Joker.Runtime.TwoStepEntry
import Joker.Market.SurfaceRows
import Joker.Market.LiquidityScore
import Joker.Data.OptionSymbols
import Joker.Market.SurfaceFidelity
import Joker.Graph.PositionGraph
import Joker.Graph.OwnOrders
import Joker.Graph.ThesisChain
import Joker.Graph.PositionStrategy
import Joker.Graph.CognitiveGraph
import Joker.Graph.DecisionCycle
import Joker.Graph.Reducers
import Joker.Graph.Checkpoints
import Joker.Graph.CycleOutcome
import Joker.Graph.ProposalExecution
import Joker.Runtime.TruthHealth
import Joker.Runtime.SessionSupervisor
import Joker.Runtime.TruthGate
