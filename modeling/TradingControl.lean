import TradingControl.Agents.GeminiRateLimiter
import TradingControl.Agents.Restarts
import TradingControl.Agents.ToolRegistry
import TradingControl.Backtest.ChallengerVerdict
import TradingControl.Backtest.Lots
import TradingControl.Backtest.SignalLaws
import TradingControl.Challenger.LiveDecisions
import TradingControl.Cognitive.Advisory
import TradingControl.Cognitive.Cooldown
import TradingControl.Cognitive.Drawdowns
import TradingControl.Cognitive.GradeOrder
import TradingControl.Cognitive.Health
import TradingControl.Cognitive.Merges
import TradingControl.Cognitive.MirroredTrades
import TradingControl.Cognitive.NoLookAhead
import TradingControl.Cognitive.Sharing
import TradingControl.Cognitive.TraceIds
import TradingControl.Dashboard.AgentPerformance
import TradingControl.Dashboard.Hydration
import TradingControl.Dashboard.PersistedEvents
import TradingControl.Dashboard.PnlSurfaces
import TradingControl.Dashboard.ProposalVotes
import TradingControl.Dashboard.ReadMarks
import TradingControl.Dashboard.SkippedEntries
import TradingControl.Events.AtLeastOnce
import TradingControl.Events.DlqKeys
import TradingControl.Events.FastForward
import TradingControl.Events.PipelineFailures
import TradingControl.Events.RawReplies
import TradingControl.Events.Stranded
import TradingControl.Execution.BookFunctions
import TradingControl.Execution.ConcurrentOrders
import TradingControl.Execution.IdempotencyKey
import TradingControl.Execution.LockDiscipline
import TradingControl.Execution.PositionsTable
import TradingControl.Execution.Reconciler
import TradingControl.Execution.SideAliases
import TradingControl.Execution.StrandedFlag
import TradingControl.Guardian.DailyLoss
import TradingControl.Guardian.TrailingStop
import TradingControl.Learning.AttributedTools
import TradingControl.Learning.IcWeights
import TradingControl.Learning.ModesAgree
import TradingControl.Learning.PairedCloses
import TradingControl.Learning.RankCorrelation
import TradingControl.Learning.ScoreLaws
import TradingControl.Markets.MarketStatus
import TradingControl.Parameters.AppliedOverride
import TradingControl.Reasoning.ExitAlignment
import TradingControl.Reasoning.FallbackMark
import TradingControl.Reasoning.PolicyMonotone
import TradingControl.Reasoning.SignalGates
import TradingControl.Reasoning.TrustWeighting
import TradingControl.RiskGuardian
import TradingControl.Signals.SignalGenerator
import TradingControl.Strategy.AppliedOnce
import TradingControl.Strategy.ChallengerSpawner
import TradingControl.Strategy.CircuitBreaker
import TradingControl.Strategy.DailyCap
import TradingControl.Strategy.DirectiveBias
import TradingControl.Strategy.Gated
import TradingControl.Strategy.PlanAndRank
import TradingControl.Writer.AcceptedWrites
