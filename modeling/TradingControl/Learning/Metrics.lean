import TradingControl.Python.Reference
import TradingControl.Series.Reversal

/-!
# Learning metrics

`GET /learning/metrics` in memory mode, over the runtime store, and in database mode, over the
`trade_evaluations` table.  Both fall back on the overall grades where no trade was evaluated.
-/

namespace TradingControl.Learning

open Python

/-! ## Metrics -/

/-- A trade evaluation, with the fields that the metrics read and its time. -/
structure TradeEvaluation where
  pnl : Option ℚ
  pnlPercent : Option ℚ
  overallScore : Option ℚ
  createdAt : Option ℚ := none
  deriving DecidableEq

inductive ScoreTrend where
  | insufficientData
  | stable
  | improving
  | declining
  deriving DecidableEq

inductive MetricStatus where
  | insufficientData
  | unstable
  | reliable
  deriving DecidableEq

structure LearningMetrics where
  totalTrades : ℕ
  winRate : ℚ
  avgReturn : ℚ
  sharpeRatio : ℚ
  maxDrawdown : ℚ
  avgScore : ℚ
  scoreTrend : ScoreTrend
  consistency : ℚ
  sampleSize : ℕ
  metricStatus : MetricStatus
  minRequiredSampleSize : ℕ
  deriving DecidableEq

/-- `_MIN_RELIABLE_TRADES`. -/
def minReliableTrades : ℕ := 10

/-- `_MIN_STABLE_TRADES`. -/
def minStableTrades : ℕ := 30

/-- `_clamp` between 0 and 1. -/
def clamp (value : ℚ) : ℚ := max 0 (min 1 value)

/-- `sum(values) / len(values)`. -/
def average (values : List ℚ) : ℚ := values.sum / values.length

def variance (mean : ℚ) (values : List ℚ) : ℚ :=
  (values.map fun value => (value - mean) ^ 2).sum / (values.length - 1)

/-- `any(p != values[0] for p in values)`. -/
def varied : List ℚ → Bool
  | [] => false
  | first :: values => (first :: values).any (· ≠ first)

section

variable (sqrt : ℚ → ℚ)

/-- `math.sqrt(variance) if variance > 0 else 0.0`. -/
def deviation (mean : ℚ) (values : List ℚ) : ℚ :=
  if 0 < variance mean values then sqrt (variance mean values) else 0

/-- Annualized over 252 trading days. -/
def sharpe (pnlPcts : List ℚ) : ℚ :=
  let meanR := average pnlPcts
  if 1 < pnlPcts.length ∧ varied pnlPcts then
    let stdR := deviation sqrt meanR pnlPcts
    if 1 / 1000 < stdR then meanR / stdR * sqrt 252 else 0
  else 0

def consistency (scores : List ℚ) : ℚ :=
  let avgScore := average scores
  if 1 / 100 < avgScore ∧ 1 < scores.length then
    clamp (1 - deviation sqrt avgScore scores / avgScore)
  else 0

def slope (scores : List ℚ) : ℚ :=
  let xMean := Series.middle scores.length
  let numerator := Series.leverage xMean (average scores) scores
  let denominator : ℚ := Series.spread scores.length
  if 0 < denominator then numerator / denominator else 0

def scoreTrend (scores : List ℚ) : ScoreTrend :=
  if 5 ≤ scores.length then
    if 1 / 200 < slope scores then .improving
    else if slope scores < -(1 / 200) then .declining
    else .stable
  else .stable

def metricStatus (total : ℕ) : MetricStatus :=
  if total < minReliableTrades then .insufficientData
  else if total < minStableTrades then .unstable
  else .reliable

/-- `compute_learning_metrics`. -/
def computeLearningMetrics (evaluations : List TradeEvaluation) : LearningMetrics :=
  if evaluations.isEmpty then
    { totalTrades := 0, winRate := 0, avgReturn := 0, sharpeRatio := 0, maxDrawdown := 0,
      avgScore := 0, scoreTrend := .insufficientData, consistency := 0, sampleSize := 0,
      metricStatus := .insufficientData, minRequiredSampleSize := minReliableTrades }
  else
    let pnlPcts := evaluations.map (·.pnlPercent.getD 0)
    let pnls : List ℚ := evaluations.map (·.pnl.getD 0)
    let scores := evaluations.map (·.overallScore.getD 0)
    let total := evaluations.length
    { totalTrades := total
      winRate := roundHalfEven 4 (pnls.countP (0 < ·) / total)
      avgReturn := roundHalfEven 4 (average pnlPcts)
      sharpeRatio := roundHalfEven 4 (sharpe sqrt pnlPcts)
      maxDrawdown := roundHalfEven 4 (-Series.maxDrawdown pnlPcts)
      avgScore := roundHalfEven 4 (average scores)
      scoreTrend := scoreTrend scores
      consistency := roundHalfEven 4 (consistency sqrt scores)
      sampleSize := total
      metricStatus := metricStatus total
      minRequiredSampleSize := minReliableTrades }

end

/-! ## Memory mode -/

/-- `GradeType`. -/
inductive GradeType where
  | accuracy
  | efficiency
  | safety
  | overall
  deriving DecidableEq

/-- An entry of `grade_history`. -/
structure GradeEntry where
  gradeType : Option GradeType
  score : Option ℚ
  scorePct : Option ℚ

/-- The part of `InMemoryStore` that the metrics are computed from. -/
structure InMemoryStore where
  tradeEvaluations : List TradeEvaluation := []
  gradeHistory : List GradeEntry := []

/-- A score taken for a trade: a percentage is brought to the unit interval, and what is above one
half counts as won. -/
def bridgedTrade (raw : ℚ) : TradeEvaluation :=
  let scoreN := if 1 < raw then raw / 100 else raw
  { pnl := some (scoreN - 1 / 2), pnlPercent := some ((scoreN - 1 / 2) * 20),
    overallScore := some scoreN }

/-- `g.get("score") or g.get("score_pct") or 0`. -/
def GradeEntry.raw (entry : GradeEntry) : ℚ :=
  if entry.score.getD 0 ≠ 0 then entry.score.getD 0 else entry.scorePct.getD 0

/-- The grade is of no type or overall. -/
def GradeEntry.counts (entry : GradeEntry) : Bool :=
  entry.gradeType = none ∨ entry.gradeType = some .overall

namespace InMemoryStore

/-- `add_trade_evaluation`. -/
def addTradeEvaluation (store : InMemoryStore) (now : ℚ) (payload : TradeEvaluation) :
    InMemoryStore :=
  let entry := { payload with createdAt := some (payload.createdAt.getD now) }
  { store with tradeEvaluations := lastItems 500 (store.tradeEvaluations ++ [entry]) }

/-- `get_trade_evaluations`: the newest first. -/
def getTradeEvaluations (store : InMemoryStore) (limit : ℕ) : List TradeEvaluation :=
  (lastItems (max 1 (min limit 200)) store.tradeEvaluations).reverse

/-- What `get_learning_metrics` feeds to the metrics. -/
def evaluations (store : InMemoryStore) : List TradeEvaluation :=
  let recorded := store.getTradeEvaluations 200
  if recorded.isEmpty then
    (store.gradeHistory.filter GradeEntry.counts).map fun entry => bridgedTrade entry.raw
  else recorded

/-- `get_learning_metrics` while the database is down. -/
def learningMetrics (sqrt : ℚ → ℚ) (store : InMemoryStore) : LearningMetrics :=
  computeLearningMetrics sqrt store.evaluations

end InMemoryStore

/-! ## Database mode -/

/-- A row of `trade_evaluations`. -/
structure TradeEvaluationRow where
  pnl : Option ℚ
  returnPct : Option ℚ
  overallScore : Option ℚ
  createdAt : ℚ

/-- A row of `agent_grades`. -/
structure AgentGradeRow where
  gradeType : GradeType
  score : Option ℚ
  createdAt : ℚ

/-- The two tables that the metrics are computed from. -/
structure Database where
  tradeEvaluations : List TradeEvaluationRow := []
  agentGrades : List AgentGradeRow := []

/-- The row that `persist_trade_evaluation` inserts. -/
def TradeEvaluation.row (evaluation : TradeEvaluation) (now : ℚ) : TradeEvaluationRow where
  pnl := evaluation.pnl
  returnPct := evaluation.pnlPercent
  overallScore := evaluation.overallScore
  createdAt := now

/-- `ORDER BY created_at ASC LIMIT 500`. -/
def oldest {α : Type} (createdAt : α → ℚ) (rows : List α) : List α :=
  (rows.insertionSort fun first second => createdAt first ≤ createdAt second).take 500

/-- A row as it is fed to the metrics. -/
def TradeEvaluationRow.evaluation (row : TradeEvaluationRow) : TradeEvaluation where
  pnl := some (row.pnl.getD 0)
  pnlPercent := some (row.returnPct.getD 0)
  overallScore := some (row.overallScore.getD 0)

namespace Database

def overallScores (database : Database) : List ℚ :=
  (oldest AgentGradeRow.createdAt (database.agentGrades.filter (·.gradeType = .overall))).map
    (·.score.getD 0)

/-- What `get_learning_metrics` feeds to the metrics. -/
def evaluations (database : Database) : List TradeEvaluation :=
  let rows := oldest TradeEvaluationRow.createdAt database.tradeEvaluations
  if rows.isEmpty then database.overallScores.map bridgedTrade
  else rows.map TradeEvaluationRow.evaluation

/-- `get_learning_metrics` while the database is up. -/
def learningMetrics (sqrt : ℚ → ℚ) (database : Database) : LearningMetrics :=
  computeLearningMetrics sqrt database.evaluations

end Database

end TradingControl.Learning
