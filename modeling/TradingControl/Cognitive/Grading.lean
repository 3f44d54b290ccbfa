import TradingControl.Cognitive.Events

/-!
# Grades and counterfactuals

Report cards of trades, agents, proposals and configuration versions on one letter scale, and the
regret of the action of a trade.
-/

namespace TradingControl.Cognitive

open Python

/-- A score held to the scale from 0 to 100. -/
def clampScore (score : ℚ) : ℚ := max 0 (min 100 score)

/-- The letter with its modifier, for a score at or past the low end of the letter. -/
def gradeWithin (letter : String) (low score : ℚ) : String :=
  if score - low ≥ 6667 / 1000 then letter ++ "+"
  else if score - low < 3333 / 1000 then letter ++ "-"
  else letter

/-- `letter_grade`. -/
def letterGrade (score : ℚ) : String :=
  let score := clampScore score
  if score < 60 then "F"
  else if score ≥ 90 then gradeWithin "A" 90 score
  else if score ≥ 80 then gradeWithin "B" 80 score
  else if score ≥ 70 then gradeWithin "C" 70 score
  else gradeWithin "D" 60 score

/-! ## Trades -/

/-- `direction_component`. -/
def directionComponent (decisionScore realizedPnlPct : ℚ) : ℚ :=
  if realizedPnlPct = 0 then 50
  else
    let move := min 1 (|realizedPnlPct| / 3)
    let conviction := min 1 (|decisionScore| / (5 / 10))
    let strength := 5 / 10 * move + 5 / 10 * conviction
    if realizedPnlPct > 0 then 50 + 50 * strength else 50 - 50 * strength

/-- `risk_component`. -/
def riskComponent (runtime : Runtime) (realizedPnlPct maxAdversePct : ℚ) : ℚ :=
  clampScore (50 + 50 * runtime.tanh (realizedPnlPct / (|maxAdversePct| + 5 / 10)))

/-- `execution_component`. -/
def executionComponent (slippageBps : ℚ) : ℚ := clampScore (100 - |slippageBps| * 8)

/-- `timing_component`. -/
def timingComponent (side : String) (entryPrice windowLow windowHigh : ℚ) : ℚ :=
  let span := windowHigh - windowLow
  if span ≤ 0 then 50
  else
    let position := (entryPrice - windowLow) / span
    clampScore (100 * if side = "buy" then 1 - position else position)

/-- `TRADE_GRADE_WEIGHTS`. -/
def tradeGradeWeights : Dict String ℚ :=
  [("direction", 40 / 100), ("risk", 25 / 100), ("execution", 15 / 100), ("timing", 20 / 100)]

structure TradeGradeCard where
  tradeId : String
  overallScore : ℚ
  components : Dict String ℚ

namespace TradeGradeCard

/-- Letter of one dimension. -/
def componentGrade (card : TradeGradeCard) (key : String) : String :=
  letterGrade ((card.components.lookup key).getD 0)

/-- `as_dict`. -/
def asDict (card : TradeGradeCard) : Payload :=
  [("type", .str EventType.grade.value), ("subject", .str "trade"),
    ("subject_id", .str card.tradeId), ("grade", .str (letterGrade card.overallScore)),
    ("score", .float card.overallScore),
    ("direction_grade", .str (card.componentGrade "direction")),
    ("risk_grade", .str (card.componentGrade "risk")),
    ("execution_grade", .str (card.componentGrade "execution")),
    ("timing_grade", .str (card.componentGrade "timing")),
    ("components", .dict (card.components.map fun (key, value) => (key, .float value)))]

end TradeGradeCard

/-- Outcome of a closed trade. -/
structure TradeOutcome where
  realizedPnl : ℚ
  realizedPnlPct : ℚ
  maxAdversePct : ℚ
  slippageBps : ℚ
  side : String
  entryPrice : ℚ
  windowLow : ℚ
  windowHigh : ℚ

/-- `grade_trade`. -/
def gradeTrade (runtime : Runtime) (tradeId : String) (decisionScore : ℚ)
    (outcome : TradeOutcome) : TradeGradeCard :=
  let components : Dict String ℚ :=
    [("direction", roundHalfEven 2 (directionComponent decisionScore outcome.realizedPnlPct)),
      ("risk", roundHalfEven 2
        (riskComponent runtime outcome.realizedPnlPct outcome.maxAdversePct)),
      ("execution", roundHalfEven 2 (executionComponent outcome.slippageBps)),
      ("timing", roundHalfEven 2
        (timingComponent outcome.side outcome.entryPrice outcome.windowLow outcome.windowHigh))]
  let weighted := components.map fun (key, value) =>
    value * (tradeGradeWeights.lookup key).getD 0
  { tradeId, components, overallScore := roundHalfEven 2 weighted.sum }

/-! ## Agents, proposals and versions -/

structure AgentGradeCard where
  signal : String
  grade : String
  score : ℚ
  samples : ℤ
  correctRate : ℚ
  contribution : ℚ

/-- `as_dict`. -/
def AgentGradeCard.asDict (card : AgentGradeCard) : Payload :=
  [("type", .str EventType.grade.value), ("subject", .str "agent"),
    ("subject_id", .str card.signal), ("grade", .str card.grade), ("score", .float card.score),
    ("samples", .int card.samples), ("correct_rate", .float card.correctRate),
    ("contribution", .float card.contribution)]

/-- Importance of one signal, the entry of `ImportanceTracker.metadata`. -/
structure SignalStats where
  samples : ℤ := 0
  avgAbsContribution : ℚ := 0
  totalPnlAttribution : ℚ := 0
  correctRate : ℚ := 0
deriving DecidableEq

/-- `grade_agent`. -/
def gradeAgent (runtime : Runtime) (signal : String) (stats : SignalStats) (minSamples : ℤ) :
    AgentGradeCard :=
  let correctRate := stats.correctRate
  let contribution := stats.totalPnlAttribution
  if stats.samples < minSamples then
    { signal, grade := "NR", score := 0, samples := stats.samples, correctRate, contribution }
  else
    let pnlSign := 5 / 10 + 5 / 10 * runtime.tanh (contribution / (|contribution| + 1))
    let score := roundHalfEven 2 (100 * (7 / 10 * correctRate + 3 / 10 * pnlSign))
    { signal, grade := letterGrade score, score, samples := stats.samples, correctRate
      contribution }

structure ProposalGradeCard where
  proposalId : String
  proposalType : String
  score : ℚ
  pnlDelta : ℚ
  sharpeDelta : ℚ

/-- `as_dict`. -/
def ProposalGradeCard.asDict (card : ProposalGradeCard) : Payload :=
  [("type", .str EventType.grade.value), ("subject", .str "proposal"),
    ("subject_id", .str card.proposalId), ("proposal_type", .str card.proposalType),
    ("grade", .str (letterGrade card.score)), ("score", .float card.score),
    ("pnl_delta", .float card.pnlDelta), ("sharpe_delta", .float card.sharpeDelta)]

/-- `grade_proposal`. -/
def gradeProposal (runtime : Runtime) (proposalId proposalType : String)
    (pnlDelta sharpeDelta : ℚ) : ProposalGradeCard where
  proposalId := proposalId
  proposalType := proposalType
  score := roundHalfEven 2
    (clampScore (50 + 30 * runtime.tanh sharpeDelta + 20 * runtime.tanh pnlDelta))
  pnlDelta := pnlDelta
  sharpeDelta := sharpeDelta

structure ConfigGradeCard where
  version : ℤ
  score : ℚ
  sharpe : ℚ
  maxDrawdownPct : ℚ

/-- `as_dict`. -/
def ConfigGradeCard.asDict (card : ConfigGradeCard) : Payload :=
  [("type", .str EventType.grade.value), ("subject", .str "config_version"),
    ("subject_id", .str (toString card.version)), ("grade", .str (letterGrade card.score)),
    ("score", .float card.score), ("sharpe", .float card.sharpe),
    ("max_drawdown_pct", .float card.maxDrawdownPct)]

/-- `grade_config_version`. -/
def gradeConfigVersion (runtime : Runtime) (version : ℤ) (sharpe maxDrawdownPct : ℚ) :
    ConfigGradeCard where
  version := version
  score := roundHalfEven 2
    (clampScore (60 + 28 * runtime.tanh sharpe - 12 / 10 * maxDrawdownPct))
  sharpe := sharpe
  maxDrawdownPct := maxDrawdownPct

/-! ## Counterfactuals -/

structure CounterfactualResult where
  /-- Any value that the decision event holds, or the side. -/
  chosenAction : Value
  chosenPnlPct : ℚ
  alternatives : Dict String ℚ
  bestAction : String
  bestPnlPct : ℚ
  regretPct : ℚ
  wasBest : Bool

/-- `as_dict`. -/
def CounterfactualResult.asDict (result : CounterfactualResult) : Payload :=
  [("type", .str EventType.counterfactual.value), ("chosen_action", result.chosenAction),
    ("chosen_pnl_pct", .float result.chosenPnlPct),
    ("alternatives", .dict (result.alternatives.map fun (key, value) => (key, .float value))),
    ("best_action", .str result.bestAction), ("best_pnl_pct", .float result.bestPnlPct),
    ("regret_pct", .float result.regretPct), ("was_best", .bool result.wasBest)]

/-- First item with the largest value. -/
def bestItem (first : String × ℚ) (rest : Dict String ℚ) : String × ℚ :=
  rest.foldl (fun best item => if best.2 < item.2 then item else best) first

/-- `counterfactual`; a list or a dictionary in place of the action cannot be looked up. -/
def counterfactual (action : Value) (realizedPnlPct : ℚ) (side : String) :
    Except Raised CounterfactualResult := do
  let move := if side = "buy" then realizedPnlPct else -realizedPnlPct
  let alternatives : Dict String ℚ :=
    [("buy", roundHalfEven 6 move), ("sell", roundHalfEven 6 (-move)), ("hold", 0)]
  let chosenPnlPct ← match action with
    | .str name => .ok ((alternatives.lookup name).getD 0)
    | .list _ => .error .typeError
    | .dict _ => .error .typeError
    | _ => .ok 0
  let best := bestItem ("buy", roundHalfEven 6 move) [("sell", roundHalfEven 6 (-move)), ("hold", 0)]
  let regretPct := roundHalfEven 6 (best.2 - chosenPnlPct)
  return {
    chosenAction := action
    chosenPnlPct := chosenPnlPct
    alternatives := alternatives
    bestAction := best.1
    bestPnlPct := best.2
    regretPct := regretPct
    wasBest := regretPct ≤ 1 / 10 ^ 9 }

end TradingControl.Cognitive
