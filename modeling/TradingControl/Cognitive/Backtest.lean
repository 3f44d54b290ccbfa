import TradingControl.Constants
import TradingControl.Cognitive.Decision

/-!
# Backtest gate and challenger

A proposal is judged by paired runs of the decision over one price series, under the active and the
candidate configuration, with the same sequence of slippages.  The challenger asks whether the
result can be trusted.
-/

namespace TradingControl.Cognitive

open Python

/-! ## Runs -/

structure ConfigBacktestMetrics where
  totalReturnPct : ℚ
  sharpe : ℚ
  maxDrawdownPct : ℚ
  trades : ℕ
  signals : ℕ
  winRate : ℚ
  falsePositiveRate : ℚ
deriving DecidableEq

/-- `as_dict`. -/
def ConfigBacktestMetrics.asDict (metrics : ConfigBacktestMetrics) : Payload :=
  [("total_return_pct", .float metrics.totalReturnPct), ("sharpe", .float metrics.sharpe),
    ("max_drawdown_pct", .float metrics.maxDrawdownPct), ("trades", .int metrics.trades),
    ("signals", .int metrics.signals), ("win_rate", .float metrics.winRate),
    ("false_positive_rate", .float metrics.falsePositiveRate)]

/-- `_sharpe`. -/
def sharpe (runtime : Runtime) (pnls : List ℚ) : ℚ :=
  if pnls.length < 2 then 0
  else
    let sd := runtime.pstdev pnls
    if sd ≤ 1 / 10 ^ 12 then 0 else roundHalfEven 4 (fmean pnls / sd)

/-- `_max_drawdown_pct`. -/
def maxDrawdownPct (equityCurve : List ℚ) : ℚ :=
  roundHalfEven 4 (maxDrawdown (equityCurve.headD 0) equityCurve * 100)

/-- State of a run: the open position, the account, and the draws taken from the generator. -/
structure BacktestState where
  draws : ℕ := 0
  cash : ℚ
  openDir : ℤ := 0
  openPrice : ℚ := 0
  openQty : ℚ := 0
  tradePnls : List ℚ := []
  equityCurve : List ℚ := []
  signals : ℕ := 0
  losing : ℕ := 0

/-- `fill`: a price with the slippage of the next draw. -/
def backtestFill (runtime : Runtime) (seed : ℤ) (state : BacktestState) (price : ℚ)
    (direction : ℤ) : ℚ × BacktestState :=
  let slip := runtime.uniform seed state.draws (1 / 10000) (5 / 10000)
  (price * (1 + (if direction > 0 then 1 else -1) * slip), { state with draws := state.draws + 1 })

/-- Close the open position. -/
def closeLot (runtime : Runtime) (seed : ℤ) (state : BacktestState) (price : ℚ) : BacktestState :=
  let (exitFill, state) := backtestFill runtime seed state price (-state.openDir)
  let pnl := state.openDir * state.openQty * (exitFill - state.openPrice)
  { state with
    tradePnls := state.tradePnls ++ [pnl]
    cash := state.cash + pnl
    losing := if pnl < 0 then state.losing + 1 else state.losing }

/-- Open a position; a fill at zero cannot be sized. -/
def openLot (runtime : Runtime) (seed : ℤ) (state : BacktestState) (price : ℚ)
    (direction : ℤ) : Except Raised BacktestState :=
  let (entry, state) := backtestFill runtime seed state price direction
  if entry = 0 then .error .zeroDivisionError
  else .ok
    { state with
      openQty := state.cash * (95 / 100) / entry
      openPrice := entry
      openDir := direction }

def barFeatures (runtime : Runtime) (prices : List ℚ) (news : Option (List ℚ)) (index : ℕ)
    (price : ℚ) : Dict String ℚ :=
  let sentiment := news.bind (·[index]?)
  (defaultSpecialists runtime).features
    { symbol := "SYNTHETIC"
      price
      history := (prices.take (index + 1)).drop (index + 1 - 64)
      newsSentiment := sentiment
      newsConfidence := if sentiment.isSome then 1 else 0 }

/-- Direction that a decision aims for. -/
def targetDir (decision : Decision) (openDir : ℤ) : ℤ :=
  if decision.action = "buy" then 1 else if decision.action = "sell" then -1 else openDir

/-- Move the position to a direction; a decision never aims for none. -/
def flip (runtime : Runtime) (seed : ℤ) (state : BacktestState) (price : ℚ) (direction : ℤ) :
    Except Raised BacktestState :=
  if direction = state.openDir then .ok state
  else
    let closed := if state.openDir ≠ 0 then closeLot runtime seed state price else state
    if direction ≠ 0 then openLot runtime seed closed price direction
    else .ok { closed with openDir := 0, openQty := 0, openPrice := 0 }

/-- One bar of a run. -/
def backtestBar (runtime : Runtime) (config : CognitiveConfig) (seed : ℤ) (prices : List ℚ)
    (news : Option (List ℚ)) (state : BacktestState) (index : ℕ) (price : ℚ) :
    Except Raised BacktestState := do
  let decision := decideAction (barFeatures runtime prices news index price) config
  let counted := { state with signals := if decision.isTrade then state.signals + 1 else state.signals }
  let moved ← flip runtime seed counted price (targetDir decision counted.openDir)
  let marked := moved.cash + if moved.openDir ≠ 0 then
    moved.openDir * moved.openQty * (price - moved.openPrice) else 0
  return { moved with equityCurve := moved.equityCurve ++ [marked] }

def backtestBars (runtime : Runtime) (config : CognitiveConfig) (seed : ℤ) (prices : List ℚ)
    (news : Option (List ℚ)) : ℕ → List ℚ → BacktestState → Except Raised BacktestState
  | _, [], state => .ok state
  | index, price :: rest, state => do
      backtestBars runtime config seed prices news (index + 1) rest
        (← backtestBar runtime config seed prices news state index price)

/-- `run_config_backtest` from the paper account. -/
def runConfigBacktest (runtime : Runtime) (prices : List ℚ) (config : CognitiveConfig)
    (news : Option (List ℚ)) (seed : ℤ) : Except Raised ConfigBacktestMetrics := do
  let state ← backtestBars runtime config seed prices news 0 prices { cash := defaultPaperCash }
  let final := match prices.getLast? with
    | none => state
    | some price => if state.openDir ≠ 0 then closeLot runtime seed state price else state
  let trades := final.tradePnls.length
  let wins := final.tradePnls.countP (0 < ·)
  return {
    totalReturnPct := roundHalfEven 4 ((final.cash / defaultPaperCash - 1) * 100)
    sharpe := sharpe runtime final.tradePnls
    maxDrawdownPct := maxDrawdownPct final.equityCurve
    trades := trades
    signals := final.signals
    winRate := if trades ≠ 0 then roundHalfEven 4 (wins / trades) else 0
    falsePositiveRate := if trades ≠ 0 then roundHalfEven 4 (final.losing / trades) else 0 }

/-! ## Paired runs -/

structure BacktestDelta where
  baseline : ConfigBacktestMetrics
  candidate : ConfigBacktestMetrics
  pnlDelta : ℚ
  sharpeDelta : ℚ
  drawdownDelta : ℚ
  falsePositiveRateDelta : ℚ
deriving DecidableEq

namespace BacktestDelta

/-- `improves`. -/
def improves (delta : BacktestDelta) : Bool := 0 < delta.pnlDelta ∧ delta.drawdownDelta ≤ 0

/-- `as_dict`. -/
def asDict (delta : BacktestDelta) : Payload :=
  [("baseline", .dict delta.baseline.asDict), ("candidate", .dict delta.candidate.asDict),
    ("pnl_delta", .float delta.pnlDelta), ("sharpe_delta", .float delta.sharpeDelta),
    ("drawdown_delta", .float delta.drawdownDelta),
    ("false_positive_rate_delta", .float delta.falsePositiveRateDelta),
    ("improves", .bool delta.improves)]

end BacktestDelta

/-- `evaluate_proposal`. -/
def evaluateProposal (runtime : Runtime) (prices : List ℚ)
    (baselineConfig candidateConfig : CognitiveConfig) (news : Option (List ℚ)) (seed : ℤ) :
    Except Raised BacktestDelta := do
  let baseline ← runConfigBacktest runtime prices baselineConfig news seed
  let candidate ← runConfigBacktest runtime prices candidateConfig news seed
  return {
    baseline := baseline
    candidate := candidate
    pnlDelta := roundHalfEven 4 (candidate.totalReturnPct - baseline.totalReturnPct)
    sharpeDelta := roundHalfEven 4 (candidate.sharpe - baseline.sharpe)
    drawdownDelta := roundHalfEven 4 (candidate.maxDrawdownPct - baseline.maxDrawdownPct)
    falsePositiveRateDelta :=
      roundHalfEven 4 (candidate.falsePositiveRate - baseline.falsePositiveRate) }

structure WalkForwardResult where
  folds : List BacktestDelta
  consistency : ℚ
  meanPnlDelta : ℚ
  meanSharpeDelta : ℚ

/-- `as_dict`. -/
def WalkForwardResult.asDict (result : WalkForwardResult) : Payload :=
  [("consistency", .float result.consistency), ("mean_pnl_delta", .float result.meanPnlDelta),
    ("mean_sharpe_delta", .float result.meanSharpeDelta),
    ("folds", .list (result.folds.map fun fold => .dict fold.asDict))]

/-- `values[start:end]`. -/
def slice (start stop : ℕ) (values : List ℚ) : List ℚ := (values.take stop).drop start

def evaluateFolds (runtime : Runtime) (prices : List ℚ)
    (baselineConfig candidateConfig : CognitiveConfig) (news : Option (List ℚ)) (seed : ℤ)
    (folds : ℕ) : List ℕ → Except Raised (List BacktestDelta)
  | [] => .ok []
  | fold :: rest => do
      let seg := prices.length / folds
      let start := fold * seg
      let stop := if fold = folds - 1 then prices.length else (fold + 1) * seg
      let delta ← evaluateProposal runtime (slice start stop prices) baselineConfig candidateConfig
        (news.map (slice start stop)) (seed + fold)
      return delta :: (← evaluateFolds runtime prices baselineConfig candidateConfig news seed
        folds rest)

/-- `walk_forward`. -/
def walkForward (runtime : Runtime) (prices : List ℚ)
    (baselineConfig candidateConfig : CognitiveConfig) (folds : ℤ) (news : Option (List ℚ))
    (seed : ℤ) : Except Raised WalkForwardResult := do
  if folds < 2 ∨ (prices.length : ℤ) < folds * 2 then
    let single ← evaluateProposal runtime prices baselineConfig candidateConfig news seed
    return {
      folds := [single]
      consistency := if single.pnlDelta > 0 then 1 else 0
      meanPnlDelta := single.pnlDelta
      meanSharpeDelta := single.sharpeDelta }
  else
    let deltas ← evaluateFolds runtime prices baselineConfig candidateConfig news seed folds.toNat
      (List.range folds.toNat)
    let positive := deltas.countP fun delta => 0 < delta.pnlDelta
    return {
      folds := deltas
      consistency := roundHalfEven 4 (positive / deltas.length)
      meanPnlDelta := roundHalfEven 4 (fmean (deltas.map (·.pnlDelta)))
      meanSharpeDelta := roundHalfEven 4 (fmean (deltas.map (·.sharpeDelta))) }

/-! ## Challenger -/

structure ChallengerVerdict where
  approved : Bool
  riskScore : ℚ
  reasons : List String
  checks : Dict String Bool

/-- `as_dict`. -/
def ChallengerVerdict.asDict (verdict : ChallengerVerdict) : Payload :=
  [("type", .str EventType.challengerVerdict.value), ("approved", .bool verdict.approved),
    ("risk_score", .float verdict.riskScore), ("reasons", .list (verdict.reasons.map .str)),
    ("checks", .dict (verdict.checks.map fun (key, check) => (key, .bool check)))]

/-- `MIN_LEARNING_SAMPLES`, which is also `MIN_TRADES`. -/
def minSample : ℕ := 30

/-- `review` with the default limits. -/
def review (runtime : Runtime) (inSample outSample : BacktestDelta) (learningSamples : ℤ)
    (candidateConfigValid attributionSupports : Bool) (walkForwardConsistency : ℚ) :
    ChallengerVerdict :=
  let text := runtime.text
  let statisticalSanity := decide (learningSamples ≥ minSample) &&
    decide (outSample.candidate.trades ≥ minSample) && decide (outSample.baseline.trades ≥ minSample)
  let overfit := decide (inSample.pnlDelta > 0) && decide (outSample.pnlDelta ≤ 0)
  let riskImpactOk := candidateConfigValid && decide (outSample.drawdownDelta ≤ 1)
  let improvesOos := decide (outSample.pnlDelta > 0)
  let walkForwardOk := decide (walkForwardConsistency ≥ 6 / 10)
  let checks : Dict String Bool :=
    [("statistical_sanity", statisticalSanity), ("no_overfit", !overfit),
      ("risk_impact_ok", riskImpactOk), ("historically_consistent", attributionSupports),
      ("improves_out_of_sample", improvesOos), ("walk_forward_consistent", walkForwardOk)]
  let approved := checks.all (·.2)
  let reasons :=
    (if statisticalSanity then []
      else ["insufficient sample: learning_samples=" ++ toString learningSamples ++
        " (need 30), OOS trades baseline=" ++ toString outSample.baseline.trades ++
        "/candidate=" ++ toString outSample.candidate.trades ++ " (need 30 each)"]) ++
    (if overfit then
      ["overfit: improves in-sample (+" ++ text inSample.pnlDelta ++
        "%) but not out-of-sample (" ++ text outSample.pnlDelta ++ "%)"]
      else []) ++
    (if !candidateConfigValid then ["candidate config is out of safe bounds"]
      else if outSample.drawdownDelta > 1 then
        ["drawdown worsens by " ++ text outSample.drawdownDelta ++
          "% out-of-sample (tolerance 1.0%)"]
      else []) ++
    (if attributionSupports then []
      else ["proposed direction is not supported by PnL attribution"]) ++
    (if improvesOos then []
      else ["no out-of-sample improvement (" ++ text outSample.pnlDelta ++ "%)"]) ++
    (if walkForwardOk then []
      else ["walk-forward consistency " ++ text walkForwardConsistency ++ " below 0.6 — " ++
        "improvement does not hold across market periods (overfit risk)"]) ++
    if approved then
      ["approved: +" ++ text outSample.pnlDelta ++ "% PnL and " ++
        runtime.signed outSample.sharpeDelta ++ " Sharpe out-of-sample, drawdown delta " ++
        runtime.signed outSample.drawdownDelta ++ "%"]
    else []
  let riskScore : ℚ := (if statisticalSanity then 0 else 20 / 100) +
    (if overfit then 35 / 100 else 0) + (if riskImpactOk then 0 else 20 / 100) +
    (if attributionSupports then 0 else 10 / 100) + if walkForwardOk then 0 else 15 / 100
  { approved := approved
    riskScore := roundHalfEven 4 (min 1 riskScore)
    reasons := reasons
    checks := checks }

end TradingControl.Cognitive
