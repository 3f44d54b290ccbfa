import TradingControl.Backtest.Strategies
import TradingControl.Learning.TradeScorer

/-!
# Backtest engine

A price series is replayed through a strategy.  A decision against the open lot closes it and opens
one the other way, a lot still open at the end is closed at the last price, and every lot is scored
when it is closed.
-/

namespace TradingControl.Backtest

open Python

/-! ## Configuration -/

/-- `SLIPPAGE_MIN_PCT`. -/
def slippageMinPct : ℚ := 1 / 10000

/-- `SLIPPAGE_MAX_PCT`. -/
def slippageMaxPct : ℚ := 5 / 10000

/-- `DEFAULT_POSITION_FRACTION`. -/
def defaultPositionFraction : ℚ := 95 / 100

/-- `DEFAULT_CONFIDENCE`. -/
def defaultConfidence : ℚ := 6 / 10

/-- `HISTORY_WINDOW`. -/
def historyWindow : ℕ := 64

/-- The draws of a seeded generator from the slippage range. -/
structure Draws where
  draw : ℕ → ℚ
  within : ∀ n, slippageMinPct ≤ draw n ∧ draw n ≤ slippageMaxPct

/-- Arguments of a run, but for its prices. -/
structure BacktestConfig where
  sqrt : ℚ → ℚ
  strategy : Strategy
  strategyName : String := ""
  symbol : String := "SYNTHETIC"
  startingEquity : ℚ
  positionFraction : ℚ := defaultPositionFraction
  barMinutes : ℚ := 1
  draws : Draws

/-! ## Fills -/

/-- A fill, with the quantity it adds to the position. -/
structure Fill where
  quantity : ℚ
  price : ℚ
  bar : ℕ
deriving DecidableEq

/-- Variables of the loop.  The generator has made as many draws as there are fills. -/
structure Ledger where
  cash : ℚ
  positionQty : ℚ := 0
  /-- `1` is long, `-1` short and `0` flat. -/
  openDir : ℤ := 0
  openPrice : ℚ := 0
  openQty : ℚ := 0
  openBar : ℕ := 0
  openConfidence : ℚ := 0
  evaluations : List Learning.ScoredTrade := []
  equityCurve : List ℚ := []
  holds : ℕ := 0
  signals : ℕ := 0
  fills : List Fill := []

variable (config : BacktestConfig)

namespace Ledger

variable (ledger : Ledger)

/-- `_fill`: the slipped price. -/
def slipped (price signedDelta : ℚ) : ℚ :=
  let slip := config.draws.draw ledger.fills.length
  let sign : ℚ := if 0 < signedDelta then 1 else -1
  price * (1 + sign * slip)

/-- The trade that `_score` hands to the scorer. -/
def closedTrade (exitFill pnlPct : ℚ) (exitBar : ℕ) : Learning.TradeData where
  symbol := some config.symbol
  side := some (if 0 < ledger.openDir then "sell" else "buy")
  action := some (if 0 < ledger.openDir then "buy" else "sell")
  entryPrice := some ledger.openPrice
  exitPrice := some exitFill
  pnl := some (ledger.openDir * ledger.openQty * (exitFill - ledger.openPrice))
  pnlPercent := some pnlPct
  holdingPeriodMinutes := some (((exitBar : ℚ) - ledger.openBar) * config.barMinutes)
  confidence := some ledger.openConfidence

/-- `_score`. -/
def score (exitFill : ℚ) (exitBar : ℕ) : Except Raised Learning.ScoredTrade := do
  let change ← divide (ledger.openDir * (exitFill - ledger.openPrice)) ledger.openPrice
  return Learning.scoreTrade (ledger.closedTrade config exitFill (change * 100) exitBar)

/-- Close the open lot. -/
def close (price : ℚ) (bar : ℕ) : Except Raised Ledger := do
  let closeFill := ledger.slipped config price (-ledger.positionQty)
  let evaluation ← ledger.score config closeFill bar
  return { ledger with
    cash := ledger.cash - -ledger.positionQty * closeFill
    evaluations := ledger.evaluations ++ [evaluation]
    positionQty := 0
    openDir := 0
    fills := ledger.fills ++ [⟨-ledger.positionQty, closeFill, bar⟩] }

def openLot (direction : ℤ) (price : ℚ) (bar : ℕ) : Except Raised Ledger := do
  let equity := ledger.cash + ledger.positionQty * price
  let qty ← divide (config.positionFraction * equity) price
  let signed := direction * qty
  let openFill := ledger.slipped config price signed
  return { ledger with
    cash := ledger.cash - signed * openFill
    positionQty := signed
    openDir := direction
    openPrice := openFill
    openQty := qty
    openBar := bar
    openConfidence := defaultConfidence
    fills := ledger.fills ++ [⟨signed, openFill, bar⟩] }

/-- Move to a direction; being there already counts as a hold. -/
def moveTo (direction : ℤ) (price : ℚ) (bar : ℕ) : Except Raised Ledger :=
  if direction = ledger.openDir then .ok { ledger with holds := ledger.holds + 1 }
  else do
    let flat ← if ledger.openDir ≠ 0 then ledger.close config price bar else .ok ledger
    flat.openLot config direction price bar

/-- The decision on a bar. -/
def act (bar : Bar) : Except Raised Ledger :=
  let action := config.strategy bar
  if action = "hold" then .ok { ledger with holds := ledger.holds + 1 }
  else
    { ledger with signals := ledger.signals + 1 }.moveTo config (if action = "buy" then 1 else -1)
      bar.price bar.index

/-- One pass of the loop. -/
def step (bar : Bar) : Except Raised Ledger := do
  let acted ← ledger.act config bar
  return { acted with
    equityCurve := acted.equityCurve ++ [acted.cash + acted.positionQty * bar.price] }

end Ledger

/-! ## Run -/

def barAt (prices : List ℚ) (index : ℕ) : Bar :=
  let prev := prices.getD (index - 1) 0
  let cur := prices.getD index 0
  { index
    price := cur
    prevPrice := prev
    pct := if prev ≠ 0 then (cur - prev) / prev * 100 else 0
    history := (prices.take (index + 1)).drop (index - historyWindow) }

/-- The bars of a series, from the second price on. -/
def bars (prices : List ℚ) : List Bar := (List.range' 1 (prices.length - 1)).map (barAt prices)

/-- Close any residual position at the last price. -/
def Ledger.settle (ledger : Ledger) (prices : List ℚ) : Except Raised Ledger :=
  if ledger.openDir ≠ 0 ∧ prices ≠ [] then
    ledger.close config (prices.getLastD 0) (prices.length - 1)
  else .ok ledger

/-- The loop and the residual close. -/
def replayPrices (prices : List ℚ) : Except Raised Ledger := do
  let looped ← (bars prices).foldlM (Ledger.step config) { cash := config.startingEquity }
  looped.settle config prices

structure BacktestResult where
  symbol : String
  strategy : String
  bars : ℕ
  trades : ℕ
  holds : ℕ
  signals : ℕ
  startingEquity : ℚ
  finalEquity : ℚ
  totalReturnPct : ℚ
  winRate : ℚ
  sharpe : ℚ
  maxDrawdownPct : ℚ
  avgTradePnl : ℚ
  metrics : Learning.LearningMetrics
  evaluations : List Learning.ScoredTrade
  equityCurve : List ℚ

/-- The realized path, which ends in the final equity. -/
def realizedCurve (curve : List ℚ) (finalEquity : ℚ) : List ℚ :=
  if curve.isEmpty then [finalEquity] else curve.dropLast ++ [finalEquity]

def drawdownFrom : ℚ → ℚ → List ℚ → ℚ
  | _, deepest, [] => deepest
  | peak, deepest, equity :: curve =>
      let top := max peak equity
      drawdownFrom top (if 0 < top then max deepest ((top - equity) / top * 100) else deepest) curve

/-- Summary of a ledger that has settled. -/
def Ledger.result (ledger : Ledger) (prices : List ℚ) : Except Raised BacktestResult := do
  let curve := realizedCurve ledger.equityCurve ledger.cash
  let totalReturn ← divide (ledger.cash - config.startingEquity) config.startingEquity
  let metrics := Learning.computeLearningMetrics config.sqrt
    (ledger.evaluations.map Learning.ScoredTrade.evaluation)
  let trades := ledger.evaluations.length
  return {
    symbol := config.symbol
    strategy := config.strategyName
    bars := prices.length
    trades
    holds := ledger.holds
    signals := ledger.signals
    startingEquity := config.startingEquity
    finalEquity := ledger.cash
    totalReturnPct := totalReturn * 100
    winRate := metrics.winRate
    sharpe := metrics.sharpeRatio
    maxDrawdownPct := drawdownFrom (curve.headD 0) 0 curve
    avgTradePnl :=
      if trades ≠ 0 then (ledger.evaluations.map fun scored => scored.pnl.getD 0).sum / trades
      else 0
    metrics
    evaluations := ledger.evaluations
    equityCurve := curve }

/-- `run_backtest`. -/
def runBacktest (prices : List ℚ) : Except Raised BacktestResult := do
  (← replayPrices config prices).result config prices

end TradingControl.Backtest
