import TradingControl.Learning.Metrics

/-!
# Signals and strategies

A strategy maps a bar of market context to an action.  The baseline takes the production signal, a
percentage move classified by the volatility of the recent prices; the other ones are hypotheses
that are measured against it.
-/

namespace TradingControl.Backtest

open Python

/-! ## Signal -/

/-- `SignalType`. -/
inductive SignalType where
  | strongMomentum
  | momentum
  | priceUpdate
deriving DecidableEq, Repr

/-- `SignalStrength`. -/
inductive SignalStrength where
  | high
  | normal
  | low
deriving DecidableEq, Repr

/-- `MarketDirection`. -/
inductive MarketDirection where
  | bullish
  | bearish
  | neutral
deriving DecidableEq, Repr

structure Signal where
  signalType : SignalType
  strength : SignalStrength
  score : ℚ
  direction : MarketDirection
  action : String
deriving DecidableEq

/-- `STRONG_MOMENTUM_PCT`. -/
def strongMomentumPct : ℚ := 3

/-- `MOMENTUM_PCT`. -/
def momentumPct : ℚ := 15 / 10

/-- `STRONG_MOMENTUM_SIGMA`. -/
def strongMomentumSigma : ℚ := 25 / 10

/-- `MOMENTUM_SIGMA`. -/
def momentumSigma : ℚ := 15 / 10

/-- `SIGMA_MIN_SAMPLES`. -/
def sigmaMinSamples : ℕ := 20

/-- `SIGMA_FLOOR_PCT`. -/
def sigmaFloorPct : ℚ := 2 / 100

/-- `MOMENTUM_SCORE_FLOOR`. -/
def momentumScoreFloor : ℚ := 55

/-- `STRONG_MOMENTUM_SCORE_FLOOR`. -/
def strongMomentumScoreFloor : ℚ := 80

/-- `STRONG_MOMENTUM_SCORE_CEIL`. -/
def strongMomentumScoreCeil : ℚ := 95

/-- `STRONG_MOMENTUM_SIGMA_CEIL`. -/
def strongMomentumSigmaCeil : ℚ := 4

/-- `STRONG_MOMENTUM_PCT_CEIL`. -/
def strongMomentumPctCeil : ℚ := 6

/-- `_graduate_score`. -/
def graduateScore (value low high scoreLow scoreHigh : ℚ) : ℚ :=
  if high ≤ low then scoreLow
  else
    let position := (value - low) / (high - low)
    let fraction := if position < 0 then 0 else if 1 < position then 1 else position
    scoreLow + fraction * (scoreHigh - scoreLow)

/-- Percent-returns between consecutive prices, but for those from a price of zero. -/
def returns : List ℚ → List ℚ
  | prev :: price :: prices =>
      (if prev ≠ 0 then [(price - prev) / prev * 100] else []) ++ returns (price :: prices)
  | _ => []

/-- `compute_return_sigma`. -/
def computeReturnSigma (sqrt : ℚ → ℚ) (prices : List ℚ) : Option ℚ :=
  if prices.length < sigmaMinSamples + 1 then none
  else
    let changes := returns prices
    if changes.length < sigmaMinSamples then none
    else
      let mean := Learning.average changes
      some (sqrt (Learning.average (changes.map fun change => (change - mean) ^ 2)))

/-- Type, strength and score of a move measured against its thresholds. -/
def tier (value momentum strong ceiling : ℚ) : SignalType × SignalStrength × ℚ :=
  if strong ≤ value then
    (.strongMomentum, .high,
      graduateScore value strong ceiling strongMomentumScoreFloor strongMomentumScoreCeil)
  else if momentum ≤ value then
    (.momentum, .normal,
      graduateScore value momentum strong momentumScoreFloor strongMomentumScoreFloor)
  else (.priceUpdate, .low, 30)

/-- `classify_signal`. -/
def classifySignal (pct : ℚ) (sigma : Option ℚ) : Signal :=
  let absPct := |pct|
  let direction : MarketDirection :=
    if 0 < pct then .bullish else if pct < 0 then .bearish else .neutral
  let fixed := tier absPct momentumPct strongMomentumPct strongMomentumPctCeil
  let (signalType, strength, score) :=
    match sigma with
    | none => fixed
    | some sigma =>
        if sigmaFloorPct ≤ sigma then
          tier (absPct / sigma) momentumSigma strongMomentumSigma strongMomentumSigmaCeil
        else fixed
  let action :=
    if strength = .low ∨ direction = .neutral then "hold"
    else if direction = .bullish then "buy"
    else "sell"
  { signalType, strength, score, direction, action }

/-! ## Strategies -/

/-- Market context of a bar. -/
structure Bar where
  index : ℕ
  price : ℚ
  prevPrice : ℚ
  pct : ℚ
  /-- Recent closes from the oldest on, this one included. -/
  history : List ℚ

abbrev Strategy := Bar → String

def baselineMomentum (sqrt : ℚ → ℚ) : Strategy := fun bar =>
  (classifySignal bar.pct (computeReturnSigma sqrt bar.history)).action

def strongOnly (sqrt : ℚ → ℚ) : Strategy := fun bar =>
  match computeReturnSigma sqrt bar.history with
  | none => "hold"
  | some sigma =>
      if sigma < sigmaFloorPct then "hold"
      else if |bar.pct| / sigma < strongMomentumSigma then "hold"
      else if 0 < bar.pct then "buy" else "sell"

/-- The last five moves all went one way. -/
def confirmedTrend : Strategy := fun bar =>
  if bar.history.length < 6 then "hold"
  else
    let recent := bar.history.drop (bar.history.length - 6)
    let diffs := recent.zipWith (fun earlier later => later - earlier) recent.tail
    if diffs.all (0 < ·) then "buy"
    else if diffs.all (· < 0) then "sell"
    else "hold"

def meanReversion (sqrt : ℚ → ℚ) : Strategy := fun bar =>
  match computeReturnSigma sqrt bar.history with
  | none => "hold"
  | some sigma =>
      if sigma < sigmaFloorPct then "hold"
      else if |bar.pct| / sigma < momentumSigma then "hold"
      else if 0 < bar.pct then "sell" else "buy"

/-- `STRATEGIES`. -/
def strategies (sqrt : ℚ → ℚ) : Dict String Strategy :=
  [("baseline_momentum", baselineMomentum sqrt), ("strong_only", strongOnly sqrt),
    ("confirmed_trend", confirmedTrend), ("mean_reversion", meanReversion sqrt)]

end TradingControl.Backtest
