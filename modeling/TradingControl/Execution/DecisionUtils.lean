import Mathlib.Tactic.Linarith
import TradingControl.Constants
import TradingControl.Python.Runtime

/-!
# Position state and PnL

Pure position arithmetic.  `round8` stands for `round(·, 8)`; exact arithmetic takes the identity.
-/

namespace TradingControl

open Python

/-- A broker position as stored: a side, a signed quantity and the average entry price. -/
structure Position where
  side : String
  qty : ℚ
  entryPrice : ℚ
  currentPrice : ℚ
  openedAt : Option String
deriving DecidableEq

/-- `_flat_position`. -/
def flatPosition : Position where
  side := "flat"
  qty := 0
  entryPrice := 0
  currentPrice := 0
  openedAt := none

/-- `side in (OrderSide.BUY, PositionSide.LONG)`. -/
def isBuy (side : String) : Bool := side = "buy" || side = "long"

/-- `side in (OrderSide.SELL, PositionSide.SHORT)`. -/
def isSell (side : String) : Bool := side = "sell" || side = "short"

theorem not_isBuy_of_isSell {side : String} (sell : isSell side = true) : isBuy side = false := by
  simp only [isSell, Bool.or_eq_true, decide_eq_true_eq] at sell
  rcases sell with rfl | rfl <;> decide

/-- `_side_str`. -/
def sideStr (raw : String) : String := lower (strip raw)

/-- `_side_str(position.get(SIDE) or FLAT)`. -/
def Position.priorSide (position : Position) : String :=
  sideStr (orDefault (some position.side) "flat")

/-- `float(position.get(ENTRY_PRICE) or fill_price)`. -/
def Position.entryOr (position : Position) (fillPrice : ℚ) : ℚ :=
  if position.entryPrice = 0 then fillPrice else position.entryPrice

/-- `compute_realized_pnl`: zero when the order opens or adds to a position. -/
def computeRealizedPnl (round8 : ℚ → ℚ) (prior : Position) (side : String) (qty fillPrice : ℚ) :
    ℚ :=
  if prior.priorSide = "long" ∧ isSell side ∧ 0 < prior.qty then
    round8 ((fillPrice - prior.entryOr fillPrice) * min qty prior.qty)
  else if prior.priorSide = "short" ∧ isBuy side ∧ 0 < prior.qty then
    round8 ((prior.entryOr fillPrice - fillPrice) * min qty prior.qty)
  else
    0

/-- `compute_pnl_percent`: return on the cost basis of the closed quantity. -/
def computePnlPercent (prior : Position) (qty entryPrice realizedPnl : ℚ) : ℚ :=
  if entryPrice ≤ 0 ∨ realizedPnl = 0 then
    0
  else
    let closedQty := if 0 < prior.qty then min qty prior.qty else qty
    let costBasis := entryPrice * if 0 < closedQty then closedQty else qty
    if 0 < costBasis then realizedPnl / costBasis * 100 else 0

/-- `is_round_trip_close`. -/
def isRoundTripClose (prior : Position) (side : String) : Bool :=
  if prior.qty ≤ 0 then false
  else isSell side && prior.priorSide = "long" || isBuy side && prior.priorSide = "short"

/-- `reject_unmatched_sell`: a sell with no open long position to close. -/
def rejectUnmatchedSell (side : String) (prior : Position) : Bool :=
  isSell side && !(prior.priorSide = "long" && 0 < prior.qty)

/-- `signed_position_qty`: long positive, short negative. -/
def signedPositionQty (position : Position) : ℚ :=
  if sideStr position.side ∈ ["short", "sell", "sold"] then -|position.qty|
  else if sideStr position.side ∈ ["long", "buy", "bought"] then |position.qty|
  else position.qty

/-- `clamp_buy_to_position_limit`; zero means that the limit is reached. -/
def clampBuyToPositionLimit (prior : Position) (qty maxPositionQty : ℚ) : ℚ :=
  if maxPositionQty - signedPositionQty prior ≤ 0 then 0
  else min qty (maxPositionQty - signedPositionQty prior)

/-! ## What the pre-trade clamps leave -/

/-- A sell goes on only against an open long position. -/
theorem long_of_not_reject {side : String} {prior : Position} (sell : isSell side = true)
    (passes : rejectUnmatchedSell side prior = false) :
    prior.priorSide = "long" ∧ 0 < prior.qty := by
  simpa [rejectUnmatchedSell, sell] using passes

end TradingControl

/-!
# Decision validation and gate scoring

Pure checks of a decision payload.  A blocked decision carries the reason, with the numbers the
source formats into its text.
-/

namespace TradingControl

open Python

/-- Fields of a decision that the engine reads; `none` is a missing field. -/
structure Decision where
  action : Option String := none
  side : Option String := none
  symbol : Option String := none
  qty : Scalar := .absent
  price : Scalar := .absent
  strategyId : Option String := none
  traceId : Option String := none
  timestamp : Option String := none
  signalConfidence : Scalar := .absent
  compositeScore : Scalar := .absent
  confidence : Scalar := .absent
  reasoningScore : Scalar := .absent
  signalType : Option String := none
  atrRegimeRatio : Scalar := .absent
  pct : Scalar := .absent
  sizePct : Scalar := .absent
  reason : Option String := none
  source : Option String := none
  primaryEdge : Option String := none
  llmSucceeded : Option Bool := none
  fallbackReason : Option String := none
  modelUsed : Option String := none
  decisionCostUsd : Scalar := .absent
deriving DecidableEq

/-- Validated fields of a decision. -/
structure ParsedDecision where
  side : String
  symbol : String
  qty : ℚ
  price : ℚ
  strategyId : String
  traceId : String
deriving DecidableEq

/-- Error codes of `parse_decision_fields`. -/
inductive DecisionError where
  | missingFields (fields : List String)
  | invalidFields
  | nonPositiveFields
deriving DecidableEq

def DecisionError.text : DecisionError → String
  | .missingFields fields => "error:missing_fields:" ++ String.intercalate "," fields
  | .invalidFields => "error:invalid_fields"
  | .nonPositiveFields => "error:non_positive_fields"

/-- `str(data.get(ACTION) or data.get(SIDE) or "").lower()`. -/
def Decision.sideOrAction (data : Decision) : String :=
  lower (orDefault (orElse data.action data.side) "")

/-- Required fields the payload lacks. -/
def Decision.missing (data : Decision) : List String :=
  (if (orDefault data.symbol "") = "" then ["symbol"] else []) ++
    (if data.qty.truthy then [] else ["qty"]) ++
    (if data.price.truthy then [] else ["price"]) ++
    if data.sideOrAction = "" then ["action/side"] else []

/-- `parse_decision_fields`; the fresh ids are the `uuid4` defaults. -/
def parseDecisionFields (freshStrategyId freshTraceId : String) (data : Decision) :
    Except DecisionError ParsedDecision :=
  if data.missing ≠ [] then
    .error (.missingFields data.missing)
  else
    match data.qty.toFloat, data.price.toFloat with
    | some qty, some price =>
        if qty ≤ 0 ∨ price ≤ 0 then
          .error .nonPositiveFields
        else
          .ok
            { side := data.sideOrAction
              symbol := orDefault data.symbol ""
              qty := qty
              price := price
              strategyId := orDefault data.strategyId freshStrategyId
              traceId := orDefault data.traceId freshTraceId }
    | _, _ => .error .invalidFields

/-- `extract_decision_scores`; `_as_score` is `toFloat`. -/
def extractDecisionScores (data : Decision) : ℚ × ℚ :=
  let signalConfidence :=
    ((data.signalConfidence.toFloat <|> data.compositeScore.toFloat) <|>
      data.confidence.toFloat).getD (1 / 2)
  (signalConfidence, data.reasoningScore.toFloat.getD signalConfidence)

/-- `compute_execution_score` with its default historical performance. -/
def computeExecutionScore (signalConfidence reasoningScore : ℚ) : ℚ :=
  signalConfidence * (50 / 100) + reasoningScore * (30 / 100) + 6 / 10 * (20 / 100)

/-- Why a decision does not become an order. -/
inductive GateReason where
  | hold (side : String)
  | score (finalScore : ℚ)
  | marketClosed
  | noTradeWindow
  | inFlight
  | lowConfidence (signalConfidence : ℚ)
  | choppyRegime (atrRegimeRatio : ℚ)
  | negativeNetEv (netEv : ℚ)
  | coolingOff
deriving DecidableEq

/-- `side in NO_ORDER_ACTIONS`. -/
def isNoOrderAction (side : String) : Bool := side = "reject" || side = "hold" || side = "flat"

/-- `check_execution_gate`. -/
def checkExecutionGate (side : String) (finalScore threshold : ℚ) (marketOpen : Bool) :
    Option GateReason :=
  if isNoOrderAction side then some (.hold side)
  else if finalScore < threshold then some (.score finalScore)
  else if !marketOpen then some .marketClosed
  else none

/-- `check_confidence_gate`. -/
def checkConfidenceGate (signalConfidence : ℚ) (side : String) (threshold : ℚ) :
    Option GateReason :=
  if isNoOrderAction side then none
  else if signalConfidence < threshold then some (.lowConfidence signalConfidence)
  else none

/-- `check_net_ev_gate`. -/
def checkNetEvGate (signalConfidence absPctMove slippagePct : ℚ) : Option GateReason :=
  if absPctMove ≤ 0 then
    none
  else
    let netEv := signalConfidence * (absPctMove / 100) - slippagePct * 2
    if netEv < 0 then some (.negativeNetEv netEv) else none

/-- Weights of the outcomes, most recent first: all of them and those of the losses. -/
def coolingOffWeights (decay : ℚ) : ℚ → List ℚ → ℚ × ℚ
  | _, [] => (0, 0)
  | weight, outcome :: older =>
      let (total, loss) := coolingOffWeights decay (weight * decay) older
      (weight + total, if outcome < 0 then weight + loss else loss)

/-- `cooling_off_score`, on outcomes listed with the most recent last. -/
def coolingOffScore (recentOutcomes : List ℚ) (decay : ℚ) : ℚ :=
  let (total, loss) := coolingOffWeights decay 1 recentOutcomes.reverse
  if total = 0 then 0 else roundHalfEven 4 (loss / total)

/-- `is_cooling_off` with its default threshold. -/
def isCoolingOff (recentOutcomes : List ℚ) (decay : ℚ) : Bool :=
  6 / 10 ≤ coolingOffScore recentOutcomes decay

/-- Side strings the guards and clamps of the engine name. -/
def recognisedSide (side : String) : Bool := isBuy side || isSell side || isNoOrderAction side

/-- A parsed decision has positive quantity and price. -/
theorem parseDecisionFields_pos {freshStrategyId freshTraceId : String} {data : Decision}
    {parsed : ParsedDecision}
    (accepted : parseDecisionFields freshStrategyId freshTraceId data = .ok parsed) :
    0 < parsed.qty ∧ 0 < parsed.price := by
  rw [parseDecisionFields] at accepted
  split at accepted
  · cases accepted
  · split at accepted
    · split at accepted
      · cases accepted
      · rename_i positive
        push Not at positive
        cases accepted
        exact positive
    · cases accepted

theorem parseDecisionFields_fields {freshStrategyId freshTraceId : String} {data : Decision}
    {parsed : ParsedDecision}
    (accepted : parseDecisionFields freshStrategyId freshTraceId data = .ok parsed) :
    parsed.symbol = orDefault data.symbol "" ∧ parsed.side = data.sideOrAction ∧
      data.qty.toFloat = some parsed.qty ∧ data.price.toFloat = some parsed.price ∧
      parsed.strategyId = orDefault data.strategyId freshStrategyId := by
  rw [parseDecisionFields] at accepted
  split at accepted
  · cases accepted
  · split at accepted
    · rename_i qty price
      split at accepted
      · cases accepted
      · cases accepted
        exact ⟨rfl, rfl, qty, price, rfl⟩
    · cases accepted

end TradingControl
