import TradingControl.Learning.Metrics

/-!
# Trade scorer

A completed trade is scored in five dimensions, graded, and labelled with mistakes and strengths.
Numeric fields are numbers or missing here.
-/

namespace TradingControl.Learning

open Python

/-! ## Payloads -/

/-- `TradeTag`, as far as the scorer assigns it. -/
inductive TradeTag where
  | lateEntry
  | poorExit
  | badRiskReward
  | misalignedSignal
  | prematureEntry
  | earlyExit
  | adversePriceMove
  | executionDrag
  | goodEntryTiming
  | cleanExit
  | goodRiskReward
  | trendAlignment
  | profitable
  | patiencePaid
  | capturedDirectionalMove
  | cleanExecution
  | lowLiquiditySkew
  | regimeShift
  | signalLatency
  | fillQualityPoor
  | apiThrottlePenalty
  | dataIntegrityIssue
  | reversionLuck
deriving DecidableEq, Repr

/-- `str(tag)`. -/
def TradeTag.value : TradeTag → String
  | .lateEntry => "late_entry"
  | .poorExit => "poor_exit"
  | .badRiskReward => "bad_risk_reward"
  | .misalignedSignal => "misaligned_signal"
  | .prematureEntry => "premature_entry"
  | .earlyExit => "early_exit"
  | .adversePriceMove => "adverse_price_move"
  | .executionDrag => "execution_drag"
  | .goodEntryTiming => "good_entry_timing"
  | .cleanExit => "clean_exit"
  | .goodRiskReward => "good_risk_reward"
  | .trendAlignment => "trend_alignment"
  | .profitable => "profitable"
  | .patiencePaid => "patience_paid"
  | .capturedDirectionalMove => "captured_directional_move"
  | .cleanExecution => "clean_execution"
  | .lowLiquiditySkew => "low_liquidity_skew"
  | .regimeShift => "regime_shift"
  | .signalLatency => "signal_latency"
  | .fillQualityPoor => "fill_quality_poor"
  | .apiThrottlePenalty => "api_throttle_penalty"
  | .dataIntegrityIssue => "data_integrity_issue"
  | .reversionLuck => "reversion_luck"

/-- `Grade`. -/
inductive Grade where
  | a
  | b
  | c
  | d
  | f
deriving DecidableEq, Repr

/-- A trade event, with the fields that the scorer reads. -/
structure TradeData where
  symbol : Option String := none
  side : Option String := none
  action : Option String := none
  positionSide : Option String := none
  pnl : Option ℚ := none
  pnlPercent : Option ℚ := none
  entryPrice : Option ℚ := none
  exitPrice : Option ℚ := none
  holdingPeriodMinutes : Option ℚ := none
  confidence : Option ℚ := none
  signalConfidence : Option ℚ := none
  tradeId : Option String := none
  executionTraceId : Option String := none
  orderId : Option String := none
  traceId : Option String := none
  latencyMs : Option ℚ := none
  slippageVariance : Option ℚ := none
  spreadPct : Option ℚ := none
  currentRegime : Option String := none
  regime : Option String := none
  rateLimit : Bool := false
  dataIntegrityIssue : Bool := false
  modelUsed : Option String := none
  primaryEdge : Option String := none
  decisionCostUsd : Option ℚ := none

/-- The evaluation that `score_trade` returns. -/
structure ScoredTrade where
  tradeEvalId : String
  symbol : Option String
  side : Option String
  pnl : Option ℚ
  pnlPercent : Option ℚ
  entryQuality : ℚ
  exitQuality : ℚ
  timingScore : ℚ
  signalAlignment : ℚ
  riskReward : ℚ
  overallScore : ℚ
  grade : Grade
  confidence : ℚ
  mistakes : List TradeTag
  strengths : List TradeTag
  normReturn : ℚ
  modelUsed : String
  primaryEdge : String
  decisionCostUsd : ℚ
deriving DecidableEq

/-- `a or b` of numbers that may be missing. -/
def orNumber (a b : Option ℚ) : Option ℚ := if a.getD 0 ≠ 0 then a else b

/-- `str(field or "").strip().lower()`. -/
def normText (field : Option String) : String := lower (strip (orDefault field ""))

/-! ## Dimensions -/

/-- `normalize`. -/
def normalize (x low high : ℚ) : ℚ := if high ≤ low then 1 / 2 else clamp ((x - low) / (high - low))

def scoreNormalizedReturn (pnlPercent : Option ℚ) : ℚ := normalize (pnlPercent.getD 0) (-10) 10

def scoreRiskReward (pnl pnlPercent : Option ℚ) : ℚ :=
  let pnlVal := pnl.getD 0
  let pct := pnlPercent.getD 0
  if 0 < pnlVal then clamp (1 / 2 + pct / 20)
  else if pnlVal < 0 then clamp (1 / 2 + pct / 20)
  else 1 / 2

/-- A missing confidence counts as one half, and so does zero. -/
def scoreEntryQuality (confidence : Option ℚ) : ℚ :=
  normalize ((orNumber confidence (some (1 / 2))).getD 0) (3 / 10) (95 / 100)

def scoreExitQuality (pnlPercent : Option ℚ) : ℚ := clamp (1 / 2 + pnlPercent.getD 0 / 10)

def scoreSignalAlignment (side action : Option String) : ℚ :=
  let s := normText side
  let a := normText action
  if s = "" ∨ a = "" then 1
  else if s = a then 1
  else if s ∈ ["buy", "long"] ∧ a ∈ ["buy", "long"] ∨ s ∈ ["sell", "short"] ∧ a ∈ ["sell", "short"]
    then 1
  else 1 / 2

/-- `_score_to_grade`. -/
def scoreToGrade (score : ℚ) : Grade :=
  if 90 / 100 ≤ score then .a
  else if 75 / 100 ≤ score then .b
  else if 60 / 100 ≤ score then .c
  else if 40 / 100 ≤ score then .d
  else .f

/-! ## Context -/

/-- `_direction_sign_from_side_event`. -/
def directionSignFromSideEvent (side : String) (hasExitPrice : Bool) : ℚ :=
  if side = "long" then 1
  else if side = "short" then -1
  else if hasExitPrice ∧ side = "sell" then 1
  else if hasExitPrice ∧ side = "buy" then -1
  else if side = "sell" then -1
  else 1

/-- `_price_move_percent`. -/
def priceMovePercent (side : String) (entryPrice exitPrice : Option ℚ) : Option ℚ :=
  match entryPrice, exitPrice with
  | some entry, some exit =>
      if entry ≤ 0 then none
      else some ((exit - entry) / entry * 100 *
        directionSignFromSideEvent (lower (strip side)) true)
  | _, _ => none

structure TradeContext where
  side : String
  pnl : ℚ
  pnlPct : ℚ
  holdingMinutes : Option ℚ
  movePct : Option ℚ
  adverseExcursionPct : Option ℚ

/-- `_build_trade_context`. -/
def buildTradeContext (trade : TradeData) : TradeContext :=
  let sideNorm := normText trade.side
  let directionKey := if normText trade.positionSide ≠ "" then normText trade.positionSide
    else sideNorm
  let movePct := priceMovePercent directionKey trade.entryPrice trade.exitPrice
  { side := sideNorm
    pnl := trade.pnl.getD 0
    pnlPct := trade.pnlPercent.getD 0
    holdingMinutes := trade.holdingPeriodMinutes
    movePct
    adverseExcursionPct := movePct.map fun move => |trade.pnlPercent.getD 0 - move| }

/-! ## Tags -/

def tagIf (condition : Prop) [Decidable condition] (tag : TradeTag) : List TradeTag :=
  if condition then [tag] else []

/-- `sorted({str(tag) for tag in tags})`. -/
def sortedTags (tags : List TradeTag) : List TradeTag :=
  tags.dedup.insertionSort fun first second => first.value ≤ second.value

/-- `_classify_mistakes`. -/
def classifyMistakes (entryQ exitQ rrScore sigAlign : ℚ) (pnl : Option ℚ)
    (context : TradeContext) : List TradeTag :=
  let pnlVal := pnl.getD 0
  sortedTags <|
    tagIf (entryQ < 4 / 10) .lateEntry ++ tagIf (exitQ < 4 / 10) .poorExit ++
    tagIf (rrScore < 35 / 100) .badRiskReward ++ tagIf (sigAlign < 8 / 10) .misalignedSignal ++
    tagIf (pnlVal < 0 ∧ entryQ < 1 / 2) .prematureEntry ++
    tagIf (∃ minutes ∈ context.holdingMinutes, minutes < 2 ∧ pnlVal < 0) .earlyExit ++
    tagIf (∃ move ∈ context.movePct, move < -(25 / 100)) .adversePriceMove ++
    tagIf (∃ excursion ∈ context.adverseExcursionPct, 1 / 2 < excursion ∧ pnlVal < 0) .executionDrag

/-- `_classify_strengths`. -/
def classifyStrengths (entryQ exitQ rrScore sigAlign : ℚ) (pnl : Option ℚ)
    (context : TradeContext) : List TradeTag :=
  let pnlVal := pnl.getD 0
  sortedTags <|
    tagIf (7 / 10 ≤ entryQ) .goodEntryTiming ++ tagIf (7 / 10 ≤ exitQ) .cleanExit ++
    tagIf (65 / 100 ≤ rrScore) .goodRiskReward ++ tagIf (9 / 10 ≤ sigAlign) .trendAlignment ++
    tagIf (0 < pnlVal) .profitable ++
    tagIf (∃ minutes ∈ context.holdingMinutes, 10 ≤ minutes ∧ 0 < pnlVal) .patiencePaid ++
    tagIf (∃ move ∈ context.movePct, 4 / 10 < move) .capturedDirectionalMove ++
    tagIf (∃ excursion ∈ context.adverseExcursionPct, excursion < 2 / 10 ∧ 0 < pnlVal)
      .cleanExecution

/-- `_derive_contextual_system_tags`: mistakes and strengths. -/
def deriveContextualSystemTags (trade : TradeData) (context : TradeContext) :
    List TradeTag × List TradeTag :=
  let currentRegime := normText trade.currentRegime
  let signalRegime := normText trade.regime
  (sortedTags <|
    tagIf (∃ latency ∈ trade.latencyMs, 1200 ≤ latency) .signalLatency ++
    tagIf (∃ variance ∈ trade.slippageVariance, 5 / 1000 ≤ variance) .fillQualityPoor ++
    tagIf (∃ spread ∈ trade.spreadPct, 25 / 100 ≤ spread) .lowLiquiditySkew ++
    tagIf (currentRegime ≠ "" ∧ signalRegime ≠ "" ∧ currentRegime ≠ signalRegime) .regimeShift ++
    tagIf (trade.rateLimit = true) .apiThrottlePenalty ++
    tagIf (trade.dataIntegrityIssue = true) .dataIntegrityIssue,
   sortedTags <|
    tagIf (0 < context.pnl ∧ ∃ excursion ∈ context.adverseExcursionPct, 1 < excursion)
      .reversionLuck)

def mistakeOrder : List TradeTag :=
  [.dataIntegrityIssue, .apiThrottlePenalty, .signalLatency, .fillQualityPoor, .lowLiquiditySkew,
    .regimeShift, .executionDrag, .adversePriceMove, .earlyExit, .prematureEntry, .misalignedSignal,
    .badRiskReward, .poorExit, .lateEntry]

def strengthOrder : List TradeTag :=
  [.trendAlignment, .cleanExecution, .capturedDirectionalMove, .patiencePaid, .goodRiskReward,
    .cleanExit, .goodEntryTiming, .profitable, .reversionLuck]

/-- The tags in their order, those without a place after them, six at most. -/
def listTags (order tags : List TradeTag) : List TradeTag :=
  (order.filter (· ∈ tags) ++ sortedTags (tags.filter (· ∉ order))).take 6

/-- `_normalize_tags` of the bucket of mistakes. -/
def normalizeMistakes (tags : List TradeTag) : List TradeTag := listTags mistakeOrder tags

/-- `_normalize_tags` of the bucket of strengths. -/
def normalizeStrengths (tags : List TradeTag) : List TradeTag :=
  listTags strengthOrder
    (if .reversionLuck ∈ tags then tags.filter (· ≠ .cleanExecution) else tags)

/-! ## Score -/

/-- `score_trade`. -/
def scoreTrade (trade : TradeData) : ScoredTrade :=
  let confidence := orNumber trade.confidence trade.signalConfidence
  let normReturn := scoreNormalizedReturn trade.pnlPercent
  let rrScore := scoreRiskReward trade.pnl trade.pnlPercent
  let entryQ := scoreEntryQuality confidence
  let exitQ := scoreExitQuality trade.pnlPercent
  let sigAlign := scoreSignalAlignment trade.side trade.action
  let overall := clamp (30 / 100 * normReturn + 25 / 100 * rrScore + 20 / 100 * entryQ +
    15 / 100 * exitQ + 10 / 100 * sigAlign)
  let timing := clamp (1 / 2 * normReturn + 1 / 2 * entryQ)
  let context := buildTradeContext trade
  let contextual := deriveContextualSystemTags trade context
  { tradeEvalId := orDefault (orElse trade.tradeId (orElse trade.executionTraceId
      (orElse trade.orderId trade.traceId))) ""
    symbol := trade.symbol
    side := trade.side
    pnl := trade.pnl
    pnlPercent := trade.pnlPercent
    entryQuality := roundHalfEven 4 entryQ
    exitQuality := roundHalfEven 4 exitQ
    timingScore := roundHalfEven 4 timing
    signalAlignment := roundHalfEven 4 sigAlign
    riskReward := roundHalfEven 4 rrScore
    overallScore := roundHalfEven 4 overall
    grade := scoreToGrade overall
    confidence := roundHalfEven 4 (clamp (1 - |overall - 1 / 2| * (1 / 2)))
    mistakes := normalizeMistakes
      (classifyMistakes entryQ exitQ rrScore sigAlign trade.pnl context ++ contextual.1)
    strengths := normalizeStrengths
      (classifyStrengths entryQ exitQ rrScore sigAlign trade.pnl context ++ contextual.2)
    normReturn := roundHalfEven 4 normReturn
    modelUsed := orDefault trade.modelUsed ""
    primaryEdge := orDefault trade.primaryEdge ""
    decisionCostUsd := trade.decisionCostUsd.getD 0 }

@[simp] theorem pnl_scoreTrade (trade : TradeData) : (scoreTrade trade).pnl = trade.pnl := rfl

/-- What the learning metrics read of a scored trade. -/
def ScoredTrade.evaluation (scored : ScoredTrade) : TradeEvaluation where
  pnl := scored.pnl
  pnlPercent := scored.pnlPercent
  overallScore := some scored.overallScore

end TradingControl.Learning
